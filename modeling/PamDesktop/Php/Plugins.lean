import PamDesktop.Php.Identifier
import PamDesktop.Protocol.Bootstrap

/-!
# Registering plugins

`Application::plugin` and the methods of `Application` that a plugin can call in `register`. A
plugin is any code that makes such calls, one after the other or in plugins of its own, and goes
on as it likes when one of them throws. `plugin_rolled_back_iff` says which plugins leave no trace
when they throw.
-/

namespace PamDesktop.Php.Plugins

open Foundations Protocol

/-! ## The application -/

/-- What is registered: objects of the application's own code. A method of `Manifest` gives
another manifest or throws. -/
structure Objects where
  Window : Type
  CommandHandler : Type
  CommandExecution : Type
  EventHandler : Type
  BackgroundJob : Type
  JobHandler : Type
  RustPlugin : Type
  rustPluginId : RustPlugin → String
  Manifest : Type
  ManifestCall : Type
  changeManifest : Manifest → ManifestCall → Except String Manifest
  Capabilities : Type
  Shell : Type
  Workstation : Type
  processPoolSize : Workstation → Int

/-- A PHP array with texts as keys; every key is there once. -/
abbrev PhpArray (α : Type) := List (String × α)

/-- `isset($entries[$key])`. -/
def isset {α : Type} (entries : PhpArray α) (key : String) : Bool :=
  entries.any fun entry => entry.1 == key

/-- `$entries[$key] = $value`. -/
def assign {α : Type} (entries : PhpArray α) (key : String) (value : α) : PhpArray α :=
  if isset entries key then
    entries.map fun entry => if entry.1 == key then (key, value) else entry
  else entries ++ [(key, value)]

/-- `unset($entries[$key])`. -/
def unset {α : Type} (entries : PhpArray α) (key : String) : PhpArray α :=
  entries.filter fun entry => entry.1 != key

/-- The properties of `Application` that hold registrations by name. -/
structure Registries (objects : Objects) where
  windows : PhpArray objects.Window
  commands : PhpArray objects.CommandHandler
  commandExecutions : PhpArray objects.CommandExecution
  eventHandlers : PhpArray objects.EventHandler
  backgroundJobs : PhpArray objects.BackgroundJob
  jobHandlers : PhpArray objects.JobHandler
  rustPlugins : PhpArray objects.RustPlugin
  phpPlugins : PhpArray Unit

/-- The other properties, which are replaced as a whole. -/
structure Settings (objects : Objects) where
  manifest : objects.Manifest
  commandTimeoutMilliseconds : Int
  parallelWorkerCount : Int
  capabilities : objects.Capabilities
  shell : objects.Shell
  workstation : objects.Workstation

/-- The properties of `Application`. -/
structure Application (objects : Objects) where
  registries : Registries objects
  settings : Settings objects

section

variable {objects : Objects}

/-- A call of `Application` that registers something by its name. -/
inductive Registration (objects : Objects) where
  | window (id : String) (window : objects.Window)
  | command (name : String) (handler : objects.CommandHandler)
      (execution : objects.CommandExecution)
  | on (name : String) (handler : objects.EventHandler)
  | job (id : String) (job : objects.BackgroundJob) (handler : objects.JobHandler)
  | rustPlugin (plugin : objects.RustPlugin)

/-- A call that sets something; `manifest` stands for the eight methods that pass on to one of
`Manifest`. -/
inductive Setting (objects : Objects) where
  | manifest (call : objects.ManifestCall)
  | commandTimeout (milliseconds : Int)
  | parallelWorkers (workers : Int)
  | capabilities (capabilities : objects.Capabilities)
  | shell (shell : objects.Shell)
  | workstation (workstation : objects.Workstation)

/-- `window`, `command`, `on`, `job` and `rustPlugin`. -/
def Registries.register (registries : Registries objects) :
    Registration objects → Except String (Registries objects)
  | .window id window => do
      Identifier.assert (osString id) "The window identifier"
      refuseIf (id == "main") "The main window is configured through Application::create()."
      refuseIf (isset registries.windows id) ("Window " ++ id ++ " is already registered.")
      return { registries with windows := assign registries.windows id window }
  | .command name handler execution => do
      Identifier.assert (osString name) "The command name"
      refuseIf (isset registries.commands name) ("Command " ++ name ++ " is already registered.")
      return { registries with
        commands := assign registries.commands name handler
        commandExecutions := assign registries.commandExecutions name execution }
  | .on name handler => do
      Identifier.assert (osString name) "The event name"
      refuseIf (isset registries.eventHandlers name) ("Event " ++ name ++ " already has a handler.")
      return { registries with eventHandlers := assign registries.eventHandlers name handler }
  | .job id job handler => do
      Identifier.assert (osString id) "The background job identifier"
      refuseIf (isset registries.backgroundJobs id)
        ("Background job " ++ id ++ " is already registered.")
      return { registries with
        backgroundJobs := assign registries.backgroundJobs id job
        jobHandlers := assign registries.jobHandlers id handler }
  | .rustPlugin plugin => do
      let id := objects.rustPluginId plugin
      refuseIf (isset registries.rustPlugins id) ("Rust plugin " ++ id ++ " is already registered.")
      return { registries with rustPlugins := assign registries.rustPlugins id plugin }

/-- The methods that set something. -/
def Settings.set (settings : Settings objects) :
    Setting objects → Except String (Settings objects)
  | .manifest call => do
      let manifest ← objects.changeManifest settings.manifest call
      return { settings with manifest }
  | .commandTimeout milliseconds =>
      if milliseconds < 100 ∨ 120000 < milliseconds then
        .error "The command timeout must be between 100 and 120000 milliseconds."
      else .ok { settings with commandTimeoutMilliseconds := milliseconds }
  | .parallelWorkers workers =>
      if workers < 1 ∨ 16 < workers then
        .error "The parallel worker count must be between 1 and 16."
      else .ok { settings with parallelWorkerCount := workers }
  | .capabilities capabilities => .ok { settings with capabilities }
  | .shell shell => .ok { settings with shell }
  | .workstation workstation =>
      .ok { settings with workstation, parallelWorkerCount := objects.processPoolSize workstation }

/-! ## Plugins -/

/-- What `Plugin::register` does from some point on. It learns whether a call has thrown. -/
inductive PluginCode (objects : Objects) where
  | finish
  | throw (error : String)
  | register (registration : Registration objects) (next : Except String Unit → PluginCode objects)
  | set (setting : Setting objects) (next : Except String Unit → PluginCode objects)
  | plugin (identifier : String) (code : PluginCode objects)
      (next : Except String Unit → PluginCode objects)

/-- The outcome of a call, and the application after it. -/
abbrev After (objects : Objects) := Except String Unit × Application objects

/-- A registration by name, in the application. -/
def Application.register (app : Application objects) (registration : Registration objects) :
    After objects :=
  match app.registries.register registration with
  | .error error => (.error error, app)
  | .ok registries => (.ok (), { app with registries })

/-- A setting, in the application. -/
def Application.set (app : Application objects) (setting : Setting objects) : After objects :=
  match app.settings.set setting with
  | .error error => (.error error, app)
  | .ok settings => (.ok (), { app with settings })

/-- `$this->phpPlugins[$identifier] = true`. -/
def Application.enter (app : Application objects) (identifier : String) : Application objects :=
  { app with registries := { app.registries with
      phpPlugins := assign app.registries.phpPlugins identifier () } }

/-- `unset($this->phpPlugins[$identifier])`. -/
def Application.leave (app : Application objects) (identifier : String) : Application objects :=
  { app with registries := { app.registries with
      phpPlugins := unset app.registries.phpPlugins identifier } }

/-- The checks of `Application::plugin` before the plugin is called. -/
def Application.admits (app : Application objects) (identifier : String) : Except String Unit := do
  Identifier.assert (osString identifier) "The PHP plugin identifier"
  refuseIf (isset app.registries.phpPlugins identifier)
    ("PHP plugin " ++ identifier ++ " is already registered.")

/-- `Application::plugin`, given what `register` does. -/
def Application.plugin (app : Application objects) (identifier : String)
    (register : Application objects → After objects) : After objects :=
  match app.admits identifier with
  | .error error => (.error error, app)
  | .ok () =>
      match register (app.enter identifier) with
      | (.ok (), after) => (.ok (), after)
      | (.error error, after) => (.error error, after.leave identifier)

/-- `Plugin::register`. -/
def PluginCode.run : PluginCode objects → Application objects → After objects
  | .finish, app => (.ok (), app)
  | .throw error, app => (.error error, app)
  | .register registration next, app =>
      (next (app.register registration).1).run (app.register registration).2
  | .set setting next, app => (next (app.set setting).1).run (app.set setting).2
  | .plugin identifier code next, app =>
      (next (app.plugin identifier code.run).1).run (app.plugin identifier code.run).2

/-! ## What takes effect -/

/-- A call that did not throw. -/
inductive Effect (objects : Objects) where
  | registration (registration : Registration objects)
  | plugin (identifier : String)
  | setting (setting : Setting objects)

/-- The calls that take effect while the code runs, in their order. A plugin that throws does not,
but what it has called before does. -/
def PluginCode.effects : PluginCode objects → Application objects → List (Effect objects)
  | .finish, _ => []
  | .throw _, _ => []
  | .register registration next, app =>
      (match (app.register registration).1 with
        | .ok () => [.registration registration]
        | .error _ => []) ++
      (next (app.register registration).1).effects (app.register registration).2
  | .set setting next, app =>
      (match (app.set setting).1 with
        | .ok () => [.setting setting]
        | .error _ => []) ++
      (next (app.set setting).1).effects (app.set setting).2
  | .plugin identifier code next, app =>
      (match app.admits identifier with
        | .ok () => code.effects (app.enter identifier)
        | .error _ => []) ++
      (match (app.plugin identifier code.run).1 with
        | .ok () => [.plugin identifier]
        | .error _ => []) ++
      (next (app.plugin identifier code.run).1).effects (app.plugin identifier code.run).2

/-- An effect that stays under a name. -/
def Effect.named : Effect objects → Bool
  | .registration _ => true
  | .plugin _ => true
  | .setting _ => false

/-- The settings after a list of effects. -/
def Settings.apply (settings : Settings objects) : List (Effect objects) → Settings objects
  | [] => settings
  | .setting setting :: rest =>
      match settings.set setting with
      | .ok settings' => settings'.apply rest
      | .error _ => settings.apply rest
  | _ :: rest => settings.apply rest

/-- The plugin is called and throws. -/
structure Fails (app : Application objects) (identifier : String) (code : PluginCode objects)
    (error : String) : Prop where
  admitted : app.admits identifier = .ok ()
  thrown : (code.run (app.enter identifier)).1 = .error error

/-- The plugin has left the application as it was, for every other one as well. -/
structure RolledBack (app : Application objects) (identifier : String)
    (code : PluginCode objects) (error : String) : Prop where
  rethrown : app.plugin identifier code.run = (.error error, app)
  again : ∀ corrected : PluginCode objects,
    (app.plugin identifier code.run).2.plugin identifier corrected.run =
      app.plugin identifier corrected.run

/-! ## Arrays -/

theorem assign_fresh {α : Type} {entries : PhpArray α} {key : String}
    (h : isset entries key = false) (value : α) :
    assign entries key value = entries ++ [(key, value)] := by
  simp [assign, h]

theorem unset_fresh {α : Type} {entries : PhpArray α} {key : String}
    (h : isset entries key = false) : unset entries key = entries := by
  rw [unset, List.filter_eq_self]
  intro entry hentry
  rw [isset, List.any_eq_false] at h
  simpa using h entry hentry

theorem isset_append {α : Type} (first second : PhpArray α) (key : String) :
    isset (first ++ second) key = (isset first key || isset second key) := List.any_append

/-! ## What is recorded of a run -/

/-- How many names are registered. -/
def Registries.count (registries : Registries objects) : Nat :=
  registries.windows.length + registries.commands.length + registries.eventHandlers.length +
    registries.backgroundJobs.length + registries.rustPlugins.length +
    registries.phpPlugins.length

/-- The effects lead from the first application to the second: each named one has added a name,
none has removed one that was there. -/
structure Recorded (app : Application objects) (effects : List (Effect objects))
    (after : Application objects) : Prop where
  plugins : ∃ added, after.registries.phpPlugins = app.registries.phpPlugins ++ added ∧
    ∀ entry ∈ added, isset app.registries.phpPlugins entry.1 = false
  count : after.registries.count = app.registries.count + effects.countP Effect.named
  settings : after.settings = app.settings.apply effects
  unnamed : (∀ effect ∈ effects, effect.named = false) → after.registries = app.registries

theorem Settings.apply_append (settings : Settings objects) (first second : List (Effect objects)) :
    settings.apply (first ++ second) = (settings.apply first).apply second := by
  induction first generalizing settings with
  | nil => rfl
  | cons effect rest ih =>
      cases effect with
      | registration registration => exact ih settings
      | plugin identifier => exact ih settings
      | setting setting =>
          rw [List.cons_append, Settings.apply, Settings.apply]
          cases settings.set setting with
          | error error => exact ih settings
          | ok settings' => exact ih settings'

theorem Recorded.refl (app : Application objects) : Recorded app [] app where
  plugins := ⟨[], (List.append_nil _).symm, by simp⟩
  count := rfl
  settings := rfl
  unnamed _ := rfl

theorem Recorded.trans {app middle after : Application objects}
    {first second : List (Effect objects)} (hfirst : Recorded app first middle)
    (hsecond : Recorded middle second after) : Recorded app (first ++ second) after where
  plugins := by
    obtain ⟨added, hadded, hfresh⟩ := hfirst.plugins
    obtain ⟨more, hmore, hfresh'⟩ := hsecond.plugins
    refine ⟨added ++ more, by rw [hmore, hadded, List.append_assoc], ?_⟩
    intro entry hentry
    rcases List.mem_append.mp hentry with hentry | hentry
    · exact hfresh entry hentry
    · have hboth := hfresh' entry hentry
      rw [hadded, isset_append, Bool.or_eq_false_iff] at hboth
      exact hboth.1
  count := by
    rw [hsecond.count, hfirst.count, List.countP_append]
    omega
  settings := by rw [hsecond.settings, hfirst.settings, Settings.apply_append]
  unnamed h := by
    rw [hsecond.unnamed fun effect heffect => h effect (List.mem_append_right _ heffect),
      hfirst.unnamed fun effect heffect => h effect (List.mem_append_left _ heffect)]

theorem admits_fresh {app : Application objects} {identifier : String}
    (h : app.admits identifier = .ok ()) : isset app.registries.phpPlugins identifier = false := by
  obtain ⟨-, hfresh⟩ := check_bind_ok.mp h
  exact refuse_if_ok.mp hfresh

theorem assign_length {α : Type} {entries : PhpArray α} {key : String}
    (h : isset entries key = false) (value : α) :
    (assign entries key value).length = entries.length + 1 := by
  rw [assign_fresh h, List.length_append]
  rfl

/-- A registration adds one name and touches no plugin. -/
theorem register_adds {registries registries' : Registries objects}
    {registration : Registration objects} (h : registries.register registration = .ok registries') :
    registries'.count = registries.count + 1 ∧ registries'.phpPlugins = registries.phpPlugins := by
  cases registration with
  | window id window =>
      simp only [Registries.register, check_bind_ok, refuse_if_ok] at h
      obtain ⟨-, -, hfresh, hregistries⟩ := h
      cases hregistries
      refine ⟨?_, rfl⟩
      simp only [Registries.count, assign_length hfresh]
      omega
  | command name handler execution =>
      simp only [Registries.register, check_bind_ok, refuse_if_ok] at h
      obtain ⟨-, hfresh, hregistries⟩ := h
      cases hregistries
      refine ⟨?_, rfl⟩
      simp only [Registries.count, assign_length hfresh]
      omega
  | on name handler =>
      simp only [Registries.register, check_bind_ok, refuse_if_ok] at h
      obtain ⟨-, hfresh, hregistries⟩ := h
      cases hregistries
      refine ⟨?_, rfl⟩
      simp only [Registries.count, assign_length hfresh]
      omega
  | job id job handler =>
      simp only [Registries.register, check_bind_ok, refuse_if_ok] at h
      obtain ⟨-, hfresh, hregistries⟩ := h
      cases hregistries
      refine ⟨?_, rfl⟩
      simp only [Registries.count, assign_length hfresh]
      omega
  | rustPlugin plugin =>
      simp only [Registries.register, check_bind_ok, refuse_if_ok] at h
      obtain ⟨hfresh, hregistries⟩ := h
      cases hregistries
      refine ⟨?_, rfl⟩
      simp only [Registries.count, assign_length hfresh]
      omega

/-- What is recorded of a registration that does not throw. -/
theorem recorded_register (app : Application objects) (registration : Registration objects) :
    Recorded app (match (app.register registration).1 with
      | .ok () => [.registration registration]
      | .error _ => []) (app.register registration).2 := by
  unfold Application.register
  cases hregister : app.registries.register registration with
  | error error => exact .refl app
  | ok registries =>
      obtain ⟨hcount, hplugins⟩ := register_adds hregister
      exact {
        plugins := ⟨[], by rw [hplugins, List.append_nil], by simp⟩
        count := hcount
        settings := rfl
        unnamed := fun h => by cases h _ List.mem_cons_self }

theorem recorded_set (app : Application objects) (setting : Setting objects) :
    Recorded app (match (app.set setting).1 with
      | .ok () => [.setting setting]
      | .error _ => []) (app.set setting).2 := by
  unfold Application.set
  cases hset : app.settings.set setting with
  | error error => exact .refl app
  | ok settings =>
      exact {
        plugins := ⟨[], (List.append_nil _).symm, by simp⟩
        count := rfl
        settings := by simp [Settings.apply, hset]
        unnamed := fun _ => rfl }

/-- The entry of a plugin is the last one when its code starts. -/
theorem enter_plugins {app : Application objects} {identifier : String}
    (h : app.admits identifier = .ok ()) :
    (app.enter identifier).registries.phpPlugins =
      app.registries.phpPlugins ++ [(identifier, ())] := assign_fresh (admits_fresh h) ()

theorem enter_count {app : Application objects} {identifier : String}
    (h : app.admits identifier = .ok ()) :
    (app.enter identifier).registries.count = app.registries.count + 1 := by
  have hlength := assign_length (admits_fresh h) ()
  simp only [Registries.count, Application.enter, hlength]
  omega

theorem isset_singleton {α : Type} (key other : String) (value : α) :
    isset [(key, value)] other = (key == other) := by
  simp [isset]

/-- The entry of a plugin is removed again, and no other one. -/
theorem unset_entered {entries added : PhpArray Unit} {identifier : String}
    (hfresh : isset entries identifier = false)
    (hadded : ∀ entry ∈ added, isset (entries ++ [(identifier, ())]) entry.1 = false) :
    unset (entries ++ [(identifier, ())] ++ added) identifier = entries ++ added := by
  have hclear : isset added identifier = false := by
    rw [isset, List.any_eq_false]
    intro entry hentry heq
    have hother := hadded entry hentry
    rw [isset_append, isset_singleton, Bool.or_eq_false_iff] at hother
    rw [eq_of_beq heq, beq_self_eq_true] at hother
    cases hother.2
  have hself : unset [(identifier, ())] identifier = [] := by
    simp [unset]
  rw [unset, List.filter_append, List.filter_append]
  show unset entries identifier ++ unset [(identifier, ())] identifier ++
    unset added identifier = _
  rw [unset_fresh hfresh, unset_fresh hclear, hself, List.append_nil]

/-- What a plugin that throws leaves behind is what its code has done. -/
theorem Recorded.failed {app after : Application objects} {identifier : String}
    {effects : List (Effect objects)} (hadmits : app.admits identifier = .ok ())
    (h : Recorded (app.enter identifier) effects after) :
    Recorded app effects (after.leave identifier) := by
  have hfresh := admits_fresh hadmits
  obtain ⟨added, hadded, hnew⟩ := h.plugins
  rw [enter_plugins hadmits] at hadded hnew
  have hleft : (after.leave identifier).registries.phpPlugins =
      app.registries.phpPlugins ++ added := by
    show unset after.registries.phpPlugins identifier = _
    rw [hadded, unset_entered hfresh hnew]
  have hlength : after.registries.phpPlugins.length =
      (after.leave identifier).registries.phpPlugins.length + 1 := by
    rw [hadded, hleft]
    simp only [List.length_append, List.length_cons, List.length_nil]
    omega
  have hcount : after.registries.count = (after.leave identifier).registries.count + 1 := by
    show _ + after.registries.phpPlugins.length = _
    rw [hlength]
    rfl
  refine ⟨⟨added, hleft, ?_⟩, ?_, h.settings, ?_⟩
  · intro entry hentry
    have hboth := hnew entry hentry
    rw [isset_append, Bool.or_eq_false_iff] at hboth
    exact hboth.1
  · have hrun := h.count
    rw [enter_count hadmits] at hrun
    omega
  · intro hunnamed
    have hsame := h.unnamed hunnamed
    have hback : unset (app.enter identifier).registries.phpPlugins identifier =
        app.registries.phpPlugins := by
      have hnone : unset (app.registries.phpPlugins ++ [(identifier, ())] ++ []) identifier =
          app.registries.phpPlugins ++ [] := unset_entered hfresh (by simp)
      rw [List.append_nil, List.append_nil] at hnone
      rw [enter_plugins hadmits, hnone]
    show { after.registries with
      phpPlugins := unset after.registries.phpPlugins identifier } = app.registries
    rw [hsame, hback]
    rfl

/-- A plugin that does not throw adds its own name to what its code has done. -/
theorem Recorded.finished {app after : Application objects} {identifier : String}
    {effects : List (Effect objects)} (hadmits : app.admits identifier = .ok ())
    (h : Recorded (app.enter identifier) effects after) :
    Recorded app (effects ++ [.plugin identifier]) after := by
  obtain ⟨added, hadded, hnew⟩ := h.plugins
  rw [enter_plugins hadmits] at hadded hnew
  refine ⟨⟨(identifier, ()) :: added, by rw [hadded, List.append_assoc]; rfl, ?_⟩, ?_, ?_, ?_⟩
  · intro entry hentry
    rcases List.mem_cons.mp hentry with rfl | hentry
    · exact admits_fresh hadmits
    · have hboth := hnew entry hentry
      rw [isset_append, Bool.or_eq_false_iff] at hboth
      exact hboth.1
  · rw [h.count, enter_count hadmits, List.countP_append]
    show _ = _ + (_ + 1)
    omega
  · rw [h.settings, Settings.apply_append]
    rfl
  · intro hunnamed
    cases hunnamed (.plugin identifier) (List.mem_append_right _ List.mem_cons_self)

/-- What is recorded of a whole run. -/
theorem recorded_run (code : PluginCode objects) (app : Application objects) :
    Recorded app (code.effects app) (code.run app).2 := by
  induction code generalizing app with
  | finish => exact .refl app
  | throw error => exact .refl app
  | register registration next ih => exact (recorded_register app registration).trans (ih _ _)
  | set setting next ih => exact (recorded_set app setting).trans (ih _ _)
  | plugin identifier code next ihcode ih =>
      refine Recorded.trans ?_ (ih _ _)
      unfold Application.plugin
      cases hadmits : app.admits identifier with
      | error error => exact .refl app
      | ok done =>
          have hcode := ihcode (app.enter identifier)
          cases hrun : code.run (app.enter identifier) with
          | mk result after =>
              rw [hrun] at hcode
              cases result with
              | error error =>
                  show Recorded app (code.effects (app.enter identifier) ++ []) _
                  rw [List.append_nil]
                  exact hcode.failed hadmits
              | ok done => exact hcode.finished hadmits

/-! ## Rolling back -/

/-- No call of the plugin that registers something by its name takes effect, and the settings it
makes end where they began. -/
def Harmless (app : Application objects) (identifier : String) (code : PluginCode objects) : Prop :=
  (∀ effect ∈ code.effects (app.enter identifier), effect.named = false) ∧
    app.settings.apply (code.effects (app.enter identifier)) = app.settings

/-- A plugin that throws is rolled back exactly if it has done nothing that stays. -/
theorem plugin_rolled_back_iff {app : Application objects} {identifier : String}
    {code : PluginCode objects} {error : String} (h : Fails app identifier code error) :
    RolledBack app identifier code error ↔ Harmless app identifier code := by
  have hplugin : app.plugin identifier code.run =
      (.error error, (code.run (app.enter identifier)).2.leave identifier) := by
    have hthrown := h.thrown
    unfold Application.plugin
    rw [h.admitted]
    cases hrun : code.run (app.enter identifier) with
    | mk result after =>
        rw [hrun] at hthrown
        cases hthrown
        rfl
  have hrecorded := (recorded_run code (app.enter identifier)).failed h.admitted
  constructor
  · intro hback
    have hsame : (code.run (app.enter identifier)).2.leave identifier = app :=
      (Prod.mk.inj (hplugin.symm.trans hback.rethrown)).2
    rw [hsame] at hrecorded
    have hnone := hrecorded.count
    refine ⟨?_, hrecorded.settings.symm⟩
    intro effect heffect
    by_contra hnamed
    have hpositive : 0 < (code.effects (app.enter identifier)).countP Effect.named :=
      List.countP_pos_iff.mpr ⟨effect, heffect, by simpa using hnamed⟩
    omega
  · intro hharmless
    have hsame : (code.run (app.enter identifier)).2.leave identifier = app := by
      have hregistries := hrecorded.unnamed hharmless.1
      have hsettings := hrecorded.settings.trans hharmless.2
      cases happ : (code.run (app.enter identifier)).2.leave identifier with
      | mk registries settings =>
          rw [happ] at hregistries hsettings
          cases hregistries
          cases hsettings
          rfl
    refine ⟨by rw [hplugin, hsame], ?_⟩
    intro corrected
    rw [hplugin, hsame]

/-! ## Runs -/

/-- Objects that nothing is asked about. -/
def plainObjects : Objects where
  Window := Unit
  CommandHandler := Unit
  CommandExecution := Unit
  EventHandler := Unit
  BackgroundJob := Unit
  JobHandler := Unit
  RustPlugin := Unit
  rustPluginId _ := "probe"
  Manifest := Unit
  ManifestCall := Unit
  changeManifest manifest _ := .ok manifest
  Capabilities := Unit
  Shell := Unit
  Workstation := Unit
  processPoolSize _ := 2

/-- `Application::create`. -/
def created : Application plainObjects where
  registries :=
    { windows := [("main", ())], commands := [], commandExecutions := [], eventHandlers := []
      backgroundJobs := [], jobHandlers := [], rustPlugins := [], phpPlugins := [] }
  settings :=
    { manifest := (), commandTimeoutMilliseconds := 30000, parallelWorkerCount := 2
      capabilities := (), shell := (), workstation := () }

/-- A plugin that registers this command, then throws. -/
def exportsPlugin (name : String) : PluginCode plainObjects :=
  .register (.command name () ()) fun
    | .ok () => .throw "The exports are not available."
    | .error error => .throw error

/-- The name is refused, and nothing is left. -/
theorem refused_plugin_rolled_back :
    RolledBack created "exports" (exportsPlugin "1st")
      ("The command name must begin with a letter and contain at most 64 ASCII letters, " ++
        "numbers, dots, dashes, or underscores.") := by
  have heffects : (exportsPlugin "1st").effects (created.enter "exports") = [] := rfl
  refine (plugin_rolled_back_iff ⟨by decide +kernel, by rfl⟩).mpr ⟨?_, ?_⟩
  · rw [heffects]
    intro effect heffect
    cases heffect
  · rw [heffects]
    rfl

/-- The plugin, corrected. -/
def correctedPlugin (name : String) : PluginCode plainObjects :=
  .register (.command name () ()) fun
    | .ok () => .finish
    | .error error => .throw error

/-- The command stays, and the corrected plugin cannot register it. -/
theorem exported_command_stays :
    Fails created "exports" (exportsPlugin "exports.all") "The exports are not available." ∧
      ¬RolledBack created "exports" (exportsPlugin "exports.all")
        "The exports are not available." ∧
      ((created.plugin "exports" (exportsPlugin "exports.all").run).2.plugin "exports"
        (correctedPlugin "exports.all").run).1 =
          .error "Command exports.all is already registered." := by
  refine ⟨⟨by decide +kernel, by rfl⟩, ?_, by rfl⟩
  intro h
  have hcommands := congrArg (fun outcome => outcome.2.registries.commands.length) h.rethrown
  exact absurd (show 1 = 0 from hcommands) (by decide)

end

end PamDesktop.Php.Plugins
