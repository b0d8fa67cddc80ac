import PamDesktop.Foundations.Forest
import PamDesktop.Protocol.Bootstrap

/-!
# Creating the windows of an application

The ordering loop of `AppState::configure`: passes over the windows that still wait for their
parent, until none is left or a pass creates nothing. Whether native window creation succeeds is
a parameter. `windows_created_iff` says when an accepted bootstrap can be built.
-/

namespace PamDesktop.Shell

open Foundations Protocol

/-- What native window creation answers for a window, after those already created. -/
abbrev CreateWindow := List WindowConfig → WindowConfig → Except String Unit

/-- The windows created so far, those retained and the last failure. -/
structure Pass where
  created : List WindowConfig
  retained : List WindowConfig
  failure : Option String

/-- The window waits for a parent that is not there yet. -/
def waits (workstation : WorkstationConfig) (created : List WindowConfig) (config : WindowConfig) :
    Bool :=
  (workstation.parentOf config.id).any fun parent => !created.any (·.id == parent)

/-- `pending.retain` of one turn of the loop. -/
def retainPending (workstation : WorkstationConfig) (createWindow : CreateWindow)
    (created : List WindowConfig) (failure : Option String) : List WindowConfig → Pass
  | [] => ⟨created, [], failure⟩
  | config :: rest =>
      if waits workstation created config then
        let pass := retainPending workstation createWindow created failure rest
        { pass with retained := config :: pass.retained }
      else
        match createWindow created config with
        | .ok () => retainPending workstation createWindow (created ++ [config]) failure rest
        | .error error =>
            let pass := retainPending workstation createWindow created (some error) rest
            { pass with retained := config :: pass.retained }

/-- A turn never retains more than there was. -/
theorem retain_pending_length (workstation : WorkstationConfig) (createWindow : CreateWindow)
    (created : List WindowConfig) (failure : Option String) (pending : List WindowConfig) :
    (retainPending workstation createWindow created failure pending).retained.length ≤
      pending.length := by
  induction pending generalizing created failure with
  | nil => exact Nat.le_refl 0
  | cons config rest ih =>
      rw [retainPending]
      split
      · have := ih created failure
        simp only [List.length_cons]
        omega
      · split
        · have := ih (created ++ [config]) failure
          simp only [List.length_cons]
          omega
        · rename_i error _
          have := ih created (some error)
          simp only [List.length_cons]
          omega

/-- The loop of `configure` over the windows still pending. -/
def orderWindows (workstation : WorkstationConfig) (createWindow : CreateWindow)
    (created pending : List WindowConfig) : Except String (List WindowConfig) :=
  if pending = [] then .ok created
  else
    let pass := retainPending workstation createWindow created none pending
    match pass.failure with
    | some error => .error error
    | none =>
        if _hstuck : pass.retained.length = pending.length then
          .error ("cannot resolve native parent ordering for windows: " ++
            ", ".intercalate (pass.retained.map (·.id)))
        else orderWindows workstation createWindow pass.created pass.retained
termination_by pending.length
decreasing_by
  exact Nat.lt_of_le_of_ne
    (retain_pending_length workstation createWindow created none pending) _hstuck

/-- `AppState::configure`, from the point where the previous windows are dropped: the windows in
the order of their creation. -/
def configure (workstation : WorkstationConfig) (createWindow : CreateWindow)
    (bootstrap : Bootstrap) : Except String (List WindowConfig) :=
  orderWindows workstation createWindow [] bootstrap.windows

/-- Every window of the bootstrap is created once, and after its parent. -/
def CreatesAll (bootstrap : Bootstrap) (result : Except String (List WindowConfig)) : Prop :=
  ∃ created, result = .ok created ∧ created.Perm bootstrap.windows ∧
    ParentsFirst bootstrap.workstation.parentOf (created.map (·.id))

/-! ## One pass -/

variable {workstation : WorkstationConfig} {createWindow : CreateWindow}

/-- A window that does not wait has its parent among those created. -/
theorem parent_created {created : List WindowConfig} {config : WindowConfig}
    (h : waits workstation created config = false) :
    ∀ parent, workstation.parentOf config.id = some parent → parent ∈ created.map (·.id) := by
  intro parent hparent
  rw [waits, hparent] at h
  simpa using h

/-- What a pass does while native creation succeeds: no window is lost, and none is created
before its parent. -/
structure Passed (workstation : WorkstationConfig) (created pending : List WindowConfig)
    (pass : Pass) : Prop where
  failure : pass.failure = none
  perm : (pass.created ++ pass.retained).Perm (created ++ pending)
  ordered : ParentsFirst workstation.parentOf (created.map (·.id)) →
    ParentsFirst workstation.parentOf (pass.created.map (·.id))
  progress : ∀ config ∈ pending, waits workstation created config = false →
    pass.retained.length < pending.length

theorem retain_pending_passed (hcreate : ∀ created config, createWindow created config = .ok ())
    (created pending : List WindowConfig) :
    Passed workstation created pending
      (retainPending workstation createWindow created none pending) := by
  induction pending generalizing created with
  | nil =>
      constructor
      case failure => rfl
      case perm => exact List.Perm.refl _
      case ordered => exact fun h => h
      case progress =>
        intro config h
        cases h
  | cons config rest ih =>
      rw [retainPending]
      by_cases hwaits : waits workstation created config = true
      · rw [if_pos hwaits]
        obtain ⟨hfailure, hperm, hordered, hprogress⟩ := ih created
        constructor
        case failure => exact hfailure
        case perm =>
          exact List.perm_middle.trans ((hperm.cons config).trans List.perm_middle.symm)
        case ordered => exact hordered
        case progress =>
          intro other hother hready
          rcases List.mem_cons.mp hother with rfl | hother
          · rw [hwaits] at hready
            cases hready
          · have := hprogress other hother hready
            simp only [List.length_cons]
            omega
      · rw [if_neg hwaits, hcreate created config]
        obtain ⟨hfailure, hperm, hordered, -⟩ := ih (created ++ [config])
        have hready : waits workstation created config = false := by simpa using hwaits
        constructor
        case failure => exact hfailure
        case perm =>
          rw [List.append_assoc] at hperm
          exact hperm
        case ordered =>
          intro h
          apply hordered
          rw [List.map_append]
          exact h.concat (parent_created hready)
        case progress =>
          intro _ _ _
          have := retain_pending_length workstation createWindow (created ++ [config]) none rest
          simp only [List.length_cons]
          omega

/-! ## The loop -/

/-- Along acyclic links some pending window can be created next. -/
theorem exists_ready (created : List WindowConfig) (hacyclic : Acyclic workstation.parentOf)
    {pending : List WindowConfig} (hne : pending ≠ [])
    (hparents : ∀ config ∈ pending, ∀ parent, workstation.parentOf config.id = some parent →
      parent ∈ (created ++ pending).map (·.id)) :
    ∃ config ∈ pending, waits workstation created config = false := by
  obtain ⟨id, hid, hfirst⟩ := hacyclic.exists_first (pending.map (·.id)) (by simpa using hne)
  obtain ⟨config, hconfig, rfl⟩ := List.mem_map.mp hid
  refine ⟨config, hconfig, ?_⟩
  cases hparent : workstation.parentOf config.id with
  | none => simp [waits, hparent]
  | some parent =>
      have hmem := hparents config hconfig parent hparent
      rw [List.map_append, List.mem_append] at hmem
      rcases hmem with hmem | hmem
      · simpa [waits, hparent] using hmem
      · exact absurd hmem (hfirst parent hparent)

/-- The loop creates every pending window. -/
theorem order_windows_creates (hcreate : ∀ created config, createWindow created config = .ok ())
    (hacyclic : Acyclic workstation.parentOf) {windows : List WindowConfig}
    (hparents : ∀ config ∈ windows, ∀ parent, workstation.parentOf config.id = some parent →
      parent ∈ windows.map (·.id)) (created pending : List WindowConfig)
    (hperm : (created ++ pending).Perm windows)
    (hordered : ParentsFirst workstation.parentOf (created.map (·.id))) :
    ∃ final, orderWindows workstation createWindow created pending = .ok final ∧
      final.Perm windows ∧ ParentsFirst workstation.parentOf (final.map (·.id)) := by
  induction hlength : pending.length using Nat.strong_induction_on generalizing created pending with
  | _ length ih =>
      unfold orderWindows
      by_cases hne : pending = []
      · subst hne
        rw [if_pos rfl]
        rw [List.append_nil] at hperm
        exact ⟨created, rfl, hperm, hordered⟩
      · rw [if_neg hne]
        have hpass : Passed workstation created pending _ :=
          retain_pending_passed hcreate created pending
        obtain ⟨config, hconfig, hready⟩ := exists_ready created hacyclic hne (by
          intro config hconfig parent hparent
          have hmem := hparents config (hperm.subset (List.mem_append_right _ hconfig)) parent hparent
          exact (hperm.map (·.id)).symm.subset hmem)
        have hless := hpass.progress config hconfig hready
        simp only [hpass.failure]
        rw [dif_neg (by omega)]
        exact ih _ (by omega) _ _ (hpass.perm.trans hperm) (hpass.ordered hordered) rfl

/-! ## Accepted bootstraps -/

/-- Windows that are created after their parents have acyclic links. -/
theorem CreatesAll.acyclic {bootstrap : Bootstrap} (hvalid : bootstrap.Valid)
    {result : Except String (List WindowConfig)} (h : CreatesAll bootstrap result) :
    Acyclic bootstrap.workstation.parentOf := by
  intro id n hcycle
  obtain ⟨created, -, hperm, hordered⟩ := h
  obtain ⟨parent, hparent, -⟩ := Option.bind_eq_some_iff.mp hcycle
  have hid : id ∈ created.map (·.id) :=
    (hperm.map (·.id)).symm.subset (hvalid.parent_registered hparent).1
  exact hordered.acyclic hid n hcycle

/-- While native creation succeeds, the windows of an accepted bootstrap are all created, each
after its parent, exactly when no chain of declared parents returns to its start. -/
theorem windows_created_iff (platform : Platform) (bootstrap : Bootstrap)
    (hvalid : bootstrap.validate platform = .ok ()) (createWindow : CreateWindow)
    (hcreate : ∀ created config, createWindow created config = .ok ()) :
    CreatesAll bootstrap (configure bootstrap.workstation createWindow bootstrap) ↔
      Acyclic bootstrap.workstation.parentOf := by
  have hvalid := Bootstrap.validate_ok hvalid
  constructor
  · intro hcreates
    exact hcreates.acyclic hvalid
  · intro hacyclic
    exact order_windows_creates hcreate hacyclic
      (fun config _ parent hparent => (hvalid.parent_registered hparent).2) [] bootstrap.windows
      (List.Perm.refl _) ParentsFirst.nil

/-! ## Windows of the notes application -/

/-- Settings declared before the window they belong to. -/
def notesSettings : Bootstrap :=
  notesBootstrap ["settings", "main"]
    { windows := ⟨[("settings", ⟨.child, some "main", false, false, false⟩)], by decide⟩ }

/-- Two dialogs that are declared as each other's parent. -/
def notesDialogs : Bootstrap :=
  notesBootstrap ["main", "find", "replace"]
    { windows := ⟨[("find", ⟨.modal, some "replace", false, false, false⟩),
        ("replace", ⟨.modal, some "find", false, false, false⟩)], by decide⟩ }

theorem notes_settings_valid : notesSettings.validate notesPlatform = .ok () := by decide

theorem notes_settings_acyclic : Acyclic notesSettings.workstation.parentOf := by
  have hmain : notesSettings.workstation.parentOf "main" = none := by decide
  have hsettings : notesSettings.workstation.parentOf "settings" = some "main" := by decide
  have hordered : ParentsFirst notesSettings.workstation.parentOf ["main", "settings"] := by
    have hfirst : ParentsFirst notesSettings.workstation.parentOf ([] ++ ["main"]) := by
      apply ParentsFirst.nil.concat
      intro parent hparent
      rw [hmain] at hparent
      cases hparent
    apply hfirst.concat
    intro parent hparent
    rw [hsettings] at hparent
    cases hparent
    exact List.mem_cons_self
  intro id n hcycle
  obtain ⟨parent, hparent, -⟩ := Option.bind_eq_some_iff.mp hcycle
  have hid := ((Bootstrap.validate_ok notes_settings_valid).parent_registered hparent).1
  exact hordered.acyclic (List.mem_reverse.mp hid) n hcycle

/-- The settings can be created. -/
theorem notes_settings_created :
    CreatesAll notesSettings
      (configure notesSettings.workstation (fun _ _ => .ok ()) notesSettings) :=
  (windows_created_iff notesPlatform notesSettings notes_settings_valid (fun _ _ => .ok ())
    (by intro _ _; rfl)).mpr notes_settings_acyclic

/-- The dialogs are accepted and never created. -/
theorem notes_dialogs_not_created :
    notesDialogs.validate notesPlatform = .ok () ∧
      ¬ CreatesAll notesDialogs
        (configure notesDialogs.workstation (fun _ _ => .ok ()) notesDialogs) := by
  have hvalid : notesDialogs.validate notesPlatform = .ok () := by decide
  refine ⟨hvalid, ?_⟩
  intro hcreates
  exact hcreates.acyclic (Bootstrap.validate_ok hvalid) "find" 1 (by decide)

end PamDesktop.Shell
