import Mathlib.Logic.Function.Basic
import PamDesktop.Php.Values

/-!
# Invoking a typed handler

`CommandInvoker` resolves the parameters of a handler from the payload of the frontend and from a
container that holds the services of the invocation. What the classes of the application are and
what its own code does is a parameter of the model. `services_unforged_iff` says for which payloads
a parameter of a bound class receives the bound object.
-/

namespace PamDesktop.Php

open Foundations

/-! ## Objects and classes -/

/-- An object that somebody can have bound in the container. -/
inductive Service where
  | invocation
  | windows (current : String) (known : List String)
  | windowHandle (id : String)
  | events
  | applicationControl
  | desktopWindow (className id : String)
  | commandContext (id : Nat) (name windowId : String) (payload : PhpValue)
  | eventContext (id : Nat) (name windowId : String) (payload : PhpValue)
  | application (className : String) (identity : Nat)

/-- What is passed for a parameter: a value of the payload or an object, which is a bound one, one
that the container constructed, one hydrated from the payload or the case of an enum. -/
inductive Argument where
  | value (value : PhpValue)
  | service (service : Service)
  | constructed (className : String) (arguments : List Argument)
  | hydrated (className : String) (arguments : List Argument)
  | enumCase (className : String) (backing : PhpValue)

/-- The declared type of a parameter. `other` is none, a union or an intersection. -/
inductive DeclaredType where
  | builtin (name : String) (allowsNull : Bool)
  | named (className : String)
  | other
  deriving DecidableEq

/-- `ReflectionParameter`. -/
structure Parameter where
  name : String
  type : DeclaredType
  default : Option Argument := none

/-- What reflection says about a class. -/
structure ClassInfo where
  instantiable : Bool
  constructor : Option (List Parameter)
  /-- The backing values of a `BackedEnum`. -/
  cases : Option (List PhpValue) := none

/-- What is bound under a class: an object, or a closure that makes one. -/
inductive Binding where
  | object (service : Service)
  | factory (closure : Nat)

/-- `Container::$bindings`. -/
abbrev Container := String → Option Binding

/-- The classes that PHP can load and what their own code does. -/
structure Classes where
  info : String → Option ClassInfo
  instanceOf : Service → String → Bool
  /-- The outcome of a closure given the container. -/
  run : Nat → Container → Except String Service
  /-- The error a constructor throws for its arguments. -/
  refuses : String → List Argument → Option String

/-! ## The container -/

/-- `Container::contextual`. -/
def Container.contextual (container : Container) : List (String × Service) → Container
  | [] => container
  | (id, service) :: bindings =>
      contextual (Function.update container id (some (.object service))) bindings

section

variable (php : Classes) (container : Container)

/-- A binding, resolved. -/
def resolve : Binding → Except String Service
  | .object service => .ok service
  | .factory closure => php.run closure container

/-- `newInstance` and `newInstanceArgs`: the constructor may throw. -/
def instantiate (className : String) (arguments : List Argument) (made : Argument) :
    Except String Argument :=
  match php.refuses className arguments with
  | some error => .error error
  | none => .ok made

/-- `Container::get`. The number is the depth of calls that the interpreter has left. -/
def get : Nat → String → Except String Argument
  | 0, _ => .error "Maximum call stack size reached."
  | depth + 1, id =>
      match container id with
      | some binding => do
          let resolved ← resolve php container binding
          if php.instanceOf resolved id then .ok (.service resolved)
          else .error ("The container binding for " ++ id ++ " returned an incompatible object.")
      | none =>
          match php.info id with
          | none => .error ("Container entry " ++ id ++ " does not name a class or interface.")
          | some info =>
              if info.instantiable then
                match info.constructor with
                | none => .ok (.constructed id [])
                | some parameters => do
                    let arguments ← parameters.mapM fun parameter =>
                      match parameter.type, parameter.default with
                      | .named dependency, _ => get depth dependency
                      | _, some default => .ok default
                      | _, none =>
                          .error ("Cannot resolve constructor parameter " ++ id ++ "::$" ++
                            parameter.name ++ ".")
                    instantiate php id arguments (.constructed id arguments)
              else .error (id ++ " is not instantiable and has no container binding.")

/-! ## Arguments -/

/-- `matchesBuiltin`. -/
def matchesBuiltin (type : String) (value : PhpValue) : Bool :=
  match type, value with
  | "string", .string _ => true
  | "int", .int _ => true
  | "float", .float _ => true
  | "float", .int _ => true
  | "bool", .bool _ => true
  | "array", .array _ => true
  | "iterable", .array _ => true
  | "mixed", _ => true
  | "object", .object _ | "object", .serializable _ | "object", .thrower _ => true
  | "object", .backedEnum _ | "object", .unitEnum => true
  | _, _ => false

/-- `objectPayload`. -/
def objectPayload (name : String) (entries : Entries) : Except String Entries :=
  if entries.all fun entry => match entry.1 with | .string _ => true | .int _ => false then
    .ok entries
  else .error ("DTO command argument " ++ name ++ " must be a JSON object.")

/-- The values are the same number or the same text. -/
def sameScalar : PhpValue → PhpValue → Bool
  | .int value, .int value' => value == value'
  | .string bytes, .string bytes' => bytes == bytes'
  | _, _ => false

/-- The branch of `argument` for an enum that the payload has a value for. -/
def enumArgument (className name : String) (cases : List PhpValue) (value : PhpValue) :
    Except String Argument :=
  match value with
  | .int _ | .string _ =>
      if cases.any (sameScalar value) then .ok (.enumCase className value)
      else .error ("The value is not a valid backing value for enum " ++ className)
  | _ => .error ("Enum command argument " ++ name ++ " must be scalar.")

/-- The branch of `argument` for a builtin type. -/
def builtinArgument (parameter : Parameter) (type : String) (allowsNull : Bool)
    (payload : Entries) : Except String Argument :=
  match entryNamed payload parameter.name with
  | none =>
      match parameter.default with
      | some default => .ok default
      | none =>
          if allowsNull then .ok (.value .null)
          else .error ("Required command argument " ++ parameter.name ++ " is missing.")
  | some value =>
      match value, allowsNull with
      | .null, true => .ok (.value .null)
      | _, _ =>
          if matchesBuiltin type value then .ok (.value value)
          else .error ("Command argument " ++ parameter.name ++ " must be " ++ type ++ ".")

/-- The cases of an enum, where the class is one. -/
def enumCases (className : String) : Option (List PhpValue) :=
  (php.info className).bind (·.cases)

mutual

/-- `CommandInvoker::argument`. -/
def argument : Nat → Parameter → Entries → Except String Argument
  | 0, _, _ => .error "Maximum call stack size reached."
  | depth + 1, parameter, payload =>
      match parameter.type with
      | .other =>
          .error ("Command parameter $" ++ parameter.name ++ " must have one named type.")
      | .builtin type allowsNull => builtinArgument parameter type allowsNull payload
      | .named className =>
          match enumCases php className, entryNamed payload parameter.name with
          | some cases, some value => enumArgument className parameter.name cases value
          | none, some (.array entries) => do
              let entries ← objectPayload parameter.name entries
              hydrate depth className entries
          | _, _ => get php container depth className

/-- `CommandInvoker::hydrate`. -/
def hydrate : Nat → String → Entries → Except String Argument
  | 0, _, _ => .error "Maximum call stack size reached."
  | depth + 1, className, payload =>
      match php.info className with
      | none => .error ("Class \"" ++ className ++ "\" does not exist")
      | some info =>
          match info.constructor with
          | none => get php container depth className
          | some parameters => do
              let arguments ← parameters.mapM fun parameter => argument depth parameter payload
              if info.instantiable then
                instantiate php className arguments (.hydrated className arguments)
              else .error ("Cannot instantiate " ++ className)

end

end

/-! ## The invocation -/

/-- `CommandContext` or `EventContext`. -/
structure Context where
  isCommand : Bool
  id : Nat
  name : String
  windowId : String
  payload : PhpValue

/-- The context as an object. -/
def Context.service (context : Context) : Service :=
  if context.isCommand then
    .commandContext context.id context.name context.windowId context.payload
  else .eventContext context.id context.name context.windowId context.payload

/-- The payload, where it is an array. -/
def Context.entries (context : Context) : Entries :=
  match context.payload with
  | .array entries => entries
  | _ => []

/-- The class of the context. -/
def Context.className (context : Context) : String :=
  if context.isCommand then "Pam\\Desktop\\CommandContext" else "Pam\\Desktop\\EventContext"

/-- `CommandInvoker`: the container of the application and its windows. -/
structure CommandInvoker where
  container : Container
  windows : List String
  windowClasses : List (String × String)

/-- The container that `invokeContext` sets up. -/
def CommandInvoker.scope (invoker : CommandInvoker) (context : Context) :
    Except String Container :=
  if context.windowId ∈ invoker.windows then
    .ok (invoker.container.contextual <|
      [("Pam\\Desktop\\Invocation", .invocation),
        ("Pam\\Desktop\\Windows", .windows context.windowId invoker.windows),
        ("Pam\\Desktop\\WindowHandle", .windowHandle context.windowId),
        ("Pam\\Desktop\\Events", .events),
        ("Pam\\Desktop\\ApplicationControl", .applicationControl)] ++
      invoker.windowClasses.map (fun window => (window.1, .desktopWindow window.1 window.2)) ++
      [(context.className, context.service)])
  else .error ("Window " ++ context.windowId ++ " is not registered.")

/-- The arguments with which `invokeContext` reaches a handler of this signature. -/
def CommandInvoker.invokeContext (invoker : CommandInvoker) (php : Classes) (depth : Nat)
    (signature : List Parameter) (context : Context) : Except String (List Argument) := do
  let container ← invoker.scope context
  signature.mapM fun parameter => argument php container depth parameter context.entries

/-- The frontend has sent something that `argument` prefers to the binding of the class: any value
where the class is an enum, an array where it has a constructor. -/
def Shadows (php : Classes) (payload : Entries) (name className : String) : Prop :=
  ∃ value, entryNamed payload name = some value ∧
    ((enumCases php className).isSome = true ∨
      (∃ entries, value = .array entries) ∧
        ∃ info, php.info className = some info ∧ info.constructor.isSome = true)

/-- The object without the payload that a context carries. -/
def Service.withoutPayload : Service → Service
  | .commandContext id name windowId _ => .commandContext id name windowId .null
  | .eventContext id name windowId _ => .eventContext id name windowId .null
  | service => service

/-- The same closure, or the same object apart from the payload that a context carries. -/
def Binding.SameAs : Binding → Binding → Prop
  | .object service, .object service' => service.withoutPayload = service'.withoutPayload
  | .factory closure, .factory closure' => closure = closure'
  | _, _ => False

/-- In both runs a parameter of a bound class receives what is bound there, and the same is bound
in both. -/
def Unforged (php : Classes) (container container' : Container) (parameter : Parameter)
    (received received' : Argument) : Prop :=
  ∀ className binding, parameter.type = .named className → container className = some binding →
    ∃ binding' service service', container' className = some binding' ∧
      binding.SameAs binding' ∧
      resolve php container binding = .ok service ∧ received = .service service ∧
      resolve php container' binding' = .ok service' ∧ received' = .service service'

section

variable {php : Classes} {container container' : Container}

/-- The elements of a `mapM` that succeeds. -/
theorem mapM_get {α β ε : Type} {f : α → Except ε β} {xs : List α} {ys : List β}
    (h : xs.mapM f = .ok ys) {i : Nat} {x : α} (hx : xs[i]? = some x) :
    ∃ y, ys[i]? = some y ∧ f x = .ok y := by
  induction xs generalizing ys i with
  | nil => cases hx
  | cons head tail ih =>
      rw [List.mapM_cons] at h
      cases hhead : f head with
      | error error =>
          rw [hhead] at h
          cases h
      | ok first =>
          rw [hhead] at h
          cases htail : tail.mapM f with
          | error error =>
              rw [htail] at h
              cases h
          | ok rest =>
              rw [htail] at h
              cases h
              cases i with
              | zero =>
                  obtain rfl : head = x := by simpa using hx
                  exact ⟨first, rfl, hhead⟩
              | succ i => exact ih htail (by simpa using hx)

/-- What the container returns for a bound class. -/
theorem get_bound {depth : Nat} {className : String} {binding : Binding} {received : Argument}
    (hbound : container className = some binding)
    (h : get php container depth className = .ok received) :
    ∃ service, resolve php container binding = .ok service ∧ received = .service service := by
  cases depth with
  | zero => cases h
  | succ depth =>
      simp only [get, hbound] at h
      cases hresolve : resolve php container binding with
      | error error =>
          rw [hresolve] at h
          cases h
      | ok service =>
          rw [hresolve] at h
          refine ⟨service, rfl, ?_⟩
          change (if php.instanceOf service className then _ else _) = _ at h
          split at h <;> cases h
          rfl

/-- A hydrated object is none that was bound, unless the class has no constructor. -/
theorem hydrate_fresh {depth : Nat} {className : String} {info : ClassInfo} {payload : Entries}
    {received : Argument} (hinfo : php.info className = some info)
    (hconstructor : info.constructor.isSome = true)
    (h : hydrate php container depth className payload = .ok received) :
    ∀ service, received ≠ .service service := by
  intro service hreceived
  obtain ⟨parameters, hparameters⟩ := Option.isSome_iff_exists.mp hconstructor
  cases depth with
  | zero =>
      simp only [hydrate] at h
      cases h
  | succ depth =>
      simp only [hydrate, hinfo, hparameters] at h
      cases harguments : parameters.mapM fun parameter =>
          argument php container depth parameter payload with
      | error error =>
          rw [harguments] at h
          cases h
      | ok arguments =>
          rw [harguments] at h
          change (if info.instantiable then _ else _) = _ at h
          split at h
          · unfold instantiate at h
            split at h <;> cases h
            cases hreceived
          · cases h

/-- Where the class has no constructor, hydration asks the container. -/
theorem hydrate_bare {depth : Nat} {className : String} {payload : Entries}
    {received : Argument}
    (hbare : ∀ info, php.info className = some info → info.constructor = none)
    (h : hydrate php container depth className payload = .ok received) :
    ∃ depth', get php container depth' className = .ok received := by
  cases depth with
  | zero =>
      simp only [hydrate] at h
      cases h
  | succ depth =>
      simp only [hydrate] at h
      cases hinfo : php.info className with
      | none =>
          rw [hinfo] at h
          cases h
      | some info =>
          simp only [hinfo, hbare info hinfo] at h
          exact ⟨depth, h⟩

/-- The case of an enum is no bound object. -/
theorem enum_argument_fresh {className name : String} {cases : List PhpValue} {value : PhpValue}
    {received : Argument} (h : enumArgument className name cases value = .ok received) :
    ∀ service, received ≠ .service service := by
  intro service hreceived
  unfold enumArgument at h
  split at h
  · split at h <;> cases h
    cases hreceived
  · split at h <;> cases h
    cases hreceived
  · cases h

/-- A parameter of a bound class that is resolved receives what is bound exactly when the payload
does not shadow it. -/
theorem argument_bound_iff {depth : Nat} {parameter : Parameter} {className : String}
    {binding : Binding} {payload : Entries} {received : Argument}
    (htype : parameter.type = .named className) (hbound : container className = some binding)
    (h : argument php container depth parameter payload = .ok received) :
    (∃ service, resolve php container binding = .ok service ∧ received = .service service) ↔
      ¬ Shadows php payload parameter.name className := by
  cases depth with
  | zero =>
      simp only [argument] at h
      cases h
  | succ depth =>
      simp only [argument, htype] at h
      split at h
      · -- an enum, and the payload has an entry
        rename_i cases value hcases hvalue
        constructor
        · intro ⟨service, _, hreceived⟩
          exact absurd hreceived (enum_argument_fresh h service)
        · intro hclear
          exact absurd ⟨value, hvalue, .inl (by rw [hcases]; rfl)⟩ hclear
      · -- the payload has an array
        rename_i entries hcases hvalue
        cases hobject : objectPayload parameter.name entries with
        | error error =>
            rw [hobject] at h
            cases h
        | ok entries' =>
            rw [hobject] at h
            replace h : hydrate php container depth className entries' = .ok received := h
            by_cases hconstructor : ∃ info, php.info className = some info ∧
                info.constructor.isSome = true
            · obtain ⟨info, hinfo, hsome⟩ := hconstructor
              constructor
              · intro ⟨service, _, hreceived⟩
                exact absurd hreceived (hydrate_fresh hinfo hsome h service)
              · intro hclear
                exact absurd ⟨_, hvalue, .inr ⟨⟨entries, rfl⟩, info, hinfo, hsome⟩⟩ hclear
            · have hbare : ∀ info, php.info className = some info → info.constructor = none := by
                intro info hinfo
                cases hnone : info.constructor with
                | none => rfl
                | some parameters => exact absurd ⟨info, hinfo, by rw [hnone]; rfl⟩ hconstructor
              obtain ⟨depth', hget⟩ := hydrate_bare hbare h
              refine ⟨fun _ hshadows => ?_, fun _ => get_bound hbound hget⟩
              obtain ⟨value, _, henum | harray⟩ := hshadows
              · rw [hcases] at henum
                cases henum
              · exact hconstructor harray.2
      · -- neither
        rename_i hnot hnotArray
        refine ⟨fun _ hshadows => ?_, fun _ => get_bound hbound h⟩
        obtain ⟨value, hvalue, henum | ⟨⟨entries, rfl⟩, -⟩⟩ := hshadows
        · obtain ⟨cases, hcases⟩ := Option.isSome_iff_exists.mp henum
          exact hnot cases value hcases hvalue
        · cases hcases : enumCases php className with
          | none => exact hnotArray entries hcases hvalue
          | some cases => exact hnot cases (.array entries) hcases hvalue

/-! ## The services of two runs -/

theorem Binding.SameAs.refl (binding : Binding) : binding.SameAs binding := by
  cases binding <;> exact rfl

/-- Binding one more service, after the others. -/
theorem contextual_concat (container : Container) (bindings : List (String × Service))
    (id : String) (service : Service) :
    container.contextual (bindings ++ [(id, service)]) =
      Function.update (container.contextual bindings) id (some (.object service)) := by
  induction bindings generalizing container with
  | nil => rfl
  | cons first rest ih => exact ih _

/-- Two contexts that differ in their payload set up the same container, apart from it. -/
theorem scope_same {invoker : CommandInvoker} {context : Context} {payload : PhpValue}
    (h : invoker.scope context = .ok container)
    (h' : invoker.scope { context with payload } = .ok container') {className : String}
    {binding : Binding} (hbound : container className = some binding) :
    ∃ binding', container' className = some binding' ∧ binding.SameAs binding' := by
  unfold CommandInvoker.scope at h h'
  split at h
  · rename_i hwindow
    rw [if_pos hwindow] at h'
    cases h
    cases h'
    rw [contextual_concat] at hbound ⊢
    have hname : ({ context with payload } : Context).className = context.className := rfl
    by_cases hcontext : className = context.className
    · subst hcontext
      rw [Function.update_self] at hbound
      cases hbound
      rw [hname, Function.update_self]
      refine ⟨_, rfl, ?_⟩
      show context.service.withoutPayload = _
      unfold Context.service
      by_cases hcommand : context.isCommand = true
      · rw [if_pos hcommand, if_pos hcommand]
        rfl
      · rw [if_neg hcommand, if_neg hcommand]
        rfl
    · rw [Function.update_of_ne hcontext] at hbound
      rw [hname, Function.update_of_ne hcontext]
      exact ⟨binding, hbound, .refl binding⟩
  · cases h

/-- Two runs of a handler that differ in the payload pass the same bound objects exactly when
neither payload shadows a parameter of a bound class. -/
theorem services_unforged_iff (php : Classes) (invoker : CommandInvoker)
    (signature : List Parameter) (context : Context) (payload : PhpValue) (depth depth' : Nat)
    (container container' : Container) (arguments arguments' : List Argument)
    (hscope : invoker.scope context = .ok container)
    (hscope' : invoker.scope { context with payload } = .ok container')
    (hreached : invoker.invokeContext php depth signature context = .ok arguments)
    (hreached' : invoker.invokeContext php depth' signature { context with payload } =
      .ok arguments') :
    (∀ (i : Nat) parameter received received', signature[i]? = some parameter →
      arguments[i]? = some received → arguments'[i]? = some received' →
      Unforged php container container' parameter received received') ↔
    ∀ parameter ∈ signature, ∀ className, parameter.type = .named className →
      (container className).isSome = true →
      ¬ Shadows php context.entries parameter.name className ∧
        ¬ Shadows php ({ context with payload } : Context).entries parameter.name className := by
  rw [CommandInvoker.invokeContext, hscope] at hreached
  rw [CommandInvoker.invokeContext, hscope'] at hreached'
  constructor
  · intro hunforged parameter hmem className htype hsome
    obtain ⟨i, hi⟩ := List.mem_iff_getElem?.mp hmem
    obtain ⟨binding, hbound⟩ := Option.isSome_iff_exists.mp hsome
    obtain ⟨received, hreceived, hargument⟩ := mapM_get hreached hi
    obtain ⟨received', hreceived', hargument'⟩ := mapM_get hreached' hi
    obtain ⟨binding', service, service', hbound', -, hresolve, hservice, hresolve', hservice'⟩ :=
      hunforged i parameter received received' hi hreceived hreceived' className binding htype
        hbound
    exact ⟨(argument_bound_iff htype hbound hargument).mp ⟨service, hresolve, hservice⟩,
      (argument_bound_iff htype hbound' hargument').mp ⟨service', hresolve', hservice'⟩⟩
  · intro hclear i parameter received received' hi hreceived hreceived' className binding htype
      hbound
    obtain ⟨hclear, hclear'⟩ :=
      hclear parameter (List.mem_of_getElem? hi) className htype (by rw [hbound]; rfl)
    obtain ⟨binding', hbound', hsame⟩ := scope_same hscope hscope' hbound
    obtain ⟨first, hfirst, hargument⟩ := mapM_get hreached hi
    obtain ⟨first', hfirst', hargument'⟩ := mapM_get hreached' hi
    obtain rfl : received = first := Option.some.inj (hreceived.symm.trans hfirst)
    obtain rfl : received' = first' := Option.some.inj (hreceived'.symm.trans hfirst')
    obtain ⟨service, hresolve, hservice⟩ :=
      (argument_bound_iff htype hbound hargument).mpr hclear
    obtain ⟨service', hresolve', hservice'⟩ :=
      (argument_bound_iff htype hbound' hargument').mpr hclear'
    exact ⟨binding', service, service', hbound', hsame, hresolve, hservice, hresolve', hservice'⟩

end

/-! ## A handler with a window -/

/-- The classes of the package that a handler of one window names. -/
def windowClasses : Classes where
  info className :=
    if className = "Pam\\Desktop\\WindowHandle" then
      some ⟨true, some [⟨"id", .builtin "string" false, none⟩,
        ⟨"invocation", .named "Pam\\Desktop\\Invocation", none⟩], none⟩
    else if className = "Pam\\Desktop\\Invocation" then some ⟨true, none, none⟩
    else none
  instanceOf service className :=
    match service with
    | .invocation => className == "Pam\\Desktop\\Invocation"
    | .windowHandle _ => className == "Pam\\Desktop\\WindowHandle"
    | _ => false
  run _ _ := .error "no closure"
  refuses _ _ := none

/-- `function rename(string $title, WindowHandle $window)`. -/
def renameSignature : List Parameter :=
  [⟨"title", .builtin "string" false, none⟩,
    ⟨"window", .named "Pam\\Desktop\\WindowHandle", none⟩]

/-- `rename` invoked from the window `preview`. -/
def renameContext (entries : Entries) : Context := ⟨true, 7, "rename", "preview", .array entries⟩

/-- The application has two windows and no bindings of its own. -/
def renameInvoker : CommandInvoker := ⟨fun _ => none, ["main", "preview"], []⟩

/-- The entry `title`. -/
def titled (title : String) : PhpKey × PhpValue :=
  (.string (osString "title"), .string (osString title))

/-- The entry `window`, an object with the identifier of another window. -/
def forgedWindow : PhpKey × PhpValue :=
  (.string (osString "window"), .array [(.string (osString "id"), .string (osString "main"))])

/-- The container of the invocation. -/
def renameContainer (entries : Entries) : Container :=
  renameInvoker.container.contextual
    [("Pam\\Desktop\\Invocation", .invocation),
      ("Pam\\Desktop\\Windows", .windows "preview" ["main", "preview"]),
      ("Pam\\Desktop\\WindowHandle", .windowHandle "preview"),
      ("Pam\\Desktop\\Events", .events),
      ("Pam\\Desktop\\ApplicationControl", .applicationControl),
      ("Pam\\Desktop\\CommandContext", .commandContext 7 "rename" "preview" (.array entries))]

theorem rename_scope (entries : Entries) :
    renameInvoker.scope (renameContext entries) = .ok (renameContainer entries) := by
  rfl

theorem rename_invoked (title : String) :
    renameInvoker.invokeContext windowClasses 5 renameSignature (renameContext [titled title]) =
      .ok [.value (.string (osString title)), .service (.windowHandle "preview")] := by
  rfl

theorem rename_unshadowed (title : String) :
    ¬ Shadows windowClasses [titled title] "window" "Pam\\Desktop\\WindowHandle" := by
  intro ⟨value, hvalue, _⟩
  cases hvalue

theorem rename_services_unforged :
    Unforged windowClasses (renameContainer [titled "A"]) (renameContainer [titled "B"])
      ⟨"window", .named "Pam\\Desktop\\WindowHandle", none⟩
      (.service (.windowHandle "preview")) (.service (.windowHandle "preview")) := by
  refine (services_unforged_iff windowClasses renameInvoker renameSignature
    (renameContext [titled "A"]) (.array [titled "B"]) 5 5 _ _ _ _ (rename_scope _)
    (rename_scope [titled "B"]) (rename_invoked "A") (rename_invoked "B")).mpr ?_ 1 _ _ _ rfl rfl
      rfl
  intro parameter hmem className htype _
  obtain rfl | hmem := List.mem_cons.mp hmem
  · cases htype
  · obtain rfl := List.mem_singleton.mp hmem
    cases htype
    exact ⟨rename_unshadowed "A", rename_unshadowed "B"⟩

/-- An entry `window` in the payload replaces the handle of the source window by one of the
main window. -/
theorem window_handle_forged :
    renameInvoker.invokeContext windowClasses 5 renameSignature (renameContext [titled "A"]) =
        .ok [.value (.string (osString "A")), .service (.windowHandle "preview")] ∧
      renameInvoker.invokeContext windowClasses 5 renameSignature
          (renameContext [titled "A", forgedWindow]) =
        .ok [.value (.string (osString "A")),
          .hydrated "Pam\\Desktop\\WindowHandle"
            [.value (.string (osString "main")), .service .invocation]] ∧
      ¬ Unforged windowClasses (renameContainer [titled "A"])
        (renameContainer [titled "A", forgedWindow])
        ⟨"window", .named "Pam\\Desktop\\WindowHandle", none⟩
        (.service (.windowHandle "preview"))
        (.hydrated "Pam\\Desktop\\WindowHandle"
          [.value (.string (osString "main")), .service .invocation]) := by
  refine ⟨rename_invoked "A", rfl, fun h => ?_⟩
  obtain ⟨binding', service, service', -, -, -, -, -, hreceived⟩ :=
    h "Pam\\Desktop\\WindowHandle" (.object (.windowHandle "preview")) rfl rfl
  cases hreceived

end PamDesktop.Php
