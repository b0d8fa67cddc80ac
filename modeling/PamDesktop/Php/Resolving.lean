import PamDesktop.Foundations.Resolution
import PamDesktop.Php.CommandInvoker
import PamDesktop.Php.JsonEncode

/-!
# Where the resolution of dependencies ends

`Container::get`, `CommandInvoker::argument` and `CommandInvoker::hydrate` as requests that ask for
each other. The interpreter's stack is left out here: a request either ends or it does not.
`resolution_ends_iff` says that a request ends exactly if it leads to no class that needs itself.
-/

namespace PamDesktop.Php

open Foundations Relation

/-- A call of one of the three functions. -/
inductive Request where
  | get (id : String)
  | argument (parameter : Parameter) (payload : Entries)
  | hydrate (className : String) (payload : Entries)

section

variable (php : Classes) (container : Container)

/-- A parameter of a constructor in the loop of `Container::get`. -/
def constructorRequirement (id : String) (parameter : Parameter) :
    Requirement Request String Argument :=
  match parameter.type, parameter.default with
  | .named dependency, _ => .task (.get dependency)
  | _, some default => .known (.ok default)
  | _, none =>
      .known (.error ("Cannot resolve constructor parameter " ++ id ++ "::$" ++
        parameter.name ++ "."))

/-- What a binding of the container comes to for a class. -/
def boundResult (id : String) (binding : Binding) : Except String Argument := do
  let resolved ← resolve php container binding
  if php.instanceOf resolved id then .ok (.service resolved)
  else .error ("The container binding for " ++ id ++ " returned an incompatible object.")

/-- The body of each of the three functions. -/
def requestPlan : Request → Plan Request String Argument
  | .get id =>
      match container id with
      | some binding => .known (boundResult php container id binding)
      | none =>
          match php.info id with
          | none => .known (.error ("Container entry " ++ id ++
              " does not name a class or interface."))
          | some info =>
              if info.instantiable then
                match info.constructor with
                | none => .known (.ok (.constructed id []))
                | some parameters =>
                    .build (parameters.map (constructorRequirement id)) fun arguments =>
                      instantiate php id arguments (.constructed id arguments)
              else .known (.error (id ++ " is not instantiable and has no container binding."))
  | .argument parameter payload =>
      match parameter.type with
      | .other =>
          .known (.error ("Command parameter $" ++ parameter.name ++
            " must have one named type."))
      | .builtin type allowsNull => .known (builtinArgument parameter type allowsNull payload)
      | .named className =>
          match enumCases php className, entryNamed payload parameter.name with
          | some cases, some value => .known (enumArgument className parameter.name cases value)
          | none, some (.array entries) =>
              match objectPayload parameter.name entries with
              | .error error => .known (.error error)
              | .ok entries => .forward (.hydrate className entries)
          | _, _ => .forward (.get className)
  | .hydrate className payload =>
      match php.info className with
      | none => .known (.error ("Class \"" ++ className ++ "\" does not exist"))
      | some info =>
          match info.constructor with
          | none => .forward (.get className)
          | some parameters =>
              .build (parameters.map fun parameter => .task (.argument parameter payload))
                fun arguments =>
                  if info.instantiable then
                    instantiate php className arguments (.hydrated className arguments)
                  else .error ("Cannot instantiate " ++ className)

/-- A request where the interpreter has so many calls left. -/
def Request.run (depth : Nat) : Request → Except String Argument
  | .get id => Php.get php container depth id
  | .argument parameter payload => Php.argument php container depth parameter payload
  | .hydrate className payload => Php.hydrate php container depth className payload

end

variable {php : Classes} {container : Container}

/-! ## The interpreter's stack -/

/-- Arguments that are gathered are those that `mapM` collects. -/
theorem map_m_of_gather {α : Type} {self : Request → Option (Except String Argument)}
    {f : α → Requirement Request String Argument} {g : α → Except String Argument} {xs : List α}
    (hself : ∀ x ∈ xs, ∀ result, Plan.meet self (f x) = some result → g x = result)
    {result : Except String (List Argument)} (h : Plan.gather self (xs.map f) = some result) :
    xs.mapM g = result := by
  induction xs generalizing result with
  | nil =>
      cases h
      rfl
  | cons x rest ih =>
      rw [List.map_cons, Plan.gather] at h
      have hhead := hself x List.mem_cons_self
      have htail : ∀ result, Plan.gather self (rest.map f) = some result → rest.mapM g = result :=
        fun _ => ih fun other hother => hself other (List.mem_cons_of_mem x hother)
      cases hfirst : Plan.meet self (f x) with
      | none => simp [hfirst] at h
      | some first =>
          rw [List.mapM_cons, hhead first hfirst]
          cases first with
          | error error =>
              cases (show some (Except.error error) = some result by simpa [hfirst] using h)
              rfl
          | ok value =>
              cases hrest : Plan.gather self (rest.map f) with
              | none => simp [hfirst, hrest] at h
              | some others =>
                  rw [htail others hrest]
                  cases others with
                  | error error =>
                      cases (show some (Except.error error) = some result by
                        simpa [hfirst, hrest] using h)
                      rfl
                  | ok values =>
                      cases (show some (Except.ok (value :: values)) = some result by
                        simpa [hfirst, hrest] using h)
                      rfl

/-- A plan that needs no other request comes to what it knows. -/
theorem known_result {self : Request → Option (Except String Argument)}
    {known result : Except String Argument}
    (h : Plan.carryOut self (.known known) = some result) : known = result := Option.some.inj h

/-- A plan that builds comes to what the collected arguments are made into. -/
theorem built_result {α : Type} {self : Request → Option (Except String Argument)}
    {f : α → Requirement Request String Argument} {g : α → Except String Argument} {xs : List α}
    {finish : List Argument → Except String Argument}
    (hself : ∀ x ∈ xs, ∀ result, Plan.meet self (f x) = some result → g x = result)
    {result : Except String Argument}
    (h : Plan.carryOut self (.build (xs.map f) finish) = some result) :
    (do let arguments ← xs.mapM g; finish arguments) = result := by
  simp only [Plan.carryOut] at h
  cases hvalues : Plan.gather self (xs.map f) with
  | none => simp [hvalues] at h
  | some values =>
      rw [map_m_of_gather hself hvalues]
      cases values with
      | error error =>
          show Except.error error = result
          simpa [hvalues] using h
      | ok arguments =>
          show finish arguments = result
          simpa [hvalues] using h

/-- A parameter of a constructor comes to what the loop makes of it. -/
theorem parameter_result {depth : Nat} {id : String} {parameter : Parameter}
    (hget : ∀ dependency result, Plan.resolve (requestPlan php container) depth
      (.get dependency) = some result → get php container depth dependency = result)
    {result : Except String Argument}
    (h : Plan.meet (Plan.resolve (requestPlan php container) depth)
      (constructorRequirement id parameter) = some result) :
    (match parameter.type, parameter.default with
      | .named dependency, _ => get php container depth dependency
      | _, some default => .ok default
      | _, none => .error ("Cannot resolve constructor parameter " ++ id ++ "::$" ++
          parameter.name ++ ".")) = result := by
  rcases parameter with ⟨name, type, default⟩
  cases type with
  | named dependency => exact hget dependency result h
  | builtin type allowsNull =>
      cases default with
      | none => exact Option.some.inj h
      | some default => exact Option.some.inj h
  | other =>
      cases default with
      | none => exact Option.some.inj h
      | some default => exact Option.some.inj h

/-- A parameter of a class comes to what `argument` makes of it. -/
theorem named_result {depth : Nat} {className name : String} {payload : Entries}
    (hget : ∀ result, Plan.resolve (requestPlan php container) depth (.get className) =
      some result → get php container depth className = result)
    (hhydrate : ∀ entries result, Plan.resolve (requestPlan php container) depth
      (.hydrate className entries) = some result →
        hydrate php container depth className entries = result)
    {result : Except String Argument}
    (h : Plan.carryOut (Plan.resolve (requestPlan php container) depth)
      (match enumCases php className, entryNamed payload name with
        | some cases, some value => .known (enumArgument className name cases value)
        | none, some (.array entries) =>
            match objectPayload name entries with
            | .error error => .known (.error error)
            | .ok entries => .forward (.hydrate className entries)
        | _, _ => .forward (.get className)) = some result) :
    (match enumCases php className, entryNamed payload name with
      | some cases, some value => enumArgument className name cases value
      | none, some (.array entries) => do
          let entries ← objectPayload name entries
          hydrate php container depth className entries
      | _, _ => get php container depth className) = result := by
  revert h
  cases enumCases php className with
  | some cases =>
      cases entryNamed payload name with
      | some value => exact known_result
      | none => exact hget result
  | none =>
      cases entryNamed payload name with
      | none => exact hget result
      | some value =>
          cases value with
          | array entries =>
              show Plan.carryOut _ (match objectPayload name entries with
                | .error error => .known (.error error)
                | .ok entries => .forward (Request.hydrate className entries)) = some result →
                (do let entries ← objectPayload name entries
                    hydrate php container depth className entries) = result
              cases objectPayload name entries with
              | error error => exact known_result
              | ok entries' => exact hhydrate entries' result
          | _ => exact hget result

/-- A request that ends within the calls that are left comes to its result. -/
theorem run_of_resolve {depth : Nat} {request : Request} {result : Except String Argument}
    (h : Plan.resolve (requestPlan php container) depth request = some result) :
    request.run php container depth = result := by
  induction depth generalizing request result with
  | zero => cases h
  | succ depth ih =>
      rw [Plan.resolve] at h
      have hget : ∀ id result, Plan.resolve (requestPlan php container) depth (.get id) =
          some result → get php container depth id = result := fun _ _ => ih
      have hhydrate : ∀ className entries result, Plan.resolve (requestPlan php container) depth
          (.hydrate className entries) = some result →
          hydrate php container depth className entries = result := fun _ _ _ => ih
      cases request with
      | get id =>
          show get php container (depth + 1) id = result
          cases hbinding : container id with
          | some binding =>
              simp only [requestPlan, hbinding] at h
              simp only [get, hbinding]
              exact known_result h
          | none =>
              cases hinfo : php.info id with
              | none =>
                  simp only [requestPlan, hbinding, hinfo] at h
                  simp only [get, hbinding, hinfo]
                  exact known_result h
              | some info =>
                  by_cases hinstantiable : info.instantiable = true
                  · cases hconstructor : info.constructor with
                    | none =>
                        simp only [requestPlan, hbinding, hinfo, if_pos hinstantiable,
                          hconstructor] at h
                        simp only [get, hbinding, hinfo, if_pos hinstantiable, hconstructor]
                        exact known_result h
                    | some parameters =>
                        simp only [requestPlan, hbinding, hinfo, if_pos hinstantiable,
                          hconstructor] at h
                        simp only [get, hbinding, hinfo, if_pos hinstantiable, hconstructor]
                        refine built_result ?_ h
                        intro parameter _ argument hargument
                        exact parameter_result hget hargument
                  · simp only [requestPlan, hbinding, hinfo, if_neg hinstantiable] at h
                    simp only [get, hbinding, hinfo, if_neg hinstantiable]
                    exact known_result h
      | argument parameter payload =>
          show argument php container (depth + 1) parameter payload = result
          cases htype : parameter.type with
          | other =>
              simp only [requestPlan, htype] at h
              simp only [argument, htype]
              exact known_result h
          | builtin type allowsNull =>
              simp only [requestPlan, htype] at h
              simp only [argument, htype]
              exact known_result h
          | named className =>
              simp only [requestPlan, htype] at h
              simp only [argument, htype]
              exact named_result (hget className) (hhydrate className) h
      | hydrate className payload =>
          show hydrate php container (depth + 1) className payload = result
          cases hinfo : php.info className with
          | none =>
              simp only [requestPlan, hinfo] at h
              simp only [hydrate, hinfo]
              exact known_result h
          | some info =>
              cases hconstructor : info.constructor with
              | none =>
                  simp only [requestPlan, hinfo, hconstructor] at h
                  simp only [hydrate, hinfo, hconstructor]
                  exact ih h
              | some parameters =>
                  simp only [requestPlan, hinfo, hconstructor] at h
                  simp only [hydrate, hinfo, hconstructor]
                  refine built_result ?_ h
                  intro parameter _ argument hargument
                  exact ih hargument

/-- A request that ends has the same result wherever the stack is large enough. -/
theorem run_of_ends {request : Request} (h : Plan.Ends (requestPlan php container) request) :
    ∃ depth result, ∀ more, depth ≤ more → request.run php container more = result := by
  obtain ⟨depth, result, hresult⟩ := h
  exact ⟨depth, result, fun more hle => run_of_resolve (Plan.resolve_mono hle hresult)⟩

/-! ## Needs -/

/-- The plan of a class knows its result or builds it from the parameters of the constructor. -/
theorem plan_get_cases (id : String) :
    (∃ result, requestPlan php container (.get id) = .known result) ∨
      container id = none ∧ ∃ info parameters, php.info id = some info ∧
        info.instantiable = true ∧ info.constructor = some parameters ∧
        requestPlan php container (.get id) =
          .build (parameters.map (constructorRequirement id)) fun arguments =>
            instantiate php id arguments (.constructed id arguments) := by
  rw [requestPlan]
  split
  · exact .inl ⟨_, rfl⟩
  · rename_i hunbound
    split
    · exact .inl ⟨_, rfl⟩
    · rename_i info hinfo
      split
      · rename_i hinstantiable
        split
        · exact .inl ⟨_, rfl⟩
        · rename_i parameters hconstructor
          exact .inr ⟨hunbound, info, parameters, hinfo, hinstantiable, hconstructor, rfl⟩
      · exact .inl ⟨_, rfl⟩

/-- Only a parameter of a class needs the container. -/
theorem constructor_requirement_task {id : String} {parameter : Parameter} {request : Request}
    (h : constructorRequirement id parameter = .task request) :
    ∃ dependency, parameter.type = .named dependency ∧ request = .get dependency := by
  rcases parameter with ⟨name, type, default⟩
  cases type with
  | named dependency =>
      cases h
      exact ⟨dependency, rfl, rfl⟩
  | builtin type allowsNull => cases default <;> cases h
  | other => cases default <;> cases h

/-- What a class needs of the container: the classes that its constructor names, as far as the
parameters before them can be filled. -/
theorem needs_get_iff {id : String} {request : Request} :
    Plan.Needs (requestPlan php container) (.get id) request ↔
      container id = none ∧ ∃ info before parameter after dependency values,
        php.info id = some info ∧ info.instantiable = true ∧
        info.constructor = some (before ++ parameter :: after) ∧
        parameter.type = .named dependency ∧ request = .get dependency ∧
        Plan.Fills (requestPlan php container) (before.map (constructorRequirement id)) values := by
  constructor
  · intro h
    have hcases : (∃ result, requestPlan php container (.get id) = .known result) ∨ _ :=
      plan_get_cases id
    rcases hcases with ⟨result, hknown⟩ |
      ⟨hunbound, info, parameters, hinfo, hinstantiable, hconstructor, hbuild⟩
    · cases h with
      | forward hplan =>
          rw [hknown] at hplan
          cases hplan
      | build before after finish values hplan hfills =>
          rw [hknown] at hplan
          cases hplan
    · cases h with
      | forward hplan =>
          rw [hbuild] at hplan
          cases hplan
      | build before after finish values hplan hfills =>
          rw [hbuild] at hplan
          injection hplan with hrequirements
          obtain ⟨first, second, rfl, rfl, hsecond⟩ := List.map_eq_append_iff.mp hrequirements
          obtain ⟨parameter, last, rfl, hparameter, rfl⟩ := List.map_eq_cons_iff.mp hsecond
          obtain ⟨dependency, htype, rfl⟩ := constructor_requirement_task hparameter
          exact ⟨hunbound, info, first, parameter, last, dependency, values, hinfo,
            hinstantiable, hconstructor, htype, rfl, hfills⟩
  · intro h
    obtain ⟨hunbound, info, before, parameter, after, dependency, values, hinfo, hinstantiable,
      hconstructor, htype, rfl, hfills⟩ := h
    have hparameter : constructorRequirement id parameter = .task (.get dependency) := by
      rw [constructorRequirement, htype]
    refine .build _ _ (before.map (constructorRequirement id))
      (after.map (constructorRequirement id))
      (fun arguments => instantiate php id arguments (.constructed id arguments)) values ?_ hfills
    rw [requestPlan]
    simp only [hunbound, hinfo, hinstantiable, hconstructor, if_true, List.map_append,
      List.map_cons, hparameter]

/-- The payload that is left to do. -/
def Request.weight : Request → Nat
  | .get _ => 0
  | .argument _ payload => 2 * nestingOfEntries payload + 1
  | .hydrate _ payload => 2 * nestingOfEntries payload + 2

theorem nesting_of_entry {entries : Entries} {entry : PhpKey × PhpValue} (h : entry ∈ entries) :
    entry.2.nesting ≤ nestingOfEntries entries := by
  induction entries with
  | nil => cases h
  | cons first rest ih =>
      obtain ⟨key, value⟩ := first
      rw [nestingOfEntries]
      rcases List.mem_cons.mp h with rfl | hrest
      · exact Nat.le_max_left _ _
      · exact (ih hrest).trans (Nat.le_max_right _ _)

theorem entry_named_nesting {payload entries : Entries} {name : String}
    (h : entryNamed payload name = some (.array entries)) :
    nestingOfEntries entries < nestingOfEntries payload := by
  unfold entryNamed at h
  obtain ⟨⟨key, value⟩, hfind, hvalue⟩ := Option.map_eq_some_iff.mp h
  have hle := nesting_of_entry (List.mem_of_find?_eq_some hfind)
  obtain rfl : value = .array entries := hvalue
  rw [PhpValue.nesting] at hle
  omega

/-- A request leads to the container or to a smaller payload. -/
theorem needs_smaller {request next : Request}
    (h : Plan.Needs (requestPlan php container) request next) :
    (∃ id, next = .get id) ∨ next.weight < request.weight := by
  cases request with
  | get id =>
      obtain ⟨-, info, before, parameter, after, dependency, values, -, -, -, -, rfl, -⟩ :=
        needs_get_iff.mp h
      exact .inl ⟨dependency, rfl⟩
  | argument parameter payload =>
      cases h with
      | build before after finish values hplan hfills =>
          rw [requestPlan] at hplan
          split at hplan
          · cases hplan
          · cases hplan
          · split at hplan
            · cases hplan
            · split at hplan <;> cases hplan
            · cases hplan
      | forward hplan =>
          rw [requestPlan] at hplan
          split at hplan
          · cases hplan
          · cases hplan
          · split at hplan
            · cases hplan
            · rename_i entries hcases hvalue
              split at hplan
              · cases hplan
              · rename_i entries' hobject
                cases hplan
                have hsame : entries' = entries := by
                  unfold objectPayload at hobject
                  split at hobject
                  · cases hobject
                    rfl
                  · cases hobject
                have hless := entry_named_nesting hvalue
                refine .inr ?_
                rw [hsame, Request.weight, Request.weight]
                omega
            · cases hplan
              exact .inl ⟨_, rfl⟩
  | hydrate className payload =>
      cases h with
      | forward hplan =>
          rw [requestPlan] at hplan
          split at hplan
          · cases hplan
          · split at hplan
            · cases hplan
              exact .inl ⟨_, rfl⟩
            · cases hplan
      | build before after finish values hplan hfills =>
          rw [requestPlan] at hplan
          split at hplan
          · cases hplan
          · split at hplan
            · cases hplan
            · rename_i parameters hconstructor
              injection hplan with hrequirements
              have hmem : Requirement.task next ∈ before ++ Requirement.task next :: after :=
                List.mem_append_right _ List.mem_cons_self
              rw [← hrequirements] at hmem
              obtain ⟨parameter, -, hparameter⟩ := List.mem_map.mp hmem
              cases hparameter
              refine .inr ?_
              rw [Request.weight, Request.weight]
              omega

/-- A request ends if the classes do that it leads to. -/
theorem acc_of_gets {request : Request}
    (h : ∀ id, ReflTransGen (Plan.Needs (requestPlan php container)) request (.get id) →
      Acc (fun inner outer => Plan.Needs (requestPlan php container) outer inner) (.get id)) :
    Acc (fun inner outer => Plan.Needs (requestPlan php container) outer inner) request := by
  induction hweight : request.weight using Nat.strong_induction_on generalizing request with
  | _ weight ih =>
      subst hweight
      refine .intro request ?_
      intro next hneeds
      rcases needs_smaller hneeds with ⟨id, rfl⟩ | hless
      · exact h id (.single hneeds)
      · exact ih next.weight hless (fun id hreach => h id (.head hneeds hreach)) rfl

/-! ## Ends -/

/-- A request ends exactly if no class that it leads to needs itself. -/
theorem resolution_ends_iff (php : Classes) (container : Container) {classes : Set String}
    (hfinite : classes.Finite) (hclasses : ∀ id info, php.info id = some info → id ∈ classes)
    (request : Request) :
    Plan.Ends (requestPlan php container) request ↔
      ¬∃ id, ReflTransGen (Plan.Needs (requestPlan php container)) request (.get id) ∧
        TransGen (Plan.Needs (requestPlan php container)) (.get id) (.get id) := by
  have hgets : ∀ id next, ReflTransGen (Plan.Needs (requestPlan php container)) (.get id) next →
      ∃ dependency, next = .get dependency := by
    intro id next hreach
    induction hreach with
    | refl => exact ⟨id, rfl⟩
    | tail _ hstep ih =>
        obtain ⟨other, rfl⟩ := ih
        obtain ⟨-, info, before, parameter, after, dependency, values, -, -, -, -, rfl, -⟩ :=
          needs_get_iff.mp hstep
        exact ⟨dependency, rfl⟩
  rw [Plan.ends_iff_acc]
  constructor
  · intro h hcycle
    obtain ⟨id, hreach, hcycle⟩ := hcycle
    exact not_cycle_of_acc (acc_of_reach h hreach) hcycle
  · intro h
    refine acc_of_gets ?_
    intro id hreach
    refine (acc_iff_no_cycle (hfinite.image Request.get) ?_).mpr ?_
    · intro outer inner hlead hstep
      obtain ⟨name, rfl⟩ := hgets id outer hlead
      obtain ⟨-, info, before, parameter, after, dependency, values, hinfo, -⟩ :=
        needs_get_iff.mp hstep
      exact ⟨name, hclasses name info hinfo, rfl⟩
    · intro hcycle
      obtain ⟨node, hlead, hcycle⟩ := hcycle
      obtain ⟨name, rfl⟩ := hgets id node hlead
      exact h ⟨name, hreach.trans hlead, hcycle⟩

/-- Orders whose constructor takes invoices, and invoices with a constructor of their own. -/
def orderClasses (constructor : Option (List Parameter)) : Classes where
  info id :=
    if id = "App\\Orders" then
      some { instantiable := true
             constructor := some [⟨"invoices", .named "App\\Invoices", none⟩] }
    else if id = "App\\Invoices" then some { instantiable := true, constructor := constructor }
    else none
  instanceOf _ _ := false
  run _ _ := .error ""
  refuses _ _ := none

theorem order_classes_finite (constructor : Option (List Parameter)) (id : String)
    (info : ClassInfo) (h : (orderClasses constructor).info id = some info) :
    id ∈ ({"App\\Orders", "App\\Invoices"} : Set String) := by
  by_cases horders : id = "App\\Orders"
  · exact .inl horders
  · by_cases hinvoices : id = "App\\Invoices"
    · exact .inr hinvoices
    · simp [orderClasses, horders, hinvoices] at h

/-- Only orders need anything. -/
theorem orders_need {id : String} {request : Request}
    (h : Plan.Needs (requestPlan (orderClasses none) fun _ => none) (.get id) request) :
    id = "App\\Orders" ∧ request = .get "App\\Invoices" := by
  obtain ⟨-, info, before, parameter, after, dependency, values, hinfo, -, hconstructor, htype,
    rfl, -⟩ := needs_get_iff.mp h
  have horders : id = "App\\Orders" := by
    by_contra hother
    rcases order_classes_finite none id info hinfo with h | h
    · exact hother h
    · cases (show id = "App\\Invoices" from h)
      cases hinfo
      cases hconstructor
  subst horders
  cases hinfo
  rcases before with _ | ⟨first, before⟩
  · cases hconstructor
    cases htype
    exact ⟨rfl, rfl⟩
  · cases before <;> cases hconstructor

/-- Invoices without a constructor: the orders are resolved. -/
theorem orders_resolved :
    Plan.Ends (requestPlan (orderClasses none) fun _ => none) (.get "App\\Orders") := by
  refine (resolution_ends_iff (orderClasses none) (fun _ => none)
    (Set.toFinite {"App\\Orders", "App\\Invoices"}) (order_classes_finite none) _).mpr ?_
  intro hcycle
  obtain ⟨id, -, hcycle⟩ := hcycle
  obtain ⟨first, hfirst, hrest⟩ := TransGen.head'_iff.mp hcycle
  obtain ⟨rfl, rfl⟩ := orders_need hfirst
  -- the cycle goes on from the invoices
  rcases ReflTransGen.cases_head hrest with heq | ⟨next, hnext, -⟩
  · exact absurd (Request.get.inj heq) (by decide)
  · exact absurd (orders_need hnext).1 (by decide)

/-- Invoices that take the orders: the resolution of neither ends. -/
theorem orders_unresolved :
    ¬Plan.Ends (requestPlan
      (orderClasses (some [⟨"orders", .named "App\\Orders", none⟩])) fun _ => none)
      (.get "App\\Orders") := by
  intro hends
  refine not_cycle_of_acc (Plan.ends_iff_acc.mp hends)
    (.tail (.single (b := .get "App\\Invoices") ?_) ?_)
  · exact needs_get_iff.mpr ⟨rfl, _, [], _, [], _, [], rfl, rfl, rfl, rfl, rfl, .nil⟩
  · exact needs_get_iff.mpr ⟨rfl, _, [], _, [], _, [], rfl, rfl, rfl, rfl, rfl, .nil⟩

end PamDesktop.Php
