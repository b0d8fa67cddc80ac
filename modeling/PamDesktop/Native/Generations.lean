import PamDesktop.Foundations.Transition
import PamDesktop.Native.Restart

/-!
# Generations of services on one store

A reload prepares a new generation of `NativeServices` while calls on the old one go on, and two
hosts of one application have one each. Every generation loads the store once, and writes it from
its own map through one temporary file. `GenerationEvent` is one step of one call, with what the
operating system answers. `Sound` is what holds in the runs whose steps are `Admitted`, and
`Sound.change` what is to be shown of one step.
-/

namespace PamDesktop.Native

open Foundations Protocol

/-! ## At most one -/

/-- At most one element of the list has the property. -/
def AtMostOne {α : Type} (p : α → Prop) (list : List α) : Prop :=
  ∀ (i j : Nat) (a b : α), list[i]? = some a → list[j]? = some b → p a → p b → i = j

/-- What is in a list in which one element was replaced. -/
theorem get_set {α : Type} {list : List α} {i j : Nat} {new found : α}
    (h : (list.set i new)[j]? = some found) :
    (j = i ∧ found = new) ∨ (j ≠ i ∧ list[j]? = some found) := by
  by_cases heq : i = j
  · subst heq
    obtain ⟨hlt, hget⟩ := List.getElem?_eq_some_iff.mp h
    rw [List.getElem_set_self] at hget
    exact .inl ⟨rfl, hget.symm⟩
  · rw [List.getElem?_set_ne heq] at h
    exact .inr ⟨fun h => heq h.symm, h⟩

/-- What is in a list that one element was added to. -/
theorem get_append {α : Type} {list : List α} {j : Nat} {new found : α}
    (h : (list ++ [new])[j]? = some found) :
    (j = list.length ∧ found = new) ∨ (j < list.length ∧ list[j]? = some found) := by
  by_cases hlt : j < list.length
  · rw [List.getElem?_append_left hlt] at h
    exact .inr ⟨hlt, h⟩
  · rw [List.getElem?_append_right (Nat.le_of_not_lt hlt), List.getElem?_singleton] at h
    split at h
    · exact .inl ⟨by omega, (Option.some.inj h).symm⟩
    · cases h

theorem AtMostOne.set {α : Type} {p : α → Prop} {list : List α} {i : Nat} {old new : α}
    (h : AtMostOne p list) (hold : list[i]? = some old)
    (hnew : p new → p old ∨ ∀ a ∈ list, ¬ p a) : AtMostOne p (list.set i new) := by
  intro j k a b hset hset' hpa hpb
  obtain ⟨hj, ha⟩ | ⟨hj, ha⟩ := get_set hset
  · obtain ⟨hk, hb⟩ | ⟨hk, hb⟩ := get_set hset'
    · exact hj.trans hk.symm
    · obtain hpold | hnone := hnew (ha ▸ hpa)
      · exact hj.trans (h i k old b hold hb hpold hpb)
      · exact absurd hpb (hnone b (List.mem_of_getElem? hb))
  · obtain ⟨hk, hb⟩ | ⟨hk, hb⟩ := get_set hset'
    · obtain hpold | hnone := hnew (hb ▸ hpb)
      · exact (h j i a old ha hold hpa hpold).trans hk.symm
      · exact absurd hpa (hnone a (List.mem_of_getElem? ha))
    · exact h j k a b ha hb hpa hpb

theorem AtMostOne.append {α : Type} {p : α → Prop} {list : List α} {new : α}
    (h : AtMostOne p list) (hnew : ¬ p new) : AtMostOne p (list ++ [new]) := by
  intro j k a b ha hb hpa hpb
  obtain ⟨-, rfl⟩ | ⟨-, ha⟩ := get_append ha
  · exact absurd hpa hnew
  · obtain ⟨-, rfl⟩ | ⟨-, hb⟩ := get_append hb
    · exact absurd hpb hnew
    · exact h j k a b ha hb hpa hpb

/-! ## The calls -/

/-- The part of `NativeServices` that is about the store. `version` is that of the store when it
was loaded or written last. -/
structure Services where
  persistentGrants : PersistentGrants
  version : Nat

/-- Where `persist_grants` is: before the bytes are there, before the temporary file is open, in
`write_all` and `sync_all`, or before the rename. -/
inductive Persisting where
  | checking
  | opening (bytes : List UInt8)
  | writing (bytes : List UInt8) (inode offset : Nat)
  | publishing (bytes : List UInt8) (inode : Nat)

/-- Where a call of `grant_paths` is: before the next path, with a grant in memory, with the lock
of the persistent grants, or at its end. -/
inductive GrantPhase where
  | selecting
  | created (id : String) (selection : Selection)
  | persisting (id : String) (entry : PersistentGrant) (step : Persisting)
  | answered (result : Except NativeError Unit)

/-- A call of `grant_paths` that asks for persistent grants: the paths that are left, and what was
granted so far. -/
structure GrantCall where
  services : Nat
  access : FileAccess
  remaining : List Selection
  granted : PersistentGrants
  phase : GrantPhase

/-- The generations with their calls, and the directory of the store. `grants` are the grants in
memory of each generation, `encoded` the maps that were encoded. No thread panics, so no lock is
poisoned. -/
structure Generations where
  services : List Services
  grants : List (List (String × FileGrant))
  calls : List GrantCall
  inodes : List (List UInt8)
  store : Option Nat
  temporary : Option Nat
  version : Nat
  encoded : List PersistentGrants

def GrantPhase.persists : GrantPhase → Bool
  | .persisting _ _ _ => true
  | _ => false

/-- The temporary file that a call has open. -/
def GrantPhase.inode : GrantPhase → Option Nat
  | .persisting _ _ (.writing _ inode _) => some inode
  | .persisting _ _ (.publishing _ inode) => some inode
  | _ => none

/-- The end of a call. -/
def GrantCall.answer (call : GrantCall) (result : Except NativeError Unit) : GrantCall :=
  { call with phase := .answered result }

/-- A chunk is written at an offset; a gap before it is filled with zeros. -/
def overwrite (contents : List UInt8) (offset : Nat) (chunk : List UInt8) : List UInt8 :=
  contents.take offset ++ List.replicate (offset - contents.length) 0 ++ chunk ++
    contents.drop (offset + chunk.length)

namespace Generations

/-- What is at the path of the store. -/
def contents (s : Generations) : Option (List UInt8) := s.store.bind fun inode => s.inodes[inode]?

/-- A call goes on. -/
def put (s : Generations) (index : Nat) (call : GrantCall) : Generations :=
  { s with calls := s.calls.set index call }

/-- The map of a generation changes. -/
def keep (s : Generations) (index : Nat) (services : Services) : Generations :=
  { s with services := s.services.set index services }

/-- The lock of the persistent grants is taken. -/
def locked (s : Generations) (services : Nat) : Bool :=
  s.calls.any fun call => call.services == services && call.phase.persists

/-- `persist_grants` has failed: the grant is removed from both maps. -/
def fail (s : Generations) (index : Nat) (call : GrantCall) (services : Services) (id : String)
    (error : NativeError) : Generations :=
  { (s.put index (call.answer (.error error))).keep call.services
      { services with persistentGrants := removeGrant id services.persistentGrants } with
    grants := s.grants.modify call.services (removeGrant id) }

/-- The next path: `create_file_grant`, `secure_grant_id` and the grant in memory. -/
def select (s : Generations) (index : Nat) (call : GrantCall) : Generations :=
  match call.remaining with
  | [] => s.put index (call.answer (.ok ()))
  | selection :: rest =>
      match createFileGrant selection.turn.created selection.path call.access with
      | .error error => s.put index (call.answer (.error error))
      | .ok grant =>
          match secureGrantId selection.turn.random with
          | .error error => s.put index (call.answer (.error error))
          | .ok id =>
              { s.put index { call with remaining := rest, phase := .created id selection } with
                grants := s.grants.modify call.services (insertGrant id grant) }

/-- `canonical_grant_target`, the lock and the entry; `none` where the lock is taken. -/
def enter (s : Generations) (index : Nat) (call : GrantCall) (services : Services) (id : String)
    (selection : Selection) : Option Generations :=
  match canonicalGrantTarget selection.turn.settled selection.path call.access with
  | .error error => some (s.put index (call.answer (.error error)))
  | .ok canonical =>
      if s.locked call.services then none
      else
        let entry : PersistentGrant := ⟨pathBytes canonical, call.access⟩
        some ((s.put index { call with phase := .persisting id entry .checking }).keep
          call.services
          { services with persistentGrants := insertGrant id entry services.persistentGrants })

/-- `create_dir_all` and `serde_json::to_vec`. -/
def encode (s : Generations) (index : Nat) (call : GrantCall) (services : Services) (id : String)
    (entry : PersistentGrant) (answer : Except IoError Nat) : Generations :=
  if maxPersistentGrants < services.persistentGrants.length then
    s.fail index call services id
      (.tooLarge "Applications may retain at most 128 persistent file grants.")
  else
    match answer with
    | .error error =>
        s.fail index call services id (.io "Cannot create the file grant store" error)
    | .ok _ =>
        match encodeGrants services.persistentGrants with
        | .error error => s.fail index call services id error
        | .ok bytes =>
            { s.put index { call with phase := .persisting id entry (.opening bytes) } with
              encoded := services.persistentGrants :: s.encoded }

/-- The temporary file is opened: created, or truncated. -/
def openTemporary (s : Generations) (index : Nat) (call : GrantCall) (services : Services)
    (id : String) (entry : PersistentGrant) (bytes : List UInt8) :
    Except IoError Nat → Generations
  | .error error => s.fail index call services id (.io "Cannot create persistent file grants" error)
  | .ok _ =>
      match s.temporary with
      | some inode =>
          { s.put index { call with phase := .persisting id entry (.writing bytes inode 0) } with
            inodes := s.inodes.set inode [] }
      | none =>
          let inode := s.inodes.length
          { s.put index { call with phase := .persisting id entry (.writing bytes inode 0) } with
            inodes := s.inodes ++ [[]]
            temporary := some inode }

/-- A round of `write_all`, or `sync_all` after the last; `none` if more would be written than
there is. -/
def writeTemporary (s : Generations) (index : Nat) (call : GrantCall) (services : Services)
    (id : String) (entry : PersistentGrant) (bytes : List UInt8) (inode offset : Nat) :
    Except IoError Nat → Option Generations
  | .error error =>
      some (s.fail index call services id (.io "Cannot write persistent file grants" error))
  | .ok count =>
      if offset < bytes.length then
        if count = 0 then
          some (s.fail index call services id
            (.io "Cannot write persistent file grants" ⟨.other, "failed to write whole buffer"⟩))
        else if bytes.length < offset + count then none
        else
          some { s.put index { call with
                phase := .persisting id entry (.writing bytes inode (offset + count)) } with
            inodes := s.inodes.modify inode fun contents =>
              overwrite contents offset ((bytes.drop offset).take count) }
      else
        some (s.put index { call with phase := .persisting id entry (.publishing bytes inode) })

/-- The temporary file is renamed to the store, and the call goes on to the next path. -/
def publish (s : Generations) (index : Nat) (call : GrantCall) (services : Services) (id : String)
    (entry : PersistentGrant) : Except IoError Nat → Generations
  | .error error =>
      s.fail index call services id (.io "Cannot publish persistent file grants" error)
  | .ok _ =>
      match s.temporary with
      | none => s.fail index call services id
          (.io "Cannot publish persistent file grants" (ioErrorOf .notFound))
      | some inode =>
          { (s.put index { call with
                granted := (id, entry) :: call.granted, phase := .selecting }).keep call.services
              { services with version := s.version + 1 } with
            store := some inode
            temporary := none
            version := s.version + 1 }

/-- `persist_grants`. -/
def persist (s : Generations) (index : Nat) (call : GrantCall) (services : Services) (id : String)
    (entry : PersistentGrant) (answer : Except IoError Nat) : Persisting → Option Generations
  | .checking => some (s.encode index call services id entry answer)
  | .opening bytes => some (s.openTemporary index call services id entry bytes answer)
  | .writing bytes inode offset =>
      s.writeTemporary index call services id entry bytes inode offset answer
  | .publishing _ _ => some (s.publish index call services id entry answer)

/-- A step of a call. -/
def run (s : Generations) (index : Nat) (call : GrantCall) (services : Services)
    (answer : Except IoError Nat) : Option Generations :=
  match call.phase with
  | .selecting => some (s.select index call)
  | .created id selection => s.enter index call services id selection
  | .persisting id entry step => s.persist index call services id entry answer step
  | .answered _ => none

/-- The part of `NativeServices::prepare` that is about grants. -/
def prepare (reader : JsonReader) (files : Files) (s : Generations) : Generations :=
  match prepareGrants reader files (s.contents.map fun contents => ⟨false, contents⟩) with
  | .error _ => s
  | .ok prepared =>
      { s with
        services := s.services ++ [⟨prepared.persistentGrants, s.version⟩]
        grants := s.grants ++ [prepared.grants] }

end Generations

inductive GenerationEvent where
  /-- A host or a reload prepares services. -/
  | prepare (files : Files)
  /-- A dialog calls `grant_paths` on the services that it was given. -/
  | grantPaths (services : Nat) (access : FileAccess) (selections : List Selection)
  /-- A call goes on, with what the operating system answers: an error, or how much was written. -/
  | run (index : Nat) (answer : Except IoError Nat)

/-- The generations of an application. -/
def generations (reader : JsonReader) : System Generations GenerationEvent where
  next s
    | .prepare files => some (s.prepare reader files)
    | .grantPaths services access selections =>
        if services < s.services.length then
          some { s with calls := s.calls ++ [⟨services, access, selections, [], .selecting⟩] }
        else none
    | .run index answer =>
        match s.calls[index]? with
        | none => none
        | some call =>
            match s.services[call.services]? with
            | none => none
            | some services => s.run index call services answer

/-- No host runs. A store may be there, and a temporary file that a killed host has left. -/
def noGenerations (store temporary : Option (List UInt8)) : Generations where
  services := []
  grants := []
  calls := []
  inodes := store.toList ++ temporary.toList
  store := store.map fun _ => 0
  temporary := temporary.map fun _ => store.toList.length
  version := 0
  encoded := []

/-! ## Runs that keep the grants -/

/-- The call is at its end. -/
def GrantPhase.Ended : GrantPhase → Prop
  | .answered _ => True
  | _ => False

namespace Generations

/-- When every call has ended, the store has the grants of those that have succeeded; and it always
has what it had at first or a whole map that was encoded. -/
structure Durable (initial : Option (List UInt8)) (s : Generations) : Prop where
  granted : (∀ call ∈ s.calls, call.phase.Ended) → ∀ call ∈ s.calls,
    call.phase = .answered (.ok ()) → ∀ entry ∈ call.granted,
      ∃ grants, s.contents = some (grantsJson grants).bytes ∧ entry ∈ grants
  whole : s.contents = initial ∨
    ∃ grants ∈ s.encoded, s.contents = some (grantsJson grants).bytes

/-- The id is not in use, the temporary file is opened by one call at a time, and the store is
replaced by the generation that has loaded or written it last. -/
def StepAdmitted (s : Generations) (services : Services) (answer : Except IoError Nat) :
    GrantPhase → Prop
  | .created id _ => id ∉ services.persistentGrants.map Prod.fst
  | .persisting _ _ (.opening _) => answer.isOk = true → ∀ call ∈ s.calls, call.phase.inode = none
  | .persisting _ _ (.publishing _ _) => answer.isOk = true → services.version = s.version
  | _ => True

instance (s : Generations) (services : Services) (answer : Except IoError Nat)
    (phase : GrantPhase) : Decidable (s.StepAdmitted services answer phase) :=
  match phase with
  | .created id _ => inferInstanceAs (Decidable (id ∉ services.persistentGrants.map Prod.fst))
  | .persisting _ _ (.opening _) => inferInstanceAs
      (Decidable (answer.isOk = true → ∀ call ∈ s.calls, call.phase.inode = none))
  | .persisting _ _ (.publishing _ _) => inferInstanceAs
      (Decidable (answer.isOk = true → services.version = s.version))
  | .persisting _ _ .checking => .isTrue trivial
  | .persisting _ _ (.writing _ _ _) => .isTrue trivial
  | .selecting => .isTrue trivial
  | .answered _ => .isTrue trivial

/-- What is asked of a step. -/
def Admitted (s : Generations) : GenerationEvent → Prop
  | .run index answer => ∀ call ∈ s.calls[index]?, ∀ services ∈ s.services[call.services]?,
      s.StepAdmitted services answer call.phase
  | .prepare _ => True
  | .grantPaths _ _ _ => True

instance (s : Generations) (event : GenerationEvent) : Decidable (s.Admitted event) :=
  match event with
  | .run index answer => inferInstanceAs (Decidable (∀ call ∈ s.calls[index]?,
      ∀ services ∈ s.services[call.services]?, s.StepAdmitted services answer call.phase))
  | .prepare _ => .isTrue trivial
  | .grantPaths _ _ _ => .isTrue trivial

/-! ### What a call relies on -/

/-- The bytes of a call are those of the map, which is locked. -/
structure Encoded (s : Generations) (services : Services) (bytes : List UInt8) : Prop where
  bytes : bytes = (grantsJson services.persistentGrants).bytes
  storable : Storable services.persistentGrants
  known : services.persistentGrants ∈ s.encoded

/-- The temporary file has these bytes. -/
structure Prepared (s : Generations) (inode : Nat) (bytes : List UInt8) : Prop where
  temporary : s.temporary = some inode
  contents : s.inodes[inode]? = some bytes

inductive StepOk (s : Generations) (services : Services) : Persisting → Prop
  | checking : StepOk s services .checking
  | opening {bytes : List UInt8} : s.Encoded services bytes → StepOk s services (.opening bytes)
  | writing {bytes : List UInt8} {inode offset : Nat} : s.Encoded services bytes →
      offset ≤ bytes.length → s.Prepared inode (bytes.take offset) →
      StepOk s services (.writing bytes inode offset)
  | publishing {bytes : List UInt8} {inode : Nat} : s.Encoded services bytes →
      s.Prepared inode bytes → StepOk s services (.publishing bytes inode)

/-- What a call relies on, where `current` is the map that the store has. -/
inductive PhaseOk (s : Generations) (current : PersistentGrants) (services : Services) :
    GrantPhase → Prop
  | selecting : PhaseOk s current services .selecting
  | created {token : Token} {selection : Selection} :
      PhaseOk s current services (.created (Updater.encodeHex token.1) selection)
  | persisting {id : String} {entry : PersistentGrant} {step : Persisting} :
      (id, entry) ∈ services.persistentGrants →
      (services.version = s.version → id ∉ current.map Prod.fst) → s.StepOk services step →
      PhaseOk s current services (.persisting id entry step)
  | answered {result : Except NativeError Unit} : PhaseOk s current services (.answered result)

/-- What holds of the map of a generation: it can be stored, as far as its length and the texts of
its paths permit. -/
structure Keepable (grants : PersistentGrants) : Prop where
  distinct : (grants.map Prod.fst).Nodup
  valid : ∀ entry ∈ grants, validEntry entry = true

/-- What holds of a generation. -/
structure ServicesOk (s : Generations) (current : PersistentGrants) (services : Services) :
    Prop where
  version : services.version ≤ s.version
  keepable : Keepable services.persistentGrants
  current : services.version = s.version → ∀ entry ∈ current, entry ∈ services.persistentGrants

/-- What holds of a call. -/
structure CallOk (s : Generations) (current : PersistentGrants) (call : GrantCall) : Prop where
  granted : ∀ entry ∈ call.granted, entry ∈ current
  phase : ∃ services, s.services[call.services]? = some services ∧
    s.PhaseOk current services call.phase

/-- What holds of the files. -/
structure FilesOk (initial : Option (List UInt8)) (s : Generations) (current : PersistentGrants) :
    Prop where
  store : ∀ inode, s.store = some inode → inode < s.inodes.length
  temporary : ∀ inode, s.temporary = some inode → inode < s.inodes.length ∧ s.store ≠ some inode
  contents : (s.version = 0 ∧ current = [] ∧ s.contents = initial) ∨
    (Storable current ∧ current ∈ s.encoded ∧ s.contents = some (grantsJson current).bytes)

/-- The calls do not get in each other's way. -/
structure Exclusive (s : Generations) : Prop where
  locked : ∀ services,
    AtMostOne (fun call => call.services = services ∧ call.phase.persists = true) s.calls
  opened : AtMostOne (fun call => call.phase.inode ≠ none) s.calls

/-- What holds in a run that keeps the grants. -/
structure Sound (initial : Option (List UInt8)) (s : Generations) (current : PersistentGrants) :
    Prop where
  files : s.FilesOk initial current
  exclusive : s.Exclusive
  services : ∀ services ∈ s.services, s.ServicesOk current services
  calls : ∀ call ∈ s.calls, s.CallOk current call

variable {initial : Option (List UInt8)} {s s' : Generations} {current : PersistentGrants}

theorem Sound.durable (hs : s.Sound initial current) : s.Durable initial := by
  constructor
  · intro hended call hcall hanswered entry hentry
    have hcurrent := (hs.calls call hcall).granted entry hentry
    obtain ⟨-, hnone, -⟩ | ⟨-, -, hcontents⟩ := hs.files.contents
    · rw [hnone] at hcurrent
      cases hcurrent
    · exact ⟨current, hcontents, hcurrent⟩
  · obtain ⟨-, -, hcontents⟩ | ⟨-, hknown, hcontents⟩ := hs.files.contents
    · exact .inl hcontents
    · exact .inr ⟨current, hknown, hcontents⟩

/-! ### What a step leaves to the others -/

variable {current' : PersistentGrants} {services : Services} {phase : GrantPhase}

theorem PhaseOk.idle {services' : Services} (h : s.PhaseOk current services phase)
    (hidle : phase.persists = false) : s'.PhaseOk current' services' phase := by
  cases h with
  | selecting => exact .selecting
  | created => exact .created
  | persisting _ _ _ => cases hidle
  | answered => exact .answered

theorem Encoded.frame {bytes : List UInt8} (h : s.Encoded services bytes)
    (hknown : ∀ grants ∈ s.encoded, grants ∈ s'.encoded) : s'.Encoded services bytes :=
  ⟨h.bytes, h.storable, hknown _ h.known⟩

theorem PhaseOk.frame (h : s.PhaseOk current services phase)
    (hfresh : services.version = s'.version → services.version = s.version ∧ current' = current)
    (hknown : ∀ grants ∈ s.encoded, grants ∈ s'.encoded)
    (hfiles : (s'.temporary = s.temporary ∧ s'.inodes = s.inodes) ∨ phase.inode = none) :
    s'.PhaseOk current' services phase := by
  cases h with
  | selecting => exact .selecting
  | created => exact .created
  | answered => exact .answered
  | persisting hentry hid hstep =>
      refine .persisting hentry (fun hversion => ?_) ?_
      · obtain ⟨hbefore, hsame⟩ := hfresh hversion
        rw [hsame]
        exact hid hbefore
      · cases hstep with
        | checking => exact .checking
        | opening hencoded => exact .opening (hencoded.frame hknown)
        | writing hencoded hoffset hprepared =>
            obtain ⟨htemporary, hinodes⟩ | hnone := hfiles
            · exact .writing (hencoded.frame hknown) hoffset
                ⟨htemporary ▸ hprepared.temporary, hinodes ▸ hprepared.contents⟩
            · cases hnone
        | publishing hencoded hprepared =>
            obtain ⟨htemporary, hinodes⟩ | hnone := hfiles
            · exact .publishing (hencoded.frame hknown)
                ⟨htemporary ▸ hprepared.temporary, hinodes ▸ hprepared.contents⟩
            · cases hnone

/-- A step of the call at `index`, as the other calls and generations see it. -/
structure Change (s s' : Generations) (current current' : PersistentGrants) (index : Nat)
    (call call' : GrantCall) (services services' : Services) : Prop where
  calling : s.calls[index]? = some call
  found : s.services[call.services]? = some services
  calls : s'.calls = s.calls.set index call'
  maps : s'.services = s.services.set call.services services'
  same : call'.services = call.services
  known : ∀ grants ∈ s.encoded, grants ∈ s'.encoded
  lock : services' = services ∨ ∀ j other, j ≠ index → s.calls[j]? = some other →
    other.services = call.services → other.phase.persists = false
  files : (s'.temporary = s.temporary ∧ s'.inodes = s.inodes) ∨
    ∀ j other, j ≠ index → s.calls[j]? = some other → other.phase.inode = none
  current : (s'.version = s.version ∧ current' = current) ∨
    (s.version < s'.version ∧ ∀ entry ∈ current, entry ∈ current')
  persists : call'.phase.persists = true → call.phase.persists = true ∨
    ∀ other ∈ s.calls, ¬ (other.services = call.services ∧ other.phase.persists = true)
  opened : call'.phase.inode ≠ none → call.phase.inode ≠ none ∨
    ∀ other ∈ s.calls, ¬ other.phase.inode ≠ none

variable {index : Nat} {call call' : GrantCall} {services' : Services}

theorem Change.others (h : Change s s' current current' index call call' services services')
    (hs : s.Sound initial current) {j : Nat} {other : GrantCall} (hj : j ≠ index)
    (hother : s.calls[j]? = some other) : s'.CallOk current' other := by
  have hok := hs.calls other (List.mem_of_getElem? hother)
  obtain ⟨found, hfound, hphase⟩ := hok.phase
  have hgranted : ∀ entry ∈ other.granted, entry ∈ current' := by
    intro entry hentry
    obtain ⟨-, hsame⟩ | ⟨-, hsub⟩ := h.current
    · rw [hsame]
      exact hok.granted entry hentry
    · exact hsub entry (hok.granted entry hentry)
  have hframe : s'.PhaseOk current' found other.phase := by
    refine hphase.frame (fun hversion => ?_) h.known ?_
    · obtain ⟨hsame, hcurrent⟩ | ⟨hlater, -⟩ := h.current
      · exact ⟨hversion.trans hsame, hcurrent⟩
      · have hle := (hs.services found (List.mem_of_getElem? hfound)).version
        omega
    · obtain hfiles | hnone := h.files
      · exact .inl hfiles
      · exact .inr (hnone j other hj hother)
  refine ⟨hgranted, ?_⟩
  rw [h.maps]
  by_cases hsame : other.services = call.services
  · have hlt : call.services < s.services.length := (List.getElem?_eq_some_iff.mp h.found).1
    refine ⟨services', by rw [hsame, List.getElem?_set_self hlt], ?_⟩
    obtain hlock | hidle := h.lock
    · have heq : found = services := Option.some.inj (hfound.symm.trans (hsame ▸ h.found))
      rw [hlock, ← heq]
      exact hframe
    · exact hphase.idle (hidle j other hj hother hsame)
  · exact ⟨found, by rw [List.getElem?_set_ne fun heq => hsame heq.symm]; exact hfound, hframe⟩

/-- What is to be shown of a step: what holds of the files, of the generation and of the call. -/
theorem Sound.change (hs : s.Sound initial current) (index : Nat) (call : GrantCall)
    (services : Services)
    (h : Change s s' current current' index call call' services services')
    (hfiles : s'.FilesOk initial current')
    (hservices : s'.ServicesOk current' services') (hcall : s'.CallOk current' call') :
    s'.Sound initial current' := by
  refine ⟨hfiles, ⟨fun key => ?_, ?_⟩, ?_, ?_⟩
  · rw [h.calls]
    refine (hs.exclusive.locked key).set h.calling fun hnew => ?_
    have hkey : call.services = key := h.same.symm.trans hnew.1
    obtain hbefore | hnone := h.persists hnew.2
    · exact .inl ⟨hkey, hbefore⟩
    · exact .inr fun other hother => hkey ▸ hnone other hother
  · rw [h.calls]
    exact hs.exclusive.opened.set h.calling h.opened
  · intro other hother
    rw [h.maps] at hother
    obtain hother | rfl := List.mem_or_eq_of_mem_set hother
    · have hok := hs.services other hother
      obtain ⟨hsame, hcurrent⟩ | ⟨hlater, -⟩ := h.current
      · exact ⟨hsame ▸ hok.version, hok.keepable, fun hversion => by
          rw [hcurrent]
          exact hok.current (hversion.trans hsame)⟩
      · have hle := hok.version
        exact ⟨by omega, hok.keepable, fun hversion => by omega⟩
    · exact hservices
  · intro other hother
    rw [h.calls] at hother
    obtain ⟨j, hj⟩ := List.getElem?_of_mem hother
    obtain ⟨-, rfl⟩ | ⟨hne, hget⟩ := get_set hj
    · exact hcall
    · exact h.others hs hne hget

/-- The other calls on the generation of a call with the lock wait. -/
theorem Exclusive.waiting (h : s.Exclusive) (hcall : s.calls[index]? = some call)
    (hpersists : call.phase.persists = true) {j : Nat} {other : GrantCall} (hj : j ≠ index)
    (hother : s.calls[j]? = some other) (hsame : other.services = call.services) :
    other.phase.persists = false := by
  cases hbusy : other.phase.persists with
  | false => rfl
  | true =>
      exact absurd (h.locked call.services j index other call hother hcall ⟨hsame, hbusy⟩
        ⟨rfl, hpersists⟩) hj

/-- No other call has the temporary file open. -/
theorem Exclusive.closed (h : s.Exclusive) (hcall : s.calls[index]? = some call)
    (hopen : call.phase.inode ≠ none) {j : Nat} {other : GrantCall} (hj : j ≠ index)
    (hother : s.calls[j]? = some other) : other.phase.inode = none := by
  by_cases hbusy : other.phase.inode = none
  · exact hbusy
  · exact absurd (h.opened j index other call hother hcall hbusy hopen) hj

theorem set_same {α : Type} {list : List α} {i : Nat} {a : α} (h : list[i]? = some a) :
    list.set i a = list := by
  obtain ⟨hlt, hget⟩ := List.getElem?_eq_some_iff.mp h
  rw [← hget]
  exact List.set_getElem_self hlt

theorem closed_of_idle {phase : GrantPhase} (h : phase.persists = false) : phase.inode = none := by
  cases phase with
  | persisting id entry step => cases h
  | selecting => rfl
  | created id selection => rfl
  | answered result => rfl

end Generations

end PamDesktop.Native
