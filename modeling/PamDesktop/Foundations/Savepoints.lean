import Mathlib.Data.List.Forall2

/-!
# Transactions with savepoints

A session sees contents and remembers, while a transaction is open, the contents to which it rolls
back and those at each savepoint. `execute` runs one statement as SQLite does. `durable` is what
would stay if the session ended now. `Tracks` follows a session by flags which say where the
contents may have changed.
-/

namespace Foundations

/-- How a statement ends that is not about transactions: it completes, or it fails and its changes
stay, are undone, or are rolled back with the transaction. -/
inductive Outcome (α : Type) where
  | completed (contents : α)
  | stopped (contents : α)
  | undone
  | rolledBack

/-- A statement that is about transactions. -/
inductive Control where
  | begin
  | commit
  | rollback
  | savepoint (name : String)
  | release (name : String)
  | rollbackTo (name : String)
deriving DecidableEq

structure Savepoint (α : Type) where
  name : String
  contents : α

/-- An open transaction: the contents before it, its savepoints from the innermost on, and whether
`BEGIN` opened it. -/
structure Transaction (α : Type) where
  before : α
  savepoints : List (Savepoint α)
  begun : Bool

structure Session (α : Type) where
  contents : α
  transaction : Option (Transaction α)

namespace Session

variable {α : Type}

/-- What stays if the session ends now. -/
def durable (s : Session α) : α :=
  match s.transaction with
  | none => s.contents
  | some transaction => transaction.before

/-- `ROLLBACK` of what is open. -/
def rolledBack (s : Session α) : Session α := ⟨s.durable, none⟩

/-- `COMMIT` of what is open, unless it is refused. -/
def committed (commits : Bool) (s : Session α) : Option (Session α) :=
  if commits then some ⟨s.contents, none⟩ else none

/-- The savepoint of this name and those around it. -/
def enclosing (name : String) (savepoints : List (Savepoint α)) : List (Savepoint α) :=
  savepoints.dropWhile (·.name ≠ name)

/-- A statement about transactions. One that is refused leaves everything as it is. -/
def control (commits : Bool) (s : Session α) : Control → Option (Session α)
  | .begin =>
      match s.transaction with
      | none => some ⟨s.contents, some ⟨s.contents, [], true⟩⟩
      | some _ => none
  | .commit => s.transaction.bind fun _ => s.committed commits
  | .rollback => s.transaction.map fun _ => s.rolledBack
  | .savepoint name =>
      let transaction := s.transaction.getD ⟨s.contents, [], false⟩
      let savepoints := ⟨name, s.contents⟩ :: transaction.savepoints
      some ⟨s.contents, some ⟨transaction.before, savepoints, transaction.begun⟩⟩
  | .release name =>
      s.transaction.bind fun transaction =>
        match enclosing name transaction.savepoints with
        | [] => none
        | _ :: outer =>
            -- the outermost savepoint ends a transaction that it opened
            if outer.isEmpty && !transaction.begun then s.committed commits
            else some ⟨s.contents, some ⟨transaction.before, outer, transaction.begun⟩⟩
  | .rollbackTo name =>
      s.transaction.bind fun transaction =>
        match enclosing name transaction.savepoints with
        | [] => none
        | savepoint :: outer =>
            some ⟨savepoint.contents,
              some ⟨transaction.before, savepoint :: outer, transaction.begun⟩⟩

/-- Any other statement, which is a transaction of its own where none is open: whether it
completes, and what it leaves. -/
def apply (s : Session α) : Outcome α → Bool × Session α
  | .completed contents => (true, ⟨contents, s.transaction⟩)
  | .stopped contents => (false, ⟨contents, s.transaction⟩)
  | .undone => (false, s)
  | .rolledBack => (false, s.rolledBack)

/-! ## What may have changed -/

/-- Where the flag is down the contents are the original ones. -/
def Unchanged (original : α) (changed : Bool) (contents : α) : Prop :=
  changed = false → contents = original

/-- The flags know of each change to a savepoint. -/
structure SavepointTracks (original : α) (flag : Savepoint Bool) (savepoint : Savepoint α) :
    Prop where
  name : flag.name = savepoint.name
  contents : Unchanged original flag.contents savepoint.contents

/-- The flags know of each change to what a transaction remembers. -/
structure TransactionTracks (original : α) (flags : Transaction Bool)
    (transaction : Transaction α) : Prop where
  before : Unchanged original flags.before transaction.before
  savepoints : List.Forall₂ (SavepointTracks original) flags.savepoints transaction.savepoints
  begun : flags.begun = transaction.begun

/-- A session of flags which are down only where the contents are the original ones. -/
structure Tracks (original : α) (flags : Session Bool) (s : Session α) : Prop where
  contents : Unchanged original flags.contents s.contents
  transaction : Option.Rel (TransactionTracks original) flags.transaction s.transaction

variable {original : α} {flags : Session Bool} {s : Session α}

/-- A session without a transaction, before anything changes. -/
theorem tracks_start (original : α) : Tracks original ⟨false, none⟩ ⟨original, none⟩ where
  contents _ := rfl
  transaction := .none

theorem Tracks.durable (h : Tracks original flags s) :
    Unchanged original flags.durable s.durable := by
  obtain ⟨hcontents, htransaction⟩ := h
  obtain ⟨changed, transaction⟩ := flags
  obtain ⟨contents, transaction'⟩ := s
  cases htransaction with
  | none => exact hcontents
  | some h => exact h.before

theorem Tracks.rolledBack (h : Tracks original flags s) :
    Tracks original flags.rolledBack s.rolledBack where
  contents := h.durable
  transaction := .none

/-- The savepoints of a name are at the same height. -/
theorem enclosing_tracks {flags : List (Savepoint Bool)} {savepoints : List (Savepoint α)}
    (name : String) (h : List.Forall₂ (SavepointTracks original) flags savepoints) :
    List.Forall₂ (SavepointTracks original) (enclosing name flags) (enclosing name savepoints) := by
  induction h with
  | nil => exact .nil
  | cons hfirst hrest ih =>
      rename_i flag savepoint others others'
      unfold enclosing
      rw [List.dropWhile_cons, List.dropWhile_cons, hfirst.name]
      split
      · exact ih
      · exact .cons hfirst hrest

theorem Tracks.committed (h : Tracks original flags s) {commits : Bool} {s' : Session α}
    (hok : s.committed commits = some s') :
    ∃ flags', flags.committed true = some flags' ∧ Tracks original flags' s' := by
  unfold Session.committed at hok
  split at hok
  · cases hok
    exact ⟨⟨flags.contents, none⟩, rfl, h.contents, .none⟩
  · cases hok

/-- What succeeds on a session succeeds on its flags, if they can commit, and is followed. -/
theorem Tracks.control (h : Tracks original flags s) {commits : Bool} {statement : Control}
    {s' : Session α} (hok : s.control commits statement = some s') :
    ∃ flags', flags.control true statement = some flags' ∧ Tracks original flags' s' := by
  have hcommit : s.committed commits = some s' →
      ∃ flags', flags.committed true = some flags' ∧ Tracks original flags' s' := h.committed
  obtain ⟨hcontents, htransaction⟩ := h
  obtain ⟨changed, openFlags⟩ := flags
  obtain ⟨contents, opened⟩ := s
  cases htransaction with
  | none =>
      cases statement with
      | begin =>
          cases hok
          exact ⟨_, rfl, hcontents, .some ⟨hcontents, .nil, rfl⟩⟩
      | savepoint name =>
          cases hok
          exact ⟨_, rfl, hcontents, .some ⟨hcontents, .cons ⟨rfl, hcontents⟩ .nil, rfl⟩⟩
      | commit => cases hok
      | rollback => cases hok
      | release name => cases hok
      | rollbackTo name => cases hok
  | some h =>
      rename_i openFlags opened
      cases statement with
      | begin => cases hok
      | commit => exact hcommit hok
      | rollback =>
          cases hok
          exact ⟨_, rfl, h.before, .none⟩
      | savepoint name =>
          cases hok
          exact ⟨_, rfl, hcontents,
            .some ⟨h.before, .cons ⟨rfl, hcontents⟩ h.savepoints, h.begun⟩⟩
      | release name =>
          have henclosing := enclosing_tracks name h.savepoints
          simp only [Session.control, Option.bind_some] at hok ⊢
          generalize enclosing name openFlags.savepoints = outer at henclosing ⊢
          generalize enclosing name opened.savepoints = outer' at henclosing hok
          cases henclosing with
          | nil => cases hok
          | cons hfirst hrest =>
              rename_i rest rest'
              have hsame : (rest.isEmpty && !openFlags.begun) =
                  (rest'.isEmpty && !opened.begun) := by
                rw [h.begun]
                cases hrest <;> rfl
              simp only [hsame]
              dsimp only at hok
              split at hok
              · rename_i hlast
                rw [if_pos hlast]
                exact hcommit hok
              · rename_i hlast
                rw [if_neg hlast]
                cases hok
                exact ⟨_, rfl, hcontents, .some ⟨h.before, hrest, h.begun⟩⟩
      | rollbackTo name =>
          have henclosing := enclosing_tracks name h.savepoints
          simp only [Session.control, Option.bind_some] at hok ⊢
          generalize enclosing name openFlags.savepoints = outer at henclosing ⊢
          generalize enclosing name opened.savepoints = outer' at henclosing hok
          cases henclosing with
          | nil => cases hok
          | cons hfirst hrest =>
              cases hok
              exact ⟨_, rfl, hfirst.contents, .some ⟨h.before, .cons hfirst hrest, h.begun⟩⟩

/-- A statement that completes may have changed everything. -/
theorem Tracks.completed (h : Tracks original flags s) (contents : α) :
    Tracks original ⟨true, flags.transaction⟩ ⟨contents, s.transaction⟩ where
  contents hchanged := nomatch hchanged
  transaction := h.transaction

/-! ## Statements whose effect is not known -/

/-- A statement on flags: one that is not about transactions may change anything. -/
def mark (flags : Session Bool) : Option Control → Option (Session Bool)
  | some statement => flags.control true statement
  | none => some ⟨true, flags.transaction⟩

/-- The flags after statements, up to the first that is refused. -/
def marks : List (Option Control) → Session Bool → Session Bool
  | [], flags => flags
  | statement :: rest, flags =>
      match flags.mark statement with
      | none => flags
      | some flags' => marks rest flags'

/-- The change is durable: there is nothing from before it to roll back to. -/
structure Escaped (flags : Session Bool) : Prop where
  contents : flags.contents = true
  before : ∀ transaction, flags.transaction = some transaction → transaction.before = true
  savepoints : ∀ transaction, flags.transaction = some transaction →
    ∀ savepoint ∈ transaction.savepoints, savepoint.contents = true

theorem Escaped.durable {flags : Session Bool} (h : Escaped flags) : flags.durable = true := by
  unfold Session.durable
  cases htransaction : flags.transaction with
  | none => exact h.contents
  | some transaction => exact h.before transaction htransaction

/-- A session without a transaction whose contents have changed. -/
theorem escaped_closed : Escaped ⟨true, none⟩ := ⟨rfl, nofun, nofun⟩

theorem enclosing_subset {name : String} {savepoints : List (Savepoint α)}
    {savepoint : Savepoint α} (h : savepoint ∈ enclosing name savepoints) :
    savepoint ∈ savepoints :=
  (List.dropWhile_sublist _).subset h

theorem committed_some {commits : Bool} {s s' : Session α} (h : s.committed commits = some s') :
    s' = ⟨s.contents, none⟩ := by
  unfold committed at h
  split at h
  · exact (Option.some.inj h).symm
  · cases h

/-- A durable change stays durable. -/
theorem Escaped.mark {flags flags' : Session Bool} {statement : Option Control}
    (h : Escaped flags) (hmark : flags.mark statement = some flags') : Escaped flags' := by
  have hcommit : flags.committed true = some flags' → Escaped flags' := by
    intro hcommit
    rw [committed_some hcommit, h.contents]
    exact escaped_closed
  obtain ⟨hcontents, hbefore, hsavepoints⟩ := h
  obtain ⟨changed, opened⟩ := flags
  obtain rfl : changed = true := hcontents
  cases statement with
  | none =>
      obtain rfl := Option.some.inj hmark
      exact ⟨rfl, hbefore, hsavepoints⟩
  | some statement =>
      cases opened with
      | none =>
          cases statement with
          | begin =>
              obtain rfl := Option.some.inj hmark
              refine ⟨rfl, fun transaction heq => ?_, fun transaction heq savepoint hmem => ?_⟩
              · cases heq
                rfl
              · cases heq
                cases hmem
          | savepoint name =>
              obtain rfl := Option.some.inj hmark
              refine ⟨rfl, fun transaction heq => ?_, fun transaction heq savepoint hmem => ?_⟩
              · cases heq
                rfl
              · cases heq
                obtain rfl := List.mem_singleton.mp hmem
                rfl
          | commit => cases hmark
          | rollback => cases hmark
          | release name => cases hmark
          | rollbackTo name => cases hmark
      | some transaction =>
          have hbefore := hbefore transaction rfl
          have hsavepoints := hsavepoints transaction rfl
          cases statement with
          | begin => cases hmark
          | commit => exact hcommit hmark
          | rollback =>
              obtain rfl := Option.some.inj hmark
              exact ⟨hbefore, nofun, nofun⟩
          | savepoint name =>
              obtain rfl := Option.some.inj hmark
              refine ⟨rfl, fun _ heq => ?_, fun _ heq savepoint hmem => ?_⟩
              · cases heq
                exact hbefore
              · cases heq
                obtain rfl | hmem := List.mem_cons.mp hmem
                · rfl
                · exact hsavepoints savepoint hmem
          | release name =>
              simp only [Session.mark, Session.control, Option.bind_some] at hmark
              split at hmark
              · cases hmark
              · rename_i savepoint outer hfound
                split at hmark
                · exact hcommit hmark
                · obtain rfl := Option.some.inj hmark
                  refine ⟨rfl, fun _ heq => ?_, fun _ heq inner hmem => ?_⟩
                  · cases heq
                    exact hbefore
                  · cases heq
                    have hbelow : inner ∈ enclosing name transaction.savepoints := by
                      rw [hfound]
                      exact List.mem_cons_of_mem _ hmem
                    exact hsavepoints inner (enclosing_subset hbelow)
          | rollbackTo name =>
              simp only [Session.mark, Session.control, Option.bind_some] at hmark
              split at hmark
              · cases hmark
              · rename_i savepoint outer hfound
                obtain rfl := Option.some.inj hmark
                have houter : ∀ inner ∈ savepoint :: outer, inner.contents = true :=
                  fun inner hmem => hsavepoints inner (enclosing_subset (hfound ▸ hmem))
                refine ⟨houter savepoint List.mem_cons_self, fun _ heq => ?_,
                  fun _ heq inner hmem => ?_⟩
                · cases heq
                  exact hbefore
                · cases heq
                  exact houter inner hmem

/-- A change becomes durable when nothing from before it is left. -/
theorem escaped_mark {flags flags' : Session Bool} {statement : Option Control}
    (h : flags.durable = true → Escaped flags) (hmark : flags.mark statement = some flags')
    (hdurable : flags'.durable = true) : Escaped flags' := by
  cases hbefore : flags.durable with
  | true => exact (h hbefore).mark hmark
  | false =>
      have hcommit : flags.committed true = some flags' → Escaped flags' := by
        intro hcommit
        obtain rfl := committed_some hcommit
        have hcontents : flags.contents = true := hdurable
        rw [hcontents]
        exact escaped_closed
      have hopen : flags'.durable = flags.durable → Escaped flags' := by
        intro hsame
        rw [hsame, hbefore] at hdurable
        cases hdurable
      obtain ⟨changed, opened⟩ := flags
      cases statement with
      | none =>
          obtain rfl := Option.some.inj hmark
          cases opened with
          | none => exact escaped_closed
          | some transaction => exact hopen rfl
      | some statement =>
          cases opened with
          | none =>
              cases statement with
              | begin =>
                  obtain rfl := Option.some.inj hmark
                  exact hopen rfl
              | savepoint name =>
                  obtain rfl := Option.some.inj hmark
                  exact hopen rfl
              | commit => cases hmark
              | rollback => cases hmark
              | release name => cases hmark
              | rollbackTo name => cases hmark
          | some transaction =>
              cases statement with
              | begin => cases hmark
              | commit => exact hcommit hmark
              | rollback =>
                  obtain rfl := Option.some.inj hmark
                  exact hopen rfl
              | savepoint name =>
                  obtain rfl := Option.some.inj hmark
                  exact hopen rfl
              | release name =>
                  simp only [Session.mark, Session.control, Option.bind_some] at hmark
                  split at hmark
                  · cases hmark
                  · split at hmark
                    · exact hcommit hmark
                    · obtain rfl := Option.some.inj hmark
                      exact hopen rfl
              | rollbackTo name =>
                  simp only [Session.mark, Session.control, Option.bind_some] at hmark
                  split at hmark
                  · cases hmark
                  · obtain rfl := Option.some.inj hmark
                    exact hopen rfl

/-- What is not durable after statements was not durable before them. -/
theorem durable_of_marks {flags : Session Bool} {statements : List (Option Control)}
    (h : flags.durable = true → Escaped flags)
    (hmarks : (marks statements flags).durable = false) : flags.durable = false := by
  induction statements generalizing flags with
  | nil => exact hmarks
  | cons statement rest ih =>
      cases hmark : flags.mark statement with
      | none =>
          simpa only [marks, hmark] using hmarks
      | some flags' =>
          have hrest := ih (escaped_mark h hmark) (by simpa only [marks, hmark] using hmarks)
          cases hdurable : flags.durable with
          | false => rfl
          | true =>
              rw [((h hdurable).mark hmark).durable] at hrest
              cases hrest

end Session

end Foundations
