import Mathlib.Algebra.Order.Group.Multiset
import PamDesktop.Workstation.Commands

/-!
# Undo and redo

`UndoManager` of the workstation script. `undo` and `redo` wait for every operation, so that they
are cut where another call can come in between: before each operation, and before the entry is put
on the other stack. Read `history_describes` for what a page has to leave out so that the history
describes its document.
-/

namespace PamDesktop.Workstation

open Foundations

/-! ## The manager -/

/-- What `record` gets: two functions on the document, of which the second takes back the first. -/
structure Operation (D : Type) where
  redo : D → D
  undo : D → D
  inverse : Function.LeftInverse undo redo

/-- An entry of a stack, or the open transaction. -/
structure Entry (D : Type) where
  label : JsString
  operations : List (Operation D)

/-- A call of `undo` with the operations that are left, last first, or one of `redo` with those that
it is through with and those that are left. -/
inductive Running (D : Type) where
  | undoing (value : Entry D) (left : List (Operation D))
  | redoing (value : Entry D) (done left : List (Operation D))

/-- The entry that the call has taken from its stack. -/
def Running.value {D : Type} : Running D → Entry D
  | .undoing value _ | .redoing value _ _ => value

/-- The stacks, last entry last, the open transaction and the calls in progress. `doc` is the
document of the page and `kept` what it was before the oldest entry. -/
structure History (D : Type) where
  doc : D
  kept : D
  undo : List (Entry D) := []
  redo : List (Entry D) := []
  transaction : Option (Entry D) := none
  running : List (Running D) := []

variable {D : Type}

/-- The document after the operations. -/
def redoAll (operations : List (Operation D)) (doc : D) : D :=
  operations.foldl (fun doc operation => operation.redo doc) doc

/-- The document after the operations have been taken back in this order. -/
def undoAll (operations : List (Operation D)) (doc : D) : D :=
  operations.foldl (fun doc operation => operation.undo doc) doc

/-- The operations of the open transaction. -/
def History.pending (s : History D) : List (Operation D) :=
  (s.transaction.map Entry.operations).getD []

/-- `#commit`. No number of entries exceeds a `limit` that is `none`. -/
def History.enter (limit : Option Nat) (s : History D) (value : Entry D) : History D :=
  match limit.any (· < (s.undo ++ [value]).length), s.undo ++ [value] with
  | true, oldest :: undo => { s with kept := redoAll oldest.operations s.kept, undo, redo := [] }
  | _, undo => { s with undo, redo := [] }

/-- What a page does. `record` has changed the document before; it gets `none` where one of its
arguments is no function. In a `rollback` the operation after the first `throws` may throw; none is
waited for, and they are taken to be over when it ends. `proceed` is the next step of a call in
progress, and `fail` is an operation of it that throws. -/
inductive UndoCall (D : Type) where
  | begin (label : JsString)
  | record (operation : Option (Operation D))
  | commit
  | rollback (throws : Option Nat)
  | undo
  | redo
  | proceed (index : Nat)
  | fail (index : Nat)

/-- The operations that a rollback takes back. -/
def takenBack (throws : Option Nat) (operations : List (Operation D)) : List (Operation D) :=
  match throws with
  | none => operations.reverse
  | some count => operations.reverse.take count

/-- The next step of a call in progress. -/
def History.proceed (s : History D) (index : Nat) : Running D → History D
  | .undoing value [] =>
      { s with running := s.running.eraseIdx index, redo := s.redo ++ [value] }
  | .undoing value (operation :: left) =>
      { s with
        doc := operation.undo s.doc
        running := s.running.set index (.undoing value left) }
  | .redoing value _ [] =>
      { s with running := s.running.eraseIdx index, undo := s.undo ++ [value] }
  | .redoing value done (operation :: left) =>
      { s with
        doc := operation.redo s.doc
        running := s.running.set index (.redoing value (done ++ [operation]) left) }

/-- The calls of a page on one manager. -/
def undoManager (limit : Option Nat) : System (History D) (UndoCall D) where
  next s
    | .begin label =>
        match s.transaction with
        | some _ => some s
        | none => some { s with transaction := some ⟨label, []⟩ }
    | .record none => some s
    | .record (some operation) =>
        match s.transaction with
        | some value =>
            some { s with
              doc := operation.redo s.doc
              transaction := some { value with operations := value.operations ++ [operation] } }
        | none =>
            some (History.enter limit { s with doc := operation.redo s.doc }
              ⟨ascii "Change", [operation]⟩)
    | .commit =>
        match s.transaction with
        | some ⟨label, operation :: operations⟩ =>
            some (History.enter limit { s with transaction := none }
              ⟨label, operation :: operations⟩)
        | _ => some { s with transaction := none }
    | .rollback throws =>
        some { s with doc := undoAll (takenBack throws s.pending) s.doc, transaction := none }
    | .undo =>
        match s.undo.getLast? with
        | none => some s
        | some value =>
            some { s with
              undo := s.undo.dropLast
              running := s.running ++ [.undoing value value.operations.reverse] }
    | .redo =>
        match s.redo.getLast? with
        | none => some s
        | some value =>
            some { s with
              redo := s.redo.dropLast
              running := s.running ++ [.redoing value [] value.operations] }
    | .proceed index => (s.running[index]?).map (s.proceed index)
    | .fail index =>
        match s.running[index]? with
        | some (.undoing _ (_ :: _)) | some (.redoing _ _ (_ :: _)) =>
            some { s with running := s.running.eraseIdx index }
        | _ => none

/-! ## What the history says -/

/-- The operations that a call in progress has not taken back, or has done again. -/
def Running.applied : Running D → List (Operation D)
  | .undoing _ left => left.reverse
  | .redoing _ done _ => done

/-- An undo that has only to put its entry on the redo stack. -/
def Running.over : Running D → Bool
  | .undoing _ [] => true
  | _ => false

/-- A redo that has only to put its entry on the undo stack. -/
def Running.redone : Running D → Bool
  | .redoing _ _ [] => true
  | _ => false

/-- The calls in progress that matter for the document. -/
def History.live (s : History D) : List (Running D) :=
  s.running.filter fun task => !task.over

/-- The document before the oldest entry, after all entries of the undo stack. -/
def History.stacked (s : History D) : D :=
  s.undo.foldl (fun doc value => redoAll value.operations doc) s.kept

/-- The document is what the undo stack, the call in progress and the open transaction make of the
state before the oldest entry. -/
def History.Describes (s : History D) : Prop :=
  s.doc = redoAll (s.running.flatMap Running.applied ++ s.pending) s.stacked

/-- Where neither a call is in progress nor a transaction has operations, an undo and a redo give
the same history and document again. -/
def History.Reversible (limit : Option Nat) (s : History D) : Prop :=
  s.running = [] → s.pending = [] → ∀ value, s.undo.getLast? = some value →
    (undoManager limit).play s
      ((.undo :: List.replicate (value.operations.length + 1) (.proceed 0)) ++
        .redo :: List.replicate (value.operations.length + 1) (.proceed 0)) = some s

/-- The entries on the stacks and those that a call in progress has taken. -/
def History.entries (s : History D) : Multiset (Entry D) :=
  ↑s.undo + ↑s.redo + ↑(s.running.map Running.value)

/-- No entry gets lost, except where a new one comes in. -/
def Retains (limit : Option Nat) (s : History D) : UndoCall D → Prop
  | .record _ | .commit => True
  | event => ∀ s', (undoManager limit).next s event = some s' → s'.entries = s.entries

/-- What leaves the history right. While an undo or a redo is at its operations, or a redo has not put
its entry back, nothing is recorded or committed and no undo takes an entry, and none is taken while
operations are pending; redos put their entries back in turn. Into an open transaction operations
can be recorded as soon as a redo has done its own. No operation throws. -/
def Careful (s : History D) : UndoCall D → Prop
  | .record (some _) => s.live = [] ∨ (s.transaction.isSome ∧ s.live.all Running.redone)
  | .commit => s.live = [] ∨ s.pending = []
  | .undo => s.undo = [] ∨ (s.live = [] ∧ s.pending = [])
  | .redo => s.redo = [] ∨ (s.live.all Running.redone ∧ s.pending = [])
  | .rollback (some throws) => s.pending.length ≤ throws
  | .proceed index =>
      (s.running[index]?).any Running.redone → (s.running.take index).all Running.over
  | .fail _ => False
  | _ => True

instance (s : History D) : (event : UndoCall D) → Decidable (Careful s event)
  | .record (some _) => inferInstanceAs (Decidable (_ ∨ (_ ∧ _)))
  | .commit => inferInstanceAs (Decidable (_ ∨ _))
  | .undo | .redo => inferInstanceAs (Decidable (_ = [] ∨ (_ ∧ _ = [])))
  | .rollback (some _) => inferInstanceAs (Decidable (_ ≤ _))
  | .proceed _ => inferInstanceAs (Decidable (_ → _))
  | .fail _ => .isFalse id
  | .begin _ | .record none | .rollback none => .isTrue trivial

/-! ## Documents -/

theorem redo_all_append (first second : List (Operation D)) (doc : D) :
    redoAll (first ++ second) doc = redoAll second (redoAll first doc) :=
  List.foldl_append

/-- Operations that are taken back last first give the document back. -/
theorem undo_all_reverse (operations : List (Operation D)) (doc : D) :
    undoAll operations.reverse (redoAll operations doc) = doc := by
  induction operations generalizing doc with
  | nil => rfl
  | cons operation operations ih =>
      unfold undoAll at ih ⊢
      rw [List.reverse_cons, List.foldl_append]
      show operation.undo (List.foldl _ (redoAll operations (operation.redo doc)) _) = doc
      rw [ih]
      exact operation.inverse doc

theorem taken_back_all {throws : Option Nat} {operations : List (Operation D)}
    (h : ∀ count ∈ throws, operations.length ≤ count) :
    takenBack throws operations = operations.reverse := by
  cases throws with
  | none => rfl
  | some count =>
      refine List.take_of_length_le ?_
      rw [List.length_reverse]
      exact h count rfl

/-- A new entry only adds its operations, whether the oldest is evicted or not. -/
theorem enter_stacked (limit : Option Nat) (s : History D) (value : Entry D) :
    (s.enter limit value).stacked = redoAll value.operations s.stacked ∧
      (s.enter limit value).doc = s.doc ∧ (s.enter limit value).running = s.running ∧
      (s.enter limit value).transaction = s.transaction := by
  have hentered : (s.undo ++ [value]).foldl
      (fun doc value => redoAll value.operations doc) s.kept =
        redoAll value.operations s.stacked := by
    rw [List.foldl_append]
    rfl
  unfold History.enter
  split
  · rename_i hstack
    rw [hstack] at hentered
    exact ⟨hentered, rfl, rfl, rfl⟩
  · exact ⟨hentered, rfl, rfl, rfl⟩


/-! ## One step -/

/-- A redo in progress is somewhere in its operations. -/
def Running.Whole : Running D → Prop
  | .undoing _ _ => True
  | .redoing value done left => done ++ left = value.operations

/-- The history describes the document. Of the calls that matter for it only the last can be at its
operations, and then none is pending. -/
structure History.Sound (s : History D) : Prop where
  describes : s.Describes
  whole : ∀ task ∈ s.running, task.Whole
  ordered : s.live.Pairwise fun earlier _ => earlier.redone = true
  calm : s.pending = [] ∨ ∀ task ∈ s.live, task.redone = true

theorem applied_over {task : Running D} (h : task.over = true) : task.applied = [] :=
  match task, h with
  | .undoing _ [], _ => rfl

theorem flatMap_applied_over {tasks : List (Running D)}
    (h : (tasks.filter fun task => !task.over) = []) : tasks.flatMap Running.applied = [] := by
  refine List.flatMap_eq_nil_iff.mpr fun task hmem => applied_over ?_
  simpa using List.filter_eq_nil_iff.mp h task hmem

/-- Where no call in progress matters, the history describes the document by its entries. -/
theorem describes_iff {s : History D} (h : s.live = []) :
    s.Describes ↔ s.doc = redoAll s.pending s.stacked := by
  unfold History.Describes
  rw [flatMap_applied_over h, List.nil_append]

/-- A new entry for operations that the document has already. -/
theorem enter_sound {limit : Option Nat} {s : History D} {value : Entry D}
    (hlive : s.live = []) (hwhole : ∀ task ∈ s.running, task.Whole)
    (htransaction : s.transaction = none)
    (hdoc : s.doc = redoAll value.operations s.stacked) : (s.enter limit value).Sound := by
  obtain ⟨hstacked, hsame, hrunning, hclosed⟩ := enter_stacked limit s value
  have hlive' : (s.enter limit value).live = [] := by
    unfold History.live at hlive ⊢
    rw [hrunning]
    exact hlive
  have hpending : (s.enter limit value).pending = [] := by
    rw [History.pending, hclosed, htransaction]
    rfl
  refine ⟨(describes_iff hlive').mpr ?_, ?_, ?_, .inl hpending⟩
  · rw [hstacked, hsame, hdoc, hpending]
    rfl
  · rw [hrunning]
    exact hwhole
  · rw [hlive']
    exact List.Pairwise.nil

theorem record_sound {limit : Option Nat} {s s' : History D} {operation : Operation D}
    (hs : s.Sound) (hcareful : Careful s (.record (some operation)))
    (h : (undoManager limit).next s (.record (some operation)) = some s') : s'.Sound := by
  obtain ⟨doc, kept, undo, redo, transaction, running⟩ := s
  cases transaction with
  | none =>
      cases h
      obtain hlive | ⟨hopen, -⟩ := hcareful
      · have hdoc : doc = History.stacked _ := (describes_iff hlive).mp hs.describes
        exact enter_sound hlive hs.whole rfl (congrArg operation.redo hdoc)
      · cases hopen
  | some value =>
      cases h
      refine ⟨?_, hs.whole, hs.ordered, .inr ?_⟩
      · show operation.redo doc =
          redoAll (running.flatMap Running.applied ++ (value.operations ++ [operation])) _
        rw [← List.append_assoc, redo_all_append, show doc = redoAll _ _ from hs.describes]
        rfl
      · obtain hlive | ⟨-, hredone⟩ := hcareful
        · exact fun task hmem => absurd hmem (List.eq_nil_iff_forall_not_mem.mp hlive task)
        · exact List.all_eq_true.mp hredone

theorem commit_sound {limit : Option Nat} {s s' : History D} (hs : s.Sound)
    (hcareful : Careful s .commit)
    (h : (undoManager limit).next s .commit = some s') : s'.Sound := by
  obtain ⟨doc, kept, undo, redo, transaction, running⟩ := s
  obtain _ | ⟨label, _ | ⟨operation, operations⟩⟩ := transaction
  · cases h
    exact ⟨hs.describes, hs.whole, hs.ordered, hs.calm⟩
  · cases h
    exact ⟨hs.describes, hs.whole, hs.ordered, hs.calm⟩
  · cases h
    obtain hlive | hpending := hcareful
    · exact enter_sound hlive hs.whole rfl ((describes_iff hlive).mp hs.describes)
    · cases hpending

theorem rollback_sound {limit : Option Nat} {s s' : History D} {throws : Option Nat}
    (hs : s.Sound) (hthrows : ∀ count ∈ throws, s.pending.length ≤ count)
    (h : (undoManager limit).next s (.rollback throws) = some s') : s'.Sound := by
  obtain rfl := Option.some.inj h
  rw [taken_back_all hthrows]
  refine ⟨?_, hs.whole, hs.ordered, .inl rfl⟩
  have hdoc := hs.describes
  unfold History.Describes at hdoc
  show undoAll s.pending.reverse s.doc =
    redoAll (s.running.flatMap Running.applied ++ []) s.stacked
  rw [hdoc, redo_all_append, undo_all_reverse, List.append_nil]

theorem next_undo (limit : Option Nat) (doc kept : D) (undo redo : List (Entry D))
    (transaction : Option (Entry D)) (running : List (Running D)) (value : Entry D) :
    (undoManager limit).next ⟨doc, kept, undo ++ [value], redo, transaction, running⟩ .undo =
      some ⟨doc, kept, undo, redo, transaction,
        running ++ [.undoing value value.operations.reverse]⟩ := by
  dsimp only [undoManager]
  rw [List.getLast?_concat, List.dropLast_concat]

theorem next_redo (limit : Option Nat) (doc kept : D) (undo redo : List (Entry D))
    (transaction : Option (Entry D)) (running : List (Running D)) (value : Entry D) :
    (undoManager limit).next ⟨doc, kept, undo, redo ++ [value], transaction, running⟩ .redo =
      some ⟨doc, kept, undo, redo, transaction,
        running ++ [.redoing value [] value.operations]⟩ := by
  dsimp only [undoManager]
  rw [List.getLast?_concat, List.dropLast_concat]

/-- A call comes into progress after those that have done their operations. -/
theorem start_sound {s : History D} {task : Running D}
    (hdescribes : s.doc =
      redoAll (s.running.flatMap Running.applied ++ task.applied) s.stacked)
    (hwhole : ∀ task ∈ s.running, task.Whole) (htask : task.Whole)
    (hordered : s.live.Pairwise fun earlier _ => earlier.redone = true) (hpending : s.pending = [])
    (hredone : ∀ task ∈ s.live, task.redone = true) :
    History.Sound { s with running := s.running ++ [task] } where
  describes := by
    show s.doc = redoAll ((s.running ++ [task]).flatMap Running.applied ++ s.pending) s.stacked
    rw [hpending, List.append_nil, List.flatMap_append, List.flatMap_singleton]
    exact hdescribes
  whole other hmem := by
    obtain hmem | hmem := List.mem_append.mp hmem
    · exact hwhole other hmem
    · obtain rfl := List.mem_singleton.mp hmem
      exact htask
  ordered := by
    unfold History.live
    rw [List.filter_append, List.pairwise_append]
    exact ⟨hordered, (List.pairwise_singleton _ task).filter _,
      fun earlier hmem _ _ => hredone earlier hmem⟩
  calm := .inl hpending

/-- A call that takes an entry from the undo stack. -/
theorem undo_sound {limit : Option Nat} {s s' : History D} (hs : s.Sound)
    (hcareful : Careful s .undo) (h : (undoManager limit).next s .undo = some s') : s'.Sound := by
  obtain ⟨doc, kept, undo, redo, transaction, running⟩ := s
  cases undo using List.reverseRecOn with
  | nil =>
      cases h
      exact hs
  | append_singleton undo value =>
      rw [next_undo] at h
      cases h
      obtain hempty | ⟨hlive, hpending⟩ := hcareful
      · exact absurd hempty (List.concat_ne_nil value undo)
      · have hdoc := (describes_iff hlive).mp hs.describes
        rw [hpending] at hdoc
        refine start_sound (s := ⟨doc, kept, undo, redo, transaction, running⟩) ?_ hs.whole trivial
          hs.ordered hpending
          fun task hmem => absurd hmem (List.eq_nil_iff_forall_not_mem.mp hlive task)
        show doc = redoAll (running.flatMap Running.applied ++ value.operations.reverse.reverse) _
        rw [List.reverse_reverse, flatMap_applied_over hlive]
        exact hdoc.trans List.foldl_append

/-- A call that takes an entry from the redo stack. -/
theorem redo_sound {limit : Option Nat} {s s' : History D} (hs : s.Sound)
    (hcareful : Careful s .redo) (h : (undoManager limit).next s .redo = some s') : s'.Sound := by
  obtain ⟨doc, kept, undo, redo, transaction, running⟩ := s
  cases redo using List.reverseRecOn with
  | nil =>
      cases h
      exact hs
  | append_singleton redo value =>
      rw [next_redo] at h
      cases h
      obtain hempty | ⟨hredone, hpending⟩ := hcareful
      · exact absurd hempty (List.concat_ne_nil value redo)
      · refine start_sound (s := ⟨doc, kept, undo, redo, transaction, running⟩) ?_ hs.whole rfl
          hs.ordered hpending (List.all_eq_true.mp hredone)
        have hdoc := hs.describes
        unfold History.Describes at hdoc
        rw [hpending] at hdoc
        exact hdoc

/-- A list around one of its positions. -/
theorem split_at {α : Type} {items : List α} {index : Nat} {item : α}
    (h : items[index]? = some item) :
    ∃ before after, items = before ++ item :: after ∧ items.take index = before ∧
      items.eraseIdx index = before ++ after ∧
      ∀ other, items.set index other = before ++ other :: after := by
  obtain ⟨hindex, rfl⟩ := List.getElem?_eq_some_iff.mp h
  refine ⟨items.take index, items.drop (index + 1), ?_, rfl, List.eraseIdx_eq_take_drop_succ _ _,
    fun other => List.set_eq_take_append_cons_drop.trans (if_pos hindex)⟩
  rw [← List.drop_eq_getElem_cons hindex, List.take_append_drop]

/-- Around a call that is at its operations: the calls before it have been redone, those after it
do not matter, and none is pending. -/
theorem around_active {s : History D} {before after : List (Running D)} {task : Running D}
    (hs : s.Sound) (hrunning : s.running = before ++ task :: after) (hover : task.over = false)
    (hredone : task.redone = false) :
    (∀ earlier ∈ before.filter fun task => !task.over, earlier.redone = true) ∧
      (after.filter fun task => !task.over) = [] ∧ s.pending = [] := by
  have hlive : s.live = (before.filter fun task => !task.over) ++
      task :: after.filter fun task => !task.over := by
    unfold History.live
    rw [hrunning, List.filter_append, List.filter_cons, hover]
    rfl
  have hordered := hs.ordered
  rw [hlive, List.pairwise_append, List.pairwise_cons] at hordered
  obtain ⟨-, ⟨hafter, -⟩, hbefore⟩ := hordered
  refine ⟨fun earlier hmem => hbefore earlier hmem task List.mem_cons_self, ?_, ?_⟩
  · refine List.eq_nil_iff_forall_not_mem.mpr fun later hmem => ?_
    exact absurd (hafter later hmem) (by rw [hredone]; exact Bool.false_ne_true)
  · refine hs.calm.resolve_right fun hcalm => ?_
    have hmem : task ∈ s.live := by
      rw [hlive]
      exact List.mem_append_right _ List.mem_cons_self
    exact absurd (hcalm task hmem) (by rw [hredone]; exact Bool.false_ne_true)

/-- An operation of a call is done or taken back. -/
theorem replace_sound {s : History D} {before after : List (Running D)} {task task' : Running D}
    {doc : D} (hs : s.Sound) (hrunning : s.running = before ++ task :: after)
    (hover : task.over = false) (hredone : task.redone = false) (hwhole : task'.Whole)
    (hdoc : ∀ earlier, s.doc = redoAll task.applied earlier → doc = redoAll task'.applied earlier) :
    History.Sound { s with doc, running := before ++ task' :: after } := by
  obtain ⟨hbefore, hafter, hpending⟩ := around_active hs hrunning hover hredone
  refine ⟨?_, fun other hmem => ?_, ?_, .inl hpending⟩
  · have hdescribes := hs.describes
    unfold History.Describes at hdescribes
    rw [hrunning, hpending, List.flatMap_append, List.flatMap_cons, flatMap_applied_over hafter,
      List.append_nil, List.append_nil, redo_all_append] at hdescribes
    show doc = redoAll ((before ++ task' :: after).flatMap Running.applied ++ s.pending) s.stacked
    rw [hpending, List.flatMap_append, List.flatMap_cons, flatMap_applied_over hafter,
      List.append_nil, List.append_nil, redo_all_append]
    exact hdoc _ hdescribes
  · obtain hmem | hmem := List.mem_append.mp hmem
    · exact hs.whole other (hrunning ▸ List.mem_append_left _ hmem)
    · obtain rfl | hmem := List.mem_cons.mp hmem
      · exact hwhole
      · exact hs.whole other
          (hrunning ▸ List.mem_append_right _ (List.mem_cons_of_mem task hmem))
  · have hordered := hs.ordered
    unfold History.live at hordered ⊢
    rw [hrunning, List.filter_append, List.pairwise_append] at hordered
    rw [List.filter_append, List.filter_cons, hafter, List.pairwise_append]
    refine ⟨hordered.1, ?_, fun earlier hmem _ _ => hbefore earlier hmem⟩
    split
    · exact List.pairwise_singleton _ task'
    · exact List.Pairwise.nil

/-- An undo puts its entry on the redo stack. -/
theorem undone_sound {s : History D} {before after : List (Running D)} {value : Entry D}
    (hs : s.Sound) (hrunning : s.running = before ++ .undoing value [] :: after)
    (redo : List (Entry D)) : History.Sound { s with running := before ++ after, redo } := by
  have hlive : History.live { s with running := before ++ after, redo } = s.live := by
    unfold History.live
    rw [hrunning, List.filter_append, List.filter_append]
    rfl
  refine ⟨?_, fun other hmem => hs.whole other ?_, ?_, ?_⟩
  · have hdescribes := hs.describes
    unfold History.Describes at hdescribes
    rw [hrunning, List.flatMap_append, List.flatMap_cons] at hdescribes
    show s.doc = redoAll ((before ++ after).flatMap Running.applied ++ s.pending) s.stacked
    rw [List.flatMap_append]
    exact hdescribes
  · rw [hrunning]
    exact (List.mem_append.mp hmem).elim (List.mem_append_left _)
      fun hmem => List.mem_append_right _ (List.mem_cons_of_mem _ hmem)
  · rw [hlive]
    exact hs.ordered
  · rw [hlive]
    exact hs.calm

/-- A redo puts its entry on the undo stack, before those that were started later. -/
theorem redone_sound {s : History D} {before after : List (Running D)} {value : Entry D}
    {done : List (Operation D)} (hs : s.Sound)
    (hrunning : s.running = before ++ .redoing value done [] :: after)
    (hbefore : ∀ earlier ∈ before, earlier.over = true) :
    History.Sound { s with running := before ++ after, undo := s.undo ++ [value] } := by
  have hnone : (before.filter fun task => !task.over) = [] := by
    refine List.filter_eq_nil_iff.mpr fun earlier hmem => ?_
    rw [hbefore earlier hmem]
    exact Bool.false_ne_true
  have hlive : s.live = .redoing value done [] ::
      History.live { s with running := before ++ after, undo := s.undo ++ [value] } := by
    unfold History.live
    rw [hrunning, List.filter_append, List.filter_append, hnone]
    rfl
  have hdone : done = value.operations := by
    have hwhole : done ++ [] = value.operations :=
      hs.whole (.redoing value done []) (hrunning ▸ List.mem_append_right _ List.mem_cons_self)
    rwa [List.append_nil] at hwhole
  refine ⟨?_, fun other hmem => hs.whole other ?_, ?_, ?_⟩
  · have hdescribes := hs.describes
    unfold History.Describes at hdescribes
    rw [hrunning, List.flatMap_append, List.flatMap_cons, flatMap_applied_over hnone,
      List.nil_append, List.append_assoc, redo_all_append] at hdescribes
    have hstacked : History.stacked { s with
        running := before ++ after, undo := s.undo ++ [value] } =
          redoAll value.operations s.stacked := List.foldl_append
    unfold History.Describes
    rw [hstacked, List.flatMap_append, flatMap_applied_over hnone, List.nil_append, ← hdone]
    exact hdescribes
  · rw [hrunning]
    exact (List.mem_append.mp hmem).elim (List.mem_append_left _)
      fun hmem => List.mem_append_right _ (List.mem_cons_of_mem _ hmem)
  · have hordered := hs.ordered
    rw [hlive] at hordered
    exact hordered.of_cons
  · refine hs.calm.imp_right fun hcalm task hmem => hcalm task ?_
    rw [hlive]
    exact List.mem_cons_of_mem _ hmem

/-- A step of a call in progress. -/
theorem proceed_sound {limit : Option Nat} {s s' : History D} {index : Nat} (hs : s.Sound)
    (hcareful : Careful s (.proceed index))
    (h : (undoManager limit).next s (.proceed index) = some s') : s'.Sound := by
  obtain ⟨task, hfound, rfl⟩ := Option.map_eq_some_iff.mp h
  obtain ⟨before, after, hrunning, hbefore, herase, hset⟩ := split_at hfound
  match task with
  | .undoing value [] =>
      dsimp only [History.proceed]
      rw [herase]
      exact undone_sound hs hrunning _
  | .undoing value (operation :: left) =>
      dsimp only [History.proceed]
      rw [hset]
      refine replace_sound hs hrunning rfl rfl trivial fun earlier hdoc => ?_
      rw [hdoc]
      show operation.undo (redoAll (operation :: left).reverse earlier) =
        redoAll left.reverse earlier
      rw [List.reverse_cons, redo_all_append]
      exact operation.inverse _
  | .redoing value done [] =>
      dsimp only [History.proceed]
      rw [herase]
      refine redone_sound hs hrunning fun earlier hmem => ?_
      have hover := hcareful (by rw [hfound]; rfl)
      rw [hbefore] at hover
      exact List.all_eq_true.mp hover earlier hmem
  | .redoing value done (operation :: left) =>
      dsimp only [History.proceed]
      rw [hset]
      have hwhole : done ++ operation :: left = value.operations :=
        hs.whole (.redoing value done (operation :: left))
          (hrunning ▸ List.mem_append_right _ List.mem_cons_self)
      refine replace_sound hs hrunning rfl rfl
        ((List.append_assoc done [operation] left).trans hwhole) fun earlier hdoc => ?_
      show operation.redo s.doc = redoAll (done ++ [operation]) earlier
      rw [redo_all_append, hdoc]
      rfl

/-- A careful step keeps the history sound. -/
theorem next_sound {limit : Option Nat} {s s' : History D} {call : UndoCall D} (hs : s.Sound)
    (hcareful : Careful s call) (h : (undoManager limit).next s call = some s') : s'.Sound := by
  cases call with
  | begin label =>
      obtain ⟨doc, kept, undo, redo, transaction, running⟩ := s
      cases transaction with
      | none =>
          cases h
          exact ⟨hs.describes, hs.whole, hs.ordered, .inl rfl⟩
      | some value =>
          cases h
          exact hs
  | record operation =>
      cases operation with
      | none =>
          cases h
          exact hs
      | some operation => exact record_sound hs hcareful h
  | commit => exact commit_sound hs hcareful h
  | rollback throws =>
      refine rollback_sound hs (fun count hcount => ?_) h
      obtain rfl := Option.mem_def.mp hcount
      exact hcareful
  | undo => exact undo_sound hs hcareful h
  | redo => exact redo_sound hs hcareful h
  | proceed index => exact proceed_sound hs hcareful h
  | fail index => exact absurd hcareful id

/-! ## An undo and a redo -/

/-- An undo that nobody disturbs takes back what is left and puts its entry on the redo stack. -/
theorem undo_run (limit : Option Nat) (kept : D) (undo redo : List (Entry D))
    (transaction : Option (Entry D)) (value : Entry D) (left : List (Operation D)) (doc : D) :
    (undoManager limit).play
        ⟨redoAll left.reverse doc, kept, undo, redo, transaction, [.undoing value left]⟩
        (List.replicate (left.length + 1) (.proceed 0)) =
      some ⟨doc, kept, undo, redo ++ [value], transaction, []⟩ := by
  induction left with
  | nil => rfl
  | cons operation left ih =>
      have hstep : operation.undo (redoAll (operation :: left).reverse doc) =
          redoAll left.reverse doc := by
        rw [List.reverse_cons, redo_all_append]
        exact operation.inverse _
      rw [List.length_cons, List.replicate_succ]
      show (undoManager limit).play ⟨operation.undo _, kept, undo, redo, transaction, _⟩ _ = _
      rw [hstep]
      exact ih

/-- A redo that nobody disturbs does what is left and puts its entry on the undo stack. -/
theorem redo_run (limit : Option Nat) (kept : D) (undo redo : List (Entry D))
    (transaction : Option (Entry D)) (value : Entry D) (done left : List (Operation D)) (doc : D) :
    (undoManager limit).play ⟨doc, kept, undo, redo, transaction, [.redoing value done left]⟩
        (List.replicate (left.length + 1) (.proceed 0)) =
      some ⟨redoAll left doc, kept, undo ++ [value], redo, transaction, []⟩ := by
  induction left generalizing done doc with
  | nil => rfl
  | cons operation left ih => exact ih (done ++ [operation]) (operation.redo doc)

/-- Where the history describes the document, an undo and a redo of it are the identity. -/
theorem describes_reversible {limit : Option Nat} {s : History D} (hs : s.Describes) :
    s.Reversible limit := by
  intro hidle hpending value hlast
  obtain ⟨doc, kept, undo, redo, transaction, running⟩ := s
  obtain rfl : running = [] := hidle
  obtain ⟨undo, rfl⟩ := List.getLast?_eq_some_iff.mp hlast
  have hdoc : doc = redoAll value.operations.reverse.reverse
      (History.stacked ⟨doc, kept, undo, redo, transaction, []⟩) := by
    have hdescribes := (describes_iff rfl).mp hs
    rw [hpending] at hdescribes
    rw [List.reverse_reverse]
    exact hdescribes.trans List.foldl_append
  generalize History.stacked ⟨doc, kept, undo, redo, transaction, []⟩ = before at hdoc
  have hundo : (undoManager limit).play ⟨doc, kept, undo ++ [value], redo, transaction, []⟩
      (.undo :: List.replicate (value.operations.length + 1) (.proceed 0)) =
        some ⟨before, kept, undo, redo ++ [value], transaction, []⟩ := by
    rw [System.play, next_undo, hdoc, ← List.length_reverse]
    exact undo_run limit kept undo redo transaction value value.operations.reverse before
  have hredo : (undoManager limit).play ⟨before, kept, undo, redo ++ [value], transaction, []⟩
      (.redo :: List.replicate (value.operations.length + 1) (.proceed 0)) =
        some ⟨doc, kept, undo ++ [value], redo, transaction, []⟩ := by
    rw [System.play, next_redo, hdoc, List.reverse_reverse]
    exact redo_run limit kept undo redo transaction value [] value.operations before
  rw [System.play_append, hundo]
  exact hredo

/-! ## Entries -/

/-- A step of a call in progress keeps its entry. -/
theorem proceed_entries {s : History D} {index : Nat} {task : Running D}
    (hfound : s.running[index]? = some task) : (s.proceed index task).entries = s.entries := by
  obtain ⟨before, after, hrunning, -, herase, hset⟩ := split_at hfound
  unfold History.entries
  match task with
  | .undoing value [] =>
      dsimp only [History.proceed]
      rw [herase, hrunning]
      simp only [List.map_append, List.map_cons, Running.value, ← Multiset.coe_add,
        ← Multiset.cons_coe, ← Multiset.singleton_add]
      ac_rfl
  | .undoing value (operation :: left) =>
      dsimp only [History.proceed]
      rw [hset, hrunning, List.map_append, List.map_append]
      rfl
  | .redoing value done [] =>
      dsimp only [History.proceed]
      rw [herase, hrunning]
      simp only [List.map_append, List.map_cons, Running.value, ← Multiset.coe_add,
        ← Multiset.cons_coe, ← Multiset.singleton_add]
      ac_rfl
  | .redoing value done (operation :: left) =>
      dsimp only [History.proceed]
      rw [hset, hrunning, List.map_append, List.map_append]
      rfl

/-- Unless an operation throws, an entry that is taken from a stack is not lost. -/
theorem retains {limit : Option Nat} {s : History D} {call : UndoCall D}
    (hcareful : Careful s call) : Retains limit s call := by
  cases call with
  | record operation => exact trivial
  | commit => exact trivial
  | fail index => exact absurd hcareful id
  | begin label =>
      intro s' h
      obtain ⟨doc, kept, undo, redo, transaction, running⟩ := s
      cases transaction <;> cases h <;> rfl
  | rollback throws =>
      intro s' h
      cases h
      rfl
  | undo =>
      intro s' h
      obtain ⟨doc, kept, undo, redo, transaction, running⟩ := s
      cases undo using List.reverseRecOn with
      | nil =>
          cases h
          rfl
      | append_singleton undo value =>
          rw [next_undo] at h
          cases h
          simp only [History.entries, List.map_append, ← Multiset.coe_add, List.map_singleton,
            Running.value]
          ac_rfl
  | redo =>
      intro s' h
      obtain ⟨doc, kept, undo, redo, transaction, running⟩ := s
      cases redo using List.reverseRecOn with
      | nil =>
          cases h
          rfl
      | append_singleton redo value =>
          rw [next_redo] at h
          cases h
          simp only [History.entries, List.map_append, ← Multiset.coe_add, List.map_singleton,
            Running.value]
          ac_rfl
  | proceed index =>
      intro s' h
      obtain ⟨task, hfound, rfl⟩ := Option.map_eq_some_iff.mp h
      exact proceed_entries hfound

/-- An operation that throws takes its entry away from both stacks. -/
theorem fail_entries {limit : Option Nat} {s s' : History D} {index : Nat}
    (h : (undoManager limit).next s (.fail index) = some s') :
    ∃ task ∈ s.running, s.entries = task.value ::ₘ s'.entries := by
  have hfailed : ∃ task, s.running[index]? = some task ∧
      s' = { s with running := s.running.eraseIdx index } := by
    dsimp only [undoManager] at h
    split at h
    · rename_i hfound
      exact ⟨_, hfound, (Option.some.inj h).symm⟩
    · rename_i hfound
      exact ⟨_, hfound, (Option.some.inj h).symm⟩
    · cases h
  obtain ⟨task, hfound, rfl⟩ := hfailed
  obtain ⟨before, after, hrunning, -, herase, -⟩ := split_at hfound
  refine ⟨task, hrunning ▸ List.mem_append_right _ List.mem_cons_self, ?_⟩
  unfold History.entries
  dsimp only
  rw [herase, hrunning]
  simp only [List.map_append, List.map_cons, ← Multiset.coe_add, ← Multiset.cons_coe,
    ← Multiset.singleton_add]
  ac_rfl

/-! ## Runs -/

/-- A manager that has just been created. -/
def newHistory (document : D) : History D := ⟨document, document, [], [], none, []⟩

/-- Typing a letter at the end. -/
def typing (letter : Char) : Operation (List Char) where
  redo doc := doc ++ [letter]
  undo doc := doc.dropLast
  inverse _ := List.dropLast_concat

/-- Two letters in one transaction. -/
def typed : List (UndoCall (List Char)) :=
  [.begin (ascii "Type"), .record (some (typing 'a')), .record (some (typing 'b')), .commit]

end PamDesktop.Workstation
