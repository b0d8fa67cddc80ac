import PamDesktop.Workstation.Commands

/-!
# The recovery journal

`RecoveryJournal` of the workstation script: one timer for all documents, and a list in which the
newest entry comes first and the last ones are cut off. Read `journal_keeps_iff` for the runs that
lose no document.
-/

namespace PamDesktop.Workstation

open Foundations

/-! ## The journal -/

/-- An entry of the journal. A value is what `JSON.parse` gives back. -/
structure RecoveryEntry (α : Type) where
  documentId : JsString
  value : α
  savedAt : Nat

/-- The item in the storage, and what the timer is going to put there. `saved` has the last value
of every document that was saved since it was cleared. -/
structure Journal (α : Type) where
  stored : List (RecoveryEntry α) := []
  timer : Option (JsString × α) := none
  saved : JsMap JsString α := ∅

/-- Calls, and the timer. `clear` without a document clears all. -/
inductive JournalEvent (α : Type) where
  | save (documentId : JsString) (value : α)
  | clear (documentId : Option JsString)
  | fire (now : Nat)

variable {α : Type}

/-- `recover`. -/
def Journal.recover (s : Journal α) (documentId : JsString) : Option (RecoveryEntry α) :=
  s.stored.find? (·.documentId = documentId)

/-- The calls on one journal and its timer. -/
def recovery (maxEntries : Nat) : System (Journal α) (JournalEvent α) where
  next s
    | .save documentId value =>
        some { s with
          timer := some (documentId, value)
          saved := s.saved.insert documentId value }
    | .clear none => some { s with stored := [], saved := ∅ }
    | .clear (some documentId) =>
        some { s with
          stored := s.stored.filter (·.documentId ≠ documentId)
          saved := s.saved.erase documentId }
    | .fire now =>
        s.timer.map fun (documentId, value) =>
          { s with
            stored := (⟨documentId, value, now⟩ :: s.stored).take maxEntries
            timer := none }

/-! ## What it keeps -/

/-- What was saved last can be recovered, or the timer is going to store it. -/
def Journal.Keeps (s : Journal α) : Prop :=
  ∀ documentId value, s.saved.lookup documentId = some value →
    (s.recover documentId).map RecoveryEntry.value = some value ∨
      s.timer = some (documentId, value)

/-- After the delay what was saved last can be recovered. -/
def Journal.Recovers (s : Journal α) : Prop :=
  s.timer = none → ∀ documentId value, s.saved.lookup documentId = some value →
    (s.recover documentId).map RecoveryEntry.value = some value

/-- A save does not take the timer from another document, unless that one has been cleared or the
journal has its value. What the timer cuts off has a newer entry, unless its document has been
cleared or is the one that is stored. -/
def Spares (maxEntries : Nat) (s : Journal α) : JournalEvent α → Prop
  | .save documentId _ => ∀ pending ∈ s.timer, pending.1 ≠ documentId → pending.1 ∈ s.saved →
      (s.recover pending.1).map RecoveryEntry.value = some pending.2
  | .clear _ => True
  | .fire _ => ∀ pending ∈ s.timer, ∀ documentId ∈ s.saved.keys,
      if documentId = pending.1 then 0 < maxEntries
      else ∃ entry ∈ s.stored.take (maxEntries - 1), entry.documentId = documentId

instance [DecidableEq α] (maxEntries : Nat) (s : Journal α) :
    (event : JournalEvent α) → Decidable (Spares maxEntries s event)
  | .save _ _ => inferInstanceAs (Decidable (∀ pending ∈ s.timer, _ → _ → _))
  | .clear _ => .isTrue trivial
  | .fire _ => inferInstanceAs (Decidable (∀ pending ∈ s.timer, ∀ documentId ∈ s.saved.keys, _))

/-- The timer has the last value of its document. -/
def Journal.Current (s : Journal α) : Prop :=
  ∀ documentId value, s.timer = some (documentId, value) →
    ∀ last, s.saved.lookup documentId = some last → last = value

/-- The first of the items that are left. -/
theorem find_take_iff {β : Type} {items : List β} {predicate : β → Bool} {item : β}
    (h : items.find? predicate = some item) (count : Nat) :
    (items.take count).find? predicate = some item ↔
      ∃ other ∈ items.take count, predicate other = true := by
  constructor
  · intro hfind
    exact ⟨item, List.mem_of_find?_eq_some hfind, List.find?_some hfind⟩
  · intro ⟨other, hmem, hother⟩
    rw [← List.take_append_drop count items, List.find?_append] at h
    obtain ⟨first, hfirst⟩ := Option.isSome_iff_exists.mp
      (List.find?_isSome.mpr ⟨other, hmem, hother⟩)
    rw [hfirst, Option.some_or] at h
    rw [hfirst, h]

variable {maxEntries : Nat}

/-- A save keeps everything exactly if it does not take the timer from a document that needs it. -/
theorem save_keeps {s : Journal α} {documentId : JsString} {value : α} (hcurrent : s.Current)
    (hs : s.Keeps) : Spares maxEntries s (.save documentId value) ↔
      Journal.Keeps { s with
        timer := some (documentId, value), saved := s.saved.insert documentId value } := by
  constructor
  · intro hspares other last hlast
    by_cases hother : other = documentId
    · subst hother
      rw [AList.lookup_insert] at hlast
      obtain rfl := Option.some.inj hlast
      exact .inr rfl
    · rw [AList.lookup_insert_ne hother] at hlast
      refine (hs other last hlast).elim .inl fun htimer => .inl ?_
      exact hspares (other, last) htimer hother (AList.lookup_isSome.mp (by rw [hlast]; rfl))
  · intro hkeeps ⟨other, pending⟩ htimer hother hsaved
    obtain ⟨last, hlast⟩ := Option.isSome_iff_exists.mp (AList.lookup_isSome.mpr hsaved)
    obtain rfl := hcurrent other pending htimer last hlast
    have hafter := hkeeps other last ((AList.lookup_insert_ne hother).trans hlast)
    refine hafter.resolve_right fun htimer' => hother ?_
    exact (Prod.mk.inj (Option.some.inj htimer')).1.symm

/-- Clearing keeps the rest. -/
theorem clear_keeps {s : Journal α} (hs : s.Keeps) (documentId : JsString) :
    Journal.Keeps { s with
      stored := s.stored.filter (·.documentId ≠ documentId)
      saved := s.saved.erase documentId } := by
  intro other last hlast
  by_cases hother : other = documentId
  · subst hother
    rw [AList.lookup_erase] at hlast
    cases hlast
  · rw [AList.lookup_erase_ne hother] at hlast
    refine (hs other last hlast).imp_left fun hfound => ?_
    rw [← hfound]
    refine congrArg _ (List.find?_filter.trans (congrArg (s.stored.find? ·) ?_))
    funext entry
    by_cases hentry : entry.documentId = other
    · simp [hentry, hother]
    · simp [hentry]

/-- What the timer leaves of a document. -/
theorem fire_recover_iff {s : Journal α} (entry : RecoveryEntry α) {other : JsString} {last : α}
    (hsame : other = entry.documentId → last = entry.value)
    (hfound : other ≠ entry.documentId →
      (s.recover other).map RecoveryEntry.value = some last) :
    (if other = entry.documentId then 0 < maxEntries
      else ∃ entry ∈ s.stored.take (maxEntries - 1), entry.documentId = other) ↔
      (((entry :: s.stored).take maxEntries).find? (·.documentId = other)).map
        RecoveryEntry.value = some last := by
  cases maxEntries with
  | zero => simp
  | succ count =>
      rw [List.take_succ_cons, Nat.add_sub_cancel]
      by_cases hother : other = entry.documentId
      · have hhead : decide (entry.documentId = other) = true := decide_eq_true hother.symm
        simp only [if_pos hother, List.find?_cons, hhead, hsame hother]
        exact iff_of_true count.succ_pos rfl
      · obtain ⟨newest, hnewest, rfl⟩ := Option.map_eq_some_iff.mp (hfound hother)
        have hhead : decide (entry.documentId = other) = false := decide_eq_false (Ne.symm hother)
        simp only [if_neg hother, List.find?_cons, hhead]
        have htake := find_take_iff hnewest count
        constructor
        · intro ⟨kept, hmem, hkept⟩
          rw [htake.mpr ⟨kept, hmem, decide_eq_true hkept⟩, Option.map_some]
        · intro hmap
          obtain ⟨kept, hkept, -⟩ := Option.map_eq_some_iff.mp hmap
          have hfirst := List.find?_some hkept
          exact ⟨kept, List.mem_of_find?_eq_some hkept, of_decide_eq_true hfirst⟩

/-- The timer keeps everything exactly if what it cuts off has a newer entry. -/
theorem fire_keeps {s : Journal α} {documentId : JsString} {value : α} {now : Nat}
    (htimer : s.timer = some (documentId, value)) (hcurrent : s.Current) (hs : s.Keeps) :
    Spares maxEntries s (.fire now) ↔
      Journal.Keeps { s with
        stored := (⟨documentId, value, now⟩ :: s.stored).take maxEntries, timer := none } := by
  have hpoint : ∀ other last, s.saved.lookup other = some last →
      ((if other = documentId then 0 < maxEntries
        else ∃ entry ∈ s.stored.take (maxEntries - 1), entry.documentId = other) ↔
        (((⟨documentId, value, now⟩ :: s.stored).take maxEntries).find?
          (·.documentId = other)).map RecoveryEntry.value = some last) := by
    intro other last hlast
    refine fire_recover_iff ⟨documentId, value, now⟩ (fun hother => ?_) fun hother => ?_
    · subst hother
      exact hcurrent _ value htimer last hlast
    · refine (hs other last hlast).resolve_right fun htimer' => hother ?_
      exact (Prod.mk.inj (Option.some.inj (htimer'.symm.trans htimer))).1
  constructor
  · intro hspares other last hlast
    have hsaved : other ∈ s.saved := AList.lookup_isSome.mp (by rw [hlast]; rfl)
    exact .inl ((hpoint other last hlast).mp (hspares _ htimer other hsaved))
  · intro hkeeps pending hpending other hsaved
    obtain rfl := Option.some.inj (htimer.symm.trans hpending)
    obtain ⟨last, hlast⟩ := Option.isSome_iff_exists.mp (AList.lookup_isSome.mpr hsaved)
    exact (hpoint other last hlast).mpr ((hkeeps other last hlast).resolve_right (by simp))

/-- A step keeps everything exactly if it spares the other documents. -/
theorem next_keeps {s s' : Journal α} {event : JournalEvent α} (hcurrent : s.Current)
    (hs : s.Keeps) (h : (recovery maxEntries).next s event = some s') :
    s'.Current ∧ (Spares maxEntries s event ↔ s'.Keeps) := by
  cases event with
  | save documentId value =>
      obtain rfl := Option.some.inj h
      refine ⟨fun other pending htimer last hlast => ?_, save_keeps hcurrent hs⟩
      obtain ⟨rfl, rfl⟩ := Prod.mk.inj (Option.some.inj htimer)
      exact (Option.some.inj ((AList.lookup_insert s.saved).symm.trans hlast)).symm
  | clear documentId =>
      cases documentId with
      | none =>
          obtain rfl := Option.some.inj h
          refine ⟨fun _ _ _ last hlast => ?_, iff_of_true trivial fun _ last hlast => ?_⟩
          · cases hlast
          · cases hlast
      | some documentId =>
          obtain rfl := Option.some.inj h
          refine ⟨fun other pending htimer last hlast => ?_,
            iff_of_true trivial (clear_keeps hs documentId)⟩
          by_cases hother : other = documentId
          · subst hother
            cases (AList.lookup_erase other s.saved).symm.trans hlast
          · rw [AList.lookup_erase_ne hother] at hlast
            exact hcurrent other pending htimer last hlast
  | fire now =>
      obtain ⟨⟨documentId, value⟩, htimer, rfl⟩ := Option.map_eq_some_iff.mp h
      refine ⟨fun _ _ hnone => ?_, fire_keeps htimer hcurrent hs⟩
      cases hnone

/-- In every run what was saved last is stored or about to be stored, and can be recovered after
the delay, exactly if the saves and the timer spare the other documents. -/
theorem journal_keeps_iff (maxEntries : Nat) {events : List (JournalEvent α)} {final : Journal α}
    (hplay : (recovery maxEntries).play {} events = some final) :
    (recovery maxEntries).Always (fun s => s.Keeps ∧ s.Recovers) {} events ↔
      (recovery maxEntries).Throughout (Spares maxEntries) {} events := by
  have hkeeps := System.always_iff_throughout (P := Journal.Keeps) (C := Spares maxEntries)
    (I := Journal.Current) ⟨fun _ _ h => (by cases h), fun _ _ h => (by cases h)⟩ hplay
    fun _ _ _ hcurrent hs hnext => next_keeps hcurrent hs hnext
  refine Iff.trans ⟨fun h => h.mono fun s hs => hs.1, fun h => h.mono fun s hs => ⟨hs, ?_⟩⟩ hkeeps
  intro htimer documentId value hsaved
  refine (hs documentId value hsaved).resolve_right fun hpending => ?_
  rw [htimer] at hpending
  cases hpending

/-! ## Two documents -/

/-- Two documents, one after the other. -/
theorem one_after_the_other :
    (recovery 25).Always (fun s => s.Keeps ∧ s.Recovers) {}
      [.save (ascii "a") true, .fire 1, .save (ascii "b") false, .fire 2] := by
  have hplay : (recovery 25).play {}
      [.save (ascii "a") true, .fire 1, .save (ascii "b") false, .fire 2] =
        some ⟨[⟨ascii "b", false, 2⟩, ⟨ascii "a", true, 1⟩], none,
          (AList.insert (ascii "b") false (AList.insert (ascii "a") true ∅))⟩ := rfl
  exact (journal_keeps_iff 25 hplay).mpr (by decide)

/-- Two documents within the delay: the first is lost. A document that is saved again and again
cuts off the other. -/
theorem saved_together :
    ¬ (recovery 25).Always Journal.Recovers {}
        [.save (ascii "a") true, .save (ascii "b") false, .fire 1] ∧
      ¬ (recovery 2).Always Journal.Recovers {}
        [.save (ascii "a") true, .fire 1, .save (ascii "b") false, .fire 2, .save (ascii "b") true,
          .fire 3] := by
  constructor
  · intro hrecovers
    have hplay : (recovery 25).play {} [.save (ascii "a") true, .save (ascii "b") false, .fire 1] =
        some ⟨[⟨ascii "b", false, 1⟩], none,
          AList.insert (ascii "b") false (AList.insert (ascii "a") true ∅)⟩ := rfl
    cases hrecovers.last hplay rfl (ascii "a") true rfl
  · intro hrecovers
    have hplay : (recovery 2).play {}
        [.save (ascii "a") true, .fire 1, .save (ascii "b") false, .fire 2, .save (ascii "b") true,
          .fire 3] =
        some ⟨[⟨ascii "b", true, 3⟩, ⟨ascii "b", false, 2⟩], none,
          AList.insert (ascii "b") true (AList.insert (ascii "a") true ∅)⟩ := rfl
    cases hrecovers.last hplay rfl (ascii "a") true rfl

end PamDesktop.Workstation
