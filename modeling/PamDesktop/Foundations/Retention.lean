import Mathlib.Data.Fintype.Card
import Mathlib.Data.List.Nodup
import PamDesktop.Foundations.Transition

/-!
# Keeping a bounded number of items

Several keepers put named items on one shelf. A call of a keeper looks at what is there, removes
what it has seen except for `kept` items, and only then puts in an item of its own. The calls
overlap, fail and are cut off between any two steps. `length_le` says what comes of it: no more
items than `kept` and one for each keeper.
-/

namespace Foundations.Retention

/-- An item, with the keeper that put it in and how many items had been put in before. -/
structure Item (ι ν : Type) where
  name : ν
  maker : ι
  made : Nat

/-- Where a keeper is in a call: the clock when the call began, and what is still to be removed. -/
inductive Call (ν : Type) where
  | idle
  | looking (began : Nat)
  | clearing (began : Nat) (stale : List ν)

/-- The items, the calls, and how many items have been put in. -/
structure Shelf (ι ν : Type) where
  items : List (Item ι ν)
  calls : ι → Call ν
  clock : Nat

/-- What a keeper does, and the loss of an item that is nobody's doing. -/
inductive Event (ι ν : Type) where
  | call (keeper : ι)
  | look (keeper : ι) (stale retained : List ν)
  | clear (keeper : ι)
  | put (keeper : ι) (name : ν)
  | fail (keeper : ι)
  | lose (name : ν)

variable {ι ν : Type}

namespace Shelf

/-- Without the item of a name. -/
def without [DecidableEq ν] (shelf : Shelf ι ν) (name : ν) : Shelf ι ν :=
  { shelf with items := shelf.items.filter fun item => item.name ≠ name }

/-- With a keeper in another place of its call. -/
def set [DecidableEq ι] (shelf : Shelf ι ν) (keeper : ι) (call : Call ν) : Shelf ι ν :=
  { shelf with calls := Function.update shelf.calls keeper call }

/-- With an item more. -/
def add (shelf : Shelf ι ν) (keeper : ι) (name : ν) : Shelf ι ν :=
  { shelf with
    items := { name, maker := keeper, made := shelf.clock } :: shelf.items
    clock := shelf.clock + 1 }

/-- Of the items from before a time, the call removes all that it does not retain. -/
def Seen (shelf : Shelf ι ν) (began : Nat) (stale retained : List ν) : Prop :=
  ∀ item ∈ shelf.items, item.made < began → item.name ∈ stale ∨ item.name ∈ retained

instance [DecidableEq ν] (shelf : Shelf ι ν) (began : Nat) (stale retained : List ν) :
    Decidable (shelf.Seen began stale retained) :=
  inferInstanceAs (Decidable (∀ item ∈ shelf.items, _))

/-- One event. -/
def next [DecidableEq ι] [DecidableEq ν] (kept : Nat) (shelf : Shelf ι ν) :
    Event ι ν → Option (Shelf ι ν)
  | .call keeper =>
      match shelf.calls keeper with
      | .idle => some (shelf.set keeper (.looking shelf.clock))
      | _ => none
  | .look keeper stale retained =>
      match shelf.calls keeper with
      | .looking began =>
          if retained.length ≤ kept ∧ shelf.Seen began stale retained then
            some (shelf.set keeper (.clearing began stale))
          else none
      | _ => none
  | .clear keeper =>
      match shelf.calls keeper with
      | .clearing began (name :: stale) =>
          some ((shelf.without name).set keeper (.clearing began stale))
      | _ => none
  | .put keeper name =>
      match shelf.calls keeper with
      | .clearing _ [] =>
          if name ∈ shelf.items.map Item.name then none
          else some ((shelf.add keeper name).set keeper .idle)
      | _ => none
  | .fail keeper => some (shelf.set keeper .idle)
  | .lose name => some (shelf.without name)

end Shelf

/-- The keepers at work. -/
def system (ι ν : Type) [DecidableEq ι] [DecidableEq ν] (kept : Nat) :
    System (Shelf ι ν) (Event ι ν) where
  next := Shelf.next kept

/-- When the call began. -/
def Call.began : Call ν → Option Nat
  | .idle => none
  | .looking began => some began
  | .clearing began _ => some began

/-- What holds of the items and the calls between the steps, from the time `start` on: a keeper in
a call has put nothing in since the call began, and what it has not removed yet of what it saw it
will remove or retain. -/
structure Orderly (kept start : Nat) (shelf : Shelf ι ν) : Prop where
  names : (shelf.items.map Item.name).Nodup
  past : ∀ item ∈ shelf.items, item.made < shelf.clock
  after : start ≤ shelf.clock
  began : ∀ keeper began, (shelf.calls keeper).began = some began →
    start ≤ began ∧ began ≤ shelf.clock ∧
      ∀ item ∈ shelf.items, item.maker = keeper → item.made < began
  clearing : ∀ keeper began stale, shelf.calls keeper = .clearing began stale →
    ∃ retained : List ν, retained.length ≤ kept ∧ shelf.Seen began stale retained

/-- Since some time no keeper has put in more than one of the items, and of those from before only
as many as may be kept are left. -/
def Bounded (kept : Nat) (shelf : Shelf ι ν) : Prop :=
  ∃ since ≤ shelf.clock, (shelf.items.countP fun item => item.made < since) ≤ kept ∧
    ((shelf.items.filter fun item => since ≤ item.made).map Item.maker).Nodup

variable {kept start : Nat} {shelf shelf' : Shelf ι ν} {keeper : ι} {name : ν} {began : Nat}
  {stale retained : List ν}

theorem Shelf.Seen.without [DecidableEq ν] (h : shelf.Seen began (name :: stale) retained) :
    (shelf.without name).Seen began stale retained := by
  intro item hitem hmade
  obtain ⟨hitem, hname⟩ := List.mem_filter.mp hitem
  obtain hstale | hretained := h item hitem hmade
  · obtain heq | hstale := List.mem_cons.mp hstale
    · simp [heq] at hname
    · exact .inl hstale
  · exact .inr hretained

/-- Fewer items. -/
theorem Bounded.without [DecidableEq ν] (h : Bounded kept shelf) (name : ν) :
    Bounded kept (shelf.without name) := by
  obtain ⟨since, hsince, hcount, hnodup⟩ := h
  refine ⟨since, hsince, ?_, ?_⟩
  · exact (List.filter_sublist.countP_le).trans hcount
  · exact hnodup.sublist ((List.filter_sublist.filter _).map _)

theorem Orderly.without [DecidableEq ν] (h : Orderly kept start shelf) (name : ν) :
    Orderly kept start (shelf.without name) where
  names := h.names.sublist (List.filter_sublist.map _)
  past item hitem := h.past item (List.mem_of_mem_filter hitem)
  after := h.after
  began keeper began hbegan := by
    obtain ⟨hstart, hclock, hown⟩ := h.began keeper began hbegan
    exact ⟨hstart, hclock, fun item hitem => hown item (List.mem_of_mem_filter hitem)⟩
  clearing keeper began stale hcall := by
    obtain ⟨retained, hlength, hseen⟩ := h.clearing keeper began stale hcall
    exact ⟨retained, hlength, fun item hitem => hseen item (List.mem_of_mem_filter hitem)⟩

/-- A keeper goes on in its call, or leaves it. -/
theorem Orderly.set [DecidableEq ι] (h : Orderly kept start shelf) {call : Call ν}
    (hbegan : ∀ began, call.began = some began → start ≤ began ∧ began ≤ shelf.clock ∧
      ∀ item ∈ shelf.items, item.maker = keeper → item.made < began)
    (hclearing : ∀ began stale, call = .clearing began stale →
      ∃ retained : List ν, retained.length ≤ kept ∧ shelf.Seen began stale retained) :
    Orderly kept start (shelf.set keeper call) where
  names := h.names
  past := h.past
  after := h.after
  began other began hcall := by
    by_cases hother : other = keeper
    · subst hother
      exact hbegan began (by simpa [Shelf.set] using hcall)
    · exact h.began other began (by simpa [Shelf.set, hother] using hcall)
  clearing other began stale hcall := by
    by_cases hother : other = keeper
    · subst hother
      exact hclearing began stale (by simpa [Shelf.set] using hcall)
    · exact h.clearing other began stale (by simpa [Shelf.set, hother] using hcall)

/-- A keeper that has left its call puts in an item. -/
theorem Orderly.add (h : Orderly kept start shelf) (hidle : shelf.calls keeper = .idle)
    (hname : name ∉ shelf.items.map Item.name) : Orderly kept start (shelf.add keeper name) where
  names := List.nodup_cons.mpr ⟨hname, h.names⟩
  past item hitem := by
    obtain rfl | hitem := List.mem_cons.mp hitem
    · exact Nat.lt_succ_self _
    · exact Nat.lt_succ_of_lt (h.past item hitem)
  after := Nat.le_succ_of_le h.after
  began other began hcall := by
    obtain ⟨hstart, hclock, hown⟩ := h.began other began hcall
    refine ⟨hstart, Nat.le_succ_of_le hclock, fun item hitem hmaker => ?_⟩
    obtain rfl | hitem := List.mem_cons.mp hitem
    · -- the maker of the new item is in no call
      have hcall' : shelf.calls other = .idle := (show keeper = other from hmaker) ▸ hidle
      have hbegan : (shelf.calls other).began = some began := hcall
      rw [hcall'] at hbegan
      cases hbegan
    · exact hown item hitem hmaker
  clearing other began stale hcall := by
    obtain ⟨retained, hlength, hseen⟩ := h.clearing other began stale hcall
    have hbegan : (shelf.calls other).began = some began := by
      rw [show shelf.calls other = _ from hcall]
      rfl
    obtain ⟨-, hclock, -⟩ := h.began other began hbegan
    refine ⟨retained, hlength, fun item hitem hmade => ?_⟩
    obtain rfl | hitem := List.mem_cons.mp hitem
    · exact absurd (show shelf.clock < began from hmade) (by omega)
    · exact hseen item hitem hmade

theorem next_orderly [DecidableEq ι] [DecidableEq ν] {event : Event ι ν}
    (h : Orderly kept start shelf) (hnext : shelf.next kept event = some shelf') :
    Orderly kept start shelf' := by
  cases event with
  | call keeper =>
      simp only [Shelf.next] at hnext
      split at hnext <;> cases hnext
      refine h.set (fun began hbegan => ?_) fun _ _ hcall => nomatch hcall
      obtain rfl : shelf.clock = began := by simpa [Call.began] using hbegan
      exact ⟨h.after, Nat.le_refl _, fun item hitem _ => h.past item hitem⟩
  | look keeper stale retained =>
      simp only [Shelf.next] at hnext
      split at hnext
      case h_2 => cases hnext
      case h_1 began hcall =>
        split at hnext <;> cases hnext
        case isTrue hseen =>
          refine h.set (fun began' hbegan => ?_) fun began' stale' hcall' => ?_
          · exact h.began keeper began' (by rw [hcall]; exact hbegan)
          · cases hcall'
            exact ⟨retained, hseen⟩
  | clear keeper =>
      simp only [Shelf.next] at hnext
      split at hnext <;> cases hnext
      case h_1 began name stale hcall =>
        refine (h.without name).set (fun began' hbegan => ?_) fun began' stale' hcall' => ?_
        · exact (h.without name).began keeper began' (by
            rw [show (shelf.without name).calls keeper = _ from hcall]
            exact hbegan)
        · cases hcall'
          obtain ⟨retained, hlength, hseen⟩ := h.clearing keeper began _ hcall
          exact ⟨retained, hlength, hseen.without⟩
  | put keeper name =>
      simp only [Shelf.next] at hnext
      split at hnext
      case h_2 => cases hnext
      case h_1 began hcall =>
        split at hnext <;> cases hnext
        case isFalse hname =>
          -- the order of the two changes is immaterial
          have hleft : Orderly kept start (shelf.set keeper .idle) :=
            h.set (fun _ hbegan => nomatch hbegan) fun _ _ hcall => nomatch hcall
          have hidle : (shelf.set keeper .idle).calls keeper = .idle := Function.update_self ..
          exact hleft.add hidle hname
  | fail keeper =>
      cases hnext
      exact h.set (fun _ hbegan => nomatch hbegan) fun _ _ hcall => nomatch hcall
  | lose name =>
      cases hnext
      exact h.without name

/-- A call that has removed what it was to remove leaves no more than it retains of what was there
before it. -/
theorem cleared_count (h : Orderly kept start shelf)
    (hcall : shelf.calls keeper = .clearing began []) :
    (shelf.items.countP fun item => item.made < began) ≤ kept := by
  obtain ⟨retained, hlength, hseen⟩ := h.clearing keeper began [] hcall
  have hnames : ((shelf.items.filter fun item => item.made < began).map Item.name).Nodup :=
    h.names.sublist (List.filter_sublist.map _)
  have hsubset : (shelf.items.filter fun item => item.made < began).map Item.name ⊆ retained := by
    intro name hname
    obtain ⟨item, hitem, rfl⟩ := List.mem_map.mp hname
    obtain ⟨hitem, hmade⟩ := List.mem_filter.mp hitem
    obtain hstale | hretained := hseen item hitem (by simpa using hmade)
    · cases hstale
    · exact hretained
  calc (shelf.items.countP fun item => item.made < began)
      = ((shelf.items.filter fun item => item.made < began).map Item.name).length := by
        rw [List.length_map, List.countP_eq_length_filter]
    _ ≤ retained.length := (hnames.subperm hsubset).length_le
    _ ≤ kept := hlength

/-- A call that puts in its item bounds the shelf, if it was bounded or nobody has put in anything
since the call began. -/
theorem put_bounded (h : Orderly kept start shelf) (hcall : shelf.calls keeper = .clearing began [])
    (hbefore : Bounded kept shelf ∨ began = shelf.clock) :
    Bounded kept (shelf.add keeper name) := by
  obtain ⟨-, hclock, hown⟩ := h.began keeper began (by rw [hcall]; rfl)
  -- from a time on that none of the items of the keeper is from
  have hput (since : Nat) (hsince : since ≤ shelf.clock) (hbegan : began ≤ since)
      (hcount : (shelf.items.countP fun item => item.made < since) ≤ kept)
      (hnodup : ((shelf.items.filter fun item => since ≤ item.made).map Item.maker).Nodup) :
      Bounded kept (shelf.add keeper name) := by
    refine ⟨since, Nat.le_succ_of_le hsince, ?_, ?_⟩
    · have hnew : ¬ shelf.clock < since := by omega
      simpa [Shelf.add, hnew] using hcount
    · have hmaker : keeper ∉ (shelf.items.filter fun item => since ≤ item.made).map Item.maker := by
        intro hmem
        obtain ⟨item, hitem, hmaker⟩ := List.mem_map.mp hmem
        obtain ⟨hitem, hmade⟩ := List.mem_filter.mp hitem
        have hlt := hown item hitem hmaker
        have hle : since ≤ item.made := by simpa using hmade
        omega
      simpa [Shelf.add, hsince] using List.nodup_cons.mpr ⟨hmaker, hnodup⟩
  have hretained := cleared_count h hcall
  obtain ⟨since, hsince, hcount, hnodup⟩ | rfl := hbefore
  · obtain hlt | hle := Nat.lt_or_ge since began
    · refine hput began hclock (Nat.le_refl _) hretained (hnodup.sublist (List.Sublist.map _ ?_))
      refine List.monotone_filter_right _ fun item hmade => ?_
      have hle : began ≤ item.made := by simpa using hmade
      simp
      omega
    · exact hput since hsince hle hcount hnodup
  · refine hput _ (Nat.le_refl _) (Nat.le_refl _) hretained ?_
    have hnone : (shelf.items.filter fun item => shelf.clock ≤ item.made) = [] := by
      refine List.filter_eq_nil_iff.mpr fun item hitem => ?_
      simpa using h.past item hitem
    simp [hnone]

/-- A shelf that is bounded has no more items than may be kept and one for each keeper. -/
theorem Bounded.length_le [Fintype ι] (h : Bounded kept shelf) :
    shelf.items.length ≤ kept + Fintype.card ι := by
  obtain ⟨since, -, hcount, hnodup⟩ := h
  have hsplit := List.length_eq_countP_add_countP (l := shelf.items)
    fun item : Item ι ν => decide (item.made < since)
  have hlater : (shelf.items.countP fun item => ¬ decide (item.made < since)) ≤ Fintype.card ι := by
    have hle := hnodup.length_le_card
    rw [List.length_map, ← List.countP_eq_length_filter] at hle
    simpa [Nat.not_lt] using hle
  omega

/-- The bound on the way: as many items as at the start while nothing has been put in, and then as
many as a bounded shelf has. -/
def Held (kept : Nat) (first shelf : Shelf ι ν) : Prop :=
  shelf.clock = first.clock ∧ shelf.items.length ≤ first.items.length ∨
    first.clock < shelf.clock ∧ Bounded kept shelf

theorem next_held [DecidableEq ι] [DecidableEq ν] {first : Shelf ι ν} {event : Event ι ν}
    (h : Orderly kept first.clock shelf) (hheld : Held kept first shelf)
    (hnext : shelf.next kept event = some shelf') :
    Held kept first shelf' := by
  have hwithout (name : ν) : Held kept first (shelf.without name) := by
    obtain ⟨hclock, hlength⟩ | ⟨hclock, hbounded⟩ := hheld
    · exact .inl ⟨hclock, (List.length_filter_le _ _).trans hlength⟩
    · exact .inr ⟨hclock, hbounded.without name⟩
  cases event with
  | call keeper =>
      simp only [Shelf.next] at hnext
      split at hnext <;> cases hnext
      exact hheld
  | look keeper stale retained =>
      simp only [Shelf.next] at hnext
      split at hnext
      case h_2 => cases hnext
      case h_1 =>
        split at hnext <;> cases hnext
        exact hheld
  | clear keeper =>
      simp only [Shelf.next] at hnext
      split at hnext <;> cases hnext
      exact hwithout _
  | put keeper name =>
      simp only [Shelf.next] at hnext
      split at hnext
      case h_2 => cases hnext
      case h_1 began hcall =>
        split at hnext <;> cases hnext
        refine .inr ⟨Nat.lt_succ_of_le h.after, put_bounded h hcall ?_⟩
        obtain ⟨hclock, -⟩ | ⟨-, hbounded⟩ := hheld
        · obtain ⟨hstart, hbegan, -⟩ := h.began keeper began (by rw [hcall]; rfl)
          exact .inr (by omega)
        · exact .inl hbounded
  | fail keeper =>
      cases hnext
      exact hheld
  | lose name =>
      cases hnext
      exact hwithout name

/-- From a shelf on which no call has begun: never more items than there were, or than may be kept
and one for each keeper; and once a call has been completed no more than those. -/
theorem length_le [Fintype ι] [DecidableEq ι] [DecidableEq ν] {first last : Shelf ι ν}
    {events : List (Event ι ν)}
    (hnames : (first.items.map Item.name).Nodup)
    (hpast : ∀ item ∈ first.items, item.made < first.clock)
    (hidle : ∀ keeper, first.calls keeper = .idle)
    (hplay : (system ι ν kept).play first events = some last) :
    last.items.length ≤ max first.items.length (kept + Fintype.card ι) ∧
      (first.clock < last.clock → last.items.length ≤ kept + Fintype.card ι) := by
  have hfirst : Orderly kept first.clock first := {
    names := hnames
    past := hpast
    after := Nat.le_refl _
    began := fun keeper began hcall => by rw [hidle keeper] at hcall; cases hcall
    clearing := fun keeper began stale hcall => by rw [hidle keeper] at hcall; cases hcall }
  have hany : (system ι ν kept).Throughout (fun _ _ => True) first events :=
    System.throughout_of_events (fun _ _ _ => trivial) first
  have halways := hany.always
    (I := fun shelf => Orderly kept first.clock shelf ∧ Held kept first shelf)
    ⟨hfirst, .inl ⟨rfl, Nat.le_refl _⟩⟩
    fun shelf event shelf' h _ hnext => ⟨next_orderly h.1 hnext, next_held h.1 h.2 hnext⟩
  obtain ⟨-, ⟨hclock, hlength⟩ | ⟨-, hbounded⟩⟩ := halways.last hplay
  · exact ⟨Nat.le_trans hlength (Nat.le_max_left ..), fun hlt => absurd hlt (by omega)⟩
  · exact ⟨Nat.le_trans hbounded.length_le (Nat.le_max_right ..), fun _ => hbounded.length_le⟩

end Foundations.Retention
