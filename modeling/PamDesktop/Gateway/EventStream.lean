import PamDesktop.Gateway.Requests
import PamDesktop.Protocol.Envelope

/-!
# The event stream of a window

`EventHub` with its bounded history, the gateway's `events` handler and the poll loop of the
bridge, with every acquisition of the hub's lock as a step of its own. A poll that found nothing
answers with an identifier it reads later, so the window keeps its place exactly as long as nothing
for it is published in between.
-/

namespace PamDesktop.Gateway

open Foundations Protocol

/-- `EVENT_HISTORY_LIMIT`. -/
@[irreducible] def eventHistoryLimit : Nat := 256

/-- `PublishedEvent`. -/
structure PublishedEvent (Value : Type) where
  id : UInt64
  name : String
  payload : Value
  windowId : Option String
deriving DecidableEq

/-- `EventState`. -/
structure EventState (Value : Type) where
  nextId : UInt64
  events : List (PublishedEvent Value)

variable {Value : Type}

/-- `pop_front` while the history is longer than its limit. -/
def trim : List (PublishedEvent Value) → List (PublishedEvent Value)
  | [] => []
  | event :: events =>
      if eventHistoryLimit < (event :: events).length then trim events else event :: events

/-- The event has no target or this one. -/
def PublishedEvent.isFor (event : PublishedEvent Value) (windowId : String) : Bool :=
  event.windowId.all (· == windowId)

namespace EventState

/-- `next_id.saturating_add(1)`. -/
def followingId (s : EventState Value) : UInt64 :=
  if s.nextId = UInt64.ofNat (2 ^ 64 - 1) then s.nextId else s.nextId + 1

/-- The event with the identifier it gets. -/
def publishedEvent (s : EventState Value) (event : ClientEvent Value) : PublishedEvent Value :=
  ⟨s.followingId, event.name, event.payload, event.windowId⟩

/-- `EventHub::publish`. -/
def publish (s : EventState Value) (event : ClientEvent Value) : EventState Value where
  nextId := s.followingId
  events := trim (s.events ++ [s.publishedEvent event])

/-- `EventHub::latest_id`. -/
def latestId (s : EventState Value) : UInt64 := s.nextId

/-- `EventHub::events_after`. -/
def eventsAfter (s : EventState Value) (after : UInt64) (windowId : String) :
    List (PublishedEvent Value) :=
  s.events.filter fun event => decide (after < event.id) && event.isFor windowId

end EventState

/-- `EventPollResponse`. -/
structure EventPollResponse (Value : Type) where
  cursor : UInt64
  events : List (PublishedEvent Value)

/-- Where a poll is: the bridge has none under way, the handler is about to scan the history, its
scan found nothing, or its answer is on the way. The answer comes with the number of events
published before the scan it is from. -/
inductive Poll (Value : Type) where
  | idle
  | polling (after : UInt64)
  | emptied (after : UInt64)
  | answered (response : EventPollResponse Value) (scanned : Nat)

/-- A hub and the poll loop of one window. Of the last three, nothing is read by the code: all
events ever published, how many of them had been when the window last learned the result of a scan,
and how many had left the history at its first scan. -/
structure Stream (Value : Type) where
  hub : EventState Value
  cursor : UInt64
  poll : Poll Value
  dispatched : List (PublishedEvent Value)
  published : List (PublishedEvent Value)
  covered : Nat
  started : Option Nat

/-- An empty hub and a window that has not polled. -/
def Stream.initial : Stream Value where
  hub := ⟨0, []⟩
  cursor := 0
  poll := .idle
  dispatched := []
  published := []
  covered := 0
  started := none

/-- How the page's numbers bring a cursor back that they were given: whole, up to
`Number.MAX_SAFE_INTEGER`. -/
structure Numbers where
  carry : UInt64 → UInt64
  carry_safe : ∀ n : UInt64, n.toNat < 2 ^ 53 → carry n = n

/-- The steps of publishers, of the handler and of the bridge. -/
inductive StreamEvent (Value : Type) where
  | publish (event : ClientEvent Value)
  | request (bootstrap : Bootstrap) (headers : Headers)
  | scan
  | latest
  | receive
  | fail

namespace Stream

/-- The first scan of a window starts its stream with what the history has. -/
def start (s : Stream Value) : Stream Value :=
  match s.started with
  | some _ => s
  | none =>
      let evicted := s.published.length - eventHistoryLimit
      { s with covered := evicted, started := some evicted }

/-- `events_after`, and the cursor of its last event if there is one. -/
def scan (s : Stream Value) (windowId : String) (after : UInt64) : Stream Value :=
  let events := s.hub.eventsAfter after windowId
  match events.getLast? with
  | some event => { s with poll := .answered ⟨event.id, events⟩ s.published.length }
  | none => { s with poll := .emptied after, covered := s.published.length }

end Stream

/-- What each step does. -/
def streamStep (numbers : Numbers) (bridge : Bridge) (windowId : String) (s : Stream Value) :
    StreamEvent Value → Option (Stream Value)
  | .publish event =>
      some { s with hub := s.hub.publish event,
                    published := s.published ++ [s.hub.publishedEvent event] }
  | .request bootstrap headers =>
      match s.poll with
      | .idle =>
          -- `fetch` with the cursor; the bridge tries again when it is turned away
          if authorized bridge headers && bootstrap.windows.contains windowId then
            some { s with poll := .polling s.cursor }
          else some s
      | _ => none
  | .scan =>
      match s.poll with
      | .polling after | .emptied after => some (s.start.scan windowId after)
      | _ => none
  | .latest =>
      match s.poll with
      -- the deadline has passed: `poll` returns no events and `events` asks for the latest
      | .emptied _ => some { s with poll := .answered ⟨s.hub.latestId, []⟩ s.covered }
      | _ => none
  | .receive =>
      match s.poll with
      | .answered response scanned =>
          some { s with poll := .idle, cursor := numbers.carry response.cursor, covered := scanned,
                        dispatched := s.dispatched ++ response.events }
      | _ => none
  | .fail =>
      -- the request or its answer is lost, and the loop keeps its cursor
      some { s with poll := .idle }

/-- A hub and the poll loop of one window as a system. -/
def eventStream (numbers : Numbers) (bridge : Bridge) (windowId : String) :
    System (Stream Value) (StreamEvent Value) := ⟨streamStep numbers bridge windowId⟩

/-! ## The history -/

/-- The loop leaves the last events. -/
theorem trim_eq_drop (events : List (PublishedEvent Value)) :
    trim events = events.drop (events.length - eventHistoryLimit) := by
  induction events with
  | nil => simp [trim]
  | cons event events ih =>
      unfold trim
      by_cases hlong : eventHistoryLimit < (event :: events).length
      · have hdrop : (event :: events).length - eventHistoryLimit =
            (events.length - eventHistoryLimit) + 1 := by
          rw [List.length_cons] at hlong ⊢
          omega
        rw [if_pos hlong, ih, hdrop, List.drop_succ_cons]
      · have hdrop : (event :: events).length - eventHistoryLimit = 0 := by omega
        rw [if_neg hlong, hdrop, List.drop_zero]

/-- The history after one more event. -/
theorem trim_append (published : List (PublishedEvent Value)) (event : PublishedEvent Value) :
    trim (published.drop (published.length - eventHistoryLimit) ++ [event]) =
      (published ++ [event]).drop ((published ++ [event]).length - eventHistoryLimit) := by
  have hsplit : published.drop (published.length - eventHistoryLimit) ++ [event] =
      (published ++ [event]).drop (published.length - eventHistoryLimit) :=
    (List.drop_append_of_le_length (by omega)).symm
  rw [hsplit, trim_eq_drop, List.drop_drop]
  congr 1
  simp only [List.length_drop, List.length_append, List.length_singleton]
  omega

/-- The events for the window among the first `upto` published, from the start of its stream. -/
def expected (windowId : String) (published : List (PublishedEvent Value)) (start upto : Nat) :
    List (PublishedEvent Value) :=
  ((published.take upto).drop start).filter (·.isFor windowId)

/-- What is expected up to now is what was expected earlier and what has come since. -/
theorem expected_append {windowId : String} {published : List (PublishedEvent Value)}
    {start upto : Nat} (hstart : start ≤ upto) (hupto : upto ≤ published.length) :
    expected windowId published start published.length =
      expected windowId published start upto ++
        (published.drop upto).filter (·.isFor windowId) := by
  have hsplit : published.drop start = (published.take upto).drop start ++ published.drop upto := by
    rw [← List.drop_append_of_le_length (by rw [List.length_take]; omega),
      List.take_append_drop]
  simp only [expected]
  rw [List.take_length, hsplit, List.filter_append]

/-- Later events do not change what was expected earlier. -/
theorem expected_publish {windowId : String} {published : List (PublishedEvent Value)}
    {start upto : Nat} (hupto : upto ≤ published.length) (event : PublishedEvent Value) :
    expected windowId (published ++ [event]) start upto =
      expected windowId published start upto := by
  simp only [expected]
  rw [List.take_append_of_le_length hupto]

/-- The window has received every event for it that was published before the last scan it knows
of, from the start of its stream, once and in the order of publication. -/
def Lossless (windowId : String) (s : Stream Value) : Prop :=
  s.dispatched = expected windowId s.published (s.started.getD 0) s.covered

/-- At most as many events as the history holds come between two scans. -/
def Paced (s : Stream Value) : StreamEvent Value → Prop
  | .scan => s.started.isSome = true → s.published.length ≤ s.covered + eventHistoryLimit
  | _ => True

/-- Nothing for the window is published between a scan that finds nothing and the cursor that its
poll answers with, and identifiers stay within `Number.MAX_SAFE_INTEGER`. -/
def Quiet (windowId : String) (s : Stream Value) : StreamEvent Value → Prop
  | .publish _ => s.published.length + 1 < 2 ^ 53
  | .latest => ∀ event ∈ s.published.drop s.covered, event.isFor windowId = false
  | _ => True

instance : ∀ (s : Stream Value) (event : StreamEvent Value), Decidable (Paced s event)
  | s, .scan => inferInstanceAs (Decidable
      (s.started.isSome = true → s.published.length ≤ s.covered + eventHistoryLimit))
  | _, .publish _ | _, .request _ _ | _, .latest | _, .receive | _, .fail => .isTrue trivial

instance (windowId : String) :
    ∀ (s : Stream Value) (event : StreamEvent Value), Decidable (Quiet windowId s event)
  | s, .publish _ => inferInstanceAs (Decidable (s.published.length + 1 < 2 ^ 53))
  | s, .latest => inferInstanceAs (Decidable
      (∀ event ∈ s.published.drop s.covered, event.isFor windowId = false))
  | _, .request _ _ | _, .scan | _, .receive | _, .fail => .isTrue trivial

/-! ## The invariant -/

/-- The hub numbers its events from one and keeps the last of them. -/
structure Numbered (s : Stream Value) : Prop where
  next : s.hub.nextId.toNat = s.published.length
  safe : s.published.length < 2 ^ 53
  ids : ∀ i event, s.published[i]? = some event → event.id.toNat = i + 1
  history : s.hub.events = s.published.drop (s.published.length - eventHistoryLimit)

/-- A cursor and a number of published events divide the events for the window in the same way. -/
def Agree (windowId : String) (s : Stream Value) (cursor : UInt64) (upto : Nat) : Prop :=
  ∀ i event, s.started.getD 0 ≤ i → s.published[i]? = some event → event.isFor windowId = true →
    (i < cursor.toNat ↔ i < upto)

/-- What a poll under way will do to the place of the window. -/
def PollPlaced (windowId : String) (s : Stream Value) : Poll Value → Prop
  | .idle => True
  | .polling after => after = s.cursor
  | .emptied after => after = s.cursor ∧ s.started.isSome = true
  | .answered response scanned =>
      s.started.isSome = true ∧ s.covered ≤ scanned ∧ scanned ≤ s.published.length ∧
      response.cursor.toNat ≤ s.published.length ∧ Agree windowId s response.cursor scanned ∧
      s.dispatched ++ response.events =
        expected windowId s.published (s.started.getD 0) scanned

/-- The place of the window in the stream. -/
structure Placed (windowId : String) (s : Stream Value) : Prop where
  covered : s.covered ≤ s.published.length
  started : ∀ n, s.started = some n →
    n ≤ s.covered ∧ n ≤ s.published.length - eventHistoryLimit
  unstarted : s.started = none → s.covered = 0 ∧ s.cursor = 0 ∧ s.dispatched = []
  bounded : s.cursor.toNat ≤ s.published.length
  agree : Agree windowId s s.cursor s.covered
  lossless : Lossless windowId s
  poll : PollPlaced windowId s s.poll

/-- Every event has a place among those published. -/
theorem mem_drop_getElem {published : List (PublishedEvent Value)} {upto : Nat}
    {event : PublishedEvent Value} (h : event ∈ published.drop upto) :
    ∃ i, upto ≤ i ∧ published[i]? = some event := by
  obtain ⟨i, hi⟩ := List.mem_iff_getElem?.mp h
  rw [List.getElem?_drop] at hi
  exact ⟨upto + i, Nat.le_add_right _ _, hi⟩

theorem getElem_mem_drop {published : List (PublishedEvent Value)} {upto i : Nat}
    {event : PublishedEvent Value} (hle : upto ≤ i) (h : published[i]? = some event) :
    event ∈ published.drop upto := by
  refine List.mem_iff_getElem?.mpr ⟨i - upto, ?_⟩
  rw [List.getElem?_drop, Nat.add_sub_cancel' hle]
  exact h

/-- A scan finds the events for the window that it has not heard of, if they are all retained. -/
theorem events_after_eq {windowId : String} {s : Stream Value} (hs : Numbered s)
    (hplaced : Placed windowId s) (hstarted : s.started.isSome = true)
    (hpaced : s.published.length ≤ s.covered + eventHistoryLimit) :
    s.hub.eventsAfter s.cursor windowId =
      (s.published.drop s.covered).filter (·.isFor windowId) := by
  obtain ⟨start, hstart⟩ := Option.isSome_iff_exists.mp hstarted
  obtain ⟨-, hretained⟩ := hplaced.started start hstart
  have hagree : ∀ i event, start ≤ i → s.published[i]? = some event →
      event.isFor windowId = true → (i < s.cursor.toNat ↔ i < s.covered) := by
    intro i event hi
    exact hplaced.agree i event (by rw [hstart]; exact hi)
  -- the history is the retained part of what the window knows and all that it does not
  have hsplit : s.published.drop (s.published.length - eventHistoryLimit) =
      (s.published.take s.covered).drop (s.published.length - eventHistoryLimit) ++
        s.published.drop s.covered := by
    have hle : s.published.length - eventHistoryLimit ≤ (s.published.take s.covered).length := by
      rw [List.length_take]
      have := hplaced.covered
      omega
    rw [← List.drop_append_of_le_length hle, List.take_append_drop]
  have hknown : ((s.published.take s.covered).drop
      (s.published.length - eventHistoryLimit)).filter
        (fun event => decide (s.cursor < event.id) && event.isFor windowId) = [] := by
    refine List.filter_eq_nil_iff.mpr fun event hmem => ?_
    obtain ⟨i, hi, hget⟩ := mem_drop_getElem hmem
    have hcovered : i < s.covered := by
      by_contra hge
      rw [List.getElem?_take_eq_none (Nat.le_of_not_lt hge)] at hget
      cases hget
    rw [List.getElem?_take_of_lt hcovered] at hget
    intro hkeep
    obtain ⟨hafter, hfor⟩ := by simpa using hkeep
    have hcursor := (hagree i event (by omega) hget hfor).mpr hcovered
    have hid := hs.ids i event hget
    rw [UInt64.lt_iff_toNat_lt] at hafter
    omega
  have hnew : (s.published.drop s.covered).filter
        (fun event => decide (s.cursor < event.id) && event.isFor windowId) =
      (s.published.drop s.covered).filter (·.isFor windowId) := by
    refine List.filter_congr fun event hmem => ?_
    obtain ⟨i, hi, hget⟩ := mem_drop_getElem hmem
    cases hfor : event.isFor windowId with
    | false => simp
    | true =>
        have hcursor := (hagree i event (by omega) hget hfor).not.mpr (by omega)
        have hid := hs.ids i event hget
        have hafter : s.cursor < event.id := by
          rw [UInt64.lt_iff_toNat_lt]
          omega
        simp [hafter]
  unfold EventState.eventsAfter
  rw [hs.history, hsplit, List.filter_append, hknown, hnew, List.nil_append]

/-- The identifier of the last event for the window stands for everything published so far. -/
theorem last_agrees {windowId : String} {s : Stream Value} (hs : Numbered s)
    {event : PublishedEvent Value}
    (hlast : ((s.published.drop s.covered).filter (·.isFor windowId)).getLast? = some event) :
    event.id.toNat ≤ s.published.length ∧ Agree windowId s event.id s.published.length := by
  obtain ⟨earlier, hevents⟩ := List.getLast?_eq_some_iff.mp hlast
  have hmem : event ∈ (s.published.drop s.covered).filter (·.isFor windowId) := by
    rw [hevents]
    exact List.mem_append_right _ List.mem_cons_self
  obtain ⟨j, hj, hget⟩ := mem_drop_getElem (List.mem_of_mem_filter hmem)
  have hid := hs.ids j event hget
  have hlength := (List.getElem?_eq_some_iff.mp hget).1
  refine ⟨by omega, fun i other _ hother hfor => ?_⟩
  have hi := (List.getElem?_eq_some_iff.mp hother).1
  refine iff_of_true ?_ hi
  by_cases hcovered : s.covered ≤ i
  · -- it is in the same list, so it is this event or one before it
    have hother_mem : other ∈ (s.published.drop s.covered).filter (·.isFor windowId) :=
      List.mem_filter.mpr ⟨getElem_mem_drop hcovered hother, hfor⟩
    have hother_id := hs.ids i other hother
    have hsorted : (s.published.drop s.covered).Pairwise
        fun first second => first.id.toNat < second.id.toNat := by
      refine List.pairwise_iff_getElem.mpr fun a b ha hb hab => ?_
      have hfirst := hs.ids (s.covered + a) _ (by
        rw [← List.getElem?_drop]; exact List.getElem?_eq_getElem ha)
      have hsecond := hs.ids (s.covered + b) _ (by
        rw [← List.getElem?_drop]; exact List.getElem?_eq_getElem hb)
      omega
    have hfiltered := hsorted.filter (·.isFor windowId)
    rw [hevents] at hfiltered hother_mem
    rcases List.mem_append.mp hother_mem with hearlier | hsame
    · have hlt := (List.pairwise_append.mp hfiltered).2.2 other hearlier event List.mem_cons_self
      omega
    · obtain rfl := List.mem_singleton.mp hsame
      omega
  · omega

/-- A scan that finds events. -/
theorem scan_found {windowId : String} {s : Stream Value} {after : UInt64}
    {event : PublishedEvent Value}
    (h : (s.hub.eventsAfter after windowId).getLast? = some event) :
    s.scan windowId after =
      { s with poll := .answered ⟨event.id, s.hub.eventsAfter after windowId⟩
                 s.published.length } := by
  simp only [Stream.scan, h]

/-- A scan that finds nothing. -/
theorem scan_nothing {windowId : String} {s : Stream Value} {after : UInt64}
    (h : s.hub.eventsAfter after windowId = []) :
    s.scan windowId after = { s with poll := .emptied after, covered := s.published.length } := by
  simp only [Stream.scan, h, List.getLast?_nil]

/-- A scan keeps the window's place. -/
theorem scan_placed {windowId : String} {s : Stream Value} (hs : Numbered s)
    (hplaced : Placed windowId s) (hstarted : s.started.isSome = true)
    (hpaced : s.published.length ≤ s.covered + eventHistoryLimit) :
    Placed windowId (s.scan windowId s.cursor) := by
  have hevents := events_after_eq hs hplaced hstarted hpaced
  obtain ⟨start, hstart⟩ := Option.isSome_iff_exists.mp hstarted
  have hle : s.started.getD 0 ≤ s.covered := by
    rw [hstart]
    exact (hplaced.started start hstart).1
  have happend := @expected_append Value windowId _ _ _ hle hplaced.covered
  cases hlast : ((s.published.drop s.covered).filter (·.isFor windowId)).getLast? with
  | some event =>
      obtain ⟨hbounded, hagree⟩ := last_agrees hs hlast
      rw [scan_found (hevents ▸ hlast), hevents]
      refine { hplaced with
        poll := ⟨hstarted, hplaced.covered, Nat.le_refl _, hbounded, hagree, ?_⟩ }
      rw [happend, ← hplaced.lossless]
  | none =>
      have hnothing := List.getLast?_eq_none_iff.mp hlast
      rw [scan_nothing (hevents.trans hnothing)]
      refine ⟨Nat.le_refl _, fun n hn => ?_, fun hnone => ?_, hplaced.bounded, ?_, ?_,
        ⟨rfl, hstarted⟩⟩
      · obtain ⟨hn_covered, hn_retained⟩ := hplaced.started n hn
        exact ⟨Nat.le_trans hn_covered hplaced.covered, hn_retained⟩
      · rw [hnone] at hstarted
        cases hstarted
      · intro i event hi hget hfor
        rw [hplaced.agree i event hi hget hfor]
        have hlength := (List.getElem?_eq_some_iff.mp hget).1
        refine iff_of_true ?_ hlength
        by_contra hge
        have hmem := getElem_mem_drop (Nat.le_of_not_lt hge) hget
        exact List.filter_eq_nil_iff.mp hnothing event hmem hfor
      · change s.dispatched = expected windowId s.published (s.started.getD 0) s.published.length
        rw [happend, hnothing, List.append_nil]
        exact hplaced.lossless

/-- The first scan starts the stream of the window. -/
theorem start_placed {windowId : String} {s : Stream Value} (hplaced : Placed windowId s)
    (hpoll : PollPlaced windowId s.start s.poll) : Placed windowId s.start := by
  unfold Stream.start at hpoll ⊢
  cases hstarted : s.started with
  | some start => exact hplaced
  | none =>
      obtain ⟨hcovered, hcursor, hdispatched⟩ := hplaced.unstarted hstarted
      rw [hstarted] at hpoll
      refine ⟨Nat.sub_le _ _, fun n hn => ?_, fun hnone => ?_, hplaced.bounded, ?_, ?_, hpoll⟩
      · obtain rfl := Option.some.inj hn
        exact ⟨Nat.le_refl _, Nat.le_refl _⟩
      · cases hnone
      · intro i event hi _ _
        have hge : s.published.length - eventHistoryLimit ≤ i := hi
        have hzero : s.cursor.toNat = 0 := by rw [hcursor]; rfl
        change i < s.cursor.toNat ↔ i < s.published.length - eventHistoryLimit
        omega
      · have hnone : expected windowId s.published (s.published.length - eventHistoryLimit)
            (s.published.length - eventHistoryLimit) = [] := by
          unfold expected
          rw [List.drop_eq_nil_of_le (List.length_take_le _ _), List.filter_nil]
        exact hdispatched.trans hnone.symm

/-- Below the largest safe number an identifier is not saturated. -/
theorem following_id_toNat {s : Stream Value} (hs : Numbered s)
    (hsafe : s.published.length + 1 < 2 ^ 53) :
    s.hub.followingId.toNat = s.published.length + 1 := by
  have hnext := hs.next
  have hlast : s.hub.nextId ≠ UInt64.ofNat (2 ^ 64 - 1) := by
    intro heq
    rw [heq, UInt64.toNat_ofNat'] at hnext
    omega
  have hone : (1 : UInt64).toNat = 1 := rfl
  unfold EventState.followingId
  rw [if_neg hlast, UInt64.toNat_add, hnext, hone]
  omega

/-- Publishing keeps the numbers. -/
theorem publish_numbered {s : Stream Value} (hs : Numbered s) (event : ClientEvent Value)
    (hsafe : s.published.length + 1 < 2 ^ 53) :
    Numbered { s with hub := s.hub.publish event,
                      published := s.published ++ [s.hub.publishedEvent event] } := by
  have hlength : (s.published ++ [s.hub.publishedEvent event]).length = s.published.length + 1 :=
    List.length_append
  have hid := following_id_toNat hs hsafe
  refine ⟨hid.trans hlength.symm, hlength ▸ hsafe, fun i other hget => ?_, ?_⟩
  · rcases Nat.lt_trichotomy i s.published.length with hlt | heq | hgt
    · rw [List.getElem?_append_left hlt] at hget
      exact hs.ids i other hget
    · subst heq
      rw [List.getElem?_concat_length] at hget
      obtain rfl := Option.some.inj hget
      exact hid
    · have hge : (s.published ++ [s.hub.publishedEvent event]).length ≤ i := by omega
      rw [List.getElem?_eq_none hge] at hget
      cases hget
  · change trim (s.hub.events ++ [s.hub.publishedEvent event]) = _
    rw [hs.history]
    exact trim_append _ _

/-- A new event is beyond every place of the window. -/
theorem Agree.publish {windowId : String} {s : Stream Value} {cursor : UInt64} {upto : Nat}
    (h : Agree windowId s cursor upto) (hcursor : cursor.toNat ≤ s.published.length)
    (hupto : upto ≤ s.published.length) (hub : EventState Value) (event : PublishedEvent Value) :
    Agree windowId { s with hub, published := s.published ++ [event] } cursor upto := by
  intro i other hi hget hfor
  by_cases hlt : i < s.published.length
  · have hbefore : s.published[i]? = some other :=
      (List.getElem?_append_left hlt).symm.trans hget
    exact h i other hi hbefore hfor
  · omega

/-- Publishing does not move the window. -/
theorem publish_placed {windowId : String} {s : Stream Value} (hplaced : Placed windowId s)
    (hub : EventState Value) (event : PublishedEvent Value) :
    Placed windowId { s with hub, published := s.published ++ [event] } := by
  have hcovered := hplaced.covered
  have hbounded := hplaced.bounded
  refine ⟨?_, fun n hn => ?_, hplaced.unstarted, ?_, ?_, ?_, ?_⟩
  · simp only [List.length_append]
    omega
  · obtain ⟨hn_covered, hn_retained⟩ := hplaced.started n hn
    refine ⟨hn_covered, ?_⟩
    simp only [List.length_append]
    omega
  · simp only [List.length_append]
    omega
  · exact hplaced.agree.publish hbounded hcovered hub event
  · exact hplaced.lossless.trans (expected_publish hcovered event).symm
  · have hpoll := hplaced.poll
    revert hpoll
    cases s.poll with
    | idle => exact id
    | polling after => exact id
    | emptied after => exact id
    | answered response scanned =>
        rintro ⟨hstarted, hle, hscanned, hcursor, hagree, hevents⟩
        refine ⟨hstarted, hle, ?_, ?_, hagree.publish hcursor hscanned hub event, ?_⟩
        · simp only [List.length_append]
          omega
        · simp only [List.length_append]
          omega
        · exact hevents.trans (expected_publish hscanned event).symm

/-- Starting and scanning leave the hub alone. -/
theorem scan_numbered {s : Stream Value} (hs : Numbered s) (windowId : String) (after : UInt64) :
    Numbered (s.start.scan windowId after) := by
  have hstart : Numbered s.start := by
    unfold Stream.start
    split
    · exact hs
    · exact ⟨hs.next, hs.safe, hs.ids, hs.history⟩
  simp only [Stream.scan]
  split
  · exact ⟨hstart.next, hstart.safe, hstart.ids, hstart.history⟩
  · exact ⟨hstart.next, hstart.safe, hstart.ids, hstart.history⟩

/-- The first scan finds everything that it has to. -/
theorem start_paced {s : Stream Value} (hpaced : Paced s .scan) :
    s.start.started.isSome = true ∧
      s.start.published.length ≤ s.start.covered + eventHistoryLimit := by
  unfold Stream.start
  cases hstarted : s.started with
  | some start =>
      have hsome : s.started.isSome = true := by rw [hstarted]; rfl
      exact ⟨hsome, hpaced hsome⟩
  | none =>
      refine ⟨rfl, ?_⟩
      change s.published.length ≤ s.published.length - eventHistoryLimit + eventHistoryLimit
      omega

/-- A scan of the handler, from the place that the window is at. -/
theorem start_scan_placed {windowId : String} {s : Stream Value} (hs : Numbered s)
    (hplaced : Placed windowId s) (hpaced : Paced s .scan)
    (hpoll : PollPlaced windowId s.start s.poll) :
    Placed windowId (s.start.scan windowId s.cursor) := by
  obtain ⟨hstarted, hbound⟩ := start_paced hpaced
  have hcursor : s.start.cursor = s.cursor := by
    unfold Stream.start
    split <;> rfl
  have hnumbered : Numbered s.start := by
    unfold Stream.start
    split
    · exact hs
    · exact ⟨hs.next, hs.safe, hs.ids, hs.history⟩
  rw [← hcursor]
  exact scan_placed hnumbered (start_placed hplaced hpoll) hstarted hbound

/-- Every admitted step keeps the hub's numbers and the window's place. -/
theorem stream_step_placed {numbers : Numbers} {bridge : Bridge} {windowId : String}
    {s s' : Stream Value} {event : StreamEvent Value} (hs : Numbered s)
    (hplaced : Placed windowId s) (hpaced : Paced s event) (hquiet : Quiet windowId s event)
    (h : streamStep numbers bridge windowId s event = some s') :
    Numbered s' ∧ Placed windowId s' := by
  have hpoll := hplaced.poll
  cases event with
  | publish event =>
      obtain rfl := Option.some.inj h
      exact ⟨publish_numbered hs event hquiet, publish_placed hplaced _ _⟩
  | request bootstrap headers =>
      simp only [streamStep] at h
      split at h
      · split at h
        · obtain rfl := Option.some.inj h
          exact ⟨⟨hs.next, hs.safe, hs.ids, hs.history⟩, { hplaced with poll := rfl }⟩
        · obtain rfl := Option.some.inj h
          exact ⟨hs, hplaced⟩
      · cases h
  | scan =>
      cases hphase : s.poll with
      | idle => simp [streamStep, hphase] at h
      | answered response scanned => simp [streamStep, hphase] at h
      | polling after =>
          rw [hphase] at hpoll
          obtain rfl : after = s.cursor := hpoll
          obtain rfl : s.start.scan windowId s.cursor = s' := by
            simpa [streamStep, hphase] using h
          have hstart : PollPlaced windowId s.start s.poll := by
            rw [hphase]
            unfold Stream.start
            split <;> rfl
          exact ⟨scan_numbered hs _ _, start_scan_placed hs hplaced hpaced hstart⟩
      | emptied after =>
          rw [hphase] at hpoll
          obtain ⟨rfl, hstarted⟩ : after = s.cursor ∧ _ := hpoll
          obtain rfl : s.start.scan windowId s.cursor = s' := by
            simpa [streamStep, hphase] using h
          have hstart : PollPlaced windowId s.start s.poll := by
            obtain ⟨start, hsome⟩ := Option.isSome_iff_exists.mp hstarted
            rw [hphase]
            simp only [Stream.start, hsome]
            exact ⟨rfl, hstarted⟩
          exact ⟨scan_numbered hs _ _, start_scan_placed hs hplaced hpaced hstart⟩
  | latest =>
      simp only [streamStep] at h
      split at h
      · next after hphase =>
          obtain rfl := Option.some.inj h
          rw [hphase] at hpoll
          obtain ⟨-, hstarted⟩ := hpoll
          refine ⟨⟨hs.next, hs.safe, hs.ids, hs.history⟩, { hplaced with poll := ?_ }⟩
          refine ⟨hstarted, Nat.le_refl _, hplaced.covered, Nat.le_of_eq hs.next, ?_, ?_⟩
          · intro i event _ hget hfor
            have hlength := (List.getElem?_eq_some_iff.mp hget).1
            refine iff_of_true (Nat.lt_of_lt_of_eq hlength hs.next.symm) ?_
            -- anything later was published since the scan and is not for this window
            by_contra hge
            have hmem := getElem_mem_drop (Nat.le_of_not_lt hge) hget
            have hnot := hquiet event hmem
            rw [hfor] at hnot
            cases hnot
          · exact (List.append_nil _).trans hplaced.lossless
      · cases h
  | receive =>
      simp only [streamStep] at h
      split at h
      · next response scanned hphase =>
          obtain rfl := Option.some.inj h
          rw [hphase] at hpoll
          obtain ⟨hstarted, hle, hscanned, hcursor, hagree, hevents⟩ := hpoll
          have hcarry : numbers.carry response.cursor = response.cursor :=
            numbers.carry_safe _ (Nat.lt_of_le_of_lt hcursor hs.safe)
          refine ⟨⟨hs.next, hs.safe, hs.ids, hs.history⟩, hscanned, fun n hn => ?_,
            fun hnone => ?_, ?_, ?_, hevents, trivial⟩
          · obtain ⟨hn_covered, hn_retained⟩ := hplaced.started n hn
            exact ⟨Nat.le_trans hn_covered hle, hn_retained⟩
          · exact absurd hstarted (by simp [show s.started = none from hnone])
          · change (numbers.carry response.cursor).toNat ≤ _
            rw [hcarry]
            exact hcursor
          · change Agree windowId s (numbers.carry response.cursor) scanned
            rw [hcarry]
            exact hagree
      · cases h
  | fail =>
      obtain rfl := Option.some.inj h
      exact ⟨⟨hs.next, hs.safe, hs.ids, hs.history⟩, { hplaced with poll := trivial }⟩

theorem initial_placed (windowId : String) :
    Numbered (.initial : Stream Value) ∧ Placed windowId (.initial : Stream Value) := by
  have hempty : ∀ (i : Nat) event, ([] : List (PublishedEvent Value))[i]? ≠ some event := by simp
  refine ⟨⟨rfl, Nat.two_pow_pos 53, fun i event hget => absurd hget (hempty i event),
    List.drop_nil.symm⟩, ?_⟩
  refine ⟨Nat.le_refl _, fun n hn => ?_, fun _ => ⟨rfl, rfl, rfl⟩, Nat.le_refl _, ?_, rfl, trivial⟩
  · cases hn
  · exact fun i event _ hget => absurd hget (hempty i event)

/-- A window whose polls are quiet receives every event for it once and in order, over any run in
which at most as many events as the history holds come between two scans. -/
theorem events_delivered_once {numbers : Numbers} {bridge : Bridge} {windowId : String}
    {events : List (StreamEvent Value)}
    (hpaced : (eventStream numbers bridge windowId).Throughout Paced .initial events)
    (hquiet : (eventStream numbers bridge windowId).Throughout (Quiet windowId) .initial events) :
    (eventStream numbers bridge windowId).Always (Lossless windowId) .initial events := by
  have hplaced := (hpaced.and hquiet).always (initial_placed windowId)
    fun s event s' hs hadmitted hnext =>
      stream_step_placed hs.1 hs.2 hadmitted.1 hadmitted.2 hnext
  exact hplaced.mono fun s hs => hs.2.lossless

/-- The numbers of a page, up to the largest that it brings back whole. -/
def pageNumbers : Numbers := ⟨id, fun _ _ => rfl⟩

/-- A save in the window, and a sync that ends in the background. -/
def notesSaved : StreamEvent Unit := .publish ⟨"notes.saved", (), some "main"⟩

def notesSynced : StreamEvent Unit := .publish ⟨"notes.synced", (), none⟩

/-- A poll that finds nothing, and one that finds both events. -/
def notesQuietPolls : List (StreamEvent Unit) :=
  [.request ⟨["main"], 30000⟩ notesHeaders, .scan, .latest, .receive, notesSaved, notesSynced,
   .request ⟨["main"], 30000⟩ notesHeaders, .scan, .receive]

/-- The save is published when the poll has found nothing and not yet read its cursor. -/
def notesMissedSave : List (StreamEvent Unit) :=
  [.request ⟨["main"], 30000⟩ notesHeaders, .scan, notesSaved, .latest, .receive,
   .request ⟨["main"], 30000⟩ notesHeaders, .scan]

theorem notes_events_delivered :
    (eventStream pageNumbers notesBridge "main").Always (Lossless "main") .initial
      notesQuietPolls :=
  events_delivered_once (by decide +kernel) (by decide +kernel)

/-- Its cursor is then past the save, and the next scan leaves the save behind. -/
theorem event_lost_behind_cursor :
    (eventStream pageNumbers notesBridge "main").Throughout Paced .initial notesMissedSave ∧
    ¬ (eventStream pageNumbers notesBridge "main").Always (Lossless "main") .initial
      notesMissedSave := by
  refine ⟨by decide +kernel, fun halways => ?_⟩
  have hlost : ((eventStream pageNumbers notesBridge "main").play .initial notesMissedSave).any
      (fun s => s.dispatched = [] ∧
        expected "main" s.published (s.started.getD 0) s.covered =
          [⟨1, "notes.saved", (), some "main"⟩]) = true := by decide +kernel
  obtain ⟨final, hplay, hfinal⟩ := (Option.any_eq_true _ _).mp hlost
  obtain ⟨hdispatched, hexpected⟩ := of_decide_eq_true hfinal
  have hlossless : final.dispatched = expected "main" final.published _ _ := halways.last hplay
  rw [hdispatched, hexpected] at hlossless
  cases hlossless

end PamDesktop.Gateway
