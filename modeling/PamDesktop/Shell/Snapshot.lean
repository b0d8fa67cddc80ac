import Mathlib.Data.Fintype.Defs
import Mathlib.Logic.Function.Basic
import PamDesktop.Foundations.Transition

/-!
# Publishing startup snapshots

`StartupSnapshot::publish` in processes that share a project, and with it the temporary path and the
final path: each opens the temporary file, writes what `serde_json::to_vec` gave it, and renames the
file. A file that is open keeps its contents under whatever name. Read `publications_undamaged_iff`
for the interleavings that work.
-/

namespace PamDesktop.Shell.Snapshot

open Foundations

/-! ## Files -/

/-- The files of the cache directory, and which of them the two paths name. -/
structure Files where
  contents : Nat → List UInt8
  unused : Nat
  temporary : Option Nat
  published : Option Nat

/-- The contents after a write at an offset; what lies before it and was cut off reads as zeros. -/
def writeAt (contents : List UInt8) (offset : Nat) (bytes : List UInt8) : List UInt8 :=
  contents.take offset ++ List.replicate (offset - contents.length) 0 ++ bytes ++
    contents.drop (offset + bytes.length)

/-- What is at the final path. -/
def Files.cached (files : Files) : Option (List UInt8) := files.published.map files.contents

/-- `OpenOptions::open` on the temporary path: the file that is there is truncated. -/
def Files.openTemporary (files : Files) : Nat × Files :=
  match files.temporary with
  | some file => (file, { files with contents := Function.update files.contents file [] })
  | none =>
      (files.unused, { files with
        contents := Function.update files.contents files.unused []
        unused := files.unused + 1
        temporary := some files.unused })

/-- `rename` of whatever the temporary path names to the final path. -/
def Files.rename (files : Files) : Except String Unit × Files :=
  match files.temporary with
  | some file => (.ok (), { files with temporary := none, published := some file })
  | none =>
      (.error "cannot publish startup snapshot: No such file or directory (os error 2)", files)

/-- The two paths name two files, and new files are neither of them. -/
structure Files.Separate (files : Files) : Prop where
  apart : ∀ file, files.temporary = some file → files.published ≠ some file
  used : ∀ file, files.temporary = some file ∨ files.published = some file → file < files.unused

/-! ## Processes -/

/-- Where a process is in `publish`, with the file that it has open. -/
inductive Phase where
  | idle
  | writing (file offset : Nat)
  | synced (file : Nat)
  | ended (result : Except String Unit)

/-- The process is between opening the file and renaming it. -/
def Phase.publishing : Phase → Bool
  | .writing _ _ | .synced _ => true
  | .idle | .ended _ => false

/-- The cache directory and the processes. -/
structure State (ι : Type) where
  files : Files
  phase : ι → Phase

/-- A step of a process: `write` is one call in `write_all` that writes so many bytes. -/
inductive Event (ι : Type) where
  | open (process : ι)
  | write (process : ι) (count : Nat)
  | sync (process : ι)
  | rename (process : ι)

variable {ι : Type} [DecidableEq ι]

/-- Processes that publish these bytes. -/
def publishing (bytes : ι → List UInt8) : System (State ι) (Event ι) where
  next s
    | .open process =>
        match s.phase process with
        | .idle =>
            let (file, files) := s.files.openTemporary
            some ⟨files, Function.update s.phase process (.writing file 0)⟩
        | _ => none
    | .write process count =>
        match s.phase process with
        | .writing file offset =>
            if 0 < count ∧ offset + count ≤ (bytes process).length then
              let chunk := ((bytes process).drop offset).take count
              let contents := writeAt (s.files.contents file) offset chunk
              some ⟨{ s.files with contents := Function.update s.files.contents file contents },
                Function.update s.phase process (.writing file (offset + count))⟩
            else none
        | _ => none
    | .sync process =>
        match s.phase process with
        | .writing file offset =>
            if offset = (bytes process).length then
              some ⟨s.files, Function.update s.phase process (.synced file)⟩
            else none
        | _ => none
    | .rename process =>
        match s.phase process with
        | .synced _ =>
            let (result, files) := s.files.rename
            some ⟨files, Function.update s.phase process (.ended result)⟩
        | _ => none

/-! ## What the publications promise -/

/-- At the final path is what was there before or a whole snapshot. -/
def Complete (bytes : ι → List UInt8) (before : Option (List UInt8)) (s : State ι) : Prop :=
  s.files.cached = before ∨ ∃ process, s.files.cached = some (bytes process)

/-- All processes have published, and what is cached is the snapshot of one of them. -/
def Published (bytes : ι → List UInt8) (s : State ι) : Prop :=
  (∀ process, s.phase process = .ended (.ok ())) ∧
    ∃ process, s.files.cached = some (bytes process)

/-- No process opens the temporary file before the others have renamed theirs. -/
def InTurn (s : State ι) : Event ι → Prop
  | .open _ => ∀ other, (s.phase other).publishing = false
  | _ => True

instance [Fintype ι] (s : State ι) : (event : Event ι) → Decidable (InTurn s event)
  | .open _ => inferInstanceAs (Decidable (∀ other, (s.phase other).publishing = false))
  | .write _ _ | .sync _ | .rename _ => .isTrue trivial

/-- Nobody has started. -/
structure Initial (s : State ι) : Prop where
  idle : ∀ process, s.phase process = .idle
  separate : s.files.Separate

/-! ## Operations on the files -/

/-- Writing what comes next in the bytes. -/
theorem writeAt_next (bytes : List UInt8) {offset : Nat} (h : offset ≤ bytes.length)
    (count : Nat) :
    writeAt (bytes.take offset) offset ((bytes.drop offset).take count) =
      bytes.take (offset + count) := by
  have hlength : (bytes.take offset).length = offset := List.length_take_of_le h
  have hnothing : (bytes.take offset).drop
      (offset + ((bytes.drop offset).take count).length) = [] :=
    List.drop_eq_nil_of_le (by omega)
  rw [writeAt, hnothing, hlength, Nat.sub_self, List.replicate_zero, List.append_nil,
    List.append_nil, List.take_take, Nat.min_self, List.take_add]

namespace Files

variable {files : Files}

/-- What is written to another file is not seen at the final path. -/
theorem cached_update {file : Nat} (h : files.published ≠ some file) (contents : List UInt8) :
    cached { files with contents := Function.update files.contents file contents } =
      files.cached := by
  rw [cached, cached]
  cases hpublished : files.published with
  | none => rfl
  | some other =>
      have hne : other ≠ file := fun heq => h (hpublished.trans (congrArg some heq))
      exact congrArg some (Function.update_of_ne hne contents files.contents)

/-- After opening, the file is at the temporary path and empty. At the final path is what was. -/
theorem open_temporary (h : files.Separate) :
    files.openTemporary.2.Separate ∧
      files.openTemporary.2.temporary = some files.openTemporary.1 ∧
      files.openTemporary.2.contents files.openTemporary.1 = [] ∧
      files.openTemporary.2.cached = files.cached := by
  cases htemporary : files.temporary with
  | some file =>
      have hopen : files.openTemporary =
          (file, { files with contents := Function.update files.contents file [] }) := by
        simp only [openTemporary, htemporary]
      rw [hopen]
      refine ⟨⟨h.apart, h.used⟩, htemporary, Function.update_self .., ?_⟩
      exact cached_update (h.apart file htemporary) []
  | none =>
      have hopen : files.openTemporary = (files.unused, { files with
          contents := Function.update files.contents files.unused []
          unused := files.unused + 1
          temporary := some files.unused }) := by
        simp only [openTemporary, htemporary]
      have hnew : files.published ≠ some files.unused := fun hpublished =>
        Nat.lt_irrefl _ (h.used files.unused (.inr hpublished))
      rw [hopen]
      refine ⟨⟨?_, ?_⟩, rfl, Function.update_self .., cached_update hnew []⟩
      · intro file hfile
        obtain rfl := Option.some.inj hfile
        exact hnew
      · intro file hfile
        show file < files.unused + 1
        rcases hfile with hfile | hpublished
        · obtain rfl := Option.some.inj hfile
          omega
        · have := h.used file (.inr hpublished)
          omega

/-- The rename gives the final path the contents of the temporary file. -/
theorem rename_temporary (h : files.Separate) {file : Nat} (hfile : files.temporary = some file) :
    files.rename.1 = .ok () ∧ files.rename.2.Separate ∧
      files.rename.2.cached = some (files.contents file) := by
  have hrename : files.rename =
      (.ok (), { files with temporary := none, published := some file }) := by
    simp only [rename, hfile]
  rw [hrename]
  refine ⟨rfl, ⟨fun other hother => (nomatch hother), fun other hother => ?_⟩, rfl⟩
  rcases hother with hother | hother
  · cases hother
  · exact h.used other (.inl (hfile.trans hother))

end Files

/-! ## Steps -/

variable {bytes : ι → List UInt8} {s s' : State ι} {process : ι}

theorem open_step (h : (publishing bytes).next s (.open process) = some s') :
    s.phase process = .idle ∧
      s' = ⟨s.files.openTemporary.2,
        Function.update s.phase process (.writing s.files.openTemporary.1 0)⟩ := by
  cases hphase : s.phase process with
  | idle => exact ⟨rfl, by simpa only [publishing, hphase, Option.some.injEq, eq_comm] using h⟩
  | writing | synced | ended => simp only [publishing, hphase, reduceCtorEq] at h

theorem write_step {count : Nat} (h : (publishing bytes).next s (.write process count) = some s') :
    ∃ file offset, s.phase process = .writing file offset ∧
      offset + count ≤ (bytes process).length ∧
      s' = ⟨{ s.files with
          contents := Function.update s.files.contents file
            (writeAt (s.files.contents file) offset
              (((bytes process).drop offset).take count)) },
        Function.update s.phase process (.writing file (offset + count))⟩ := by
  cases hphase : s.phase process with
  | writing file offset =>
      simp only [publishing, hphase, Option.ite_none_right_eq_some, Option.some.injEq] at h
      exact ⟨file, offset, rfl, h.1.2, h.2.symm⟩
  | idle | synced | ended => simp only [publishing, hphase, reduceCtorEq] at h

theorem sync_step (h : (publishing bytes).next s (.sync process) = some s') :
    ∃ file, s.phase process = .writing file (bytes process).length ∧
      s' = ⟨s.files, Function.update s.phase process (.synced file)⟩ := by
  cases hphase : s.phase process with
  | writing file offset =>
      simp only [publishing, hphase, Option.ite_none_right_eq_some, Option.some.injEq] at h
      exact ⟨file, congrArg _ h.1, h.2.symm⟩
  | idle | synced | ended => simp only [publishing, hphase, reduceCtorEq] at h

theorem rename_step (h : (publishing bytes).next s (.rename process) = some s') :
    ∃ file, s.phase process = .synced file ∧
      s' = ⟨s.files.rename.2,
        Function.update s.phase process (.ended s.files.rename.1)⟩ := by
  cases hphase : s.phase process with
  | synced file =>
      exact ⟨file, rfl, by simpa only [publishing, hphase, Option.some.injEq, eq_comm] using h⟩
  | idle | writing | ended => simp only [publishing, hphase, reduceCtorEq] at h

/-! ## Publications in turn -/

/-- What a process has in the temporary file, or that it has published. -/
def Phase.Holds (bytes : List UInt8) (files : Files) : Phase → Prop
  | .idle => True
  | .writing file offset =>
      files.temporary = some file ∧ offset ≤ bytes.length ∧
        files.contents file = bytes.take offset
  | .synced file => files.temporary = some file ∧ files.contents file = bytes
  | .ended result => result = .ok ()

/-- The files matter only to who is publishing. -/
theorem Phase.Holds.elsewhere {bytes : List UInt8} {files : Files} {phase : Phase}
    (h : phase.Holds bytes files) (hquiet : phase.publishing = false) (files' : Files) :
    phase.Holds bytes files' := by
  cases phase with
  | idle | ended => exact h
  | writing | synced => cases hquiet

/-- At most one process is publishing, and nothing has been damaged. -/
structure Undamaged (bytes : ι → List UInt8) (before : Option (List UInt8)) (s : State ι) :
    Prop where
  alone : ∀ process other, (s.phase process).publishing = true →
    (s.phase other).publishing = true → process = other
  holds : ∀ process, (s.phase process).Holds (bytes process) s.files
  separate : s.files.Separate
  complete : Complete bytes before s
  replaced : ∀ process result, s.phase process = .ended result →
    ∃ other, s.files.cached = some (bytes other)

variable {before : Option (List UInt8)}

omit [DecidableEq ι] in
theorem Initial.undamaged (h : Initial s) : Undamaged bytes s.files.cached s where
  alone process _ hprocess := by
    rw [h.idle process] at hprocess
    cases hprocess
  holds process := by
    rw [h.idle process]
    trivial
  separate := h.separate
  complete := .inl rfl
  replaced process _ hended := by
    rw [h.idle process] at hended
    cases hended

omit [DecidableEq ι] in
/-- The others are not publishing. -/
theorem Undamaged.others_quiet (h : Undamaged bytes before s)
    (hprocess : (s.phase process).publishing = true) {other : ι} (hother : other ≠ process) :
    (s.phase other).publishing = false :=
  Bool.eq_false_iff.mpr fun hpublishing => hother (h.alone other process hpublishing hprocess)

/-- A step of the only process that is publishing, to a phase and files that agree. -/
theorem Undamaged.update (h : Undamaged bytes before s) {files : Files} {phase : Phase}
    (hquiet : ∀ other, other ≠ process → (s.phase other).publishing = false)
    (hholds : phase.Holds (bytes process) files) (hseparate : files.Separate)
    (hcached : files.cached = s.files.cached ∧ (∀ result, phase ≠ .ended result) ∨
      files.cached = some (bytes process)) :
    Undamaged bytes before ⟨files, Function.update s.phase process phase⟩ where
  alone first second hfirst hsecond := by
    have honly : ∀ other, (Function.update s.phase process phase other).publishing = true →
        other = process := by
      intro other hpublishing
      by_contra hother
      rw [Function.update_of_ne hother, hquiet other hother] at hpublishing
      cases hpublishing
    exact (honly first hfirst).trans (honly second hsecond).symm
  holds other := by
    show (Function.update s.phase process phase other).Holds (bytes other) files
    by_cases hother : other = process
    · subst hother
      rwa [Function.update_self]
    · rw [Function.update_of_ne hother]
      exact (h.holds other).elsewhere (hquiet other hother) files
  separate := hseparate
  complete := by
    rcases hcached with ⟨hcached, -⟩ | hcached
    · exact h.complete.imp hcached.trans fun ⟨other, hother⟩ => ⟨other, hcached.trans hother⟩
    · exact .inr ⟨process, hcached⟩
  replaced other result hended := by
    rcases hcached with ⟨hcached, hrunning⟩ | hcached
    · by_cases hother : other = process
      · subst hother
        exact absurd ((Function.update_self ..).symm.trans hended) (hrunning result)
      · obtain ⟨who, hwho⟩ :=
          h.replaced other result ((Function.update_of_ne hother ..).symm.trans hended)
        exact ⟨who, hcached.trans hwho⟩
    · exact ⟨process, hcached⟩

/-- What a step in turn preserves. -/
theorem Undamaged.step (h : Undamaged bytes before s) {event : Event ι} (hturn : InTurn s event)
    (hnext : (publishing bytes).next s event = some s') : Undamaged bytes before s' := by
  cases event with
  | «open» process =>
      obtain ⟨-, rfl⟩ := open_step hnext
      obtain ⟨hseparate, htemporary, hempty, hcached⟩ := Files.open_temporary h.separate
      refine h.update (fun other _ => hturn other) ⟨htemporary, Nat.zero_le _, hempty⟩ hseparate ?_
      exact .inl ⟨hcached, fun result => nofun⟩
  | write process count =>
      obtain ⟨file, offset, hphase, hroom, rfl⟩ := write_step hnext
      obtain ⟨htemporary, hoffset, hcontents⟩ : (Phase.writing file offset).Holds _ _ :=
        hphase ▸ h.holds process
      have hpublishing : (s.phase process).publishing = true := by rw [hphase]; rfl
      refine h.update (fun other => h.others_quiet hpublishing) ⟨htemporary, hroom, ?_⟩
        ⟨h.separate.apart, h.separate.used⟩ (.inl ⟨?_, fun result => nofun⟩)
      · show Function.update s.files.contents file _ file = _
        rw [Function.update_self, hcontents, writeAt_next _ hoffset]
      · exact Files.cached_update (h.separate.apart file htemporary) _
  | sync process =>
      obtain ⟨file, hphase, rfl⟩ := sync_step hnext
      obtain ⟨htemporary, -, hcontents⟩ : (Phase.writing file _).Holds _ _ :=
        hphase ▸ h.holds process
      have hpublishing : (s.phase process).publishing = true := by rw [hphase]; rfl
      refine h.update (fun other => h.others_quiet hpublishing) ⟨htemporary, ?_⟩ h.separate
        (.inl ⟨rfl, fun result => nofun⟩)
      rw [hcontents, List.take_length]
  | rename process =>
      obtain ⟨file, hphase, rfl⟩ := rename_step hnext
      obtain ⟨htemporary, hcontents⟩ : (Phase.synced file).Holds _ _ := hphase ▸ h.holds process
      have hpublishing : (s.phase process).publishing = true := by rw [hphase]; rfl
      obtain ⟨hok, hseparate, hcached⟩ := Files.rename_temporary h.separate htemporary
      exact h.update (fun other => h.others_quiet hpublishing) hok hseparate
        (.inr (hcached.trans (congrArg some hcontents)))

/-! ## Publications out of turn -/

/-- Nothing has failed, and only one process can still rename the temporary file. -/
structure CanSucceed (s : State ι) : Prop where
  ok : ∀ process result, s.phase process = .ended result → result = .ok ()
  alone : ∀ process, (s.phase process).publishing = true →
    s.files.temporary ≠ none ∧ ∀ other, (s.phase other).publishing = true → other = process

/-- A step that changes only what is in the files. -/
theorem CanSucceed.of_update {files : Files} {phase : Phase}
    (h : CanSucceed ⟨files, Function.update s.phase process phase⟩)
    (hbefore : (s.phase process).publishing = true) (hafter : phase.publishing = true)
    (htemporary : files.temporary = s.files.temporary) : CanSucceed s := by
  have hsame : ∀ other, (Function.update s.phase process phase other).publishing =
      (s.phase other).publishing := by
    intro other
    by_cases hother : other = process
    · subst hother
      rw [Function.update_self, hafter, hbefore]
    · rw [Function.update_of_ne hother]
  refine ⟨fun other result hended => ?_, fun other hother => ?_⟩
  · refine h.ok other result ((Function.update_of_ne ?_ ..).trans hended)
    rintro rfl
    rw [hended] at hbefore
    cases hbefore
  · obtain ⟨hsome, halone⟩ := h.alone other ((hsame other).trans hother)
    exact ⟨htemporary ▸ hsome, fun third hthird => halone third ((hsame third).trans hthird)⟩

/-- What a publication needs before a step if it can still succeed after it. -/
theorem CanSucceed.of_step {event : Event ι} (hnext : (publishing bytes).next s event = some s')
    (h : CanSucceed s') : CanSucceed s ∧ InTurn s event := by
  cases event with
  | «open» process =>
      obtain ⟨hidle, rfl⟩ := open_step hnext
      have hquiet : ∀ other, (s.phase other).publishing = false := by
        intro other
        by_cases hother : other = process
        · rw [hother, hidle]
          rfl
        · refine Bool.eq_false_iff.mpr fun hpublishing => hother ?_
          refine (h.alone process ?_).2 other ?_
          · show (Function.update s.phase process _ process).publishing = true
            rw [Function.update_self]
            rfl
          · exact (congrArg Phase.publishing (Function.update_of_ne hother ..)).trans hpublishing
      refine ⟨⟨fun other result hended => ?_, fun other hother => ?_⟩, hquiet⟩
      · refine h.ok other result ((Function.update_of_ne ?_ ..).trans hended)
        rintro rfl
        cases hidle.symm.trans hended
      · rw [hquiet other] at hother
        cases hother
  | write process count =>
      obtain ⟨file, offset, hphase, -, rfl⟩ := write_step hnext
      exact ⟨h.of_update (by rw [hphase]; rfl) rfl rfl, trivial⟩
  | sync process =>
      obtain ⟨file, hphase, rfl⟩ := sync_step hnext
      exact ⟨h.of_update (by rw [hphase]; rfl) rfl rfl, trivial⟩
  | rename process =>
      obtain ⟨file, hphase, rfl⟩ := rename_step hnext
      have hok : s.files.rename.1 = .ok () := h.ok process _ (Function.update_self ..)
      obtain ⟨renamed, htemporary⟩ : ∃ renamed, s.files.temporary = some renamed := by
        cases htemporary : s.files.temporary with
        | some renamed => exact ⟨renamed, rfl⟩
        | none => simp only [Files.rename, htemporary, reduceCtorEq] at hok
      have hgone : s.files.rename.2.temporary = none := by simp only [Files.rename, htemporary]
      have honly : ∀ other, (s.phase other).publishing = true → other = process := by
        intro other hpublishing
        by_contra hother
        refine (h.alone other ?_).1 hgone
        exact (congrArg Phase.publishing (Function.update_of_ne hother ..)).trans hpublishing
      refine ⟨⟨fun other result hended => ?_, fun other hother => ?_⟩, trivial⟩
      · refine h.ok other result ((Function.update_of_ne ?_ ..).trans hended)
        rintro rfl
        cases hphase.symm.trans hended
      · refine ⟨fun hnone => (nomatch htemporary.symm.trans hnone), fun third hthird => ?_⟩
        rw [honly other hother, honly third hthird]

/-- Of the publications that all end, those and only those in which each process opens the
temporary file after the others have renamed theirs leave a whole snapshot at every time and
succeed for every process. -/
theorem publications_undamaged_iff [Nonempty ι] {start final : State ι} {events : List (Event ι)}
    (hstart : Initial start) (hplay : (publishing bytes).play start events = some final)
    (hended : ∀ process, ∃ result, final.phase process = .ended result) :
    ((publishing bytes).Always (Complete bytes start.files.cached) start events ∧
        Published bytes final) ↔
      (publishing bytes).Throughout InTurn start events := by
  constructor
  · intro ⟨_, hpublished, _⟩
    have hlast : CanSucceed final := by
      refine ⟨fun process result hprocess => ?_, fun process hprocess => ?_⟩
      · injection (hpublished process).symm.trans hprocess with hresult
        exact hresult.symm
      · rw [hpublished process] at hprocess
        cases hprocess
    have halways := System.always_of_last hplay hlast fun _ _ _ hnext hafter =>
      (hafter.of_step hnext).1
    exact halways.throughout hplay fun _ _ _ _ hnext hafter => (hafter.of_step hnext).2
  · intro hturns
    have hsafe := hturns.always hstart.undamaged fun _ _ _ hinv hturn hnext =>
      hinv.step hturn hnext
    have hfinal := hsafe.last hplay
    refine ⟨hsafe.mono fun _ hinv => hinv.complete, fun process => ?_, ?_⟩
    · obtain ⟨result, hprocess⟩ := hended process
      have hok : (Phase.ended result).Holds _ _ := hprocess ▸ hfinal.holds process
      rw [hprocess, show result = .ok () from hok]
    · obtain ⟨process⟩ := ‹Nonempty ι›
      obtain ⟨result, hprocess⟩ := hended process
      exact hfinal.replaced process result hprocess

/-- Two short files that stand for the snapshots of two processes. -/
def twoSnapshots : Bool → List UInt8
  | false => [123, 125]
  | true => [91, 49, 93]

/-- An empty cache directory. -/
def emptyCache : State Bool := ⟨⟨fun _ => [], 0, none, none⟩, fun _ => .idle⟩

theorem emptyCache_initial : Initial emptyCache where
  idle _ := rfl
  separate := by
    refine ⟨fun file htemporary => ?_, fun file hfile => ?_⟩
    · cases htemporary
    · rcases hfile with hfile | hfile <;> cases hfile

/-- The second process opens the file that the first has just synced. The first then publishes an
empty file, and the second has none to rename. -/
theorem snapshot_truncated :
    let first : List (Event Bool) :=
      [.open false, .write false 1, .write false 1, .sync false, .open true, .rename false]
    let rest : List (Event Bool) := [.write true 3, .sync true, .rename true]
    ∃ middle final,
      (publishing twoSnapshots).play emptyCache first = some middle ∧
      middle.files.cached = some [] ∧
      (publishing twoSnapshots).play middle rest = some final ∧
      final.phase false = .ended (.ok ()) ∧
      final.phase true = .ended (.error
        "cannot publish startup snapshot: No such file or directory (os error 2)") :=
  ⟨_, _, rfl, rfl, rfl, rfl, rfl⟩

/-- Two processes in turn. -/
theorem snapshots_in_turn :
    let events : List (Event Bool) :=
      [.open true, .write true 2, .write true 1, .sync true, .rename true,
        .open false, .write false 2, .sync false, .rename false]
    ∃ final, (publishing twoSnapshots).Always (Complete twoSnapshots none) emptyCache events ∧
      Published twoSnapshots final := by
  refine ⟨_, (publications_undamaged_iff emptyCache_initial rfl ?_).mpr ?_⟩
  · rintro (_ | _) <;> exact ⟨_, rfl⟩
  · decide

end PamDesktop.Shell.Snapshot
