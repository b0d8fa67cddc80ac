import Mathlib.Data.List.Lex
import Mathlib.Data.Prod.Lex
import Mathlib.Order.WithBot
import PamDesktop.Foundations.Lists
import PamDesktop.Protocol.Accepted
import PamDesktop.Updater.CrashSafety
import PamDesktop.Updater.Publish

/-!
# The update stages of a parent directory

Every download has a stage of its own beside the installed bundle, and `prune_update_stages` removes
the stages of an application but the newest before it makes another. It recognises them by the
beginning of their names, which does not end where the identifier ends: `recognised_stage_iff` says
whose stages are taken for whose. Read `stale_stages_rightful_iff` first.
-/

namespace PamDesktop.Updater

open Foundations Protocol

/-- `MAX_RETAINED_UPDATE_STAGES`. -/
def maxRetainedUpdateStages : Nat := 1

/-- `safe_path_segment`. -/
def safePathSegment (value : String) : String :=
  String.ofList (value.toList.map fun character =>
    if isAsciiAlphanumeric character || ['.', '-', '_'].contains character then character else '_')

/-- The prefix of the stages of an application. -/
def stagePrefix (applicationId : String) : String :=
  ".pam-update-" ++ safePathSegment applicationId ++ "-"

/-- An update stage, by the call of `update_stage` that made it beside a bundle: the application
and the version it was made for, and the entropy in its name. -/
structure Stage where
  bundle : OsString
  applicationId : String
  version : String
  entropy : List UInt8
  identified : validateApplicationIdentifier applicationId = .ok ()
  versioned : validateVersion version = .ok ()
  drawn : entropy.length = 8

namespace Stage

/-- What follows the identifier and a dash in the name of the stage. -/
def ending (stage : Stage) : String :=
  safePathSegment stage.version ++ "-" ++ encodeHex stage.entropy

/-- The name of the stage. -/
def text (stage : Stage) : String := stagePrefix stage.applicationId ++ stage.ending

/-- The name of the directory. -/
def name (stage : Stage) : OsString := osString stage.text

end Stage

/-- What lies in the parent directory under one name: an update stage, one of the slots of a
bundle, or something else. -/
inductive Item where
  | updateStage (stage : Stage)
  | slot (location : Location)
  | other (name : OsString)

/-- The name of an item. -/
def Item.name (host : Host) : Item → OsString
  | .updateStage stage => stage.name
  | .slot kept => kept.fileName host
  | .other name => name

/-- The locations that an item holds. -/
def Item.Holds : Item → Location → Prop
  | .updateStage stage, location =>
      location = .archive stage.name ∨ location = .expanded stage.name
  | .slot kept, location => location = kept
  | .other _, _ => False

/-- An entry that `read_dir` yields, with its metadata: whether it is a directory and no link, and
when it was modified. -/
structure Entry where
  item : Item
  directory : Bool
  modified : Option Nat

namespace Entry

/-- `prune_update_stages` takes the entry for a stage of the application. -/
def recognised (host : Host) (applicationId : String) (entry : Entry) : Bool :=
  match String.fromUTF8? ⟨(entry.item.name host).toArray⟩ with
  | none => false
  | some name => (stagePrefix applicationId).toList.isPrefixOf name.toList && entry.directory

/-- By what the stages are sorted. -/
def key (host : Host) (entry : Entry) : WithBot Nat ×ₗ List Nat :=
  toLex (entry.modified, (entry.item.name host).map UInt8.toNat)

end Entry

/-- The stages of the application that `prune_update_stages` finds, the newest first. -/
def sortedStages (host : Host) (applicationId : String) (listing : List Entry) : List Entry :=
  (listing.filter fun entry => entry.recognised host applicationId).mergeSort
    fun left right => decide (right.key host ≤ left.key host)

/-- What `prune_update_stages` removes. -/
def staleStages (host : Host) (applicationId : String) (listing : List Entry) : List Entry :=
  (sortedStages host applicationId listing).drop maxRetainedUpdateStages

/-- `fs::remove_dir_all` on an item, completed. -/
def FileSystem.removeItem (fs : FileSystem) : Item → FileSystem
  | .updateStage stage => (fs.set (.archive stage.name) none).set (.expanded stage.name) none
  | .slot kept => fs.set kept none
  | .other _ => fs

/-- `prune_update_stages`, completed. -/
def pruneUpdateStages (host : Host) (fs : FileSystem) (applicationId : String)
    (listing : List Entry) : FileSystem :=
  (staleStages host applicationId listing).foldl (fun fs entry => fs.removeItem entry.item) fs

/-- Only what the items hold has changed: so much the removal of them may have come to. -/
def ChangesOnly (items : List Entry) (fs fs' : FileSystem) : Prop :=
  ∀ location, fs' location = fs location ∨ ∃ entry ∈ items, entry.item.Holds location

/-- A pending transaction is bound to the archive in the stage. -/
def Bound (host : Host) (stage : OsString) (fs : FileSystem) : Prop :=
  ∃ name sha256, fs (.transaction name) = some (journal host sha256) ∧ Hashes host stage sha256 fs

/-- What may be removed for the application: a stage made for it, with no transaction bound to its
archive. -/
def Rightful (host : Host) (fs : FileSystem) (applicationId : String) (entry : Entry) : Prop :=
  ∃ stage, entry.item = .updateStage stage ∧ stage.applicationId = applicationId ∧
    ¬ Bound host stage.name fs

variable {host : Host} {fs : FileSystem} {applicationId : String} {listing : List Entry}
  {entry : Entry} {stage : Stage}

/-! ## Whose stages are recognised -/

/-- The stage was made for another application, and its name begins like those of this one: the
identifier of the other application goes on with a dash, or this one goes on with the beginning of
the version. -/
def Ambiguous (applicationId : String) (stage : Stage) : Prop :=
  (∃ rest, stage.applicationId = applicationId ++ "-" ++ rest) ∨
    ∃ rest, applicationId = stage.applicationId ++ "-" ++ rest ∧
      (rest ++ "-").toList <+: stage.ending.toList

/-- A valid identifier is a safe path segment. -/
theorem safe_path_segment_identifier (h : validateApplicationIdentifier applicationId = .ok ()) :
    safePathSegment applicationId = applicationId := by
  have hsafe : applicationId.toList.map (fun character =>
      if isAsciiAlphanumeric character || ['.', '-', '_'].contains character then character
      else '_') = applicationId.toList := by
    refine (List.map_congr_left fun c hc => ?_).trans (List.map_id _)
    refine if_pos ?_
    have hallowed := validate_application_identifier_ok h c hc
    simp only [isReverseDnsCharacter, isAsciiAlphanumeric, isAsciiAlphabetic, Bool.or_eq_true,
      beq_iff_eq, List.contains_cons, List.contains_nil] at hallowed ⊢
    tauto
  rw [safePathSegment, hsafe, String.ofList_toList]

/-- A text and a separator begin a text with the same separator in it if the two have the same text
before it, or if one goes on with the separator where the other has it. -/
theorem prefix_separated_iff {α : Type} {first second tail : List α} {separator : α} :
    first ++ [separator] <+: second ++ separator :: tail ↔
      second = first ∨ (∃ rest, second = first ++ separator :: rest) ∨
        ∃ rest, first = second ++ separator :: rest ∧ rest ++ [separator] <+: tail := by
  constructor
  · rintro ⟨left, hleft⟩
    rw [List.append_assoc, List.singleton_append] at hleft
    obtain ⟨between, hsecond, hbetween⟩ | ⟨between, hfirst, hbetween⟩ :=
      List.append_eq_append_iff.mp hleft
    · cases between with
      | nil => exact .inl (by simpa using hsecond)
      | cons c rest =>
          obtain ⟨rfl, -⟩ := List.cons.inj hbetween
          exact .inr (.inl ⟨rest, hsecond⟩)
    · cases between with
      | nil => exact .inl (by simpa using hfirst.symm)
      | cons c rest =>
          obtain ⟨rfl, htail⟩ := List.cons.inj hbetween
          exact .inr (.inr ⟨rest, hfirst, left, by simpa using htail.symm⟩)
  · rintro (rfl | ⟨rest, rfl⟩ | ⟨rest, rfl, left, rfl⟩)
    · exact ⟨tail, by simp⟩
    · exact ⟨rest ++ separator :: tail, by simp⟩
    · exact ⟨left, by simp⟩

theorem ambiguous_iff : Ambiguous applicationId stage ↔
    (∃ rest, stage.applicationId.toList = applicationId.toList ++ '-' :: rest) ∨
      ∃ rest, applicationId.toList = stage.applicationId.toList ++ '-' :: rest ∧
        rest ++ ['-'] <+: stage.ending.toList := by
  have hdash (text : String) (characters : List Char) :
      (text ++ "-" ++ String.ofList characters).toList = text.toList ++ '-' :: characters := by
    simp
  constructor
  · rintro (⟨rest, heq⟩ | ⟨rest, heq, hprefix⟩)
    · exact .inl ⟨rest.toList, by simp [heq]⟩
    · exact .inr ⟨rest.toList, by simp [heq], by simpa using hprefix⟩
  · rintro (⟨rest, heq⟩ | ⟨rest, heq, hprefix⟩)
    · exact .inl ⟨String.ofList rest, String.toList_injective (heq.trans (hdash _ _).symm)⟩
    · exact .inr ⟨String.ofList rest, String.toList_injective (heq.trans (hdash _ _).symm),
        by simpa using hprefix⟩

/-- Which stages are taken for those of the application: its own, and the ambiguous ones. -/
theorem recognised_stage_iff (h : validateApplicationIdentifier applicationId = .ok ())
    (hitem : entry.item = .updateStage stage) :
    entry.recognised host applicationId = true ↔ entry.directory = true ∧
      (stage.applicationId = applicationId ∨ Ambiguous applicationId stage) := by
  have hname : entry.item.name host = osString stage.text := by rw [hitem]; rfl
  rw [Entry.recognised, hname, from_utf8_os_string, ambiguous_iff, ← String.toList_inj,
    ← prefix_separated_iff]
  simp only [Bool.and_eq_true, List.isPrefixOf_iff_prefix, and_comm]
  refine and_congr_right fun _ => ?_
  rw [Stage.text, stagePrefix, stagePrefix, safe_path_segment_identifier h,
    safe_path_segment_identifier stage.identified]
  simp only [String.toList_append, List.append_assoc]
  rw [List.prefix_append_right_inj]
  rfl

/-! ## What is removed -/

/-- No stage of the application is newer. -/
def Newest (host : Host) (applicationId : String) (listing : List Entry) (entry : Entry) : Prop :=
  ∀ other ∈ listing, other.recognised host applicationId = true → other.key host ≤ entry.key host

/-- What is removed are the stages that the prefix recognises and that are not the newest. -/
theorem mem_stale_stages (hnames : (listing.map fun entry => entry.item.name host).Nodup) :
    entry ∈ staleStages host applicationId listing ↔ entry ∈ listing ∧
      entry.recognised host applicationId = true ∧ ¬ Newest host applicationId listing entry := by
  have hkeys : ((listing.filter fun entry => entry.recognised host applicationId).map
      fun entry => entry.key host).Nodup := by
    have hbytes : (listing.map fun entry => (entry.item.name host).map UInt8.toNat).Nodup := by
      have hinjective : Function.Injective (List.map UInt8.toNat) :=
        List.map_injective_iff.mpr fun _ _ heq => UInt8.toNat_inj.mp heq
      simpa only [List.map_map, Function.comp_def] using hnames.map hinjective
    refine List.Nodup.of_map (fun key => (ofLex key).2) ?_
    rw [List.map_map]
    exact hbytes.sublist (List.filter_sublist.map _)
  unfold staleStages sortedStages maxRetainedUpdateStages Newest
  rw [mem_drop_one_sorted hkeys]
  simp only [List.mem_filter, not_forall, not_le]
  constructor
  · rintro ⟨⟨hentry, hrecognised⟩, other, ⟨hother, hrecognised'⟩, hlt⟩
    exact ⟨hentry, hrecognised, other, hother, hrecognised', hlt⟩
  · rintro ⟨hentry, hrecognised, other, hother, hrecognised', hlt⟩
    exact ⟨⟨hentry, hrecognised⟩, other, ⟨hother, hrecognised'⟩, hlt⟩

/-- When a call for the application removes only what it may: an ambiguous stage, a stage with a
transaction bound to it and a directory that is no stage are left if they are the newest. -/
structure Spares (host : Host) (fs : FileSystem) (applicationId : String) (listing : List Entry) :
    Prop where
  ambiguous : ∀ entry ∈ listing, ∀ stage, entry.item = .updateStage stage →
    entry.directory = true → Ambiguous applicationId stage →
    Newest host applicationId listing entry
  bound : ∀ entry ∈ listing, ∀ stage, entry.item = .updateStage stage →
    entry.directory = true → stage.applicationId = applicationId → Bound host stage.name fs →
    Newest host applicationId listing entry
  others : ∀ entry ∈ listing, (∀ stage, entry.item ≠ .updateStage stage) →
    entry.recognised host applicationId = true → Newest host applicationId listing entry

theorem Ambiguous.ne (h : Ambiguous applicationId stage) : stage.applicationId ≠ applicationId := by
  intro heq
  rw [ambiguous_iff, heq] at h
  obtain ⟨rest, h⟩ | ⟨rest, h, -⟩ := h <;> simp at h

/-- `prune_update_stages` removes only what it may exactly where the newest stage is the one to be
spared. -/
theorem stale_stages_rightful_iff (h : validateApplicationIdentifier applicationId = .ok ())
    (hnames : (listing.map fun entry => entry.item.name host).Nodup) :
    (∀ entry ∈ staleStages host applicationId listing, Rightful host fs applicationId entry) ↔
      Spares host fs applicationId listing := by
  constructor
  · intro hrightful
    have hremoved (entry : Entry) (hentry : entry ∈ listing)
        (hrecognised : entry.recognised host applicationId = true)
        (hwrong : ¬ Rightful host fs applicationId entry) :
        Newest host applicationId listing entry := by
      by_contra hnewest
      exact hwrong (hrightful entry ((mem_stale_stages hnames).mpr ⟨hentry, hrecognised, hnewest⟩))
    refine ⟨fun entry hentry stage hitem hdirectory hambiguous => ?_,
      fun entry hentry stage hitem hdirectory howner hbound => ?_,
      fun entry hentry hother hrecognised => ?_⟩
    · refine hremoved entry hentry
        ((recognised_stage_iff h hitem).mpr ⟨hdirectory, .inr hambiguous⟩) ?_
      rintro ⟨stage', hitem', howner, -⟩
      cases hitem.symm.trans hitem'
      exact hambiguous.ne howner
    · refine hremoved entry hentry
        ((recognised_stage_iff h hitem).mpr ⟨hdirectory, .inl howner⟩) ?_
      rintro ⟨stage', hitem', -, hfree⟩
      cases hitem.symm.trans hitem'
      exact hfree hbound
    · refine hremoved entry hentry hrecognised ?_
      rintro ⟨stage', hitem', -⟩
      exact hother stage' hitem'
  · intro hspares entry hentry
    obtain ⟨hentry, hrecognised, hnewest⟩ := (mem_stale_stages hnames).mp hentry
    cases hitem : entry.item with
    | updateStage stage =>
        obtain ⟨hdirectory, howner | hambiguous⟩ := (recognised_stage_iff h hitem).mp hrecognised
        · exact ⟨stage, hitem, howner, fun hbound =>
            hnewest (hspares.bound entry hentry stage hitem hdirectory howner hbound)⟩
        · exact absurd (hspares.ambiguous entry hentry stage hitem hdirectory hambiguous) hnewest
    | slot location =>
        refine absurd (hspares.others entry hentry (fun stage heq => ?_) hrecognised) hnewest
        cases hitem.symm.trans heq
    | other name =>
        refine absurd (hspares.others entry hentry (fun stage heq => ?_) hrecognised) hnewest
        cases hitem.symm.trans heq

/-- Removing items changes what they hold. -/
theorem remove_items_changes (items : List Entry) (fs : FileSystem) :
    ChangesOnly items fs (items.foldl (fun fs entry => fs.removeItem entry.item) fs) := by
  induction items generalizing fs with
  | nil => exact fun location => .inl rfl
  | cons head rest ih =>
      have hhead (location : Location) :
          fs.removeItem head.item location = fs location ∨ head.item.Holds location := by
        cases hitem : head.item with
        | updateStage stage =>
            by_cases hexpanded : location = .expanded stage.name
            · exact .inr (.inr hexpanded)
            · by_cases harchive : location = .archive stage.name
              · exact .inr (.inl harchive)
              · exact .inl (by simp [FileSystem.removeItem, FileSystem.set, harchive, hexpanded])
        | slot kept =>
            by_cases hkept : location = kept
            · exact .inr hkept
            · exact .inl (by simp [FileSystem.removeItem, FileSystem.set, hkept])
        | other name => exact .inl rfl
      intro location
      obtain heq | ⟨entry, hentry, hholds⟩ := ih (fs.removeItem head.item) location
      · obtain heq' | hholds := hhead location
        · exact .inl (heq.trans heq')
        · exact .inr ⟨head, List.mem_cons_self, hholds⟩
      · exact .inr ⟨entry, List.mem_cons_of_mem _ hentry, hholds⟩

/-- Where the newest stage is the one to be spared, the removals, completed or cut off, leave every
pending transaction the archive that it is bound to. -/
theorem Bound.kept {bound : OsString} {fs' : FileSystem}
    (h : validateApplicationIdentifier applicationId = .ok ())
    (hnames : (listing.map fun entry => entry.item.name host).Nodup)
    (hspares : Spares host fs applicationId listing)
    (hchanges : ChangesOnly (staleStages host applicationId listing) fs fs')
    (hbound : Bound host bound fs) : Bound host bound fs' := by
  have hrightful := (stale_stages_rightful_iff h hnames).mpr hspares
  obtain ⟨name, sha256, htransaction, bytes, hread, hdigest⟩ := id hbound
  have hsame (location : Location) (hlocation : location = .transaction name ∨
      location = .archive bound) : fs' location = fs location := by
    refine (hchanges location).resolve_right ?_
    rintro ⟨entry, hentry, hholds⟩
    obtain ⟨stage, hitem, -, hfree⟩ := hrightful entry hentry
    rw [hitem] at hholds
    obtain rfl | rfl := hlocation
    · cases hholds <;> contradiction
    · obtain heq | heq := hholds
      · cases heq
        exact hfree hbound
      · cases heq
  exact ⟨name, sha256, (hsame _ (.inl rfl)).trans htransaction, bytes,
    (congrArg readFile (hsame _ (.inr rfl))).trans hread, hdigest⟩

/-- A stage of Notes. -/
def notesStage (version : String) (h : validateVersion version = .ok ()) (last : UInt8) :
    Stage where
  bundle := osString "notes"
  applicationId := "com.example.notes"
  version := version
  entropy := [1, 2, 3, 4, 5, 6, 7, last]
  identified := by decide
  versioned := h
  drawn := rfl

theorem notes_version : validateVersion "1.0.1" = .ok () := by
  decide

theorem notes_later_version : validateVersion "1.0.2" = .ok () := by
  decide

/-- Two stages of Notes, the second from a later download. -/
def notesStages : List Entry :=
  [⟨.updateStage (notesStage "1.0.1" notes_version 1), true, some 1⟩,
    ⟨.updateStage (notesStage "1.0.2" notes_later_version 2), true, some 2⟩]

/-- The earlier one is stale. -/
theorem notes_stages_rightful :
    (staleStages (notesHost .linux) "com.example.notes" notesStages).length = 1 ∧
      ∀ entry ∈ staleStages (notesHost .linux) "com.example.notes" notesStages,
        Rightful (notesHost .linux) (fun _ => none) "com.example.notes" entry := by
  have hlength :
      (staleStages (notesHost .linux) "com.example.notes" notesStages).length = 1 := by
    rw [staleStages, List.length_drop, sortedStages, List.length_mergeSort]
    decide +kernel
  refine ⟨hlength, ?_⟩
  have hitem : ∀ entry ∈ notesStages, ∃ stage, entry.item = .updateStage stage ∧
      stage.applicationId = "com.example.notes" := by
    intro entry hentry
    obtain rfl | rfl : entry = _ ∨ entry = _ := by simpa [notesStages] using hentry
    · exact ⟨_, rfl, rfl⟩
    · exact ⟨_, rfl, rfl⟩
  refine (stale_stages_rightful_iff (by decide) (by decide)).mpr
    ⟨fun entry hentry stage hstage _ hambiguous => ?_, fun _ _ _ _ _ _ hbound => ?_,
      fun entry hentry hother _ => ?_⟩
  · obtain ⟨stage', hstage', howner⟩ := hitem entry hentry
    cases hstage.symm.trans hstage'
    exact absurd howner hambiguous.ne
  · obtain ⟨name, sha256, htransaction, -⟩ := hbound
    cases htransaction
  · obtain ⟨stage, hstage, -⟩ := hitem entry hentry
    exact absurd hstage (hother stage)

end PamDesktop.Updater
