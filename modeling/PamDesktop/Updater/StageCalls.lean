import PamDesktop.Foundations.Retention
import PamDesktop.Updater.Stages

/-!
# Several hosts making stages

Every host process of an application may be in a call of `update_stage` for the same parent
directory. The steps of the calls are interleaved, an entry may come and go while `read_dir` is
under way, every operation may fail, and a process may be killed anywhere. `update_stages_bounded`
says how many stages there can be. The calls are keepers in the sense of `Foundations.Retention`.
-/

namespace PamDesktop.Updater

open Foundations Retention Protocol

/-- A step of a call of `update_stage`, or the removal of a stage by the helper that was given it or
by another program. -/
inductive StageAct (ι : Type) where
  | readDir (caller : ι)
  | inspect (caller : ι) (listing : List Entry)
  | removeDirAll (caller : ι)
  | createDir (caller : ι) (stage : Stage)
  | fail (caller : ι)
  | removed (name : OsString)

variable {ι : Type} [DecidableEq ι]

/-- One step of the calls for the application. The items are the directories whose names begin with
its prefix. `read_dir` yields every entry that stays there from the beginning to the end. -/
def stageNext (host : Host) (applicationId : String) (parent : Shelf ι OsString) :
    StageAct ι → Option (Shelf ι OsString)
  | .readDir caller =>
      match parent.calls caller with
      | .idle => some (parent.set caller (.looking parent.clock))
      | _ => none
  | .inspect caller listing =>
      match parent.calls caller with
      | .looking began =>
          if ∀ item ∈ parent.items, item.made < began → ∃ entry ∈ listing,
              entry.recognised host applicationId = true ∧ entry.item.name host = item.name then
            some (parent.set caller (.clearing began
              ((staleStages host applicationId listing).map fun entry => entry.item.name host)))
          else none
      | _ => none
  | .removeDirAll caller =>
      match parent.calls caller with
      | .clearing began (name :: stale) =>
          some ((parent.without name).set caller (.clearing began stale))
      | _ => none
  | .createDir caller stage =>
      match parent.calls caller with
      | .clearing _ [] =>
          if stage.applicationId ≠ applicationId ∨
              ∃ item ∈ parent.items, item.name = stage.name then
            none
          else some ((parent.add caller stage.name).set caller .idle)
      | _ => none
  | .fail caller => some (parent.set caller .idle)
  | .removed name => some (parent.without name)

/-- The calls for one application at work in one parent directory. -/
def stageCalls (ι : Type) [DecidableEq ι] (host : Host) (applicationId : String) :
    System (Shelf ι OsString) (StageAct ι) where
  next := stageNext host applicationId

/-- What a step is to the shelf. -/
def StageAct.event (host : Host) (applicationId : String) : StageAct ι → Event ι OsString
  | .readDir caller => .call caller
  | .inspect caller listing => .look caller
      ((staleStages host applicationId listing).map fun entry => entry.item.name host)
      (((sortedStages host applicationId listing).take maxRetainedUpdateStages).map
        fun entry => entry.item.name host)
  | .removeDirAll caller => .clear caller
  | .createDir caller stage => .put caller stage.name
  | .fail caller => .fail caller
  | .removed name => .lose name

variable {host : Host} {applicationId : String} {parent parent' : Shelf ι OsString}

/-- Every step of a call is a step of a keeper. -/
theorem stage_next_event {act : StageAct ι}
    (h : stageNext host applicationId parent act = some parent') :
    parent.next maxRetainedUpdateStages (act.event host applicationId) = some parent' := by
  cases act with
  | readDir caller =>
      simp only [stageNext] at h
      split at h <;> cases h
      case h_1 hcall => simp only [StageAct.event, Shelf.next, hcall]
  | removeDirAll caller =>
      simp only [stageNext] at h
      split at h <;> cases h
      case h_1 hcall => simp only [StageAct.event, Shelf.next, hcall]
  | fail caller => exact h
  | removed name => exact h
  | createDir caller stage =>
      simp only [stageNext] at h
      split at h
      case h_2 => cases h
      case h_1 hcall =>
        split at h <;> cases h
        case isFalse hfree =>
          simp only [StageAct.event, Shelf.next, hcall]
          exact if_neg fun hmem => (not_or.mp hfree).2 (List.mem_map.mp hmem)
  | inspect caller listing =>
      simp only [stageNext] at h
      split at h
      case h_2 => cases h
      case h_1 began hcall =>
        split at h <;> cases h
        case isTrue hyielded =>
          simp only [StageAct.event, Shelf.next, hcall]
          refine if_pos ⟨by simp, fun item hitem hmade => ?_⟩
          obtain ⟨entry, hentry, hrecognised, hname⟩ := hyielded item hitem hmade
          have hsorted : entry ∈ sortedStages host applicationId listing :=
            (List.mergeSort_perm _ _).mem_iff.mpr (List.mem_filter.mpr ⟨hentry, hrecognised⟩)
          rw [← List.take_append_drop maxRetainedUpdateStages (sortedStages _ _ _)] at hsorted
          obtain hretained | hstale := List.mem_append.mp hsorted
          · exact .inr (List.mem_map.mpr ⟨entry, hretained, hname⟩)
          · exact .inl (List.mem_map.mpr ⟨entry, hstale, hname⟩)

/-- A stage of Notes from before. -/
def notesRetained : Entry := ⟨.updateStage (notesStage "1.0.1" notes_version 1), true, some 1⟩

/-- The directory with that stage in it, and two hosts. -/
def notesParent : Shelf Bool OsString where
  items := [{ name := notesRetained.item.name (notesHost .linux), maker := true, made := 0 }]
  calls _ := .idle
  clock := 1

/-- Both hosts find the one stage before either has made another. -/
def notesCalls : List (StageAct Bool) :=
  [.readDir true, .readDir false, .inspect true [notesRetained], .inspect false [notesRetained],
    .createDir true (notesStage "1.0.2" notes_later_version 2),
    .createDir false (notesStage "1.0.2" notes_later_version 3)]

end PamDesktop.Updater
