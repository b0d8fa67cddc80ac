import PamDesktop.Launcher.HostCache

/-!
# Runs over the cache of hosts

`Inv` is what holds between the steps of all runs: a version that nobody removes is not there or
complete, and every run has what its stage relies on. The lemmas say what a step does to the
tree and to the removals (`Effect`, `Begins`), and then that a step keeps `Inv` (`next_inv`).
-/

namespace PamDesktop.Launcher.HostCache

open Foundations DirectoryTree

variable {family : Family} {releases : Releases family} {s s' : Cache} {run run' other : Run}
  {input : Input} {tree tree' : Tree} {name : String}

/-! ## What a run relies on -/

/-- The host of a version is there, complete. -/
def Complete (releases : Releases family) (tree : Tree) (version : Version) (target : String) :
    Prop :=
  Standing (fun place => tree.find (version.1 :: target :: place)) (releases version target).items

/-- What the release of a run has in a staging directory. -/
def Run.items (releases : Releases family) (run : Run) : List (List String × Item) :=
  stagedItems run.package (releases run.version run.target)

/-- What a run has made or found so far. -/
def Run.Material (releases : Releases family) (tree : Tree) (run : Run) : Prop :=
  match run.stage with
  | .installing rest => ∃ done, Standing (fun place => tree.find (run.work :: place)) done ∧
      Creatable done rest ∧ ∀ entry, entry ∈ done ∨ entry ∈ rest ↔ entry ∈ run.items releases
  | .checking => Standing (fun place => tree.find (run.work :: place)) (run.items releases)
  | .making => Standing (fun place => tree.find (run.work :: place)) (run.items releases)
  | .publishing => Standing (fun place => tree.find (run.work :: place)) (run.items releases) ∧
      tree.find [run.version.1] = some .directory
  | .unlocking _ => Complete releases tree run.version run.target
  | .unlinking => Complete releases tree run.version run.target
  | .executing => Complete releases tree run.version run.target
  | _ => True

/-- The run has executed the complete host of its version, or its download has failed. -/
def Outcome.Good (items : List (List String × Item)) : Outcome → Prop
  | .executed host => Standing host items
  | .failed => True
  | .refused _ => False
  | .crashed => False

def Run.Sound (releases : Releases family) (run : Run) : Prop :=
  match run.stage with
  | .leaving outcome => outcome.Good (releases run.version run.target).items
  | .ended outcome => outcome.Good (releases run.version run.target).items
  | _ => True

/-- The versions that a run is going to remove. -/
def Stage.condemned : Stage → List String
  | .scanning _ versions => versions.map Prod.fst
  | .sweeping stale => stale
  | _ => []

/-- The run has no staging directory yet. -/
def Stage.unstaged : Stage → Bool
  | .pruning => true
  | .scanning _ _ => true
  | .sweeping _ => true
  | .looking => true
  | .preparing => true
  | .opening => true
  | .locking _ => true
  | .rechecking => true
  | .staging => true
  | _ => false

/-- The run may hold the lock of its host. -/
def Stage.holding : Stage → Bool
  | .rechecking => true
  | .staging => true
  | .installing _ => true
  | .checking => true
  | .making => true
  | .publishing => true
  | .unlocking _ => true
  | .leaving _ => true
  | _ => false

/-- Nobody removes this directory of the cache. -/
def Cache.Spares (s : Cache) (name : String) : Prop := ∀ run ∈ s.runs, ¬ run.Removes name

/-- The removal that a run is in: of a staging directory, or of a version. -/
def Run.Sweeps (tree : Tree) (run : Run) : Prop :=
  run.removal = [] ∨ ∃ name, (∀ frame ∈ run.removal, [name] <+: frame.location) ∧
    (isStaging name = true ∨ Sweeping tree [name] run.removal)

/-- What holds of a run between steps. -/
structure Run.Ok (releases : Releases family) (s : Cache) (run : Run) : Prop where
  sweeps : run.Sweeps s.tree
  shutdown : run.stage.isLeaving = true →
    ∀ frame ∈ run.removal, frame.location.head?.all isStaging = true
  condemned : ∀ name ∈ run.stage.condemned, isStaging name = false
  quiet : run.stage.staged = true ∨ run.stage.engaged = true → run.removal = []
  kept : run.stage.staged = true → s.Spares run.work
  free : run.stage.engaged = true → s.Spares run.version.1
  material : run.Material releases s.tree
  sound : run.Sound releases

/-- What holds between the steps of all runs. -/
structure Inv (releases : Releases family) (s : Cache) : Prop where
  unique : ∀ run ∈ s.runs, ∀ other ∈ s.runs, run.token = other.token → run = other
  fresh : ∀ version token, (∀ run ∈ s.runs, run.token = token → run.stage.unstaged = true) →
    s.tree.find [workName version token] = none ∧ s.Spares (workName version token)
  whole : ∀ version : Version, s.Spares version.1 → ∀ target,
    s.tree.find [version.1, target] = none ∨ Complete releases s.tree version target
  held : ∀ lock token, s.holder lock = some token →
    ∃ run ∈ s.runs, run.token = token ∧ run.stage.holding = true
  rooted : ∀ name contents, s.tree.find [name] ≠ some (.file contents)
  ok : ∀ run ∈ s.runs, run.Ok releases s

/-! ## What a step does -/

/-- What a step of a run does to the tree. -/
inductive Effect (s : Cache) (run : Run) (tree : Tree) : Prop
  | still (h : tree = s.tree)
  | removed {listing : List String} {frames : List (Frame String)}
      (h : s.tree.removalStep listing run.removal = some (some (tree, frames)))
  | staged {place : List String} {name : String} {item : Item}
      (h : s.tree.create place name item = some tree)
      (hplace : place = [] ∧ name = run.work ∧ item = .directory ∨ place.head? = some run.work)
      (hspares : s.Spares run.work)
  | made (h : s.tree.create [] run.version.1 .directory = some tree)
      (hspares : s.Spares run.version.1)
  | published (hstage : run.stage = .publishing)
      (h : s.tree.move [run.work, run.package] [run.version.1] run.target = some tree)

/-- A run that is in no removal begins one. -/
inductive Begins (s : Cache) (run : Run) (input : Input) (name : String) : Prop
  | old {names : List String} {versions : List (String × Nat)}
      (hstage : run.stage = .scanning (name :: names) versions) (hname : isStaging name = true)
      (hold : input.modified + 86400 < input.time)
  | stale {names : List String} (hstage : run.stage = .sweeping (name :: names))
  | own (hstage : run.stage.isLeaving = true) (hname : name = run.work)

/-- A removal is of the directory that its frames are in. -/
theorem removes_iff (h : run.Sweeps tree) :
    run.Removes name ↔ run.removal ≠ [] ∧ ∀ frame ∈ run.removal, [name] <+: frame.location := by
  constructor
  · rintro ⟨frame, hframe, hhead⟩
    have hne : run.removal ≠ [] := List.ne_nil_of_mem hframe
    refine ⟨hne, ?_⟩
    obtain ⟨root, hinside, -⟩ := h.resolve_left hne
    obtain ⟨rest, hrest⟩ := hinside frame hframe
    rw [← hrest] at hhead
    obtain rfl := Option.some.inj hhead
    exact hinside
  · rintro ⟨hne, hinside⟩
    obtain ⟨frame, hframe⟩ := List.exists_mem_of_ne_nil _ hne
    obtain ⟨rest, hrest⟩ := hinside frame hframe
    exact ⟨frame, hframe, hrest ▸ rfl⟩

theorem mem_put (h : other ∈ (s.put run').runs) :
    other = run' ∨ other ∈ s.runs ∧ other.token ≠ run'.token := by
  obtain ⟨old, hold, heq⟩ := List.mem_map.mp h
  split at heq
  · exact .inl heq.symm
  · rename_i hne
    exact .inr (heq ▸ ⟨hold, hne⟩)

theorem put_mem (hrun : run ∈ s.runs) (htoken : run'.token = run.token) :
    run' ∈ (s.put run').runs :=
  List.mem_map.mpr ⟨run, hrun, if_pos htoken.symm⟩

theorem put_mem_other (hother : other ∈ s.runs) (hne : other.token ≠ run'.token) :
    other ∈ (s.put run').runs :=
  List.mem_map.mpr ⟨other, hother, if_neg hne⟩

/-- A step of a removal leaves other directories alone. -/
theorem removed_same {listing : List String} {frames : List (Frame String)}
    (h : s.tree.removalStep listing run.removal = some (some (tree, frames)))
    (hsweeps : run.Sweeps s.tree) (hremoves : ¬ run.Removes name) (rest : List String) :
    tree.find (name :: rest) = s.tree.find (name :: rest) := by
  have hne : run.removal ≠ [] := by
    intro hnil
    rw [hnil] at h
    cases h
  obtain ⟨root, hinside, -⟩ := hsweeps.resolve_left hne
  obtain ⟨⟨place, ⟨inner, rfl⟩, hdiscarded⟩, -⟩ := removal_discards hinside h
  refine hdiscarded.same _ fun heq => hremoves ?_
  obtain rfl : name = root := (List.cons_eq_cons.mp heq).1
  exact (removes_iff hsweeps).mpr ⟨hne, hinside⟩

theorem staged_same {place : List String} {inner : String} {item : Item}
    (h : s.tree.create place inner item = some tree)
    (hplace : place = [] ∧ inner = run.work ∧ item = .directory ∨ place.head? = some run.work)
    (hwork : name ≠ run.work) (rest : List String) :
    tree.find (name :: rest) = s.tree.find (name :: rest) := by
  rw [(create_eq_some h).2.2, if_neg]
  intro heq
  rcases hplace with ⟨rfl, rfl, -⟩ | hhead
  · exact hwork (List.cons_eq_cons.mp heq).1
  · obtain ⟨below, rfl⟩ := List.head?_eq_some_iff.mp hhead
    exact hwork (List.cons_eq_cons.mp heq).1

/-- A step leaves alone what is neither being removed nor of the run. -/
theorem Effect.same (h : Effect s run tree) (hsweeps : run.Sweeps s.tree)
    (hremoves : ¬ run.Removes name) (hwork : name ≠ run.work) (hversion : name ≠ run.version.1)
    (rest : List String) : tree.find (name :: rest) = s.tree.find (name :: rest) := by
  cases h with
  | still h => rw [h]
  | removed h => exact removed_same h hsweeps hremoves rest
  | staged h hplace _ => exact staged_same h hplace hwork rest
  | made h _ =>
      rw [(create_eq_some h).2.2, if_neg]
      exact fun heq => hversion (List.cons_eq_cons.mp heq).1
  | published hstage h =>
      obtain ⟨-, -, -, -, -, hfind⟩ := move_eq_some h
      rw [hfind, if_neg]
      · exact fun ⟨inner, hinner⟩ => hwork (List.cons_eq_cons.mp hinner).1.symm
      · exact fun ⟨inner, hinner⟩ => hversion (List.cons_eq_cons.mp hinner).1.symm

theorem Complete.host {version : Version} {target : String}
    (h : Complete releases tree version target) :
    tree.isFile ([version.1, target] ++ binary family) = true := by
  obtain ⟨contents, hmem⟩ := (releases version target).host
  exact is_file_iff.mpr ⟨contents, (h.exact _ _ (List.cons_ne_nil _ _)).mpr hmem⟩

/-- A complete host is in a directory of its version, and its own directory is not empty. -/
theorem Complete.directories {version : Version} {target : String}
    (h : Complete releases tree version target) :
    tree.find [version.1] = some .directory ∧ tree.children [version.1, target] ≠ ∅ := by
  obtain ⟨contents, hfile⟩ := is_file_iff.mp h.host
  have hfound : tree.find ([version.1, target] ++ binary family) ≠ none := by
    rw [hfile]
    exact Option.some_ne_none _
  have hinner : tree.find ([version.1, target, "bin"] ++ ["pam-desktop" ++ suffixOf family]) ≠
      none := hfound
  have hbin := find_above hinner (List.cons_ne_nil _ _)
  have houter : tree.find ([version.1] ++ target :: binary family) ≠ none := hfound
  refine ⟨find_above houter (List.cons_ne_nil _ _), fun hempty => ?_⟩
  have hchild : "bin" ∈ tree.children [version.1, target] :=
    mem_children.mpr (by rw [List.cons_append, List.cons_append, List.nil_append, hbin]; simp)
  rw [hempty] at hchild
  exact Finset.notMem_empty _ hchild

/-- A step puts no file next to the versions. -/
theorem Effect.rooted (h : Effect s run tree)
    (hbefore : ∀ name contents, s.tree.find [name] ≠ some (.file contents)) (name : String)
    (contents : List UInt8) : tree.find [name] ≠ some (.file contents) := by
  intro hfile
  cases h with
  | still h => exact hbefore name contents (h ▸ hfile)
  | removed h =>
      have hinside : ∀ frame ∈ run.removal, [] <+: frame.location := fun _ _ => List.nil_prefix
      obtain ⟨⟨place, -, hdiscarded⟩, -⟩ := removal_discards hinside h
      rcases eq_or_ne [name] place with rfl | hne
      · rcases hdiscarded.fewer with hsame | hnone
        · exact hbefore name contents (hsame.symm.trans hfile)
        · rw [hnone] at hfile
          cases hfile
      · exact hbefore name contents ((hdiscarded.same _ hne).symm.trans hfile)
  | staged h hplace _ =>
      obtain ⟨-, -, hfind⟩ := create_eq_some h
      rw [hfind] at hfile
      split at hfile
      · rename_i heq
        rcases hplace with ⟨-, -, rfl⟩ | hhead
        · cases hfile
        · obtain ⟨below, rfl⟩ := List.head?_eq_some_iff.mp hhead
          have hlength := congrArg List.length heq
          simp at hlength
      · exact hbefore name contents hfile
  | made h _ =>
      obtain ⟨-, -, hfind⟩ := create_eq_some h
      rw [hfind] at hfile
      split at hfile
      · cases hfile
      · exact hbefore name contents hfile
  | published hstage h =>
      obtain ⟨-, -, -, -, -, hfind⟩ := move_eq_some h
      have hshort : ¬ [run.version.1] ++ [run.target] <+: [name] := fun hlong =>
        absurd hlong.length_le (by simp)
      rw [hfind _ hshort] at hfile
      split at hfile
      · cases hfile
      · exact hbefore name contents hfile

/-- A step spares the hosts of a version that the run does not remove, and it brings another one
only by publishing it. -/
theorem Effect.version (releases : Releases family) (h : Effect s run tree)
    (hsweeps : run.Sweeps s.tree) {version : Version} (hremoves : ¬ run.Removes version.1)
    (target : String) :
    (s.tree.find [version.1] = some .directory → tree.find [version.1] = some .directory) ∧
      (Complete releases s.tree version target → Complete releases tree version target) ∧
      (s.tree.find [version.1, target] = none → tree.find [version.1, target] = none ∨
        run.stage = .publishing ∧ version = run.version ∧ target = run.target) := by
  have hwork := version_ne_work version run.version run.token
  have hkept : (∀ rest, tree.find (version.1 :: rest) = s.tree.find (version.1 :: rest)) →
      (s.tree.find [version.1] = some .directory → tree.find [version.1] = some .directory) ∧
      (Complete releases s.tree version target → Complete releases tree version target) ∧
      (s.tree.find [version.1, target] = none → tree.find [version.1, target] = none ∨
        run.stage = .publishing ∧ version = run.version ∧ target = run.target) := by
    intro hsame
    refine ⟨fun hold => (hsame []).trans hold, fun hold => ?_,
      fun hold => .inl ((hsame [target]).trans hold)⟩
    have hfind : (fun place => tree.find (version.1 :: target :: place)) =
        fun place => s.tree.find (version.1 :: target :: place) :=
      funext fun place => hsame (target :: place)
    rw [Complete, hfind]
    exact hold
  by_cases hversion : version = run.version
  · cases h with
    | still h => exact hkept fun rest => by rw [h]
    | removed h => exact hkept fun rest => removed_same h hsweeps hremoves rest
    | staged h hplace _ => exact hkept fun rest => staged_same h hplace hwork rest
    | made h _ =>
        subst hversion
        obtain ⟨-, hvacant, hfind⟩ := create_eq_some h
        rw [List.nil_append] at hvacant hfind
        refine ⟨fun _ => (hfind _).trans (if_pos rfl), fun hold => ?_, fun hold => ?_⟩
        · rw [hold.directories.1] at hvacant
          cases hvacant
        · exact .inl ((hfind _).trans ((if_neg (by simp)).trans hold))
    | published hstage h =>
        subst hversion
        obtain ⟨-, -, -, hempty, hmoved, hfind⟩ := move_eq_some h
        have hsource : ∀ rest, ¬ [run.work, run.package] <+: run.version.1 :: rest :=
          fun rest ⟨inner, hinner⟩ => hwork (List.cons_eq_cons.mp hinner).1.symm
        refine ⟨fun hold => ?_, fun hold => ?_, fun hold => ?_⟩
        · rw [hfind, if_neg (hsource _), hold]
          exact fun hlong => absurd hlong.length_le (by simp)
        · have hdiffer : target ≠ run.target := by
            rintro rfl
            exact hold.directories.2 hempty
          have hsame : ∀ place, tree.find (run.version.1 :: target :: place) =
              s.tree.find (run.version.1 :: target :: place) := by
            intro place
            rw [hfind, if_neg (hsource _)]
            rintro ⟨inner, hinner⟩
            exact hdiffer (List.cons_eq_cons.mp (List.cons_eq_cons.mp hinner).2).1.symm
          rw [Complete, funext hsame]
          exact hold
        · by_cases htarget : target = run.target
          · exact .inr ⟨hstage, rfl, htarget⟩
          · left
            rw [hfind, if_neg (hsource _), hold]
            rintro ⟨inner, hinner⟩
            exact htarget (List.cons_eq_cons.mp (List.cons_eq_cons.mp hinner).2).1.symm
  · exact hkept fun rest =>
      h.same hsweeps hremoves hwork (fun heq => hversion (Subtype.ext heq)) rest

/-- A removal stays one where others take something off the tree, or leave it alone. -/
theorem Run.Sweeps.mono (h : run.Sweeps tree)
    (hfewer : ∀ name rest, run.Removes name → tree'.find (name :: rest) = tree.find (name :: rest) ∨
      tree'.find (name :: rest) = none) : run.Sweeps tree' := by
  rcases h with hnil | ⟨name, hinside, hkind⟩
  · exact .inl hnil
  · by_cases hnil : run.removal = []
    · exact .inl hnil
    · have hremoves : run.Removes name :=
        (removes_iff (.inr ⟨name, hinside, hkind⟩)).mpr ⟨hnil, hinside⟩
      refine .inr ⟨name, hinside, hkind.imp id fun hsweeping => hsweeping.shrink ?_⟩
      rintro _ ⟨rest, rfl⟩
      exact hfewer name rest hremoves

/-- The removal that a run begins is not of a staging directory that is in use. -/
theorem Begins.kept (h : Begins s run input name) (hnil : run.removal = [])
    (hcareful : run.Careful s input) (hok : run.Ok releases s) (hother : other ∈ s.runs)
    (hstaged : other.stage.staged = true) (htoken : other.token ≠ run.token) :
    name ≠ other.work := by
  rw [Run.Careful, hnil] at hcareful
  cases h with
  | old hstage hname hold =>
      rw [hstage] at hcareful
      exact (hcareful hname hold other hother hstaged).symm
  | stale hstage =>
      rintro rfl
      have hplain := hok.condemned other.work (by rw [hstage]; exact List.mem_cons_self)
      rw [Run.work, work_staging] at hplain
      cases hplain
  | own hstage hname =>
      rintro rfl
      exact htoken (work_token hname)

/-- The removal that a run begins is not of a version that is about to be published or executed. -/
theorem Begins.free (h : Begins s run input name) (hnil : run.removal = [])
    (hcareful : run.Careful s input) (hother : other ∈ s.runs)
    (hengaged : other.stage.engaged = true) : name ≠ other.version.1 := by
  rw [Run.Careful, hnil] at hcareful
  cases h with
  | old hstage hname hold =>
      rintro rfl
      rw [version_not_staging] at hname
      cases hname
  | stale hstage =>
      rw [hstage] at hcareful
      exact (hcareful other hother hengaged).symm
  | own hstage hname => exact fun heq => version_ne_work _ _ _ (heq.symm.trans hname)

/-- A step only takes away from what another run removes. -/
theorem Effect.fewer (heffect : Effect s run tree) (hself : run.Ok releases s)
    (hother : other ∈ s.runs) (hremoves : other.Removes name) (rest : List String) :
    tree.find (name :: rest) = s.tree.find (name :: rest) ∨ tree.find (name :: rest) = none := by
  have hdiffer : ∀ {spared : String}, s.Spares spared → name ≠ spared :=
    fun hspares heq => hspares other hother (heq ▸ hremoves)
  cases heffect with
  | still h => exact .inl (by rw [h])
  | removed h =>
      by_cases hsame : run.Removes name
      · obtain ⟨hne, hinside⟩ := (removes_iff hself.sweeps).mp hsame
        obtain ⟨⟨place, -, hdiscarded⟩, -⟩ := removal_discards hinside h
        rcases eq_or_ne (name :: rest) place with rfl | hne
        · exact hdiscarded.fewer
        · exact .inl (hdiscarded.same _ hne)
      · exact .inl (removed_same h hself.sweeps hsame rest)
  | staged h hplace hspares => exact .inl (staged_same h hplace (hdiffer hspares) rest)
  | made h hspares =>
      left
      rw [(create_eq_some h).2.2, if_neg]
      exact fun heq => hdiffer hspares (List.cons_eq_cons.mp heq).1
  | published hstage h =>
      have hspares := hself.free (by rw [hstage]; rfl)
      obtain ⟨-, -, -, -, -, hfind⟩ := move_eq_some h
      rw [hfind]
      · split
        · exact .inr rfl
        · exact .inl rfl
      · exact fun ⟨inner, hinner⟩ => hdiffer hspares (List.cons_eq_cons.mp hinner).1.symm

/-- The parts of the invariant that are about another run. -/
theorem Run.Ok.unmoved (hok : other.Ok releases s) (hother : other ∈ s.runs) (hrun : run ∈ s.runs)
    (hself : run.Ok releases s) (htoken : other.token ≠ run.token) (heffect : Effect s run s'.tree)
    (hkept : other.stage.staged = true → s'.Spares other.work)
    (hfree : other.stage.engaged = true → s'.Spares other.version.1) :
    other.Ok releases s' where
  sweeps := hok.sweeps.mono fun name rest hremoves => heffect.fewer hself hother hremoves rest
  shutdown := hok.shutdown
  condemned := hok.condemned
  quiet := hok.quiet
  kept := hkept
  free := hfree
  material := by
    have hstaged : other.stage.staged = true →
        (fun place => s'.tree.find (other.work :: place)) =
          fun place => s.tree.find (other.work :: place) := fun hstage => funext fun place =>
      heffect.same hself.sweeps (hok.kept hstage run hrun) (fun heq => htoken (work_token heq))
        (version_ne_work _ _ _).symm place
    have hengaged := fun hstage : other.stage.engaged = true =>
      heffect.version releases hself.sweeps (hok.free hstage run hrun) other.target
    have hmaterial := hok.material
    rw [Run.Material] at hmaterial ⊢
    cases hstage : other.stage with
    | installing rest =>
        rw [hstage] at hmaterial hstaged
        rw [hstaged rfl]
        exact hmaterial
    | checking =>
        rw [hstage] at hmaterial hstaged
        rw [hstaged rfl]
        exact hmaterial
    | making =>
        rw [hstage] at hmaterial hstaged
        rw [hstaged rfl]
        exact hmaterial
    | publishing =>
        rw [hstage] at hmaterial hstaged hengaged
        rw [hstaged rfl]
        exact ⟨hmaterial.1, (hengaged rfl).1 hmaterial.2⟩
    | unlocking published =>
        rw [hstage] at hmaterial hengaged
        exact (hengaged rfl).2.1 hmaterial
    | unlinking =>
        rw [hstage] at hmaterial hengaged
        exact (hengaged rfl).2.1 hmaterial
    | executing =>
        rw [hstage] at hmaterial hengaged
        exact (hengaged rfl).2.1 hmaterial
    | _ => trivial
  sound := hok.sound

/-! ## A step keeps the invariant -/

/-- What has to be seen of a step of a run. -/
structure Moved (releases : Releases family) (s : Cache) (run : Run) (input : Input) (s' : Cache)
    (run' : Run) : Prop where
  token : run'.token = run.token
  version : run'.version = run.version
  target : run'.target = run.target
  runs : s'.runs = (s.put run').runs
  effect : Effect s run s'.tree
  begins : ∀ name, run'.Removes name → run.Removes name ∨
    run.removal = [] ∧ s.tree.find [name] = some .directory ∧ Begins s run input name
  unstaged : run'.stage.unstaged = true →
    run.stage.unstaged = true ∧ s'.tree.find [run.work] = s.tree.find [run.work]
  staged : run'.stage.staged = true →
    run'.removal = [] ∧ (run.stage.staged = true ∨ run.stage.unstaged = true)
  engaged : run'.stage.engaged = true →
    run'.removal = [] ∧ (run.stage.engaged = true ∨ s.Spares run.version.1)
  held : ∀ lock token, s'.holder lock = some token →
    token ≠ run.token ∧ s.holder lock = some token ∨
      token = run.token ∧ run'.stage.holding = true
  sweeps : run'.Sweeps s'.tree
  shutdown : run'.stage.isLeaving = true →
    ∀ frame ∈ run'.removal, frame.location.head?.all isStaging = true
  condemned : ∀ name ∈ run'.stage.condemned, isStaging name = false
  material : run'.Material releases s'.tree
  sound : run'.Sound releases
  spares : ∀ version : Version, s'.Spares version.1 → s.Spares version.1 ∨
    ∀ target, s'.tree.find [version.1, target] = none
  published : run.stage = .publishing → s'.tree.find [run.version.1, run.target] = none ∨
    Complete releases s'.tree run.version run.target

variable (h : Inv releases s) (hrun : run ∈ s.runs)

include h hrun

/-- Before a run has a staging directory, there is none, and nobody removes it. -/
theorem Inv.unstaged (hunstaged : run.stage.unstaged = true) :
    s.tree.find [run.work] = none ∧ s.Spares run.work :=
  h.fresh run.version run.token fun other hother htoken =>
    h.unique other hother run hrun htoken ▸ hunstaged

theorem Inv.spares_work
    (hstage : run.stage.staged = true ∨ run.stage.unstaged = true) : s.Spares run.work :=
  hstage.elim (h.ok run hrun).kept fun hunstaged => (h.unstaged hrun hunstaged).2

theorem Moved.inv (hcareful : run'.removal ≠ [] → run.Careful s input)
    (hmoved : Moved releases s run input s' run') :
    Inv releases s' := by
  have hself := h.ok run hrun
  have htoken : run'.token = run.token := hmoved.token
  have hmem : ∀ other ∈ s'.runs, other = run' ∨ other ∈ s.runs ∧ other.token ≠ run.token := by
    intro other hother
    rw [hmoved.runs] at hother
    exact htoken ▸ mem_put hother
  have hstay : ∀ other ∈ s.runs, other.token ≠ run.token → other ∈ s'.runs := by
    intro other hother hne
    rw [hmoved.runs]
    exact put_mem_other hother (htoken ▸ hne)
  have hnew : run' ∈ s'.runs := by
    rw [hmoved.runs]
    exact put_mem hrun htoken
  have hwork : run'.work = run.work := by rw [Run.work, Run.work, htoken, hmoved.version]
  -- who is spared before the step is spared after it, unless the run begins to remove it
  have hspares : ∀ {name}, s.Spares name →
      (run.removal = [] → run.Careful s input → s.tree.find [name] = some .directory →
        ¬ Begins s run input name) → s'.Spares name := by
    intro name hspares hbegins other hother hremoves
    rcases hmem other hother with rfl | ⟨hother, -⟩
    · rcases hmoved.begins name hremoves with hold | ⟨hnil, hfound, hbegun⟩
      · exact hspares run hrun hold
      · obtain ⟨frame, hframe, -⟩ := hremoves
        exact hbegins hnil (hcareful (List.ne_nil_of_mem hframe)) hfound hbegun
    · exact hspares other hother hremoves
  refine ⟨fun a ha b hb heq => ?_, fun version token hunstaged => ?_,
    fun version hspared target => ?_, fun lock token hheld => ?_,
    hmoved.effect.rooted h.rooted, fun other hother => ?_⟩
  · rcases hmem a ha with rfl | ⟨ha, hane⟩ <;> rcases hmem b hb with rfl | ⟨hb, hbne⟩
    · rfl
    · exact absurd (heq.symm.trans htoken) hbne
    · exact absurd (heq.trans htoken) hane
    · exact h.unique a ha b hb heq
  · have hbefore : ∀ other ∈ s.runs, other.token = token → other.stage.unstaged = true := by
      intro other hother hsame
      by_cases hne : other.token = run.token
      · obtain rfl := h.unique other hother run hrun hne
        exact (hmoved.unstaged (hunstaged run' hnew (htoken.trans hsame))).1
      · exact hunstaged other (hstay other hother hne) hsame
    obtain ⟨hvacant, hspared⟩ := h.fresh version token hbefore
    refine ⟨?_, hspares hspared fun _ _ hfound => by rw [hvacant] at hfound; cases hfound⟩
    by_cases heq : workName version token = run.work
    · have hsame := hunstaged run' hnew (htoken.trans (work_token heq).symm)
      rw [heq, (hmoved.unstaged hsame).2, ← heq]
      exact hvacant
    · rw [hmoved.effect.same hself.sweeps (hspared run hrun) heq
        (version_ne_work _ _ _).symm]
      exact hvacant
  · rcases hmoved.spares version hspared with hold | hnone
    · obtain ⟨-, hcomplete, hvacant⟩ :=
        hmoved.effect.version releases hself.sweeps (hold run hrun) target
      rcases h.whole version hold target with hnone | hthere
      · rcases hvacant hnone with hnone | ⟨hstage, rfl, rfl⟩
        · exact .inl hnone
        · exact hmoved.published hstage
      · exact .inr (hcomplete hthere)
    · exact .inl (hnone target)
  · rcases hmoved.held lock token hheld with ⟨hne, hold⟩ | ⟨rfl, hholding⟩
    · obtain ⟨other, hother, rfl, hholding⟩ := h.held lock token hold
      exact ⟨other, hstay other hother hne, rfl, hholding⟩
    · exact ⟨run', hnew, htoken, hholding⟩
  · rcases hmem other hother with rfl | ⟨hother, hne⟩
    · refine ⟨hmoved.sweeps, hmoved.shutdown, hmoved.condemned,
        fun hstage => hstage.elim (fun hstaged => (hmoved.staged hstaged).1)
          fun hengaged => (hmoved.engaged hengaged).1,
        fun hstaged => ?_, fun hengaged => ?_, hmoved.material, hmoved.sound⟩
      · obtain ⟨hquiet, hstage⟩ := hmoved.staged hstaged
        rw [hwork]
        intro another hanother hremoves
        rcases hmem another hanother with rfl | ⟨hanother, -⟩
        · obtain ⟨frame, hframe, -⟩ := hremoves
          rw [hquiet] at hframe
          cases hframe
        · exact h.spares_work hrun hstage another hanother hremoves
      · obtain ⟨hquiet, hstage⟩ := hmoved.engaged hengaged
        rw [hmoved.version]
        intro another hanother hremoves
        rcases hmem another hanother with rfl | ⟨hanother, -⟩
        · obtain ⟨frame, hframe, -⟩ := hremoves
          rw [hquiet] at hframe
          cases hframe
        · exact hstage.elim (fun hengaged => hself.free hengaged another hanother hremoves)
            fun hspared => hspared another hanother hremoves
    · have hok := h.ok other hother
      exact hok.unmoved hother hrun hself hne hmoved.effect
        (fun hstaged => hspares (hok.kept hstaged) fun hnil hcareful _ hbegins =>
          hbegins.kept hnil hcareful hself hother hstaged hne rfl)
        fun hengaged => hspares (hok.free hengaged) fun hnil hcareful _ hbegins =>
          hbegins.free hnil hcareful hother hengaged rfl

/-- A holder of a lock is at a stage at which it may hold it. -/
theorem Inv.holding {lock : Nat} (hheld : s.holder lock = some run.token) :
    run.stage.holding = true := by
  obtain ⟨other, hother, htoken, hholding⟩ := h.held lock run.token hheld
  exact h.unique other hother run hrun htoken ▸ hholding

omit h hrun

theorem material_trivial (hstaged : run.stage.staged = false)
    (hengaged : run.stage.engaged = false) : run.Material releases tree := by
  rw [Run.Material]
  cases hstage : run.stage with
  | installing _ | checking | making | publishing =>
      rw [hstage] at hstaged
      cases hstaged
  | unlocking _ | unlinking | executing =>
      rw [hstage] at hengaged
      cases hengaged
  | _ => trivial

theorem spares_of_released {token : Token} {lock : Nat}
    (hheld : (s.release run.token).holder lock = some token) :
    token ≠ run.token ∧ s.holder lock = some token := by
  obtain ⟨hne, hold⟩ := Option.ite_none_left_eq_some.mp hheld
  exact ⟨fun heq => hne (heq ▸ hold), hold⟩

/-- A removal ends early only where a directory is gone. -/
theorem removal_thrown {listing : List String} {frames : List (Frame String)}
    (hthrown : tree.removalStep listing frames = some none) :
    ∃ place rest, frames = .opening place :: rest ∧ tree.isDirectory place = false := by
  rw [removalStep.eq_def] at hthrown
  split at hthrown
  · cases hthrown
  · rename_i place rest
    split at hthrown
    · split at hthrown <;> cases hthrown
    · rename_i hgone
      exact ⟨place, rest, rfl, Bool.not_eq_true _ ▸ hgone⟩
  · split at hthrown <;> cases hthrown
  · cases hthrown

include h hrun

/-- A step within a removal. -/
theorem remove_moved (hcareful : run.Careful s input) (hne : run.removal ≠ [])
    (hstep : run.remove s input = some s') : ∃ run', Moved releases s run input s' run' := by
  have hok := h.ok run hrun
  have hbusy : run.stage.staged = false ∧ run.stage.engaged = false :=
    ⟨Bool.eq_false_iff.mpr fun hstaged => hne (hok.quiet (.inl hstaged)),
      Bool.eq_false_iff.mpr fun hengaged => hne (hok.quiet (.inr hengaged))⟩
  have hunpublished : run.stage ≠ .publishing := fun hstage => by
    rw [hstage] at hbusy
    cases hbusy.1
  obtain ⟨root, hinside, hkind⟩ := hok.sweeps.resolve_left hne
  have hroot : ∀ {name}, run.Removes name → name = root := by
    intro name hremoves
    obtain ⟨frame, hframe⟩ := List.exists_mem_of_ne_nil _ hne
    obtain ⟨rest, hrest⟩ := hinside frame hframe
    obtain ⟨other, hother⟩ := ((removes_iff hok.sweeps).mp hremoves).2 frame hframe
    exact (List.cons_eq_cons.mp (hother.trans hrest.symm)).1
  rw [Run.remove] at hstep
  split at hstep
  · cases hstep
  · rename_i tree frames hremoval
    cases hstep
    obtain ⟨-, hinside'⟩ := removal_discards hinside hremoval
    have hremoves : ∀ name, ({ run with removal := frames } : Run).Removes name → name = root := by
      rintro name ⟨frame, hframe, hhead⟩
      obtain ⟨rest, hrest⟩ := hinside' frame hframe
      rw [← hrest] at hhead
      exact (Option.some.inj hhead).symm
    have hrootRemoves : run.Removes root := (removes_iff hok.sweeps).mpr ⟨hne, hinside⟩
    refine ⟨{ run with removal := frames }, rfl, rfl, rfl, rfl, .removed hremoval,
      fun name hname => .inl (hremoves name hname ▸ hrootRemoves), fun hunstaged => ⟨hunstaged, ?_⟩,
      fun hstaged => ?_, fun hengaged => ?_, fun lock token hheld => ?_, ?_, fun hleaving => ?_,
      hok.condemned, material_trivial hbusy.1 hbusy.2, hok.sound, fun version hspared => ?_,
      fun hstage => absurd hstage hunpublished⟩
    · exact removed_same hremoval hok.sweeps ((h.unstaged hrun hunstaged).2 run hrun) []
    · rw [hbusy.1] at hstaged
      cases hstaged
    · rw [hbusy.2] at hengaged
      cases hengaged
    · by_cases hsame : token = run.token
      · have hown : s.holder lock = some run.token := hsame ▸ hheld
        have hholding := h.holding hrun hown
        exact .inr ⟨hsame, hholding⟩
      · exact .inl ⟨hsame, hheld⟩
    · exact .inr ⟨root, hinside', hkind.imp id fun hsweeping =>
        hsweeping.step (List.cons_ne_nil _ _) hremoval⟩
    · intro frame hframe
      obtain ⟨first, hfirst⟩ := List.exists_mem_of_ne_nil _ hne
      obtain ⟨rest, hrest⟩ := hinside first hfirst
      obtain ⟨rest', hrest'⟩ := hinside' frame hframe
      have hstaging := hok.shutdown hleaving first hfirst
      rw [← hrest] at hstaging
      rw [← hrest']
      exact hstaging
    · by_cases hremoved : run.Removes version.1
      · obtain rfl := hroot hremoved
        have hsweeping := (hkind.resolve_left (by
          rw [version_not_staging]
          exact Bool.false_ne_true)).step (List.cons_ne_nil _ _) hremoval
        cases frames with
        | nil =>
            right
            intro target
            by_contra hfound
            have hinner : tree.find ([version.1] ++ [target]) ≠ none := hfound
            have hgone := hsweeping.done
            rw [find_above hinner (List.cons_ne_nil _ _)] at hgone
            cases hgone
        | cons frame rest =>
            obtain ⟨inner, hinner⟩ := hinside' frame List.mem_cons_self
            exact absurd ⟨frame, List.mem_cons_self, hinner ▸ rfl⟩
              (hspared _ (put_mem (s := s) hrun rfl))
      · left
        intro other hother
        by_cases htoken : other.token = run.token
        · rwa [h.unique other hother run hrun htoken]
        · exact hspared other (put_mem_other hother htoken)
  · rename_i hremoval
    obtain ⟨place, rest, hframes, hgone⟩ := removal_thrown hremoval
    rw [Run.Careful, hframes] at hcareful
    have hleaving := hcareful.resolve_right (by rw [hgone]; exact Bool.false_ne_true)
    have hrootStaging : isStaging root = true := by
      have hmem : Frame.opening place ∈ run.removal := by
        rw [hframes]
        exact List.mem_cons_self
      have hstaging := hok.shutdown hleaving _ hmem
      obtain ⟨inner, hinner⟩ := hinside _ hmem
      rw [← hinner] at hstaging
      exact hstaging
    split at hstep
    · rename_i outcome hstage
      cases hstep
      have hsound := hok.sound
      rw [Run.Sound, hstage] at hsound
      refine ⟨{ run with removal := [], stage := .ended outcome }, rfl, rfl, rfl, rfl, .still rfl,
        fun name hremoves => ?_, fun hunstaged => (nomatch hunstaged),
        fun hstaged => (nomatch hstaged), fun hengaged => (nomatch hengaged),
        fun lock token hheld => .inl (spares_of_released hheld), .inl rfl,
        fun hleaving => (nomatch hleaving), fun name hname => absurd hname List.not_mem_nil,
        trivial, hsound, fun version hspared => ?_, fun hstage => absurd hstage hunpublished⟩
      · obtain ⟨frame, hframe, -⟩ := hremoves
        cases hframe
      · left
        intro other hother
        by_cases htoken : other.token = run.token
        · rw [h.unique other hother run hrun htoken]
          intro hremoves
          rw [← hroot hremoves, version_not_staging] at hrootStaging
          cases hrootStaging
        · exact hspared other (put_mem_other hother htoken)
    · rename_i hstage
      rw [Stage.isLeaving.eq_def] at hleaving
      split at hleaving
      · rename_i outcome hstage'
        exact absurd hstage' (hstage outcome)
      · cases hleaving

/-- Where a run that is in no removal ends up in another stage, nobody's removal has ended. -/
theorem spares_before (hnil : run.removal = [])
    (hruns : s'.runs = (s.put run').runs) (htoken : run'.token = run.token)
    (hspared : s'.Spares name) : s.Spares name := by
  intro other hother
  by_cases hsame : other.token = run.token
  · rw [h.unique other hother run hrun hsame]
    rintro ⟨frame, hframe, -⟩
    rw [hnil] at hframe
    cases hframe
  · refine hspared other ?_
    rw [hruns]
    exact put_mem_other hother (htoken ▸ hsame)

/-- The run goes to another stage. The tree may have changed. -/
theorem moved_stage (hnil : run.removal = []) (heffect : Effect s run s'.tree)
    (htoken : run'.token = run.token) (hversion : run'.version = run.version)
    (htarget : run'.target = run.target) (hquiet : run'.removal = [])
    (hruns : s'.runs = (s.put run').runs)
    (hunstaged : run'.stage.unstaged = true →
      run.stage.unstaged = true ∧ s'.tree.find [run.work] = s.tree.find [run.work])
    (hstaged : run'.stage.staged = true → run.stage.staged = true ∨ run.stage.unstaged = true)
    (hengaged : run'.stage.engaged = true → run.stage.engaged = true ∨ s.Spares run.version.1)
    (hheld : ∀ lock token, s'.holder lock = some token →
      token ≠ run.token ∧ s.holder lock = some token ∨
        token = run.token ∧ run'.stage.holding = true)
    (hcondemned : ∀ name ∈ run'.stage.condemned, isStaging name = false)
    (hmaterial : run'.Material releases s'.tree) (hsound : run'.Sound releases)
    (hpublished : run.stage = .publishing → s'.tree.find [run.version.1, run.target] = none ∨
      Complete releases s'.tree run.version run.target) :
    Moved releases s run input s' run' where
  token := htoken
  version := hversion
  target := htarget
  runs := hruns
  effect := heffect
  begins name hremoves := by
    obtain ⟨frame, hframe, -⟩ := hremoves
    rw [hquiet] at hframe
    cases hframe
  unstaged := hunstaged
  staged hstage := ⟨hquiet, hstaged hstage⟩
  engaged hstage := ⟨hquiet, hengaged hstage⟩
  held := hheld
  sweeps := .inl hquiet
  shutdown _ frame hframe := by
    rw [hquiet] at hframe
    cases hframe
  condemned := hcondemned
  material := hmaterial
  sound := hsound
  spares _ hspared := .inl (spares_before h hrun hnil hruns htoken hspared)
  published := hpublished

/-- Where the locks are as they were, the run may hold them further. -/
theorem held_before (hholder : s'.holder = s.holder)
    (hholding : run.stage.holding = true → run'.stage.holding = true) (lock : Nat)
    (token : Token) (hheld : s'.holder lock = some token) :
    token ≠ run.token ∧ s.holder lock = some token ∨
      token = run.token ∧ run'.stage.holding = true := by
  rw [hholder] at hheld
  by_cases hsame : token = run.token
  · have hown : s.holder lock = some run.token := hsame ▸ hheld
    have hbefore := h.holding hrun hown
    exact .inr ⟨hsame, hholding hbefore⟩
  · exact .inl ⟨hsame, hheld⟩

/-- The run goes to another stage, and the rest is as it was. -/
theorem moved_quietly (hnil : run.removal = []) {stage : Stage}
    (hruns : s'.runs = (s.put { run with stage := stage }).runs) (htree : s'.tree = s.tree)
    (hholder : s'.holder = s.holder)
    (hunstaged : stage.unstaged = true → run.stage.unstaged = true)
    (hstaged : stage.staged = true → run.stage.staged = true ∨ run.stage.unstaged = true)
    (hengaged : stage.engaged = true → run.stage.engaged = true ∨ s.Spares run.version.1)
    (hholding : run.stage.holding = true → stage.holding = true)
    (hcondemned : ∀ name ∈ stage.condemned, isStaging name = false)
    (hmaterial : ({ run with stage := stage } : Run).Material releases s.tree)
    (hsound : ({ run with stage := stage } : Run).Sound releases) :
    Moved releases s run input s' { run with stage := stage } := by
  refine moved_stage h hrun hnil (.still htree) rfl rfl rfl hnil hruns
    (fun hbefore => ⟨hunstaged hbefore, by rw [htree]⟩) hstaged hengaged
    (held_before h hrun hholder hholding) hcondemned (htree ▸ hmaterial) hsound fun hstage => ?_
  rw [htree]
  exact h.whole run.version ((h.ok run hrun).free (by rw [hstage]; rfl)) run.target

/-- The run begins a removal. -/
theorem moved_begins (hnil : run.removal = []) {stage : Stage} {registered : Bool}
    (hfound : s.tree.find [name] = some .directory) (hbegins : Begins s run input name)
    (hkind : isStaging name = true ∨ stage.isLeaving = false)
    (hstages : stage.staged = false ∧ stage.engaged = false ∧ run.stage ≠ .publishing)
    (hunstaged : stage.unstaged = true → run.stage.unstaged = true)
    (hholding : run.stage.holding = true → stage.holding = true)
    (hcondemned : ∀ name ∈ stage.condemned, isStaging name = false)
    (hsound : ({ run with stage := stage } : Run).Sound releases) :
    Moved releases s run input (s.put { run with
      stage := stage, registered := registered, removal := [.opening [name]] })
      { run with stage := stage, registered := registered, removal := [.opening [name]] } where
  token := rfl
  version := rfl
  target := rfl
  runs := rfl
  effect := .still rfl
  begins other hremoves := by
    obtain ⟨frame, hframe, hhead⟩ := hremoves
    rw [List.mem_singleton.mp hframe] at hhead
    obtain rfl := Option.some.inj hhead
    exact .inr ⟨hnil, hfound, hbegins⟩
  unstaged hstage := ⟨hunstaged hstage, rfl⟩
  staged hstage := by
    have hstage : stage.staged = true := hstage
    rw [hstages.1] at hstage
    cases hstage
  engaged hstage := by
    have hstage : stage.engaged = true := hstage
    rw [hstages.2.1] at hstage
    cases hstage
  held := held_before h hrun rfl hholding
  sweeps := .inr ⟨name, fun frame hframe => by
    rw [List.mem_singleton.mp hframe]
    exact List.prefix_rfl, .inr (sweeping_start hfound)⟩
  shutdown hleaving frame hframe := by
    have hleaving : stage.isLeaving = true := hleaving
    rw [List.mem_singleton.mp hframe]
    exact hkind.resolve_right (by rw [hleaving]; nofun)
  condemned := hcondemned
  material := material_trivial hstages.1 hstages.2.1
  sound := hsound
  spares version hspared := by
    left
    intro other hother
    by_cases hsame : other.token = run.token
    · rw [h.unique other hother run hrun hsame]
      rintro ⟨frame, hframe, -⟩
      rw [hnil] at hframe
      cases hframe
    · exact hspared other (put_mem_other hother hsame)
  published hstage := absurd hstage hstages.2.2

omit h hrun in
theorem stale_mem {versions : List (String × Nat)} (hname : name ∈ staleVersions versions) :
    name ∈ versions.map Prod.fst := by
  obtain ⟨entry, hentry, rfl⟩ := List.mem_map.mp hname
  exact List.mem_map_of_mem ((List.mem_insertionSort _).mp (List.mem_of_mem_drop hentry))

omit hrun in
/-- A host that is found is complete. -/
theorem Inv.found (hspares : s.Spares run.version.1)
    (hfile : s.tree.isFile (run.hostDirectory ++ binary family) = true) :
    Complete releases s.tree run.version run.target := by
  refine (h.whole run.version hspares run.target).resolve_left fun hnone => ?_
  obtain ⟨contents, hfound⟩ := is_file_iff.mp hfile
  have hinner : s.tree.find ([run.version.1, run.target] ++ binary family) ≠ none := by
    show s.tree.find (run.hostDirectory ++ binary family) ≠ none
    rw [hfound]
    exact Option.some_ne_none _
  rw [find_above hinner (List.cons_ne_nil _ _)] at hnone
  cases hnone

/-- A step that prunes the cache. -/
theorem prune_moved (hnil : run.removal = [])
    (hstage : run.stage = .pruning ∨ (∃ names versions, run.stage = .scanning names versions) ∨
      ∃ stale, run.stage = .sweeping stale)
    (hstep : run.proceed releases s input = some s') :
    ∃ run', Moved releases s run input s' run' := by
  have hok := h.ok run hrun
  have hcondemned := hok.condemned
  -- every such step leads to a stage without any demands
  have hquietly : ∀ stage : Stage, stage.unstaged = true → stage.engaged = false →
      stage.staged = false → run.stage.unstaged = true → run.stage.holding = false →
      (∀ name ∈ stage.condemned, isStaging name = false) → stage.isLeaving = false →
      ∃ run', Moved releases s run input (s.put { run with stage := stage }) run' := by
    intro stage hunstaged hengaged hstaged hbefore hholding hplain hleaving
    refine ⟨_, moved_quietly h hrun hnil rfl rfl rfl (fun _ => hbefore)
      (fun hstage => ?_) (fun hstage => ?_) (fun hstage => ?_) hplain
      (material_trivial hstaged hengaged) ?_⟩
    · rw [hstaged] at hstage
      cases hstage
    · rw [hengaged] at hstage
      cases hstage
    · rw [hholding] at hstage
      cases hstage
    · cases stage with
      | leaving outcome => cases hleaving
      | ended outcome => cases hunstaged
      | _ => trivial
  rw [Run.proceed] at hstep
  rcases hstage with hstage | ⟨names, versions, hstage⟩ | ⟨stale, hstage⟩
  · simp only [hstage] at hstep
    split at hstep
    · cases hstep
      exact hquietly .looking rfl rfl rfl (hstage ▸ rfl) (hstage ▸ rfl) nofun rfl
    · split at hstep
      · cases hstep
        exact hquietly (.scanning input.listing []) rfl rfl rfl (hstage ▸ rfl) (hstage ▸ rfl)
          nofun rfl
      · cases hstep
  · rw [hstage] at hcondemned
    cases names with
    | nil =>
        simp only [hstage] at hstep
        cases hstep
        exact hquietly (.sweeping (staleVersions versions)) rfl rfl rfl (hstage ▸ rfl)
          (hstage ▸ rfl) (fun name hname => hcondemned name (stale_mem hname)) rfl
    | cons name names =>
        have hon := hquietly (.scanning names versions) rfl rfl rfl (hstage ▸ rfl) (hstage ▸ rfl)
          hcondemned rfl
        simp only [hstage] at hstep
        split at hstep
        · cases hstep
          exact hon
        · rename_i hdirectory
          rw [Bool.not_eq_true', Bool.not_eq_false] at hdirectory
          split at hstep
          · rename_i hold
            cases hstep
            exact ⟨_, moved_begins h hrun hnil (is_directory_iff.mp hdirectory)
              (.old hstage hold.1 hold.2) (.inl hold.1) ⟨rfl, rfl, by rw [hstage]; nofun⟩
              (fun _ => hstage ▸ rfl) (fun hholding => by rw [hstage] at hholding; cases hholding)
              hcondemned trivial⟩
          · split at hstep
            · rename_i hversion
              cases hstep
              refine hquietly (.scanning names (versions ++ [(name, input.modified)])) rfl rfl rfl
                (hstage ▸ rfl) (hstage ▸ rfl) (fun other hother => ?_) rfl
              have hother : other ∈ (versions ++ [(name, input.modified)]).map Prod.fst := hother
              rw [List.map_append, List.mem_append] at hother
              rcases hother with hother | hother
              · exact hcondemned other hother
              · rw [List.mem_singleton.mp hother]
                exact stale_not_staging hversion.2
            · cases hstep
              exact hon
  · rw [hstage] at hcondemned
    cases stale with
    | nil =>
        simp only [hstage] at hstep
        cases hstep
        exact hquietly .looking rfl rfl rfl (hstage ▸ rfl) (hstage ▸ rfl) nofun rfl
    | cons name names =>
        simp only [hstage] at hstep
        have hrest : ∀ other ∈ names, isStaging other = false :=
          fun other hother => hcondemned other (List.mem_cons_of_mem _ hother)
        split at hstep
        · rename_i hdirectory
          cases hstep
          exact ⟨_, moved_begins h hrun hnil (is_directory_iff.mp hdirectory) (.stale hstage)
            (.inr rfl) ⟨rfl, rfl, by rw [hstage]; nofun⟩ (fun _ => hstage ▸ rfl)
            (fun hholding => by rw [hstage] at hholding; cases hholding) hrest trivial⟩
        · cases hstep
          exact hquietly (.sweeping names) rfl rfl rfl (hstage ▸ rfl) (hstage ▸ rfl) hrest rfl

/-- A step that looks for the host or comes to the lock. -/
theorem look_moved (hcareful : run.Careful s input) (hnil : run.removal = [])
    (hstage : run.stage = .looking ∨ run.stage = .preparing ∨ run.stage = .opening ∨
      (∃ lock, run.stage = .locking lock) ∨ run.stage = .rechecking)
    (hstep : run.proceed releases s input = some s') :
    ∃ run', Moved releases s run input s' run' := by
  rw [Run.Careful, hnil] at hcareful
  rw [Run.proceed] at hstep
  rcases hstage with hstage | hstage | hstage | ⟨lock, hstage⟩ | hstage
  · rw [hstage] at hcareful
    simp only [hstage] at hstep
    cases hstep
    by_cases hfile : s.tree.isFile (run.hostDirectory ++ binary family) = true
    · rw [if_pos hfile]
      exact ⟨_, moved_quietly h hrun hnil rfl rfl rfl nofun nofun (fun _ => .inr hcareful)
        (fun hholding => by rw [hstage] at hholding; cases hholding) nofun
        (h.found hcareful hfile) trivial⟩
    · rw [if_neg hfile]
      exact ⟨_, moved_quietly h hrun hnil rfl rfl rfl (fun _ => hstage ▸ rfl) nofun nofun
        (fun hholding => by rw [hstage] at hholding; cases hholding) nofun trivial trivial⟩
  · simp only [hstage] at hstep
    split at hstep
    · cases hstep
      exact ⟨_, moved_quietly h hrun hnil rfl rfl rfl nofun nofun nofun (fun _ => rfl) nofun
        trivial trivial⟩
    · cases hstep
      exact ⟨_, moved_quietly h hrun hnil rfl rfl rfl (fun _ => hstage ▸ rfl) nofun nofun
        (fun hholding => by rw [hstage] at hholding; cases hholding) nofun trivial trivial⟩
  · simp only [hstage] at hstep
    split at hstep
    · cases hstep
      exact ⟨_, moved_quietly h hrun hnil rfl rfl rfl (fun _ => hstage ▸ rfl) nofun nofun
        (fun hholding => by rw [hstage] at hholding; cases hholding) nofun trivial trivial⟩
    · cases hstep
      exact ⟨_, moved_quietly h hrun hnil rfl rfl rfl (fun _ => hstage ▸ rfl) nofun nofun
        (fun hholding => by rw [hstage] at hholding; cases hholding) nofun trivial trivial⟩
  · simp only [hstage] at hstep
    split at hstep
    · cases hstep
    · cases hstep
      refine ⟨{ run with stage := .rechecking }, moved_stage h hrun hnil (.still rfl) rfl rfl rfl
        hnil rfl (fun _ => ⟨hstage ▸ rfl, rfl⟩) nofun nofun (fun other token hheld => ?_) nofun
        trivial trivial (fun hpublishing => by rw [hstage] at hpublishing; cases hpublishing)⟩
      have hheld : Function.update s.holder lock (some run.token) other = some token := hheld
      rcases eq_or_ne other lock with rfl | hne
      · rw [Function.update_self] at hheld
        exact .inr ⟨(Option.some.inj hheld).symm, rfl⟩
      · rw [Function.update_of_ne hne] at hheld
        exact held_before h hrun (show s.holder = s.holder from rfl) (fun _ => rfl) other token
          hheld
  · rw [hstage] at hcareful
    simp only [hstage] at hstep
    cases hstep
    by_cases hfile : s.tree.isFile (run.hostDirectory ++ binary family) = true
    · rw [if_pos hfile]
      exact ⟨_, moved_quietly h hrun hnil rfl rfl rfl nofun nofun (fun _ => .inr hcareful)
        (fun _ => rfl) nofun (h.found hcareful hfile) trivial⟩
    · rw [if_neg hfile]
      exact ⟨_, moved_quietly h hrun hnil rfl rfl rfl (fun _ => hstage ▸ rfl) nofun nofun
        (fun _ => rfl) nofun trivial trivial⟩

omit h hrun in
/-- What has been staged is a complete package. -/
theorem staged_package {version : Version} {target work name : String}
    (hstanding : Standing (fun place => tree.find (work :: place))
      (stagedItems name (releases version target))) :
    Standing (fun place => tree.find (work :: name :: place))
      (releases version target).items where
  directory := (hstanding.exact [name] .directory (List.cons_ne_nil _ _)).mpr (by
    rw [stagedItems]
    simp)
  exact place item hplace := by
    refine (hstanding.exact (name :: place) item (List.cons_ne_nil _ _)).trans ?_
    simp only [stagedItems, List.mem_cons, Prod.mk.injEq, List.cons.injEq, hplace, and_false,
      false_and, false_or, List.mem_map, Prod.exists]
    constructor
    · rintro ⟨inner, found, hmem, ⟨-, rfl⟩, rfl⟩
      exact hmem
    · exact fun hmem => ⟨place, item, hmem, ⟨trivial, rfl⟩, rfl⟩

/-- A step that fills the staging directory. -/
theorem install_moved (hnil : run.removal = [])
    (hstage : run.stage = .staging ∨ (∃ rest, run.stage = .installing rest) ∨
      run.stage = .checking)
    (hstep : run.proceed releases s input = some s') :
    ∃ run', Moved releases s run input s' run' := by
  have hok := h.ok run hrun
  have hmaterial := hok.material
  rw [Run.proceed] at hstep
  rw [Run.Material] at hmaterial
  rcases hstage with hstage | ⟨rest, hstage⟩ | hstage
  · simp only [hstage] at hstep
    obtain ⟨hvacant, hspares⟩ := h.unstaged hrun (by rw [hstage]; rfl)
    obtain ⟨tree, hcreate⟩ : ∃ tree, s.tree.create [] run.work .directory = some tree :=
      create_isSome s.tree.root (show s.tree.find ([] ++ [run.work]) = none from hvacant)
    obtain ⟨-, -, hfind⟩ := create_eq_some hcreate
    rw [hcreate] at hstep
    cases hstep
    refine ⟨{ run with
        stage := .installing (stagedItems run.package (releases run.version run.target))
        registered := true },
      moved_stage h hrun hnil (.staged hcreate (.inl ⟨rfl, rfl, rfl⟩) hspares) rfl rfl rfl hnil
        rfl nofun (fun _ => .inr (by rw [hstage]; rfl)) nofun
        (held_before h hrun rfl fun _ => rfl) nofun
        ⟨[], ⟨?_, fun place item hplace => ?_⟩, staged_creatable _ _, fun entry => ?_⟩ trivial
        (fun hpublishing => by rw [hstage] at hpublishing; cases hpublishing)⟩
    · exact (hfind [run.work]).trans (if_pos rfl)
    · refine iff_of_false (fun hfound => ?_) List.not_mem_nil
      have hfound : tree.find (run.work :: place) = some item := hfound
      rw [hfind, if_neg (by simpa using hplace)] at hfound
      have hinner : s.tree.find ([run.work] ++ place) ≠ none := by
        rw [List.singleton_append, hfound]
        exact Option.some_ne_none item
      rw [find_above hinner hplace] at hvacant
      cases hvacant
    · exact or_iff_right List.not_mem_nil
  · have hspares := hok.kept (by rw [hstage]; rfl)
    rw [hstage] at hmaterial
    obtain ⟨done, hstanding, hcreatable, hall⟩ := hmaterial
    cases rest with
    | nil =>
        simp only [hstage] at hstep
        cases hstep
        refine ⟨_, moved_quietly h hrun hnil rfl rfl rfl nofun (fun _ => .inl (by rw [hstage]; rfl))
          nofun (fun _ => rfl) nofun ⟨hstanding.directory, fun place item hplace => ?_⟩ trivial⟩
        refine (hstanding.exact place item hplace).trans ((hall _).symm.trans ?_).symm
        exact or_iff_left List.not_mem_nil
    | cons entry rest =>
        obtain ⟨place, item⟩ := entry
        obtain ⟨init, last, rfl⟩ : ∃ init last, place = init ++ [last] :=
          ⟨_, _, (List.dropLast_append_getLast hcreatable.1).symm⟩
        simp only [hstage, List.getLast?_concat, Option.bind_some, List.dropLast_concat] at hstep
        split at hstep
        · cases hstep
          exact ⟨_, moved_quietly h hrun hnil rfl rfl rfl nofun nofun nofun (fun _ => rfl) nofun
            trivial trivial⟩
        · have hstanding : Standing (fun other => s.tree.find ([run.work] ++ other)) done :=
            hstanding
          obtain ⟨tree, hcreate, hnext⟩ := hstanding.create hcreatable
          have hcreate : s.tree.create (run.work :: init) last item = some tree := hcreate
          rw [hcreate] at hstep
          cases hstep
          refine ⟨{ run with stage := .installing rest },
            moved_stage h hrun hnil (.staged hcreate (.inr rfl) hspares) rfl rfl rfl hnil rfl
              nofun (fun _ => .inl (by rw [hstage]; rfl)) nofun
              (held_before h hrun rfl fun _ => rfl) nofun
              ⟨_, hnext, hcreatable.2.2.2, fun entry => ?_⟩ trivial
              (fun hpublishing => by rw [hstage] at hpublishing; cases hpublishing)⟩
          refine Iff.trans ?_ (hall entry)
          rw [List.mem_cons, List.mem_cons, or_left_comm, or_assoc]
  · rw [hstage] at hmaterial
    have hpackage := staged_package hmaterial
    obtain ⟨contents, hmem⟩ := (releases run.version run.target).host
    have hfile : s.tree.isFile (run.work :: run.package :: binary family) = true :=
      is_file_iff.mpr ⟨contents, (hpackage.exact _ _ (List.cons_ne_nil _ _)).mpr hmem⟩
    simp only [hstage, if_pos hfile] at hstep
    cases hstep
    exact ⟨_, moved_quietly h hrun hnil rfl rfl rfl nofun (fun _ => .inl (by rw [hstage]; rfl))
      nofun (fun _ => rfl) nofun hmaterial trivial⟩

/-- A step that puts the host in its place. -/
theorem publish_moved (hcareful : run.Careful s input) (hnil : run.removal = [])
    (hstage : run.stage = .making ∨ run.stage = .publishing)
    (hstep : run.proceed releases s input = some s') :
    ∃ run', Moved releases s run input s' run' := by
  have hok := h.ok run hrun
  have hmaterial := hok.material
  rw [Run.Careful, hnil] at hcareful
  rw [Run.proceed] at hstep
  rw [Run.Material] at hmaterial
  rcases hstage with hstage | hstage
  · rw [hstage] at hmaterial hcareful
    simp only [hstage] at hstep
    split at hstep
    · rename_i hdirectory
      cases hstep
      exact ⟨_, moved_quietly h hrun hnil rfl rfl rfl nofun (fun _ => .inl (by rw [hstage]; rfl))
        (fun _ => .inr hcareful) (fun _ => rfl) nofun
        ⟨hmaterial, is_directory_iff.mp hdirectory⟩ trivial⟩
    · rename_i hdirectory
      have hvacant : s.tree.find ([] ++ [run.version.1]) = none := by
        cases hfind : s.tree.find [run.version.1] with
        | none => exact hfind
        | some item =>
            cases item with
            | directory => exact absurd (is_directory_iff.mpr hfind) hdirectory
            | file contents => exact absurd hfind (h.rooted _ contents)
      obtain ⟨tree, hcreate⟩ : ∃ tree, s.tree.create [] run.version.1 .directory = some tree :=
        create_isSome s.tree.root hvacant
      obtain ⟨-, -, hfind⟩ := create_eq_some hcreate
      rw [hcreate] at hstep
      cases hstep
      have hsame : ∀ place, tree.find (run.work :: place) = s.tree.find (run.work :: place) := by
        intro place
        rw [hfind, if_neg]
        exact fun heq => version_ne_work _ _ _ (List.cons_eq_cons.mp heq).1.symm
      have hstanding : Standing (fun place => tree.find (run.work :: place))
          (run.items releases) := by
        rw [funext hsame]
        exact hmaterial
      exact ⟨{ run with stage := .publishing },
        moved_stage h hrun hnil (.made hcreate hcareful) rfl rfl rfl hnil rfl nofun
          (fun _ => .inl (by rw [hstage]; rfl)) (fun _ => .inr hcareful)
          (held_before h hrun rfl fun _ => rfl) nofun
          ⟨hstanding, (hfind [run.version.1]).trans (if_pos rfl)⟩ trivial
          (fun hpublishing => by rw [hstage] at hpublishing; cases hpublishing)⟩
  · rw [hstage] at hmaterial
    simp only [hstage] at hstep
    obtain ⟨hstanding, hdirectory⟩ := hmaterial
    have hpackage := staged_package hstanding
    have hengaged : run.stage.engaged = true := by rw [hstage]; rfl
    rcases h.whole run.version (hok.free hengaged) run.target with hvacant | hcomplete
    · have hapart : ¬ [run.work, run.package] <+: [run.version.1] ++ [run.target] :=
        fun ⟨inner, hinner⟩ => version_ne_work _ _ _ (List.cons_eq_cons.mp hinner).1.symm
      obtain ⟨tree, hmove⟩ := move_isSome hpackage.directory hdirectory hapart hvacant
      obtain ⟨-, -, -, -, hmoved, -⟩ := move_eq_some hmove
      rw [hmove] at hstep
      cases hstep
      have hcomplete : Complete releases tree run.version run.target := by
        have hfind : (fun place => tree.find (run.version.1 :: run.target :: place)) =
            fun place => s.tree.find (run.work :: run.package :: place) := funext hmoved
        rw [Complete, hfind]
        exact hpackage
      exact ⟨{ run with stage := .unlocking true },
        moved_stage h hrun hnil (.published hstage hmove) rfl rfl rfl hnil rfl nofun nofun
          (fun _ => .inl hengaged) (held_before h hrun rfl fun _ => rfl) nofun hcomplete trivial
          (fun _ => .inr hcomplete)⟩
    · have hmove : s.tree.move [run.work, run.package] [run.version.1] run.target = none := by
        cases hmove : s.tree.move [run.work, run.package] [run.version.1] run.target with
        | none => rfl
        | some tree =>
            obtain ⟨-, -, -, hempty, -, -⟩ := move_eq_some hmove
            exact absurd hempty hcomplete.directories.2
      have hfile : s.tree.isFile (run.hostDirectory ++ binary family) = true := hcomplete.host
      rw [hmove, if_pos hfile] at hstep
      cases hstep
      exact ⟨_, moved_quietly h hrun hnil rfl rfl rfl nofun nofun (fun _ => .inl hengaged)
        (fun _ => rfl) nofun hcomplete trivial⟩

/-- A step from the host that is found to the end of the process. -/
theorem execute_moved (hnil : run.removal = [])
    (hstage : (∃ published, run.stage = .unlocking published) ∨ run.stage = .unlinking ∨
      run.stage = .executing ∨ ∃ outcome, run.stage = .leaving outcome)
    (hstep : run.proceed releases s input = some s') :
    ∃ run', Moved releases s run input s' run' := by
  have hok := h.ok run hrun
  have hmaterial := hok.material
  have hsound := hok.sound
  rw [Run.proceed] at hstep
  rw [Run.Material] at hmaterial
  rw [Run.Sound] at hsound
  rcases hstage with ⟨published, hstage⟩ | hstage | hstage | ⟨outcome, hstage⟩
  · rw [hstage] at hmaterial
    simp only [hstage] at hstep
    have hengaged : run.stage.engaged = true := by rw [hstage]; rfl
    have hunpublished : run.stage ≠ .publishing := by rw [hstage]; nofun
    cases hstep
    cases published with
    | false =>
        exact ⟨{ run with stage := .executing },
          moved_stage h hrun hnil (.still rfl) rfl rfl rfl hnil rfl nofun nofun
            (fun _ => .inl hengaged) (fun lock token hheld => .inl (spares_of_released hheld)) nofun
            hmaterial trivial fun hpublishing => absurd hpublishing hunpublished⟩
    | true =>
        exact ⟨{ run with stage := .unlinking },
          moved_stage h hrun hnil (.still rfl) rfl rfl rfl hnil rfl nofun nofun
            (fun _ => .inl hengaged) (fun lock token hheld => .inl (spares_of_released hheld)) nofun
            hmaterial trivial fun hpublishing => absurd hpublishing hunpublished⟩
  · rw [hstage] at hmaterial
    simp only [hstage] at hstep
    cases hstep
    exact ⟨_, moved_quietly h hrun hnil rfl rfl rfl nofun nofun
      (fun _ => .inl (by rw [hstage]; rfl))
      (fun hholding => by rw [hstage] at hholding; cases hholding) nofun hmaterial trivial⟩
  · rw [hstage] at hmaterial
    simp only [hstage] at hstep
    cases hstep
    exact ⟨_, moved_quietly h hrun hnil rfl rfl rfl nofun nofun nofun (fun _ => rfl) nofun trivial
      hmaterial⟩
  · rw [hstage] at hsound
    simp only [hstage] at hstep
    split at hstep
    · rename_i hregistered
      cases hstep
      exact ⟨_, moved_begins h hrun hnil (is_directory_iff.mp hregistered.2)
        (.own (by rw [hstage]; rfl) rfl) (.inl (work_staging _ _))
        ⟨rfl, rfl, by rw [hstage]; nofun⟩ nofun (fun _ => rfl) nofun hsound⟩
    · cases hstep
      exact ⟨{ run with stage := .ended outcome },
        moved_stage h hrun hnil (.still rfl) rfl rfl rfl hnil rfl nofun nofun nofun
          (fun lock token hheld => .inl (spares_of_released hheld)) nofun trivial hsound
          fun hpublishing => by rw [hstage] at hpublishing; cases hpublishing⟩

/-- A step of a run. -/
theorem advance_moved (hcareful : run.Careful s input)
    (hstep : run.advance releases s input = some s') :
    ∃ run', Moved releases s run input s' run' := by
  rw [Run.advance] at hstep
  split at hstep
  · rename_i hnil
    cases hstage : run.stage with
    | pruning => exact prune_moved h hrun hnil (.inl hstage) hstep
    | scanning names versions =>
        exact prune_moved h hrun hnil (.inr (.inl ⟨names, versions, hstage⟩)) hstep
    | sweeping stale => exact prune_moved h hrun hnil (.inr (.inr ⟨stale, hstage⟩)) hstep
    | looking => exact look_moved h hrun hcareful hnil (.inl hstage) hstep
    | preparing => exact look_moved h hrun hcareful hnil (.inr (.inl hstage)) hstep
    | opening => exact look_moved h hrun hcareful hnil (.inr (.inr (.inl hstage))) hstep
    | locking lock =>
        exact look_moved h hrun hcareful hnil (.inr (.inr (.inr (.inl ⟨lock, hstage⟩)))) hstep
    | rechecking =>
        exact look_moved h hrun hcareful hnil (.inr (.inr (.inr (.inr hstage)))) hstep
    | staging => exact install_moved h hrun hnil (.inl hstage) hstep
    | installing rest => exact install_moved h hrun hnil (.inr (.inl ⟨rest, hstage⟩)) hstep
    | checking => exact install_moved h hrun hnil (.inr (.inr hstage)) hstep
    | making => exact publish_moved h hrun hcareful hnil (.inl hstage) hstep
    | publishing => exact publish_moved h hrun hcareful hnil (.inr hstage) hstep
    | unlocking published => exact execute_moved h hrun hnil (.inl ⟨published, hstage⟩) hstep
    | unlinking => exact execute_moved h hrun hnil (.inr (.inl hstage)) hstep
    | executing => exact execute_moved h hrun hnil (.inr (.inr (.inl hstage))) hstep
    | leaving outcome =>
        exact execute_moved h hrun hnil (.inr (.inr (.inr ⟨outcome, hstage⟩))) hstep
    | ended outcome =>
        rw [Run.proceed, hstage] at hstep
        cases hstep
    | killed =>
        rw [Run.proceed, hstage] at hstep
        cases hstep
  · rename_i frame frames hremoval
    exact remove_moved h hrun hcareful (by rw [hremoval]; exact List.cons_ne_nil _ _) hstep

omit h hrun

/-- A run is killed, in the middle of a file or not. -/
theorem kill_moved (input : Input) (h : Inv releases s) (hrun : run ∈ s.runs)
    (hframes : ∀ frame ∈ run.removal, frame.location.head?.all isStaging = true)
    (bytes : Option (List UInt8)) :
    Moved releases s run input
      ({ s.release run.token with tree := run.torn s bytes }.put
        { run with stage := .killed, removal := [] })
      { run with stage := .killed, removal := [] } where
  token := rfl
  version := rfl
  target := rfl
  runs := rfl
  effect := by
    show Effect s run (run.torn s bytes)
    rw [Run.torn.eq_def]
    split
    · rename_i place contents rest found hstage
      cases hcreate : place.getLast?.bind fun name =>
          s.tree.create (run.work :: place.dropLast) name (.file found) with
      | none => exact .still rfl
      | some tree =>
          obtain ⟨name, -, hcreate⟩ := Option.bind_eq_some_iff.mp hcreate
          exact .staged hcreate (.inr rfl) ((h.ok run hrun).kept (by rw [hstage]; rfl))
    · exact .still rfl
  begins name hremoves := by
    obtain ⟨frame, hframe, -⟩ := hremoves
    cases hframe
  unstaged hstage := (nomatch hstage)
  staged hstage := (nomatch hstage)
  engaged hstage := (nomatch hstage)
  held lock token hheld := .inl (spares_of_released hheld)
  sweeps := .inl rfl
  shutdown hstage := (nomatch hstage)
  condemned name hname := absurd hname List.not_mem_nil
  material := trivial
  sound := trivial
  spares version hspared := by
    left
    intro other hother
    by_cases hsame : other.token = run.token
    · rw [h.unique other hother run hrun hsame]
      rintro ⟨frame, hframe, hhead⟩
      have hstaging := hframes frame hframe
      rw [hhead] at hstaging
      have hstaging : isStaging version.1 = true := hstaging
      rw [version_not_staging] at hstaging
      cases hstaging
    · exact hspared other (put_mem_other hother hsame)
  published hstage := by
    have htree : run.torn s bytes = s.tree := by
      rw [Run.torn.eq_def, hstage]
    show (run.torn s bytes).find _ = none ∨ Complete releases (run.torn s bytes) _ _
    rw [htree]
    exact h.whole run.version ((h.ok run hrun).free (by rw [hstage]; rfl)) run.target

/-- A run starts. -/
theorem start_inv (h : Inv releases s) {token : Token} {version : Version} {target : String}
    (hnew : ∀ other ∈ s.runs, other.token ≠ token) :
    Inv releases { s with runs := s.runs ++ [⟨token, version, target, .pruning, [], false⟩] } := by
  have hmem : ∀ other ∈ s.runs ++ [⟨token, version, target, .pruning, [], false⟩],
      other ∈ s.runs ∨ other = ⟨token, version, target, .pruning, [], false⟩ := fun other hother =>
    (List.mem_append.mp hother).imp id List.mem_singleton.mp
  have hold : ∀ other ∈ s.runs,
      other ∈ s.runs ++ [⟨token, version, target, .pruning, [], false⟩] := fun other hother =>
    List.mem_append_left _ hother
  have hspares : ∀ {name}, s.Spares name → Cache.Spares
      { s with runs := s.runs ++ [⟨token, version, target, .pruning, [], false⟩] } name := by
    intro name hspares other hother
    rcases hmem other hother with hother | rfl
    · exact hspares other hother
    · rintro ⟨frame, hframe, -⟩
      cases hframe
  refine ⟨fun a ha b hb heq => ?_, fun version' token' hunstaged => ?_,
    fun version' hspared => ?_, fun lock token' hheld => ?_, h.rooted, fun other hother => ?_⟩
  · rcases hmem a ha with ha | rfl <;> rcases hmem b hb with hb | rfl
    · exact h.unique a ha b hb heq
    · exact absurd heq (hnew a ha)
    · exact absurd heq.symm (hnew b hb)
    · rfl
  · obtain ⟨hvacant, hspared⟩ := h.fresh version' token' fun other hother =>
      hunstaged other (hold other hother)
    exact ⟨hvacant, hspares hspared⟩
  · exact h.whole version' fun other hother => hspared other (hold other hother)
  · obtain ⟨other, hother, hsame, hholding⟩ := h.held lock token' hheld
    exact ⟨other, hold other hother, hsame, hholding⟩
  · rcases hmem other hother with hother | rfl
    · have hok := h.ok other hother
      exact ⟨hok.sweeps, hok.shutdown, hok.condemned, hok.quiet,
        fun hstaged => hspares (hok.kept hstaged), fun hengaged => hspares (hok.free hengaged),
        hok.material, hok.sound⟩
    · exact ⟨.inl rfl, nofun, nofun, fun _ => rfl, nofun, nofun, trivial, trivial⟩

theorem find_unused (name : String) (rest : List String) :
    Cache.empty.tree.find (name :: rest) = none :=
  (find_empty (name :: rest)).trans (if_neg (List.cons_ne_nil _ _))

theorem inv_empty : Inv releases Cache.empty where
  unique := nofun
  fresh version token _ := ⟨find_unused _ _, nofun⟩
  whole version _ target := .inl (find_unused _ _)
  held := nofun
  rooted name contents hfile := by
    rw [find_unused] at hfile
    cases hfile
  ok := nofun

/-- Every admitted step keeps the invariant. -/
theorem next_inv (h : Inv releases s) {event : Event} (hadmitted : Admitted s event)
    (hnext : (launchers releases).next s event = some s') : Inv releases s' := by
  cases event with
  | start token version target =>
      obtain ⟨hnew, hsome⟩ := Option.ite_none_left_eq_some.mp hnext
      obtain rfl := Option.some.inj hsome
      rw [List.any_eq_true] at hnew
      exact start_inv h fun other hother heq => hnew ⟨other, hother, decide_eq_true heq⟩
  | step token input =>
      obtain ⟨run, hfind, hstep⟩ := Option.bind_eq_some_iff.mp hnext
      have hrun := List.mem_of_find?_eq_some hfind
      have htoken : run.token = token := by simpa using List.find?_some hfind
      have hcareful := hadmitted run hrun htoken
      obtain ⟨run', hmoved⟩ := advance_moved h hrun hcareful hstep
      exact hmoved.inv h hrun fun _ => hcareful
  | kill token bytes =>
      obtain ⟨run, hfind, rfl⟩ := Option.map_eq_some_iff.mp hnext
      have hrun := List.mem_of_find?_eq_some hfind
      obtain ⟨rfl, -⟩ : run.token = token ∧ run.stage.live = true := by
        simpa using List.find?_some hfind
      have hmoved := kill_moved ⟨[], 0, 0, false⟩ h hrun (hadmitted run hrun rfl) bytes
      exact hmoved.inv h hrun fun hne => absurd rfl hne

end PamDesktop.Launcher.HostCache
