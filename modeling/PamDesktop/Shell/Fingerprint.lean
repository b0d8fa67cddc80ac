import Mathlib.Data.List.Perm.Basic
import Mathlib.Data.List.Sort
import PamDesktop.Foundations.Concatenation
import PamDesktop.Foundations.LossyText
import PamDesktop.Foundations.SemanticVersion
import PamDesktop.Foundations.Walk
import PamDesktop.Protocol.Validation

/-!
# The fingerprint of a project

`project_fingerprint`: the inputs that `collect_inputs` finds below the root, in the order of their
paths, and the bytes that are fed to the hash for them. The entries of a directory come in whatever
order the system enumerates them. `fingerprint_separates` says that two trees feed the same bytes
exactly if they have the same inputs.
-/

namespace PamDesktop.Shell.Fingerprint

open Foundations Protocol

/-! ## Collecting the inputs -/

/-- The directories that `collect_inputs` leaves out. -/
def leftOut (name : OsString) : Bool :=
  [".git", ".pam", "dist", "node_modules", "target", "vendor"].contains (toStringLossy name)

/-- The files that it takes. -/
def taken (name : OsString) : Bool :=
  ["composer.json", "composer.lock", "pam.json"].contains (toStringLossy name) ||
    extension name == some (osString "php")

mutual

/-- `collect_inputs`, entry by entry, with the contents that are read later. -/
def collectInputs : List (OsString × Node) → List FileAt
  | [] => []
  | item :: rest => collectEntry item ++ collectInputs rest
termination_by structural entries => entries

def collectEntry : OsString × Node → List FileAt
  | (name, node) => collectNode name node
termination_by structural item => item

/-- What a name contributes; `is_dir` and `is_file` follow links. -/
def collectNode (name : OsString) : Node → List FileAt
  | .directory entries =>
      if leftOut name then []
      else (collectInputs entries).map fun file => (name :: file.1, file.2)
  | .file bytes => if taken name then [([name], bytes)] else []
  | .symlink target => collectTarget name target
  | .special => []
termination_by structural node => node

/-- What a link contributes under its own name. -/
def collectTarget (name : OsString) : Option Node → List FileAt
  | some node => collectNode name node
  | none => []
termination_by structural target => target

end

/-! ## Feeding the hash -/

/-- `to_le_bytes` of this many bytes. -/
def littleEndian : Nat → Nat → List UInt8
  | 0, _ => []
  | count + 1, value => UInt8.ofNat (value % 256) :: littleEndian count (value / 256)

/-- The separator of the paths that `read_dir` gives. -/
def pathSeparator (build : Build) : UInt8 :=
  if build.operatingSystem = .windows then 92 else 47

/-- `relative.to_string_lossy().as_bytes()`. -/
def pathBytes (build : Build) (path : List OsString) : List UInt8 :=
  osString (toStringLossy (joinNames (pathSeparator build) path))

/-- The turn of the loop of `project_fingerprint` for one input. -/
def inputBytes (build : Build) (file : FileAt) : List UInt8 :=
  (pathBytes build file.1 ++ [0]) ++ (littleEndian 8 file.2.length ++ file.2)

/-- The first bytes of every fingerprint. -/
def header : List UInt8 := osString "pam-desktop-startup-snapshot-v1" ++ [0]

/-- The order of `PathBuf`: paths are compared component by component. -/
def PathOrder (first second : FileAt) : Prop := first.1 ≤ second.1

instance : DecidableRel PathOrder := fun first second =>
  inferInstanceAs (Decidable (first.1 ≤ second.1))

instance : Std.Total PathOrder where
  total first second := Std.le_total (a := first.1) (b := second.1)

instance : IsTrans FileAt PathOrder where
  trans _ _ _ h h' := Std.le_trans h h'

/-- `candidates.sort()`. -/
def sortInputs (files : List FileAt) : List FileAt := files.insertionSort PathOrder

/-- All that `project_fingerprint` feeds to the hash for the entries of the root. -/
def fingerprintInput (build : Build) (entries : List (OsString × Node)) : List UInt8 :=
  header ++ (sortInputs (collectInputs entries)).flatMap (inputBytes build)

/-- `project_fingerprint`: the digest, in hexadecimal digits. -/
def projectFingerprint (build : Build) (sha256 : List UInt8 → String)
    (entries : List (OsString × Node)) : String :=
  sha256 (fingerprintInput build entries)

/-! ## Trees -/

/-- A file name that is a text: the system allows neither separators nor zero bytes in names. -/
structure FileName (build : Build) (name : OsString) : Prop where
  text : ∃ text, osString text = name
  separator : pathSeparator build ∉ name
  zero : (0 : UInt8) ∉ name

/-- Different names in each directory, and contents whose length is a word. -/
inductive Stored (build : Build) : Node → Prop where
  | file (bytes) : bytes.length < 18446744073709551616 → Stored build (.file bytes)
  | directory (entries) : (entries.map Prod.fst).Nodup →
      (∀ item ∈ entries, FileName build item.1) → (∀ item ∈ entries, Stored build item.2) →
      Stored build (.directory entries)
  | broken : Stored build (.symlink none)
  | link (node) : Stored build node → Stored build (.symlink (some node))
  | special : Stored build .special

/-- The same tree with directories enumerated in another order. -/
inductive Reordered : Node → Node → Prop where
  | refl (node) : Reordered node node
  | directory {entries entries'} : entries.Perm entries' →
      Reordered (.directory entries) (.directory entries')
  | inside (before after name) {node node'} : Reordered node node' →
      Reordered (.directory (before ++ (name, node) :: after))
        (.directory (before ++ (name, node') :: after))
  | link {node node'} : Reordered node node' →
      Reordered (.symlink (some node)) (.symlink (some node'))
  | trans {first second third} : Reordered first second → Reordered second third →
      Reordered first third

/-! ## What is collected -/

/-- An input: a path below the root, of file names, and contents. -/
structure Input (build : Build) (file : FileAt) : Prop where
  path : file.1 ≠ []
  names : ∀ name ∈ file.1, FileName build name
  length : file.2.length < 18446744073709551616

theorem mem_collect_inputs {entries : List (OsString × Node)} {file : FileAt} :
    file ∈ collectInputs entries ↔ ∃ item ∈ entries, file ∈ collectNode item.1 item.2 := by
  induction entries with
  | nil => simp [collectInputs]
  | cons item rest ih =>
      rw [collectInputs, collectEntry, List.mem_append, ih]
      simp only [List.mem_cons, exists_eq_or_imp]

/-- What a name contributes lies below it. -/
theorem collect_node_head {build : Build} {node : Node} (h : Stored build node) {name : OsString}
    {file : FileAt} (hfile : file ∈ collectNode name node) : ∃ rest, file.1 = name :: rest := by
  induction h with
  | file bytes _ =>
      rw [collectNode] at hfile
      split at hfile
      · rw [List.mem_singleton.mp hfile]
        exact ⟨[], rfl⟩
      · cases hfile
  | directory entries _ _ _ _ =>
      rw [collectNode] at hfile
      split at hfile
      · cases hfile
      · obtain ⟨inner, -, rfl⟩ := List.mem_map.mp hfile
        exact ⟨inner.1, rfl⟩
  | broken =>
      rw [collectNode, collectTarget] at hfile
      cases hfile
  | link node _ ih =>
      rw [collectNode, collectTarget] at hfile
      exact ih hfile
  | special =>
      rw [collectNode] at hfile
      cases hfile

theorem collect_node_input {build : Build} {node : Node} (h : Stored build node)
    {name : OsString} (hname : FileName build name) {file : FileAt}
    (hfile : file ∈ collectNode name node) : Input build file := by
  induction h generalizing name file with
  | file bytes hbytes =>
      rw [collectNode] at hfile
      split at hfile
      · rw [List.mem_singleton.mp hfile]
        refine ⟨List.cons_ne_nil _ _, fun other hother => ?_, hbytes⟩
        rw [List.mem_singleton.mp hother]
        exact hname
      · cases hfile
  | directory entries _ hnames _ ih =>
      rw [collectNode] at hfile
      split at hfile
      · cases hfile
      · obtain ⟨inner, hinner, rfl⟩ := List.mem_map.mp hfile
        obtain ⟨item, hitem, hinside⟩ := mem_collect_inputs.mp hinner
        have hinput := ih item hitem (hnames item hitem) hinside
        refine ⟨List.cons_ne_nil _ _, fun other hother => ?_, hinput.length⟩
        rcases List.mem_cons.mp hother with rfl | hother
        · exact hname
        · exact hinput.names other hother
  | broken =>
      rw [collectNode, collectTarget] at hfile
      cases hfile
  | link node _ ih =>
      rw [collectNode, collectTarget] at hfile
      exact ih hname hfile
  | special =>
      rw [collectNode] at hfile
      cases hfile

/-- Different names contribute different paths. -/
theorem collect_inputs_nodup {build : Build} {entries : List (OsString × Node)}
    (hnodup : (entries.map Prod.fst).Nodup) (hstored : ∀ item ∈ entries, Stored build item.2)
    (hinside : ∀ item ∈ entries, ((collectNode item.1 item.2).map Prod.fst).Nodup) :
    ((collectInputs entries).map Prod.fst).Nodup := by
  induction entries with
  | nil =>
      rw [collectInputs]
      exact List.nodup_nil
  | cons item rest ih =>
      obtain ⟨hnew, hrest⟩ := List.nodup_cons.mp hnodup
      rw [collectInputs, collectEntry, List.map_append]
      refine List.nodup_append.mpr ⟨hinside item List.mem_cons_self,
        ih hrest (fun other hother => hstored other (List.mem_cons_of_mem _ hother))
          (fun other hother => hinside other (List.mem_cons_of_mem _ hother)), ?_⟩
      intro path hpath other hother heq
      obtain ⟨file, hfile, rfl⟩ := List.mem_map.mp hpath
      obtain ⟨file', hfile', rfl⟩ := List.mem_map.mp hother
      obtain ⟨later, hlater, hthere⟩ := mem_collect_inputs.mp hfile'
      obtain ⟨tail, htail⟩ := collect_node_head (hstored item List.mem_cons_self) hfile
      obtain ⟨tail', htail'⟩ :=
        collect_node_head (hstored later (List.mem_cons_of_mem _ hlater)) hthere
      have hsame : item.1 = later.1 := by
        rw [htail, htail'] at heq
        exact (List.cons.inj heq).1
      rw [List.map_cons] at hnodup
      exact hnew (hsame ▸ List.mem_map_of_mem hlater)

theorem collect_node_nodup {build : Build} {node : Node} (h : Stored build node)
    (name : OsString) : ((collectNode name node).map Prod.fst).Nodup := by
  induction h generalizing name with
  | file bytes _ =>
      rw [collectNode]
      split
      · exact List.nodup_singleton _
      · exact List.nodup_nil
  | directory entries hnodup _ hstored ih =>
      rw [collectNode]
      split
      · exact List.nodup_nil
      · have hinner := collect_inputs_nodup hnodup hstored fun item hitem => ih item hitem item.1
        rw [List.map_map]
        show ((collectInputs entries).map (List.cons name ∘ Prod.fst)).Nodup
        rw [← List.map_map]
        exact List.Nodup.map List.cons_injective hinner
  | broken =>
      rw [collectNode, collectTarget]
      exact List.nodup_nil
  | link node _ ih =>
      rw [collectNode, collectTarget]
      exact ih name
  | special =>
      rw [collectNode]
      exact List.nodup_nil

/-- The order of enumeration is the order of collection and nothing else. -/
theorem collect_inputs_perm {entries entries' : List (OsString × Node)}
    (h : entries.Perm entries') : (collectInputs entries).Perm (collectInputs entries') := by
  induction h with
  | nil => exact .refl _
  | cons item _ ih =>
      rw [collectInputs, collectInputs]
      exact .append_left _ ih
  | swap item item' rest =>
      rw [collectInputs, collectInputs, collectInputs, collectInputs, ← List.append_assoc,
        ← List.append_assoc]
      exact .append_right _ List.perm_append_comm
  | trans _ _ ih ih' => exact ih.trans ih'

theorem collect_inputs_append (before after : List (OsString × Node)) :
    collectInputs (before ++ after) = collectInputs before ++ collectInputs after := by
  induction before with
  | nil =>
      rw [collectInputs]
      rfl
  | cons item rest ih => rw [List.cons_append, collectInputs, collectInputs, ih, List.append_assoc]

theorem collect_node_reordered {node node' : Node} (h : Reordered node node') (name : OsString) :
    (collectNode name node).Perm (collectNode name node') := by
  induction h generalizing name with
  | refl node => exact .refl _
  | directory hperm =>
      rw [collectNode, collectNode]
      split
      · exact .refl _
      · exact (collect_inputs_perm hperm).map _
  | inside before after inner _ ih =>
      rw [collectNode, collectNode]
      split
      · exact .refl _
      · rw [collect_inputs_append, collect_inputs_append, collectInputs, collectInputs,
          collectEntry, collectEntry]
        exact (((ih inner).append_right _).append_left _).map _
  | link _ ih =>
      rw [collectNode, collectNode, collectTarget, collectTarget]
      exact ih name
  | trans _ _ ih ih' => exact (ih name).trans (ih' name)

/-! ## What is fed -/

theorem little_endian_length (count value : Nat) : (littleEndian count value).length = count := by
  induction count generalizing value with
  | zero => rfl
  | succ count ih => rw [littleEndian, List.length_cons, ih]

/-- The bytes of a word tell its value. -/
theorem little_endian_injective {first second : Nat} (hfirst : first < 18446744073709551616)
    (hsecond : second < 18446744073709551616)
    (h : littleEndian 8 first = littleEndian 8 second) : first = second := by
  have hbyte : ∀ {m n : Nat}, UInt8.ofNat (m % 256) = UInt8.ofNat (n % 256) →
      m % 256 = n % 256 := by
    intro m n heq
    have hnat := congrArg UInt8.toNat heq
    rw [UInt8.toNat_ofNat', UInt8.toNat_ofNat'] at hnat
    omega
  simp only [littleEndian, List.cons.injEq, and_true] at h
  obtain ⟨h0, h1, h2, h3, h4, h5, h6, h7⟩ := h
  have := hbyte h0
  have := hbyte h1
  have := hbyte h2
  have := hbyte h3
  have := hbyte h4
  have := hbyte h5
  have := hbyte h6
  have := hbyte h7
  omega

/-- Names that are texts make a path that is a text. -/
theorem join_names_text {separator : Char} (hseparator : separator.toNat < 128)
    {names : List OsString} (hnames : ∀ name ∈ names, ∃ text, osString text = name) :
    ∃ text, osString text = joinNames (UInt8.ofNat separator.toNat) names := by
  induction names with
  | nil => exact ⟨"", rfl⟩
  | cons first rest ih =>
      obtain ⟨text, htext⟩ := hnames first List.mem_cons_self
      cases rest with
      | nil => exact ⟨text, by rw [htext, joinNames, List.intercalate_singleton]⟩
      | cons second rest =>
          obtain ⟨text', htext'⟩ := ih fun name hname => hnames name (List.mem_cons_of_mem _ hname)
          refine ⟨text ++ String.ofList [separator] ++ text', ?_⟩
          rw [join_names_cons, os_string_append, os_string_append, os_string_of_list, htext, htext',
            List.flatMap_singleton, utf8_encode_ascii hseparator, List.append_assoc]
          rfl

/-- The bytes of the path of an input are the path itself. -/
theorem path_bytes_eq {build : Build} {names : List OsString}
    (hnames : ∀ name ∈ names, FileName build name) :
    pathBytes build names = joinNames (pathSeparator build) names := by
  have htext : ∃ text, osString text = joinNames (pathSeparator build) names := by
    unfold pathSeparator
    split
    · exact join_names_text (show ('\\' : Char).toNat < 128 by decide) fun name hname =>
        (hnames name hname).text
    · exact join_names_text (show ('/' : Char).toNat < 128 by decide) fun name hname =>
        (hnames name hname).text
  obtain ⟨text, htext⟩ := htext
  rw [pathBytes, ← htext, to_string_lossy_os_string]

/-- Different paths of file names have different bytes. -/
theorem path_bytes_injective {build : Build} {first second : List OsString} (hfirst : first ≠ [])
    (hsecond : second ≠ []) (hfirstnames : ∀ name ∈ first, FileName build name)
    (hsecondnames : ∀ name ∈ second, FileName build name)
    (h : pathBytes build first = pathBytes build second) : first = second := by
  rw [path_bytes_eq hfirstnames, path_bytes_eq hsecondnames] at h
  have hsplit : ∀ {path : List OsString}, path ≠ [] → (∀ name ∈ path, FileName build name) →
      (joinNames (pathSeparator build) path).splitOnP (fun byte => byte == pathSeparator build) =
        path := by
    intro path hpath hnames
    have hself : (fun byte => byte == pathSeparator build) (pathSeparator build) = true :=
      beq_self_eq_true _
    refine @split_join_names (fun byte => byte == pathSeparator build) _ hself _ hpath
      fun name hname byte hbyte => ?_
    refine beq_eq_false_iff_ne.mpr fun heq => (hnames name hname).separator ?_
    rw [← heq]
    exact hbyte
  rw [← hsplit hfirst hfirstnames, h, hsplit hsecond hsecondnames]

/-- The bytes of an input tell which input it is and where the next one begins. -/
theorem input_bytes_read (build : Build) : ReadOnce (Input build) (inputBytes build) := by
  have hpath : ReadOnce (fun path => path ≠ [] ∧ ∀ name ∈ path, FileName build name)
      fun path => pathBytes build path ++ [0] := by
    refine .terminated (fun first second hfirst hsecond h => ?_) fun path hpath hzero => ?_
    · exact path_bytes_injective hfirst.1 hsecond.1 hfirst.2 hsecond.2 h
    · rw [path_bytes_eq hpath.2] at hzero
      rcases mem_intercalate hzero with hseparator | ⟨name, hname, hbyte⟩
      · unfold pathSeparator at hseparator
        split at hseparator <;> cases hseparator
      · exact (hpath.2 name hname).zero hbyte
  have hcontents : ReadOnce (fun contents : List UInt8 => contents.length < 18446744073709551616)
      fun contents => littleEndian 8 contents.length ++ contents :=
    .counted (.fixed (little_endian_length 8) fun _ _ => little_endian_injective)
  intro first second rest rest' hfirst hsecond h
  exact hpath.pair hcontents first second rest rest' ⟨⟨hfirst.path, hfirst.names⟩, hfirst.length⟩
    ⟨⟨hsecond.path, hsecond.names⟩, hsecond.length⟩ h

/-- Inputs with different paths are sorted into one order. -/
theorem sort_inputs_eq {first second : List FileAt} (hnodup : (first.map Prod.fst).Nodup)
    (h : first.Perm second) : sortInputs first = sortInputs second := by
  have hperm : (sortInputs first).Perm (sortInputs second) :=
    (List.perm_insertionSort _ first).trans (h.trans (List.perm_insertionSort _ second).symm)
  refine List.Perm.eq_of_pairwise ?_ (List.pairwise_insertionSort PathOrder first)
    (List.pairwise_insertionSort PathOrder second) hperm
  intro file other hfile hother hbefore hbehind
  have hpath : file.1 = other.1 := Std.le_antisymm hbefore hbehind
  have hmem : other ∈ first := h.mem_iff.mpr ((List.mem_insertionSort _).mp hother)
  exact List.inj_on_of_nodup_map hnodup ((List.mem_insertionSort _).mp hfile) hmem hpath

/-- What is collected of a stored tree are inputs with different paths. -/
theorem collect_inputs_stored {build : Build} {entries : List (OsString × Node)}
    (h : Stored build (.directory entries)) :
    (∀ file ∈ collectInputs entries, Input build file) ∧
      ((collectInputs entries).map Prod.fst).Nodup := by
  cases h with
  | directory _ hnodup hnames hstored =>
      constructor
      · intro file hfile
        obtain ⟨item, hitem, hinside⟩ := mem_collect_inputs.mp hfile
        exact collect_node_input (hstored item hitem) (hnames item hitem) hinside
      · exact collect_inputs_nodup hnodup hstored fun item hitem =>
          collect_node_nodup (hstored item hitem) item.1

/-- Another enumeration of the root collects the same inputs. -/
theorem collect_inputs_reordered {first second : List (OsString × Node)}
    (h : Reordered (.directory first) (.directory second)) :
    (collectInputs first).Perm (collectInputs second) := by
  -- below a name that is not left out, what is collected is what the name contributes
  have hperm := collect_node_reordered h []
  rw [collectNode, collectNode, if_neg (by decide), if_neg (by decide)] at hperm
  have hinjective :
      Function.Injective fun file : FileAt => (([] : OsString) :: file.1, file.2) := by
    intro file other heq
    cases file
    cases other
    cases heq
    rfl
  exact (List.map_perm_map_iff hinjective).mp hperm

/-- Two trees feed the same bytes exactly if they have the same inputs, whatever the order in which
their directories are enumerated. -/
theorem fingerprint_separates (build : Build) (first second : List (OsString × Node))
    (hfirst : Stored build (.directory first)) (hsecond : Stored build (.directory second)) :
    (fingerprintInput build first = fingerprintInput build second ↔
      ∀ file, file ∈ collectInputs first ↔ file ∈ collectInputs second) ∧
    ∀ enumerated, Reordered (.directory first) (.directory enumerated) →
      fingerprintInput build enumerated = fingerprintInput build first := by
  obtain ⟨hinputs, hnodup⟩ := collect_inputs_stored hfirst
  obtain ⟨hinputs', hnodup'⟩ := collect_inputs_stored hsecond
  have hsorted : ∀ {files : List FileAt}, (∀ file ∈ files, Input build file) →
      ∀ file ∈ sortInputs files, Input build file := by
    intro files hfiles file hfile
    exact hfiles file ((List.mem_insertionSort _).mp hfile)
  refine ⟨⟨fun h file => ?_, fun h => ?_⟩, fun enumerated henumerated => ?_⟩
  · have hsame : sortInputs (collectInputs first) = sortInputs (collectInputs second) := by
      refine (input_bytes_read build).flatMap_injective (fun value hnil => ?_) (hsorted hinputs)
        (hsorted hinputs') (List.append_cancel_left h)
      have hlength := congrArg List.length hnil
      simp [inputBytes] at hlength
    have hmem : ∀ files, file ∈ sortInputs files ↔ file ∈ files := fun files =>
      List.mem_insertionSort _
    rw [← hmem, hsame, hmem]
  · have hperm : (collectInputs first).Perm (collectInputs second) :=
      (List.perm_ext_iff_of_nodup (.of_map _ hnodup) (.of_map _ hnodup')).mpr h
    rw [fingerprintInput, sort_inputs_eq hnodup hperm]
    rfl
  · rw [fingerprintInput, ← sort_inputs_eq hnodup (collect_inputs_reordered henumerated)]
    rfl

/-- A project with a manifest and a source file. -/
def smallProject (manifest : List UInt8) : List (OsString × Node) :=
  [(osString "pam.json", .file manifest),
    (osString "src", .directory [(osString "app.php", .file [60, 63])])]

theorem plain_file_name {build : Build} {text : String}
    (h : (osString text).all (fun byte => byte ≠ 0 && byte ≠ 47 && byte ≠ 92) = true) :
    FileName build (osString text) := by
  have hbyte : ∀ byte ∈ osString text, byte ≠ 0 ∧ byte ≠ 47 ∧ byte ≠ 92 := by
    intro byte hmem
    have hgood := List.all_eq_true.mp h byte hmem
    simp only [Bool.and_eq_true, decide_eq_true_eq] at hgood
    exact ⟨hgood.1.1, hgood.1.2, hgood.2⟩
  refine ⟨⟨text, rfl⟩, fun hseparator => ?_, fun hzero => (hbyte _ hzero).1 rfl⟩
  have hdifferent := hbyte _ hseparator
  unfold pathSeparator at hdifferent
  split at hdifferent
  · exact hdifferent.2.2 rfl
  · exact hdifferent.2.1 rfl

theorem small_project_stored (build : Build) {manifest : List UInt8}
    (h : manifest.length < 18446744073709551616) :
    Stored build (.directory (smallProject manifest)) := by
  have hnodup : ([osString "pam.json", osString "src"] : List OsString).Nodup := by decide +kernel
  refine .directory _ hnodup ?_ ?_
  · intro item hitem
    rcases List.mem_cons.mp hitem with rfl | hitem
    · exact plain_file_name (by decide +kernel)
    · rw [List.mem_singleton.mp hitem]
      exact plain_file_name (by decide +kernel)
  · intro item hitem
    rcases List.mem_cons.mp hitem with rfl | hitem
    · exact .file _ h
    · rw [List.mem_singleton.mp hitem]
      refine .directory _ (List.nodup_singleton _) ?_ ?_
      · intro inner hinner
        rw [List.mem_singleton.mp hinner]
        exact plain_file_name (by decide +kernel)
      · intro inner hinner
        rw [List.mem_singleton.mp hinner]
        exact .file _ (by decide)

/-- Another manifest is another fingerprint. -/
theorem manifest_separates :
    fingerprintInput ⟨.linux, "x86_64", false, fun _ => none⟩ (smallProject [123, 125]) ≠
      fingerprintInput ⟨.linux, "x86_64", false, fun _ => none⟩ (smallProject []) := by
  intro h
  have hsame := (fingerprint_separates _ (smallProject [123, 125]) (smallProject [])
    (small_project_stored _ (by decide)) (small_project_stored _ (by decide))).1.mp h
  exact absurd ((hsame ([osString "pam.json"], [123, 125])).mp (by decide +kernel))
    (by decide +kernel)

end PamDesktop.Shell.Fingerprint
