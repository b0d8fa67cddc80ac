import PamDesktop.Foundations.Walk
import PamDesktop.Updater.Bundle

/-!
# What a verified bundle contains

`verify_bundle` succeeds exactly when the files that the manifest declares are, record by record,
the regular files of the tree other than the manifest (`verify_bundle_iff`). So under one manifest
a bundle has one possible inventory (`verified_records`).
-/

namespace PamDesktop.Updater

open Foundations Protocol

/-- What a manifest says about a file: its path, length and digest. -/
abbrev FileRecord := List OsString × Nat × String

/-- The record of a file. -/
def recordOf (host : Host) (file : FileAt) : FileRecord :=
  (file.1, file.2.length, host.sha256 file.2)

/-- The file is not the manifest of the bundle. -/
def isContent (file : FileAt) : Bool := file.1 ≠ [osString "manifest.json"]

/-- The regular files of a bundle other than its manifest. -/
def contents (entries : List (OsString × Node)) : List FileAt :=
  (filesBelow entries).filter isContent

/-! ## The walk of the updater -/

/-- Files of a subdirectory, seen from the root. -/
def placed (directory : List OsString) (files : List FileAt) : List FileAt :=
  files.map fun file => (directory ++ file.1, file.2)

theorem placed_append (directory : List OsString) (first second : List FileAt) :
    placed directory (first ++ second) = placed directory first ++ placed directory second := by
  rw [placed, List.map_append]
  rfl

theorem placed_root (files : List FileAt) : placed [] files = files := by
  simp [placed]

theorem placed_under (directory : List OsString) (name : OsString) (node : Node) :
    placed directory (filesUnder (name, node)) = placed (directory ++ [name]) (filesAt node) := by
  rw [filesUnder, placed, placed, List.map_map]
  congr 1
  funext file
  simp

mutual

/-- A successful walk returns the contents of the tree. -/
theorem bundle_files_ok {root : String} : ∀ {directory : List OsString}
    {entries : List (OsString × Node)} {files : List FileAt},
    bundleFiles root directory entries = .ok files →
      files = (placed directory (filesBelow entries)).filter isContent
  | _, [], files, h => by
      rw [bundleFiles] at h
      cases h
      rfl
  | directory, item :: rest, files, h => by
      rw [bundleFiles] at h
      obtain ⟨inside, hinside, h⟩ := except_bind_ok.mp h
      obtain ⟨others, hothers, h⟩ := except_bind_ok.mp h
      cases h
      rw [filesBelow, placed_append, List.filter_append, ← entry_files_ok hinside,
        ← bundle_files_ok hothers]

theorem entry_files_ok {root : String} : ∀ {directory : List OsString} {item : OsString × Node}
    {files : List FileAt}, entryFiles root directory item = .ok files →
      files = (placed directory (filesUnder item)).filter isContent
  | directory, (name, node), files, h => by
      rw [entryFiles] at h
      rw [placed_under]
      exact node_files_ok h

theorem node_files_ok {root : String} : ∀ {directory : List OsString} {name : OsString}
    {node : Node} {files : List FileAt}, nodeFiles root directory name node = .ok files →
      files = (placed (directory ++ [name]) (filesAt node)).filter isContent
  | directory, name, .directory entries, files, h => by
      rw [nodeFiles] at h
      rw [filesAt]
      exact bundle_files_ok h
  | directory, name, .file bytes, files, h => by
      rw [nodeFiles] at h
      have hname : directory ++ [name] = [osString "manifest.json"] ↔
          directory = [] ∧ name = osString "manifest.json" := by
        constructor
        · intro heq
          cases directory with
          | nil => exact ⟨rfl, by simpa using heq⟩
          | cons first rest => simp at heq
        · intro heq
          rw [heq.1, heq.2]
          rfl
      split at h
      · rename_i hmanifest
        cases h
        simp [placed, filesAt, isContent, hname.mpr hmanifest]
      · rename_i hmanifest
        cases h
        simp [placed, filesAt, isContent, mt hname.mp hmanifest]
  | directory, name, .symlink target, files, h => by
      rw [nodeFiles] at h
      cases h
  | directory, name, .special, files, h => by
      rw [nodeFiles] at h
      cases h

end

/-- The walk over a plain tree succeeds. -/
theorem bundle_files_plain {valid : OsString → Prop} {root : String} {node : Node}
    (h : node.Plain valid) : ∀ directory name,
      ∃ files, nodeFiles root directory name node = .ok files := by
  induction h with
  | file bytes =>
      intro directory name
      rw [nodeFiles]
      split
      · exact ⟨_, rfl⟩
      · exact ⟨_, rfl⟩
  | directory entries _ _ _ ih =>
      intro directory name
      rw [nodeFiles]
      have hwalk : ∀ (rest : List (OsString × Node)), (∀ item ∈ rest, item ∈ entries) →
          ∃ files, bundleFiles root (directory ++ [name]) rest = .ok files := by
        intro rest
        induction rest with
        | nil => exact fun _ => ⟨[], by rw [bundleFiles]⟩
        | cons item rest ihrest =>
            intro hmem
            obtain ⟨inside, hinside⟩ :=
              ih item (hmem item List.mem_cons_self) (directory ++ [name]) item.1
            obtain ⟨others, hothers⟩ :=
              ihrest fun other hother => hmem other (List.mem_cons_of_mem _ hother)
            refine ⟨inside ++ others, ?_⟩
            rw [bundleFiles]
            have hentry : entryFiles root (directory ++ [name]) item = .ok inside := by
              obtain ⟨entry, node⟩ := item
              rw [entryFiles]
              exact hinside
            rw [hentry, hothers]
            rfl
      exact hwalk entries fun item hitem => hitem

/-- From the root it returns the contents. -/
theorem bundle_files_contents {valid : OsString → Prop} {root : String}
    {entries : List (OsString × Node)} (h : PlainEntries valid entries) :
    bundleFiles root [] entries = .ok (contents entries) := by
  induction entries with
  | nil => rw [bundleFiles]; rfl
  | cons item rest ih =>
      obtain ⟨name, node⟩ := item
      obtain ⟨inside, hinside⟩ := bundle_files_plain (h.plain (name, node) List.mem_cons_self) [] name
      have hentry : entryFiles root [] (name, node) = .ok inside := by
        rw [entryFiles]
        exact hinside
      have hbelow : bundleFiles root [] ((name, node) :: rest) =
          .ok (inside ++ contents rest) := by
        rw [bundleFiles, hentry, ih h.tail]
        rfl
      have := bundle_files_ok hbelow
      rw [hbelow, this, placed_root]
      rfl

/-! ## The declared files -/

/-- What is declared, after the paths have been read. -/
theorem declared_files_ok {host : Host} {expected result : List FileRecord}
    {files : List InstalledBundleFile} (h : declaredFiles host expected files = .ok result)
    (hnodup : (expected.map Prod.fst).Nodup) :
    (result.map Prod.fst).Nodup ∧
      ∀ entry, entry ∈ result ↔ entry ∈ expected ∨ ∃ file ∈ files,
        validateRelativePath host file.path "bundle file" = .ok entry.1 ∧
          entry.2 = (file.bytes, file.sha256) := by
  induction files generalizing expected with
  | nil =>
      rw [declaredFiles] at h
      cases h
      exact ⟨hnodup, by simp⟩
  | cons file rest ih =>
      rw [declaredFiles] at h
      obtain ⟨relative, hrelative, h⟩ := except_bind_ok.mp h
      split at h
      · cases h
      · rename_i hfresh
        have hfresh : relative ∉ expected.map Prod.fst := by simpa using hfresh
        obtain ⟨hresult, hentries⟩ := ih h (List.nodup_cons.mpr ⟨hfresh, hnodup⟩)
        refine ⟨hresult, ?_⟩
        intro entry
        rw [hentries, List.mem_cons]
        constructor
        · intro hentry
          rcases hentry with (rfl | hentry) | ⟨other, hother, hpath⟩
          · exact .inr ⟨file, List.mem_cons_self, hrelative, rfl⟩
          · exact .inl hentry
          · exact .inr ⟨other, List.mem_cons_of_mem _ hother, hpath⟩
        · intro hentry
          rcases hentry with hentry | ⟨other, hother, hpath, hrecord⟩
          · exact .inl (.inr hentry)
          · rcases List.mem_cons.mp hother with rfl | hother
            · rw [hrelative] at hpath
              cases hpath
              exact .inl (.inl (by rw [← hrecord]))
            · exact .inr ⟨other, hother, hpath, hrecord⟩

/-- Files whose paths are valid and different can be declared. -/
theorem declared_files_distinct {host : Host} (path : InstalledBundleFile → List OsString)
    {expected : List FileRecord} {files : List InstalledBundleFile}
    (hpaths : ∀ file ∈ files, validateRelativePath host file.path "bundle file" = .ok (path file))
    (hnodup : (files.map path).Nodup)
    (hfresh : ∀ file ∈ files, path file ∉ expected.map Prod.fst) :
    ∃ result, declaredFiles host expected files = .ok result := by
  induction files generalizing expected with
  | nil => exact ⟨expected, by rw [declaredFiles]⟩
  | cons file rest ih =>
      rw [List.map_cons, List.nodup_cons] at hnodup
      have hfile := hfresh file List.mem_cons_self
      rw [declaredFiles, hpaths file List.mem_cons_self]
      show ∃ result, (if (expected.map Prod.fst).contains (path file) then _ else _) = _
      rw [if_neg (by simpa using hfile)]
      apply ih (fun other hother => hpaths other (List.mem_cons_of_mem _ hother)) hnodup.2
      intro other hother hmem
      rcases List.mem_cons.mp hmem with heq | hmem
      · have hpath : path other = path file := heq
        exact hnodup.1 (hpath ▸ List.mem_map_of_mem hother)
      · exact hfresh other (List.mem_cons_of_mem _ hother) hmem

/-! ## The comparison -/

section Lookup

variable {α β : Type} [BEq α] [LawfulBEq α]

/-- With distinct keys an entry is found under its key. -/
theorem lookup_of_mem {entries : List (α × β)} (hnodup : (entries.map Prod.fst).Nodup) {key : α}
    {value : β} (h : (key, value) ∈ entries) : entries.lookup key = some value := by
  induction entries with
  | nil => cases h
  | cons entry rest ih =>
      obtain ⟨first, content⟩ := entry
      rw [List.map_cons, List.nodup_cons] at hnodup
      rw [List.lookup_cons]
      rcases List.mem_cons.mp h with heq | h
      · cases heq
        simp
      · have hne : (key == first) = false := by
          apply Bool.eq_false_iff.mpr
          intro heq
          rw [eq_of_beq heq] at h
          exact hnodup.1 (List.mem_map.mpr ⟨_, h, rfl⟩)
        rw [hne]
        exact ih hnodup.2 h

/-- Removing other entries does not change what is found. -/
theorem lookup_filter {entries : List (α × β)} {keep : α × β → Bool} {key : α}
    (hkeep : ∀ value, keep (key, value) = true) :
    (entries.filter keep).lookup key = entries.lookup key := by
  induction entries with
  | nil => rfl
  | cons entry rest ih =>
      obtain ⟨first, content⟩ := entry
      by_cases heq : (key == first) = true
      · obtain rfl := eq_of_beq heq
        rw [List.filter_cons_of_pos (hkeep content), List.lookup_cons, List.lookup_cons, heq]
      · have heq : (key == first) = false := by simpa using heq
        rw [List.lookup_cons, heq, ← ih]
        cases hfirst : keep (first, content) with
        | true => rw [List.filter_cons_of_pos hfirst, List.lookup_cons, heq]
        | false => rw [List.filter_cons_of_neg (by simp [hfirst])]

end Lookup

/-- The comparison succeeds when every file has its record, and what is left is what no file
accounts for. -/
theorem match_files_ok {host : Host} {root : String} {expected missing : List FileRecord}
    {actual : List FileAt} (hnodup : (actual.map Prod.fst).Nodup) :
    matchFiles host root expected actual = .ok missing ↔
      (∀ file ∈ actual, expected.lookup file.1 = some (file.2.length, host.sha256 file.2)) ∧
        missing = expected.filter fun entry => entry.1 ∉ actual.map Prod.fst := by
  induction actual generalizing expected with
  | nil =>
      rw [matchFiles]
      simp [eq_comm]
  | cons file rest ih =>
      obtain ⟨relative, bytes⟩ := file
      rw [List.map_cons, List.nodup_cons] at hnodup
      have hothers : ∀ file ∈ rest, (expected.filter fun item => item.1 ≠ relative).lookup file.1 =
          expected.lookup file.1 := by
        intro file hfile
        apply lookup_filter
        intro value
        have hne : file.1 ≠ relative := by
          rintro rfl
          exact hnodup.1 (List.mem_map.mpr ⟨file, hfile, rfl⟩)
        simpa using hne
      have hfilter : (expected.filter fun item => item.1 ≠ relative).filter
            (fun entry => entry.1 ∉ rest.map Prod.fst) =
          expected.filter fun entry => entry.1 ∉ ((relative, bytes) :: rest).map Prod.fst := by
        rw [List.filter_filter]
        congr 1
        funext entry
        rw [← Bool.decide_and]
        simp only [List.map_cons, List.mem_cons, not_or]
        exact decide_eq_decide.mpr and_comm
      rw [matchFiles]
      constructor
      · intro h
        cases hlookup : expected.lookup relative with
        | none => simp [hlookup] at h
        | some declared =>
            obtain ⟨length, sha256⟩ := declared
            simp only [hlookup, verifyFileHash] at h
            by_cases hlength : bytes.length = length
            · by_cases hsha : host.sha256 bytes = sha256
              · simp only [hlength, hsha, ne_eq, not_true_eq_false, ite_false] at h
                have hrest := (ih hnodup.2).mp h
                refine ⟨?_, hrest.2.trans hfilter⟩
                intro file hfile
                rcases List.mem_cons.mp hfile with rfl | hfile
                · rw [hlookup, hlength, hsha]
                · rw [← hothers file hfile]
                  exact hrest.1 file hfile
              · simp [hlength, hsha, bind, Except.bind] at h
            · simp [hlength, bind, Except.bind] at h
      · intro h
        obtain ⟨hrecords, hmissing⟩ := h
        rw [hrecords (relative, bytes) List.mem_cons_self]
        simp only [verifyFileHash, ne_eq, not_true_eq_false, ite_false]
        refine (ih hnodup.2).mpr ⟨?_, hmissing.trans hfilter.symm⟩
        intro file hfile
        rw [hothers file hfile]
        exact hrecords file (List.mem_cons_of_mem _ hfile)

/-! ## Verification -/

/-- Records of files with distinct paths are distinct. -/
theorem records_nodup {host : Host} {files : List FileAt} (h : (files.map Prod.fst).Nodup) :
    ((files.map (recordOf host)).map Prod.fst).Nodup := by
  rw [List.map_map]
  exact h

/-- The paths of the contents are distinct. -/
theorem contents_nodup {entries : List (OsString × Node)}
    (h : (Node.directory entries).Distinct) : ((contents entries).map Prod.fst).Nodup := by
  have hfiles : ((filesBelow entries).map Prod.fst).Nodup := by
    have := files_at_nodup h
    rwa [filesAt] at this
  exact hfiles.sublist (List.filter_sublist.map Prod.fst)

/-- All files match and nothing is missing exactly when the records agree. -/
theorem match_files_complete {host : Host} {root : String} {expected : List FileRecord}
    {actual : List FileAt} (hexpected : (expected.map Prod.fst).Nodup)
    (hactual : (actual.map Prod.fst).Nodup) :
    matchFiles host root expected actual = .ok [] ↔
      expected.Perm (actual.map (recordOf host)) := by
  rw [match_files_ok hactual]
  constructor
  · intro h
    obtain ⟨hrecords, hmissing⟩ := h
    refine (List.perm_ext_iff_of_nodup hexpected.of_map (records_nodup hactual).of_map).mpr ?_
    intro entry
    constructor
    · intro hentry
      have hcovered : entry.1 ∈ actual.map Prod.fst := by
        by_contra hnot
        have hleft : entry ∈ expected.filter fun entry => entry.1 ∉ actual.map Prod.fst :=
          List.mem_filter.mpr ⟨hentry, by simpa using hnot⟩
        rw [← hmissing] at hleft
        cases hleft
      obtain ⟨file, hfile, hpath⟩ := List.mem_map.mp hcovered
      have hrecord := hrecords file hfile
      rw [hpath, lookup_of_mem hexpected (show (entry.1, entry.2) ∈ expected from hentry)] at hrecord
      refine List.mem_map.mpr ⟨file, hfile, ?_⟩
      rw [recordOf, hpath, ← Option.some.inj hrecord]
    · intro hentry
      obtain ⟨file, hfile, rfl⟩ := List.mem_map.mp hentry
      obtain ⟨before, after, hsplit, -⟩ := List.lookup_eq_some_iff.mp (hrecords file hfile)
      rw [hsplit]
      exact List.mem_append_right _ List.mem_cons_self
  · intro hperm
    constructor
    · intro file hfile
      have hmem : (file.1, file.2.length, host.sha256 file.2) ∈ expected :=
        hperm.symm.subset (List.mem_map_of_mem hfile)
      exact lookup_of_mem hexpected hmem
    · symm
      rw [List.filter_eq_nil_iff]
      intro entry hentry
      obtain ⟨file, hfile, rfl⟩ := List.mem_map.mp (hperm.subset hentry)
      have hcovered : (recordOf host file).1 ∈ actual.map Prod.fst := List.mem_map_of_mem hfile
      simpa using hcovered

/-- A directory is verified exactly when its manifest declares the records of its contents. -/
theorem verify_bundle_iff {host : Host} {root : String} {entries : List (OsString × Node)}
    (hdistinct : (Node.directory entries).Distinct) :
    verifyBundle host root (some (.directory entries)) = .ok () ↔
      ∃ manifest expected, readBundleManifest host (some (.directory entries)) = .ok manifest ∧
        declaredFiles host [] manifest.files = .ok expected ∧
        bundleFiles root [] entries = .ok (contents entries) ∧
        expected.Perm ((contents entries).map (recordOf host)) := by
  have hcontents := contents_nodup hdistinct
  constructor
  · intro h
    unfold verifyBundle at h
    obtain ⟨manifest, hmanifest, h⟩ := except_bind_ok.mp h
    obtain ⟨expected, hexpected, h⟩ := except_bind_ok.mp h
    obtain ⟨actual, hactual, h⟩ := except_bind_ok.mp h
    have hactual : bundleFiles root [] entries = .ok actual := hactual
    obtain rfl : actual = contents entries := by
      rw [bundle_files_ok hactual, placed_root]
      rfl
    obtain ⟨hkeys, -⟩ := declared_files_ok hexpected List.nodup_nil
    refine ⟨manifest, expected, hmanifest, hexpected, hactual, ?_⟩
    by_cases hcount : (contents entries).length = expected.length
    · simp only [hcount, ne_eq, not_true_eq_false, ite_false] at h
      obtain ⟨missing, hmatch, h⟩ := except_bind_ok.mp h
      by_cases hmissing : missing = []
      · rw [hmissing] at hmatch
        exact (match_files_complete hkeys hcontents).mp hmatch
      · simp [hmissing] at h
    · simp [hcount, bind, Except.bind] at h
  · intro h
    obtain ⟨manifest, expected, hmanifest, hexpected, hactual, hperm⟩ := h
    obtain ⟨hkeys, -⟩ := declared_files_ok hexpected List.nodup_nil
    have hcount : (contents entries).length = expected.length := by
      rw [hperm.length_eq, List.length_map]
    unfold verifyBundle
    refine except_bind_ok.mpr ⟨manifest, hmanifest, ?_⟩
    refine except_bind_ok.mpr ⟨expected, hexpected, ?_⟩
    refine except_bind_ok.mpr ⟨contents entries, hactual, ?_⟩
    simp only [hcount, ne_eq, not_true_eq_false, ite_false]
    rw [(match_files_complete hkeys hcontents).mpr hperm]
    rfl

/-- Two verified trees with one manifest declare the same records. -/
theorem verified_records {host : Host} {root root' : String}
    {entries entries' : List (OsString × Node)} (hdistinct : (Node.directory entries).Distinct)
    (hdistinct' : (Node.directory entries').Distinct)
    (hmanifest : child (osString "manifest.json") (some (.directory entries)) =
      child (osString "manifest.json") (some (.directory entries')))
    (h : verifyBundle host root (some (.directory entries)) = .ok ())
    (h' : verifyBundle host root' (some (.directory entries')) = .ok ()) :
    ((contents entries).map (recordOf host)).Perm ((contents entries').map (recordOf host)) := by
  obtain ⟨manifest, expected, hread, hexpected, -, hperm⟩ := (verify_bundle_iff hdistinct).mp h
  obtain ⟨manifest', expected', hread', hexpected', -, hperm'⟩ :=
    (verify_bundle_iff hdistinct').mp h'
  have hsame : readBundleManifest host (some (.directory entries)) =
      readBundleManifest host (some (.directory entries')) := by
    unfold readBundleManifest
    rw [hmanifest]
  rw [hsame, hread'] at hread
  cases hread
  rw [hexpected'] at hexpected
  cases hexpected
  exact hperm.symm.trans hperm'

end PamDesktop.Updater
