import PamDesktop.Foundations.FileTree

/-!
# Paths as texts

A relative path written with a separator and read back has the same components, as long as no
component could be read as something else (`normal_components_join`). Replacing one ASCII
character of a text by another replaces one byte of its bytes.
-/

namespace Foundations

/-- `str::replace` of a character by another. -/
def replaceChar (old new : Char) (value : String) : String :=
  String.ofList (value.toList.map fun c => if c = old then new else c)

/-- The components of a path with a separator between them. -/
def joinNames (separator : UInt8) (names : List OsString) : OsString :=
  List.intercalate [separator] names

/-- Texts with the same bytes are the same. -/
theorem os_string_injective {first second : String} (h : osString first = osString second) :
    first = second := by
  have hread := from_utf8_os_string first
  rw [h, from_utf8_os_string] at hread
  exact (Option.some.inj hread).symm

/-- The bytes of an ASCII character. -/
theorem utf8_encode_ascii {c : Char} (h : c.toNat < 128) :
    String.utf8EncodeChar c = [UInt8.ofNat c.toNat] := by
  have hle : c.val.toNat ≤ 127 := Nat.le_of_lt_succ h
  simp only [String.utf8EncodeChar, if_pos hle]
  rfl

/-- The bytes of every other character are not ASCII. -/
theorem utf8_encode_high {c : Char} (h : 128 ≤ c.toNat) :
    ∀ byte ∈ String.utf8EncodeChar c, 128 ≤ byte.toNat := by
  have hnot : ¬ c.val.toNat ≤ 127 := Nat.not_le.mpr h
  intro byte hbyte
  simp only [String.utf8EncodeChar, if_neg hnot] at hbyte
  split at hbyte
  · simp only [List.mem_cons, List.not_mem_nil, or_false] at hbyte
    rcases hbyte with rfl | rfl <;> rw [UInt8.toNat_ofNat'] <;> omega
  · split at hbyte
    · simp only [List.mem_cons, List.not_mem_nil, or_false] at hbyte
      rcases hbyte with rfl | rfl | rfl <;> rw [UInt8.toNat_ofNat'] <;> omega
    · simp only [List.mem_cons, List.not_mem_nil, or_false] at hbyte
      rcases hbyte with rfl | rfl | rfl | rfl <;> rw [UInt8.toNat_ofNat'] <;> omega

/-- A character has no byte of another character that is ASCII. -/
theorem utf8_encode_avoids {c old : Char} (hold : old.toNat < 128) (hne : c ≠ old) :
    ∀ byte ∈ String.utf8EncodeChar c, byte ≠ UInt8.ofNat old.toNat := by
  intro byte hbyte heq
  have hnat : byte.toNat = old.toNat := by
    rw [heq, UInt8.toNat_ofNat']
    omega
  by_cases hascii : c.toNat < 128
  · rw [utf8_encode_ascii hascii, List.mem_singleton] at hbyte
    rw [hbyte, UInt8.toNat_ofNat'] at hnat
    exact hne (Char.ext (UInt32.toNat_inj.mp (by show c.toNat = old.toNat; omega)))
  · have hhigh := utf8_encode_high (Nat.not_lt.mp hascii) byte hbyte
    omega

/-- A part without the separator goes to the first piece. -/
theorem split_append {α : Type} [DecidableEq α] {separator : α} {front : List α}
    (hfront : separator ∉ front) (rest : List α) :
    (front ++ rest).splitOn separator = (rest.splitOn separator).modifyHead (front ++ ·) := by
  induction front with
  | nil =>
      rw [List.nil_append]
      cases rest.splitOn separator <;> rfl
  | cons first front ih =>
      rw [List.mem_cons, not_or] at hfront
      rw [List.cons_append, List.splitOn_cons_eq_if_modifyHead,
        if_neg (by simpa using Ne.symm hfront.1), ih hfront.2]
      cases rest.splitOn separator <;> rfl

/-- The bytes of a text are cut at an ASCII character where the text is. -/
theorem encode_split {separator : Char} (h : separator.toNat < 128) (text : List Char) :
    (text.flatMap String.utf8EncodeChar).splitOn (UInt8.ofNat separator.toNat) =
      (text.splitOn separator).map (·.flatMap String.utf8EncodeChar) := by
  induction text with
  | nil => rfl
  | cons c rest ih =>
      rw [List.flatMap_cons, List.splitOn_cons_eq_if_modifyHead]
      by_cases hc : c = separator
      · rw [hc, utf8_encode_ascii h, List.singleton_append, List.splitOn_cons_eq_if_modifyHead,
          if_pos (by simp), if_pos (by simp), ih]
        rfl
      · rw [split_append (fun hmem => utf8_encode_avoids h hc _ hmem rfl), ih,
          if_neg (by simpa using hc)]
        cases rest.splitOn separator with
        | nil => rfl
        | cons piece pieces => rfl

/-- Replacing an ASCII character replaces its byte. -/
theorem os_string_replace_char {old new : Char} (hold : old.toNat < 128) (hnew : new.toNat < 128)
    (value : String) :
    osString (replaceChar old new value) = (osString value).map fun byte =>
      if byte = UInt8.ofNat old.toNat then UInt8.ofNat new.toNat else byte := by
  have hvalue : osString value = value.toList.flatMap String.utf8EncodeChar := by
    rw [← os_string_of_list, String.ofList_toList]
  rw [hvalue, replaceChar, os_string_of_list]
  induction value.toList with
  | nil => rfl
  | cons c rest ih =>
      rw [List.map_cons, List.flatMap_cons, List.flatMap_cons, List.map_append, ih]
      congr 1
      by_cases hc : c = old
      · rw [if_pos hc, hc, utf8_encode_ascii hold, utf8_encode_ascii hnew]
        simp
      · rw [if_neg hc]
        have hkeep : ∀ byte ∈ String.utf8EncodeChar c,
            (if byte = UInt8.ofNat old.toNat then UInt8.ofNat new.toNat else byte) = byte :=
          fun byte hbyte => if_neg (utf8_encode_avoids hold hc byte hbyte)
        rw [List.map_congr_left hkeep, List.map_id']

/-- Joining two names or more. -/
theorem join_names_cons (separator : UInt8) (first second : OsString) (rest : List OsString) :
    joinNames separator (first :: second :: rest) =
      first ++ separator :: joinNames separator (second :: rest) := by
  rw [joinNames, List.intercalate_cons_cons, List.append_assoc]
  rfl

/-- Another separator, byte by byte. -/
theorem join_names_map {f : UInt8 → UInt8} (separator : UInt8) {names : List OsString}
    (hnames : ∀ name ∈ names, ∀ byte ∈ name, f byte = byte) :
    (joinNames separator names).map f = joinNames (f separator) names := by
  have hname : ∀ {name : OsString}, (∀ byte ∈ name, f byte = byte) → name.map f = name := by
    intro name h
    rw [List.map_congr_left h, List.map_id']
  induction names with
  | nil => rfl
  | cons first rest ih =>
      cases rest with
      | nil =>
          simp only [joinNames, List.intercalate_singleton]
          exact hname (hnames first List.mem_cons_self)
      | cons second rest =>
          rw [join_names_cons, join_names_cons, List.map_append, List.map_cons,
            hname (hnames first List.mem_cons_self),
            ih fun name hmem => hnames name (List.mem_cons_of_mem _ hmem)]

/-- Splitting what was joined. -/
theorem split_join_names {isSeparator : UInt8 → Bool} {separator : UInt8}
    (hseparator : isSeparator separator = true) {names : List OsString} (hne : names ≠ [])
    (hnames : ∀ name ∈ names, ∀ byte ∈ name, isSeparator byte = false) :
    (joinNames separator names).splitOnP isSeparator = names := by
  induction names with
  | nil => exact absurd rfl hne
  | cons first rest ih =>
      have hfirst := hnames first List.mem_cons_self
      cases rest with
      | nil =>
          rw [joinNames, List.intercalate_singleton]
          exact List.splitOnP_eq_singleton hfirst
      | cons second rest =>
          rw [join_names_cons, List.splitOnP_append_cons_of_forall_mem hfirst _ hseparator,
            ih (by simp) fun name hmem => hnames name (List.mem_cons_of_mem _ hmem)]

/-- A name that `Path::components` takes for what it is. -/
structure NormalName (isSeparator : UInt8 → Bool) (drives : Bool) (name : OsString) : Prop where
  nonempty : name ≠ []
  not_current : name ≠ [46]
  not_parent : name ≠ [46, 46]
  plain : ∀ byte ∈ name, isSeparator byte = false
  not_drive : drives = true → (58 : UInt8) ∉ name

/-- A path of normal names has these names for components. -/
theorem normal_components_join {isSeparator : UInt8 → Bool} {drives : Bool} {separator : UInt8}
    (hseparator : isSeparator separator = true) (hcolon : separator ≠ 58)
    {names : List OsString} (hne : names ≠ [])
    (hnames : ∀ name ∈ names, NormalName isSeparator drives name) :
    normalComponents isSeparator drives (joinNames separator names) = some names := by
  have hsplit := split_join_names hseparator hne fun name hname => (hnames name hname).plain
  obtain ⟨first, rest, rfl⟩ := List.exists_cons_of_ne_nil hne
  have hfirst := hnames first List.mem_cons_self
  have hdrive : (drives && hasDrive (joinNames separator (first :: rest))) = false := by
    cases hdrives : drives with
    | false => rfl
    | true =>
        have hcolons := hfirst.not_drive hdrives
        obtain ⟨byte, bytes, hbytes⟩ := List.exists_cons_of_ne_nil hfirst.nonempty
        have hhead : (joinNames separator (first :: rest)).tail.head? ≠ some 58 := by
          rw [hbytes] at hcolons ⊢
          cases rest with
          | nil =>
              rw [joinNames, List.intercalate_singleton, List.tail_cons]
              intro h
              exact hcolons (List.mem_cons_of_mem _ (List.mem_of_mem_head? h))
          | cons second rest =>
              rw [join_names_cons, List.cons_append, List.tail_cons]
              intro h
              cases bytes with
              | nil =>
                  simp only [List.nil_append, List.head?_cons, Option.some.injEq] at h
                  exact hcolon h
              | cons next more =>
                  simp only [List.cons_append, List.head?_cons, Option.some.injEq] at h
                  exact hcolons (by rw [h]; simp)
        rw [Bool.true_and, hasDrive, Bool.and_eq_false_iff]
        exact .inr (beq_eq_false_iff_ne.mpr hhead)
  have hparent : [46, 46] ∉ first :: rest := fun h => (hnames _ h).not_parent rfl
  have hkeep : (first :: rest).filter (fun segment => segment ≠ [] ∧ segment ≠ [46]) =
      first :: rest := by
    rw [List.filter_eq_self]
    intro name hname
    exact decide_eq_true ⟨(hnames name hname).nonempty, (hnames name hname).not_current⟩
  simp only [normalComponents, hsplit, hdrive]
  rw [if_neg, hkeep]
  intro h
  simp only [List.head?_cons, Option.some.injEq, hfirst.nonempty, hfirst.not_current,
    Bool.false_eq_true, hparent, or_self] at h

/-- The components of a path are made of its bytes. -/
theorem normal_components_bytes {isSeparator : UInt8 → Bool} {drives : Bool} {path : OsString}
    {names : List OsString} (h : normalComponents isSeparator drives path = some names) :
    ∀ name ∈ names, ∀ byte ∈ name, byte ∈ path := by
  have hsplit : ∀ (path : OsString), ∀ name ∈ path.splitOnP isSeparator, ∀ byte ∈ name,
      byte ∈ path := by
    intro path
    induction path with
    | nil =>
        intro name hname byte hbyte
        simp only [List.splitOnP_nil, List.mem_singleton] at hname
        rw [hname] at hbyte
        cases hbyte
    | cons head path ih =>
        intro name hname byte hbyte
        rw [List.splitOnP_cons_eq_if_modifyHead] at hname
        split at hname
        · rcases List.mem_cons.mp hname with rfl | hname
          · cases hbyte
          · exact List.mem_cons_of_mem _ (ih name hname byte hbyte)
        · cases hrest : path.splitOnP isSeparator with
          | nil => simp [hrest] at hname
          | cons first others =>
              rw [hrest, List.modifyHead_cons] at hname
              rw [hrest] at ih
              rcases List.mem_cons.mp hname with rfl | hname
              · rcases List.mem_cons.mp hbyte with rfl | hbyte
                · exact List.mem_cons_self
                · exact List.mem_cons_of_mem _ (ih first List.mem_cons_self byte hbyte)
              · exact List.mem_cons_of_mem _
                  (ih name (List.mem_cons_of_mem _ hname) byte hbyte)
  simp only [normalComponents] at h
  split at h
  · cases h
  · cases h
    intro name hname byte hbyte
    exact hsplit path name (List.mem_filter.mp hname).1 byte hbyte

/-- Where a segment stands: from the beginning or behind a separator, up to a separator or the
end. -/
theorem segment_place {isSeparator : UInt8 → Bool} {path segment : List UInt8}
    (h : segment ∈ path.splitOnP isSeparator) : ∃ front back, path = front ++ segment ++ back ∧
      (front = [] ∨ ∃ before slash, isSeparator slash = true ∧ front = before ++ [slash]) ∧
      (back = [] ∨ ∃ slash after, isSeparator slash = true ∧ back = slash :: after) := by
  induction hlength : path.length using Nat.strongRecOn generalizing path with
  | ind length ih =>
      have hplain : ∀ b ∈ path.takeWhile (!isSeparator ·), isSeparator b = false := by
        intro b hb
        simpa using List.all_eq_true.mp List.all_takeWhile b hb
      have hpath := List.takeWhile_append_dropWhile (p := (!isSeparator ·)) (l := path)
      cases hdrop : path.dropWhile (!isSeparator ·) with
      | nil =>
          rw [hdrop, List.append_nil] at hpath
          rw [← hpath, List.splitOnP_eq_singleton hplain, List.mem_singleton] at h
          exact ⟨[], [], by rw [h, hpath]; simp, .inl rfl, .inl rfl⟩
      | cons slash rest =>
          have hslash : isSeparator slash = true := by
            have hhead := List.head?_dropWhile_not (!isSeparator ·) path
            rw [hdrop] at hhead
            simpa using hhead
          rw [hdrop] at hpath
          rw [← hpath, List.splitOnP_append_cons_of_forall_mem hplain _ hslash] at h
          obtain rfl | h := List.mem_cons.mp h
          · exact ⟨[], slash :: rest, by rw [List.nil_append, hpath], .inl rfl,
              .inr ⟨slash, rest, hslash, rfl⟩⟩
          · have hshort : rest.length < length := by
              rw [← hlength, ← hpath, List.length_append, List.length_cons]
              omega
            obtain ⟨front, back, hrest, hfront, hback⟩ := ih rest.length hshort h rfl
            refine ⟨path.takeWhile (!isSeparator ·) ++ slash :: front, back, ?_, .inr ?_, hback⟩
            · conv_lhs => rw [← hpath, hrest]
              simp
            · obtain rfl | ⟨before, last, hlast, rfl⟩ := hfront
              · exact ⟨_, slash, hslash, rfl⟩
              · exact ⟨path.takeWhile (!isSeparator ·) ++ slash :: before, last, hlast, by simp⟩

/-- The components of separators are empty. -/
theorem split_separators {isSeparator : UInt8 → Bool} {tail : List UInt8}
    (h : ∀ b ∈ tail, isSeparator b = true) :
    ∀ segment ∈ tail.splitOnP isSeparator, segment = [] := by
  induction tail with
  | nil => simp [List.splitOnP_nil]
  | cons b rest ih =>
      obtain ⟨hb, hrest⟩ := List.forall_mem_cons.mp h
      rw [List.splitOnP_cons_eq_if_modifyHead, if_pos hb]
      exact List.forall_mem_cons.mpr ⟨rfl, ih hrest⟩

end Foundations
