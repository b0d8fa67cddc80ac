import PamDesktop.Foundations.SemanticVersion
import PamDesktop.Protocol.Bootstrap

/-!
# Accepted texts

The characters of the texts that the checks of a manifest and of a quick action accept. No such
text has a line break, and an application identifier is a word of a small alphabet.
-/

namespace PamDesktop.Protocol

open Foundations

/-! ## Texts -/

/-- The texts that the host prints: not blank and without control characters. -/
def Printable (text : String) : Prop :=
  (∃ c ∈ text.toList, isWhitespace c = false) ∧ ∀ c ∈ text.toList, isControl c = false

theorem validate_text_iff {value label : String} {maximumBytes : Nat} :
    validateText value label maximumBytes false = .ok () ↔
      Printable value ∧ value.utf8ByteSize ≤ maximumBytes := by
  have hbreak : ∀ c : Char, (isControl c || c == '\n' || c == '\r') = isControl c := by
    intro c
    by_cases hfeed : c = '\n'
    · rw [hfeed]
      rfl
    · by_cases hreturn : c = '\r'
      · rw [hreturn]
        rfl
      · rw [beq_eq_false_iff_ne.mpr hfeed, beq_eq_false_iff_ne.mpr hreturn, Bool.or_false,
          Bool.or_false]
  unfold validateText Printable
  simp only [hbreak]
  split
  · rename_i h
    refine iff_of_false nofun fun hok => ?_
    simp only [Bool.not_false, Bool.true_and, Bool.or_eq_true, List.all_eq_true,
      decide_eq_true_iff, List.any_eq_true] at h
    obtain ⟨⟨⟨c, hc, hblank⟩, hcontrol⟩, hsize⟩ := hok
    obtain (h | h) | ⟨d, hd, h⟩ := h
    · exact absurd (h c hc) (by rw [hblank]; exact Bool.false_ne_true)
    · omega
    · exact absurd h (by rw [hcontrol d hd]; exact Bool.false_ne_true)
  · rename_i h
    simp only [Bool.not_false, Bool.true_and, Bool.or_eq_true, List.all_eq_true,
      decide_eq_true_iff, List.any_eq_true, not_or, not_forall, not_exists, not_and,
      Bool.not_eq_true] at h
    obtain ⟨⟨⟨c, hc, hblank⟩, hsize⟩, hcontrol⟩ := h
    exact iff_of_true rfl ⟨⟨⟨c, hc, hblank⟩, hcontrol⟩, by omega⟩

/-- An accepted text has no control characters. -/
theorem validate_text_ok {value label : String} {maximumBytes : Nat} {allowEmpty : Bool}
    (h : validateText value label maximumBytes allowEmpty = .ok ()) : '\n' ∉ value.toList := by
  unfold validateText at h
  split at h
  · cases h
  · rename_i hvalid
    intro hmem
    refine hvalid (Bool.or_eq_true_iff.mpr (.inr (List.any_eq_true.mpr ⟨'\n', hmem, ?_⟩)))
    decide

/-- A letter, a digit, a dot, an underscore or a dash. -/
def isIdentifierCharacter (c : Char) : Bool :=
  isAsciiAlphanumeric c || ['.', '_', '-'].contains c

/-- The characters of an accepted identifier. -/
theorem validate_identifier_ok {value label : String}
    (h : validateIdentifier value label = .ok ()) :
    ∀ c ∈ value.toList, isIdentifierCharacter c = true := by
  unfold validateIdentifier at h
  split at h
  · cases h
  · rename_i first rest hvalue
    split at h
    · cases h
    · rename_i hvalid
      simp only [Bool.or_eq_true, not_or, Bool.not_eq_true', Bool.not_eq_false] at hvalid
      obtain ⟨⟨hfirst, -⟩, hrest⟩ := hvalid
      intro c hc
      rw [hvalue] at hc
      obtain rfl | hc := List.mem_cons.mp hc
      · unfold isIdentifierCharacter isAsciiAlphanumeric
        rw [hfirst]
        rfl
      · exact List.all_eq_true.mp hrest c hc

/-- A lowercase letter, a digit, a dash or a dot. -/
def isReverseDnsCharacter (c : Char) : Bool :=
  isAsciiLowercase c || isAsciiDigit c || c == '-' || c == '.'

theorem validate_segments_ok {segments : List (List Char)}
    (h : segments.forM validateIdentifierSegment = .ok ()) :
    ∀ segment ∈ segments, ∀ c ∈ segment, isReverseDnsCharacter c = true := by
  induction segments with
  | nil => nofun
  | cons segment rest ih =>
      obtain ⟨⟨⟩, hsegment, hrest⟩ := except_bind_ok.mp h
      intro other hother c hc
      obtain rfl | hother := List.mem_cons.mp hother
      · unfold validateIdentifierSegment at hsegment
        split at hsegment
        · cases hsegment
        · split at hsegment
          · cases hsegment
          · rename_i first tail hvalid
            simp only [Bool.or_eq_true, not_or, Bool.not_eq_true', Bool.not_eq_false] at hvalid
            unfold isReverseDnsCharacter
            obtain rfl | hc := List.mem_cons.mp hc
            · rw [hvalid.1]
              rfl
            · rw [List.all_eq_true.mp hvalid.2 c hc]
              rfl
      · exact ih hrest other hother c hc

/-- No accepted segment is empty. -/
theorem validate_segments_nonempty {segments : List (List Char)}
    (h : segments.forM validateIdentifierSegment = .ok ()) : [] ∉ segments := by
  induction segments with
  | nil => exact List.not_mem_nil
  | cons segment rest ih =>
      obtain ⟨⟨⟩, hsegment, hrest⟩ := except_bind_ok.mp h
      intro hmem
      obtain rfl | hmem := List.mem_cons.mp hmem
      · cases hsegment
      · exact ih hrest hmem

/-- The characters of an accepted application identifier. -/
theorem validate_application_identifier_ok {value : String}
    (h : validateApplicationIdentifier value = .ok ()) :
    ∀ c ∈ value.toList, isReverseDnsCharacter c = true := by
  unfold validateApplicationIdentifier at h
  dsimp only at h
  split at h
  · cases h
  · intro c hc
    have hpieces : ['.'].intercalate (value.toList.splitOn '.') = value.toList :=
      List.intercalate_splitOn '.'
    rw [← hpieces] at hc
    obtain rfl | ⟨segment, hsegment, hc⟩ := mem_intercalate hc
    · decide
    · exact validate_segments_ok h segment hsegment c hc

/-! ## Lifecycles -/

theorem validate_schemes_ok {seen schemes : List String}
    (h : validateSchemes seen schemes = .ok ()) :
    ∀ scheme ∈ schemes, validUrlScheme scheme = true := by
  induction schemes generalizing seen with
  | nil => nofun
  | cons scheme rest ih =>
      unfold validateSchemes at h
      split at h
      · cases h
      · rename_i hvalid
        simp only [Bool.or_eq_true, not_or, Bool.not_eq_true', Bool.not_eq_false] at hvalid
        intro other hother
        obtain rfl | hother := List.mem_cons.mp hother
        · exact hvalid.1
        · exact ih h other hother

/-- A character of a MIME type: a lowercase letter, a digit, a slash or one of a few others. -/
def isMimeCharacter (c : Char) : Bool :=
  isAsciiLowercase c || isAsciiDigit c ||
    ['!', '#', '$', '&', '^', '_', '.', '+', '-', '/'].contains c

/-- The characters of a MIME type without those of a list. -/
theorem mime_character {others : List Char} (hothers : ∀ c ∈ others, isMimeCharacter c = true)
    {c : Char} (h : (isAsciiLowercase c || isAsciiDigit c || others.contains c) = true) :
    isMimeCharacter c = true := by
  rw [Bool.or_eq_true] at h
  obtain h | h := h
  · unfold isMimeCharacter
    rw [h]
    rfl
  · exact hothers c (List.contains_iff_mem.mp h)

theorem url_scheme_characters {scheme : String} (h : validUrlScheme scheme = true) :
    ∀ c ∈ scheme.toList, isMimeCharacter c = true := by
  unfold validUrlScheme at h
  obtain ⟨-, h⟩ := Bool.and_eq_true_iff.mp h
  split at h
  · rename_i hscheme
    rw [hscheme]
    nofun
  · rename_i first rest hscheme
    obtain ⟨hfirst, hrest⟩ := Bool.and_eq_true_iff.mp h
    rw [hscheme]
    intro c hc
    obtain rfl | hc := List.mem_cons.mp hc
    · unfold isMimeCharacter
      rw [hfirst]
      rfl
    · exact mime_character (List.all_eq_true.mp (by decide)) (List.all_eq_true.mp hrest c hc)

theorem mime_part_characters {part : List Char} (h : validMimePart part = true) :
    ∀ c ∈ part, isMimeCharacter c = true := by
  unfold validMimePart at h
  obtain ⟨-, hall⟩ := Bool.and_eq_true_iff.mp h
  intro c hc
  exact mime_character (List.all_eq_true.mp (by decide)) (List.all_eq_true.mp hall c hc)

/-- The characters of accepted MIME types. -/
theorem validate_mime_types_ok {seen types : List String}
    (h : validateMimeTypes seen types = .ok ()) :
    ∀ mime ∈ types, ∀ c ∈ mime.toList, isMimeCharacter c = true := by
  induction types generalizing seen with
  | nil => nofun
  | cons mime rest ih =>
      unfold validateMimeTypes at h
      dsimp only at h
      split at h
      · cases h
      · rename_i slash subtype hsubtype
        split at h
        · cases h
        · rename_i hvalid
          simp only [Bool.or_eq_true, not_or, Bool.not_eq_true', Bool.not_eq_false] at hvalid
          intro other hother
          obtain rfl | hother := List.mem_cons.mp hother
          · intro c hc
            rw [← List.takeWhile_append_dropWhile (p := (· ≠ '/')) (l := other.toList),
              hsubtype] at hc
            have hslash : slash = '/' := by
              have hhead := List.head?_dropWhile_not (fun c : Char => decide (c ≠ '/')) other.toList
              rw [hsubtype] at hhead
              simpa using hhead
            obtain hc | hc := List.mem_append.mp hc
            · exact mime_part_characters hvalid.1.1 c hc
            · obtain rfl | hc := List.mem_cons.mp hc
              · rw [hslash]
                rfl
              · exact mime_part_characters hvalid.1.2 c hc
          · exact ih h other hother

/-- The characters of what an accepted lifecycle declares. -/
theorem LifecycleConfig.validate_ok {lifecycle : LifecycleConfig}
    (h : lifecycle.validate = .ok ()) :
    (∀ scheme ∈ lifecycle.urlSchemes, ∀ c ∈ scheme.toList, isMimeCharacter c = true) ∧
      ∀ mime ∈ lifecycle.mimeTypes, ∀ c ∈ mime.toList, isMimeCharacter c = true := by
  obtain ⟨⟨⟩, hschemes, htypes⟩ := except_bind_ok.mp h
  exact ⟨fun scheme hscheme => url_scheme_characters (validate_schemes_ok hschemes scheme hscheme),
    validate_mime_types_ok htypes⟩

/-! ## Manifests and quick actions -/

/-- What is known of an accepted manifest. -/
structure ApplicationManifest.Accepted (manifest : ApplicationManifest) : Prop where
  identifier : ∀ c ∈ manifest.identifier.toList, isReverseDnsCharacter c = true
  name : '\n' ∉ manifest.name.toList
  description : '\n' ∉ manifest.description.toList
  urlSchemes : ∀ scheme ∈ manifest.lifecycle.urlSchemes, '\n' ∉ scheme.toList
  mimeTypes : ∀ mime ∈ manifest.lifecycle.mimeTypes, '\n' ∉ mime.toList

/-- An accepted manifest has an accepted lifecycle. -/
theorem ApplicationManifest.lifecycle_of_validate {build : Build} {manifest : ApplicationManifest}
    (h : manifest.validate build = .ok ()) : manifest.lifecycle.validate = .ok () := by
  unfold ApplicationManifest.validate at h
  obtain ⟨⟨⟩, -, h⟩ := except_bind_ok.mp h
  obtain ⟨⟨⟩, -, h⟩ := except_bind_ok.mp h
  obtain ⟨⟨⟩, -, h⟩ := except_bind_ok.mp h
  obtain ⟨⟨⟩, -, h⟩ := except_bind_ok.mp h
  obtain ⟨⟨⟩, -, h⟩ := except_bind_ok.mp h
  obtain ⟨⟨⟩, -, h⟩ := except_bind_ok.mp h
  dsimp only at h
  split at h
  · cases h
  · obtain ⟨⟨⟩, -, h⟩ := except_bind_ok.mp h
    split at h
    · obtain ⟨⟨⟩, -, h⟩ := except_bind_ok.mp h
      exact h
    · exact h

theorem ApplicationManifest.validate_ok {build : Build} {manifest : ApplicationManifest}
    (h : manifest.validate build = .ok ()) : manifest.Accepted := by
  obtain ⟨hschemes, htypes⟩ := LifecycleConfig.validate_ok (lifecycle_of_validate h)
  have hbreak : isMimeCharacter '\n' ≠ true := by decide
  unfold ApplicationManifest.validate at h
  obtain ⟨⟨⟩, hidentifier, h⟩ := except_bind_ok.mp h
  obtain ⟨⟨⟩, hname, h⟩ := except_bind_ok.mp h
  obtain ⟨⟨⟩, -, h⟩ := except_bind_ok.mp h
  obtain ⟨⟨⟩, hdescription, -⟩ := except_bind_ok.mp h
  exact ⟨validate_application_identifier_ok hidentifier, validate_text_ok hname,
    validate_text_ok hdescription,
    fun scheme hscheme hmem => hbreak (hschemes scheme hscheme _ hmem),
    fun mime hmime hmem => hbreak (htypes mime hmime _ hmem)⟩

/-- What is known of an accepted quick action. -/
structure QuickActionConfig.Accepted (action : QuickActionConfig) : Prop where
  id : ∀ c ∈ action.id.toList, isIdentifierCharacter c = true
  label : '\n' ∉ action.label.toList

theorem QuickActionConfig.validate_ok {action : QuickActionConfig}
    (h : action.validate = .ok ()) : action.Accepted := by
  unfold QuickActionConfig.validate at h
  obtain ⟨⟨⟩, hid, h⟩ := except_bind_ok.mp h
  obtain ⟨⟨⟩, hlabel, -⟩ := except_bind_ok.mp h
  exact ⟨validate_identifier_ok hid, validate_text_ok hlabel⟩

end PamDesktop.Protocol
