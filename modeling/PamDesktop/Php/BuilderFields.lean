import Mathlib.Data.List.Dedup
import PamDesktop.Php.Manifest

/-!
# The fields of manifests and windows

What the checks of the builders have in common with those of the host, field by field: a field that
PHP accepts is one for the host, or it is one under a condition.
-/

namespace PamDesktop.Php

open Foundations Protocol

/-! ## ASCII -/

/-- A property of bytes holds if it holds of each of them. -/
theorem every_byte {p : UInt8 → Prop} (h : ∀ n : Fin 256, p (UInt8.ofNat n)) (byte : UInt8) :
    p byte := by
  have hbyte := h ⟨byte.toNat, byte.toNat_lt⟩
  rwa [UInt8.ofNat_toNat] at hbyte

/-- The characters of a text of ASCII bytes. -/
theorem ascii_characters {text : String} (h : ∀ byte ∈ osString text, byte.toNat < 128) :
    text.toList = (osString text).map asciiChar := by
  have hchars : ∀ c ∈ (osString text).map asciiChar, c.toNat < 128 := by
    intro c hc
    obtain ⟨byte, hbyte, rfl⟩ := List.mem_map.mp hc
    rw [ascii_char_to_nat (h byte hbyte)]
    exact h byte hbyte
  have hbytes : osString (String.ofList ((osString text).map asciiChar)) = osString text := by
    rw [os_string_ascii hchars, List.map_map]
    refine (List.map_congr_left fun byte hbyte => ?_).trans (List.map_id _)
    exact ascii_byte_char (h byte hbyte)
  have htext := congrArg String.toList (os_string_injective hbytes)
  rw [String.toList_ofList] at htext
  exact htext.symm

theorem digit_ascii : ∀ byte, digitByte byte = true →
    byte.toNat < 128 ∧ isAsciiDigit (asciiChar byte) = true :=
  every_byte (by decide +kernel)

theorem version_ascii : ∀ byte, versionByte byte = true →
    byte.toNat < 128 ∧ isVersionCharacter (asciiChar byte) = true :=
  every_byte (by decide +kernel)

theorem hex_ascii : ∀ byte, lowerHexByte byte = true →
    byte.toNat < 128 ∧ (isAsciiDigit (asciiChar byte) ||
      ('a' ≤ asciiChar byte && asciiChar byte ≤ 'f')) = true :=
  every_byte (by decide +kernel)

theorem lower_ascii : ∀ byte, lowerLetter byte = true →
    byte.toNat < 128 ∧ isAsciiLowercase (asciiChar byte) = true :=
  every_byte (by decide +kernel)

theorem dns_ascii : ∀ byte, dnsByte byte = true →
    byte.toNat < 128 ∧ (isAsciiLowercase (asciiChar byte) || isAsciiDigit (asciiChar byte) ||
      asciiChar byte == '-') = true :=
  every_byte (by decide +kernel)

theorem scheme_ascii : ∀ byte, schemeByte byte = true →
    byte.toNat < 128 ∧ (isAsciiLowercase (asciiChar byte) || isAsciiDigit (asciiChar byte) ||
      ['+', '.', '-'].contains (asciiChar byte)) = true :=
  every_byte (by decide +kernel)

theorem mime_ascii : ∀ byte, mimeByte byte = true →
    byte.toNat < 128 ∧ (isAsciiLowercase (asciiChar byte) || isAsciiDigit (asciiChar byte) ||
      ['!', '#', '$', '&', '^', '_', '.', '+', '-'].contains (asciiChar byte)) = true :=
  every_byte (by decide +kernel)

/-! ## Words -/

theorem text_size (text : String) : (osString text).length = text.utf8ByteSize := rfl

theorem version_accepted {version : String} (h : assertVersion version = .ok ()) :
    validateVersion version = .ok () := by
  unfold assertVersion at h
  split at h
  · cases h
  · rename_i hmatch
    rw [Bool.not_eq_true', Bool.not_eq_false] at hmatch
    obtain ⟨byte, more, hbytes, hfirst, -, hlength, hrest⟩ :=
      Pattern.preg_match_word (show (Pattern.seq .start (.seq (.byte digitByte)
        (.seq (Pattern.between 0 63 (.byte versionByte)) .ending))).pregMatch _ = true from hmatch)
    have hversion : ∀ b ∈ osString version, versionByte b = true := by
      rw [hbytes]
      refine List.forall_mem_cons.mpr ⟨?_, hrest⟩
      rw [versionByte, hfirst, Bool.or_true, Bool.true_or]
    have htext := ascii_characters fun b hb => (version_ascii b (hversion b hb)).1
    have hsize := text_size version
    rw [hbytes, List.length_cons] at hsize
    have hall : version.toList.all isVersionCharacter = true := by
      rw [htext, List.all_map, List.all_eq_true]
      exact fun b hb => (version_ascii b (hversion b hb)).2
    have hhead : version.toList.head?.any isAsciiDigit = true := by
      rw [htext, hbytes]
      exact (digit_ascii byte hfirst).2
    have hlong : ¬ 64 < version.utf8ByteSize := by omega
    unfold validateVersion
    rw [hall, hhead, htext, hbytes, if_neg]
    simp [hlong]

theorem public_key_accepted {key label : String}
    (h : publicKeyPattern.pregMatch (osString key) = true) :
    validateLowerHex key 64 label = .ok () := by
  obtain ⟨left, hleft⟩ := Pattern.preg_match_start.mp h
  obtain ⟨last, hlast, hleft⟩ := Pattern.mem_seq.mp hleft
  obtain ⟨taken, hbytes, hleast, hmost, hhex⟩ := Pattern.mem_between.mp hlast
  obtain ⟨-, rfl⟩ := Pattern.mem_ending.mp hleft
  rw [List.append_nil] at hbytes
  rw [← hbytes] at hhex hleast hmost
  have htext := ascii_characters fun b hb => (hex_ascii b (hhex b hb)).1
  have hall : key.toList.all (fun c => isAsciiDigit c || ('a' ≤ c && c ≤ 'f')) = true := by
    rw [htext, List.all_map, List.all_eq_true]
    exact fun b hb => (hex_ascii b (hhex b hb)).2
  have hsize := text_size key
  unfold validateLowerHex
  rw [hall, if_neg]
  simp
  omega

theorem scheme_accepted {scheme : String}
    (h : schemePattern.pregMatch (osString scheme) = true) : validUrlScheme scheme = true := by
  obtain ⟨byte, more, hbytes, hfirst, hleast, hmost, hrest⟩ := Pattern.preg_match_word h
  have hscheme : ∀ b ∈ osString scheme, schemeByte b = true := by
    rw [hbytes]
    refine List.forall_mem_cons.mpr ⟨?_, hrest⟩
    rw [schemeByte, hfirst, Bool.true_or, Bool.true_or]
  have htext := ascii_characters fun b hb => (scheme_ascii b (hscheme b hb)).1
  have hsize := text_size scheme
  rw [hbytes, List.map_cons] at htext
  rw [hbytes, List.length_cons] at hsize
  unfold validUrlScheme
  rw [htext, decide_eq_true (by omega), Bool.true_and]
  show (isAsciiLowercase _ && _) = true
  rw [(lower_ascii byte hfirst).2, Bool.true_and, List.all_map, List.all_eq_true]
  exact fun b hb => (scheme_ascii b (hrest b hb)).2

/-- What PHP counts as distinct is without duplicates. -/
theorem nodup_of_dedup {values : List String} (h : values.dedup.length = values.length) :
    values.Nodup :=
  List.dedup_eq_self.mp ((List.dedup_sublist values).eq_of_length h)

theorem schemes_accepted {seen schemes : List String}
    (hvalid : ∀ scheme ∈ schemes, schemePattern.pregMatch (osString scheme) = true)
    (hnodup : schemes.Nodup) (hseen : ∀ scheme ∈ schemes, scheme ∉ seen) :
    validateSchemes seen schemes = .ok () := by
  induction schemes generalizing seen with
  | nil => rfl
  | cons scheme rest ih =>
      obtain ⟨hfresh, hnodup⟩ := List.nodup_cons.mp hnodup
      obtain ⟨hfirst, hvalid⟩ := List.forall_mem_cons.mp hvalid
      obtain ⟨hnew, hseen⟩ := List.forall_mem_cons.mp hseen
      rw [validateSchemes, scheme_accepted hfirst, if_neg]
      · refine ih hvalid hnodup ?_
        intro other hother hmem
        obtain rfl | hmem := List.mem_cons.mp hmem
        · exact hfresh hother
        · exact hseen other hother hmem
      · simpa using hnew

/-- The part of a MIME type that a class of first bytes and at most 63 others are. -/
theorem mime_part_valid {byte : UInt8} {more : List UInt8} (hfirst : mimeStart byte = true)
    (hlength : more.length ≤ 63) (hrest : ∀ b ∈ more, mimeByte b = true) :
    validMimePart ((byte :: more).map asciiChar) = true ∧
      ∀ c ∈ (byte :: more).map asciiChar, c ≠ '/' := by
  have hall : ∀ b ∈ byte :: more, mimeByte b = true := by
    refine List.forall_mem_cons.mpr ⟨?_, hrest⟩
    rw [mimeByte, hfirst, Bool.true_or]
  have hchars : ∀ c ∈ (byte :: more).map asciiChar, c.toNat < 128 := by
    intro c hc
    obtain ⟨b, hb, rfl⟩ := List.mem_map.mp hc
    have hsmall := (mime_ascii b (hall b hb)).1
    rw [ascii_char_to_nat hsmall]
    exact hsmall
  have hsize : (String.ofList ((byte :: more).map asciiChar)).utf8ByteSize = more.length + 1 := by
    rw [← text_size, os_string_ascii hchars, List.length_map, List.length_map, List.length_cons]
  constructor
  · unfold validMimePart
    have hsmall : more.length + 1 ≤ 64 := by omega
    rw [hsize, decide_eq_true hsmall, Bool.and_true, Bool.and_eq_true]
    refine ⟨rfl, ?_⟩
    rw [List.all_map, List.all_eq_true]
    exact fun b hb => (mime_ascii b (hall b hb)).2
  · intro c hc hslash
    obtain ⟨b, hb, rfl⟩ := List.mem_map.mp hc
    have hvalid := (mime_ascii b (hall b hb)).2
    rw [hslash] at hvalid
    exact absurd hvalid (by decide)

/-- A MIME type that PHP accepts, at its slash. -/
theorem mime_parts {mime : String} (h : mimePattern.pregMatch (osString mime) = true) :
    ∃ kind subtype, mime.toList = kind ++ '/' :: subtype ∧ validMimePart kind = true ∧
      validMimePart subtype = true ∧ ∀ c ∈ kind, c ≠ '/' := by
  obtain ⟨left, hleft⟩ := Pattern.preg_match_start.mp h
  obtain ⟨rest₁, hmatch₁, hleft₁⟩ := Pattern.mem_seq.mp hleft
  obtain ⟨first, hfirst, hbytes⟩ := Pattern.mem_byte.mp hmatch₁
  obtain ⟨rest₂, hmatch₂, hleft₂⟩ := Pattern.mem_seq.mp hleft₁
  obtain ⟨kind, hrest₁, hkindLength, hkind⟩ := Pattern.mem_upTo.mp hmatch₂
  obtain ⟨rest₃, hmatch₃, hleft₃⟩ := Pattern.mem_seq.mp hleft₂
  obtain ⟨slash, hslash, hrest₂⟩ := Pattern.mem_byte.mp hmatch₃
  obtain ⟨rest₄, hmatch₄, hleft₄⟩ := Pattern.mem_seq.mp hleft₃
  obtain ⟨second, hsecond, hrest₃⟩ := Pattern.mem_byte.mp hmatch₄
  obtain ⟨rest₅, hmatch₅, hleft₅⟩ := Pattern.mem_seq.mp hleft₄
  obtain ⟨subtype, hrest₄, hsubtypeLength, hsubtype⟩ := Pattern.mem_upTo.mp hmatch₅
  obtain ⟨-, hend⟩ := Pattern.mem_ending.mp hleft₅
  rw [hrest₁, hrest₂, hrest₃, hrest₄, hend, eq_of_beq hslash, List.append_nil] at hbytes
  have hstart : ∀ b, mimeStart b = true → mimeByte b = true := by
    intro b hb
    rw [mimeByte, hb, Bool.true_or]
  have hascii : ∀ b ∈ osString mime, b.toNat < 128 := by
    rw [hbytes]
    refine List.forall_mem_cons.mpr ⟨(mime_ascii first (hstart first hfirst)).1, ?_⟩
    refine List.forall_mem_append.mpr ⟨fun b hb => (mime_ascii b (hkind b hb)).1, ?_⟩
    refine List.forall_mem_cons.mpr ⟨by decide, ?_⟩
    exact List.forall_mem_cons.mpr ⟨(mime_ascii second (hstart second hsecond)).1,
      fun b hb => (mime_ascii b (hsubtype b hb)).1⟩
  obtain ⟨hvalid, hplain⟩ := mime_part_valid hfirst hkindLength hkind
  refine ⟨(first :: kind).map asciiChar, (second :: subtype).map asciiChar, ?_, hvalid,
    (mime_part_valid hsecond hsubtypeLength hsubtype).1, hplain⟩
  rw [ascii_characters hascii, hbytes, ← List.cons_append, List.map_append, List.map_cons]
  rfl

theorem mime_types_accepted {seen types : List String}
    (hvalid : ∀ mime ∈ types, mimePattern.pregMatch (osString mime) = true)
    (hnodup : types.Nodup) (hseen : ∀ mime ∈ types, mime ∉ seen) :
    validateMimeTypes seen types = .ok () := by
  induction types generalizing seen with
  | nil => rfl
  | cons mime rest ih =>
      obtain ⟨hfresh, hnodup⟩ := List.nodup_cons.mp hnodup
      obtain ⟨hfirst, hvalid⟩ := List.forall_mem_cons.mp hvalid
      obtain ⟨hnew, hseen⟩ := List.forall_mem_cons.mp hseen
      obtain ⟨kind, subtype, htext, hkind, hsubtype, hplain⟩ := mime_parts hfirst
      have hplain : ∀ c ∈ kind, decide (c ≠ '/') = true := fun c hc => decide_eq_true (hplain c hc)
      have htake : mime.toList.takeWhile (· ≠ '/') = kind := by
        rw [htext, List.takeWhile_append_of_pos hplain, List.takeWhile_cons_of_neg (by decide),
          List.append_nil]
      have hdrop : mime.toList.dropWhile (· ≠ '/') = '/' :: subtype := by
        rw [htext, List.dropWhile_append_of_pos hplain, List.dropWhile_cons_of_neg (by decide)]
      have hstep : validateMimeTypes seen (mime :: rest) =
          validateMimeTypes (mime :: seen) rest := by
        rw [validateMimeTypes, htake, hdrop]
        show (if (!validMimePart kind || !validMimePart subtype || _) = true then _ else _) = _
        rw [hkind, hsubtype, if_neg]
        simpa using hnew
      rw [hstep]
      refine ih hvalid hnodup ?_
      intro other hother hmem
      obtain rfl | hmem := List.mem_cons.mp hmem
      · exact hfresh hother
      · exact hseen other hother hmem

/-- A lifecycle that PHP builds is one for the host. -/
theorem lifecycle_accepted (lifecycle : Lifecycle) (config : LifecycleConfig)
    (hschemes : config.urlSchemes = lifecycle.urlSchemes)
    (htypes : config.mimeTypes = lifecycle.mimeTypes) : config.validate = .ok () := by
  have hchecked := lifecycle.checked
  unfold LifecycleValues.check at hchecked
  split at hchecked
  · cases hchecked
  · rename_i hvalid
    split at hchecked
    · cases hchecked
    · rename_i hvalid'
      split at hchecked
      · cases hchecked
      · rename_i hdistinct
        rw [Bool.not_eq_true', Bool.not_eq_false, List.all_eq_true] at hvalid hvalid'
        rw [not_or, not_not, not_not] at hdistinct
        refine check_bind_ok.mpr ⟨?_, ?_⟩
        · rw [hschemes]
          exact schemes_accepted hvalid (nodup_of_dedup hdistinct.1) fun _ _ => List.not_mem_nil
        · rw [htypes]
          exact mime_types_accepted hvalid' (nodup_of_dedup hdistinct.2) fun _ _ => List.not_mem_nil

/-! ## Application identifiers -/

/-- A lowercase letter and letters, digits and dashes behind it. -/
def DnsLabel (label : List UInt8) : Prop :=
  ∃ first rest, label = first :: rest ∧ lowerLetter first = true ∧ ∀ b ∈ rest, dnsByte b = true

theorem match_dns_label {subject rest left : List UInt8}
    (h : left ∈ dnsLabel.rests subject rest) : ∃ label, rest = label ++ left ∧ DnsLabel label := by
  obtain ⟨middle, hmiddle, hleft⟩ := Pattern.mem_seq.mp h
  obtain ⟨first, hfirst, rfl⟩ := Pattern.mem_byte.mp hmiddle
  obtain ⟨taken, rfl, htaken⟩ := Pattern.many_bytes hleft
  exact ⟨first :: taken, rfl, first, taken, rfl, hfirst, htaken⟩

theorem match_next_label {subject rest left : List UInt8}
    (h : left ∈ nextDnsLabel.rests subject rest) :
    ∃ label, rest = 46 :: label ++ left ∧ DnsLabel label := by
  obtain ⟨middle, hmiddle, hleft⟩ := Pattern.mem_seq.mp h
  obtain ⟨dot, hdot, rfl⟩ := Pattern.mem_byte.mp hmiddle
  obtain ⟨label, rfl, hlabel⟩ := match_dns_label hleft
  exact ⟨label, by rw [eq_of_beq hdot, List.cons_append], hlabel⟩

/-- The further labels are taken one by one. -/
theorem match_next_labels {subject rest left : List UInt8}
    (h : left ∈ (Pattern.many nextDnsLabel).rests subject rest) :
    ∃ labels : List (List UInt8), rest = labels.flatMap (46 :: ·) ++ left ∧
      ∀ label ∈ labels, DnsLabel label := by
  have hrounds := Pattern.many_rounds h
  clear h
  induction hrounds using Relation.ReflTransGen.head_induction_on with
  | refl => exact ⟨[], rfl, fun _ hmem => absurd hmem List.not_mem_nil⟩
  | head hround _ ih =>
      obtain ⟨label, hrest, hlabel⟩ := match_next_label hround
      obtain ⟨labels, hmiddle, hlabels⟩ := ih
      refine ⟨label :: labels, ?_, List.forall_mem_cons.mpr ⟨hlabel, hlabels⟩⟩
      rw [hrest, hmiddle, List.flatMap_cons, List.append_assoc]

theorem dns_label_ascii {label : List UInt8} (h : DnsLabel label) :
    (∀ b ∈ label, b.toNat < 128) ∧ '.' ∉ label.map asciiChar ∧
      validateIdentifierSegment (label.map asciiChar) = .ok () := by
  obtain ⟨first, rest, rfl, hfirst, hrest⟩ := h
  have hall : ∀ b ∈ first :: rest, dnsByte b = true := by
    refine List.forall_mem_cons.mpr ⟨?_, hrest⟩
    rw [dnsByte, hfirst, Bool.true_or, Bool.true_or]
  refine ⟨fun b hb => (dns_ascii b (hall b hb)).1, ?_, ?_⟩
  · intro hmem
    obtain ⟨b, hb, hdot⟩ := List.mem_map.mp hmem
    have hvalid := (dns_ascii b (hall b hb)).2
    rw [hdot] at hvalid
    exact absurd hvalid (by decide)
  · have hvalid : (rest.map asciiChar).all (fun c =>
        isAsciiLowercase c || isAsciiDigit c || c == '-') = true := by
      rw [List.all_map, List.all_eq_true]
      exact fun b hb => (dns_ascii b (hrest b hb)).2
    rw [List.map_cons, validateIdentifierSegment, hvalid, (lower_ascii first hfirst).2, if_neg]
    decide

/-- The segments of labels with dots before all but the first. -/
theorem split_labels {first : List UInt8} {labels : List (List UInt8)}
    (h : ∀ label ∈ first :: labels, '.' ∉ label.map asciiChar) :
    ((first ++ labels.flatMap (46 :: ·)).map asciiChar).splitOn '.' =
      (first :: labels).map (·.map asciiChar) := by
  induction labels generalizing first with
  | nil =>
      rw [List.flatMap_nil, List.append_nil]
      exact List.splitOn_eq_singleton (h first List.mem_cons_self)
  | cons label rest ih =>
      obtain ⟨hfirst, hrest⟩ := List.forall_mem_cons.mp h
      have hdot : (first ++ (label :: rest).flatMap (46 :: ·)).map asciiChar =
          first.map asciiChar ++ '.' :: (label ++ rest.flatMap (46 :: ·)).map asciiChar := by
        rw [List.flatMap_cons, List.cons_append, List.map_append, List.map_cons]
        rfl
      rw [hdot, List.splitOn_append_cons_self_of_not_mem hfirst, ih hrest]
      rfl

theorem segments_accepted {labels : List (List UInt8)} (h : ∀ label ∈ labels, DnsLabel label) :
    (labels.map (·.map asciiChar)).forM validateIdentifierSegment = .ok () := by
  induction labels with
  | nil => rfl
  | cons label rest ih =>
      obtain ⟨hlabel, hrest⟩ := List.forall_mem_cons.mp h
      exact check_bind_ok.mpr ⟨(dns_label_ascii hlabel).2.2, ih hrest⟩

theorem application_identifier_accepted {identifier : String}
    (h : assertApplicationIdentifier identifier = .ok ()) :
    validateApplicationIdentifier identifier = .ok () := by
  unfold assertApplicationIdentifier at h
  split at h
  · cases h
  · rename_i hvalid
    rw [Bool.or_eq_true, not_or, Bool.not_eq_true', Bool.not_eq_false, decide_eq_true_iff] at hvalid
    obtain ⟨hlength, hmatch⟩ := hvalid
    rw [text_size] at hlength
    obtain ⟨left, hleft⟩ := Pattern.preg_match_start.mp hmatch
    obtain ⟨rest₁, hmatch₁, hleft₁⟩ := Pattern.mem_seq.mp hleft
    obtain ⟨first, hbytes, hfirst⟩ := match_dns_label hmatch₁
    obtain ⟨rest₂, hmatch₂, hleft₂⟩ := Pattern.mem_seq.mp hleft₁
    obtain ⟨second, hrest₁, hsecond⟩ := match_next_label hmatch₂
    obtain ⟨rest₃, hmatch₃, hleft₃⟩ := Pattern.mem_seq.mp hleft₂
    obtain ⟨labels, hrest₂, hlabels⟩ := match_next_labels hmatch₃
    obtain ⟨-, hend⟩ := Pattern.mem_ending.mp hleft₃
    have hjoined : osString identifier = first ++ (second :: labels).flatMap (46 :: ·) := by
      rw [hbytes, hrest₁, hrest₂, hend, List.append_nil, List.flatMap_cons]
    have hall : ∀ label ∈ first :: second :: labels, DnsLabel label :=
      List.forall_mem_cons.mpr ⟨hfirst, List.forall_mem_cons.mpr ⟨hsecond, hlabels⟩⟩
    have hascii : ∀ b ∈ osString identifier, b.toNat < 128 := by
      intro b hb
      rw [hjoined, List.mem_append, List.mem_flatMap] at hb
      obtain hb | ⟨label, hlabel, hb⟩ := hb
      · exact (dns_label_ascii hfirst).1 b hb
      · obtain rfl | hb := List.mem_cons.mp hb
        · decide
        · exact (dns_label_ascii (hall label (List.mem_cons_of_mem _ hlabel))).1 b hb
    have hsplit : identifier.toList.splitOn '.' =
        (first :: second :: labels).map (·.map asciiChar) := by
      rw [ascii_characters hascii, hjoined]
      exact split_labels fun label hlabel => (dns_label_ascii (hall label hlabel)).2.1
    have hmany : ¬ labels.length + 1 + 1 < 2 := by omega
    unfold validateApplicationIdentifier
    rw [hsplit]
    show (if (decide _ || decide ((List.map _ _).length < 2)) = true then _ else _) = _
    rw [List.length_map, List.length_cons, List.length_cons, if_neg]
    · exact segments_accepted hall
    · rw [decide_eq_false hlength, decide_eq_false hmany]
      decide

/-! ## Texts -/

/-- U+0080 to U+009F: control characters that the class of PHP leaves out. -/
def isHighControl (c : Char) : Bool := 128 ≤ c.toNat && c.toNat ≤ 159

theorem is_control_iff (c : Char) : (isControl c || c == '\n' || c == '\r') = true ↔
    (decide (c.toNat ≤ 31) || c.toNat == 127) = true ∨ isHighControl c = true := by
  have hfeed : (c == '\n') = true → c.toNat = 10 := fun h => congrArg Char.toNat (eq_of_beq h)
  have hreturn : (c == '\r') = true → c.toNat = 13 := fun h => congrArg Char.toNat (eq_of_beq h)
  simp only [isControl, isHighControl, Bool.or_eq_true, Bool.and_eq_true, decide_eq_true_iff,
    beq_iff_eq (a := c.toNat)]
  constructor
  · intro h
    obtain (h | h) | h := h
    · omega
    · have := hfeed h
      omega
    · have := hreturn h
      omega
  · intro h
    exact .inl (.inl (by omega))

/-- The host accepts a text of PHP if it is not blank and has none of the other control
characters. -/
theorem text_accepted_iff {value label label' : String} {maximumBytes : Nat} {allowEmpty : Bool}
    (h : assertText value label maximumBytes allowEmpty = .ok ()) :
    validateText value label' maximumBytes allowEmpty = .ok () ↔
      (allowEmpty = false → value.toList.all isWhitespace = false) ∧
        ∀ c ∈ value.toList, isHighControl c = false := by
  unfold assertText at h
  split at h
  · cases h
  · rename_i hvalid
    simp only [Bool.or_eq_true, not_or, decide_eq_true_iff, List.any_eq_true, not_exists,
      not_and] at hvalid
    obtain ⟨⟨-, hlength⟩, hcontrol⟩ := hvalid
    rw [text_size] at hlength
    have hlong : decide (maximumBytes < value.utf8ByteSize) = false := decide_eq_false hlength
    have hany : value.toList.any (fun c => isControl c || c == '\n' || c == '\r') = false ↔
        ∀ c ∈ value.toList, isHighControl c = false := by
      rw [List.any_eq_false]
      constructor
      · intro hnone c hc
        exact Bool.eq_false_iff.mpr fun hhigh => hnone c hc ((is_control_iff c).mpr (.inr hhigh))
      · intro hnone c hc hcontrol'
        obtain hlow | hhigh := (is_control_iff c).mp hcontrol'
        · exact absurd hlow (by simpa using hcontrol c hc)
        · exact absurd hhigh (by rw [hnone c hc]; exact Bool.false_ne_true)
    have hblank : (!allowEmpty && value.toList.all isWhitespace) = false ↔
        (allowEmpty = false → value.toList.all isWhitespace = false) := by
      cases allowEmpty <;> simp
    rw [← hany, ← hblank]
    unfold validateText
    rw [hlong, Bool.or_false]
    split
    · rename_i hrefused
      refine iff_of_false (fun herror => by cases herror) ?_
      intro hok
      rw [hok.1, hok.2] at hrefused
      cases hrefused
    · rename_i haccepted
      exact iff_of_true rfl (Bool.or_eq_false_iff.mp (Bool.not_eq_true _ ▸ haccepted))

/-! ## Paths -/

/-- A pattern for `..` between what its classes match. -/
def segmentPattern (isSlash : UInt8 → Bool) : Pattern :=
  .seq (.alt .start (.byte isSlash)) (.seq (.byte (· == 46)) (.seq (.byte (· == 46))
    (.alt (.byte isSlash) .finish)))

/-- Such a pattern finds every segment that leads to the parent directory. -/
theorem segment_matched {isSeparator isSlash : UInt8 → Bool} {path : List UInt8}
    (hslash : ∀ b, isSeparator b = true → isSlash b = true)
    (h : [46, 46] ∈ path.splitOnP isSeparator) :
    (segmentPattern isSlash).pregMatch path = true := by
  obtain ⟨front, back, hpath, hfront, hback⟩ := segment_place h
  have hend : ∃ left, left ∈ (Pattern.alt (.byte isSlash) .finish).rests path back := by
    obtain rfl | ⟨slash, after, hseparator, rfl⟩ := hback
    · exact ⟨[], Pattern.mem_alt.mpr (.inr (Pattern.mem_finish.mpr ⟨rfl, .inl rfl⟩))⟩
    · exact ⟨after, Pattern.mem_alt.mpr (.inl (Pattern.mem_byte.mpr
        ⟨slash, hslash slash hseparator, rfl⟩))⟩
  obtain ⟨left, hleft⟩ := hend
  have hdots : left ∈ (Pattern.seq (.byte (· == 46)) (.seq (.byte (· == 46))
      (.alt (.byte isSlash) .finish))).rests path (46 :: 46 :: back) :=
    Pattern.mem_seq.mpr ⟨46 :: back, Pattern.mem_byte.mpr ⟨46, rfl, rfl⟩,
      Pattern.mem_seq.mpr ⟨back, Pattern.mem_byte.mpr ⟨46, rfl, rfl⟩, hleft⟩⟩
  obtain rfl | ⟨before, slash, hseparator, rfl⟩ := hfront
  · have hstart : path = 46 :: 46 :: back := by
      rw [hpath]
      rfl
    refine Pattern.preg_match_iff.mpr ⟨path, left, List.suffix_refl path, ?_⟩
    refine Pattern.mem_seq.mpr ⟨path, ?_, hstart ▸ hdots⟩
    exact Pattern.mem_alt.mpr (.inl (Pattern.mem_start.mpr ⟨rfl, rfl⟩))
  · refine Pattern.preg_match_iff.mpr ⟨slash :: 46 :: 46 :: back, left, ⟨before, ?_⟩, ?_⟩
    · rw [hpath]
      simp
    · refine Pattern.mem_seq.mpr ⟨46 :: 46 :: back, ?_, hdots⟩
      exact Pattern.mem_alt.mpr (.inr (Pattern.mem_byte.mpr ⟨slash, hslash slash hseparator, rfl⟩))

theorem parent_matched {isSeparator : UInt8 → Bool} {path : List UInt8}
    (hslash : ∀ b, isSeparator b = true → slashByte b = true)
    (h : [46, 46] ∈ path.splitOnP isSeparator) : parentPattern.pregMatch path = true :=
  segment_matched hslash h

theorem separator_slash (build : Build) (byte : UInt8) (h : build.separator byte = true) :
    slashByte byte = true := by
  unfold Build.separator at h
  unfold slashByte
  cases hslash : byte == 47 with
  | true => rw [Bool.or_true]
  | false =>
      rw [hslash, Bool.false_or, Bool.and_eq_true] at h
      rw [h.2, Bool.true_or]

/-- On Windows, a path that begins with a backslash or a drive. -/
def rooted (build : Build) (path : String) : Bool :=
  build.operatingSystem == .windows &&
    ((osString path).head? == some 92 || hasDrive (osString path))

/-- The host refuses a path without a slash at the front if it is rooted or has `..` in it. -/
theorem project_components_none (build : Build) {path : String} (hnonempty : osString path ≠ [])
    (hslash : (osString path).head? ≠ some 47) :
    (projectComponents build path).isNone = (rooted build path ||
      ((osString path).splitOnP build.separator).contains [46, 46]) := by
  obtain ⟨first, rest, hpath⟩ := List.exists_cons_of_ne_nil hnonempty
  have hhead : ((osString path).splitOnP build.separator).head? = some [] ↔
      build.separator first = true := by
    rw [hpath, List.splitOnP_cons_eq_if_modifyHead]
    split
    · rename_i hseparator
      exact iff_of_true rfl hseparator
    · rename_i hseparator
      refine iff_of_false ?_ hseparator
      cases hsplit : rest.splitOnP build.separator with
      | nil => exact absurd hsplit (List.splitOnP_ne_nil _ _)
      | cons segment others =>
          rw [List.modifyHead_cons, List.head?_cons]
          intro heq
          cases heq
  have hfirst : (first == 47) = false := by
    rw [hpath, List.head?_cons] at hslash
    simpa using hslash
  have hseparator : build.separator first =
      (build.operatingSystem == .windows && (osString path).head? == some 92) := by
    rw [Build.separator, hfirst, Bool.false_or, hpath, List.head?_cons]
    rfl
  unfold projectComponents rooted
  dsimp only
  rw [Bool.and_or_distrib_left, ← hseparator]
  split
  · rename_i hroot
    rw [hhead, or_comm, or_assoc] at hroot
    obtain hdrive | hdots | hseparated := hroot
    · rw [hdrive, Bool.or_true]
      rfl
    · rw [hdots, Bool.or_true]
      rfl
    · rw [hseparated]
      rfl
  · rename_i hroot
    rw [hhead, not_or, not_or, Bool.not_eq_true, Bool.not_eq_true, Bool.not_eq_true] at hroot
    obtain ⟨hseparated, hdrive, hdots⟩ := hroot
    rw [hseparated, hdrive, hdots]
    rfl

theorem project_components_rooted (build : Build) {path : String} (hnonempty : osString path ≠ [])
    (hslash : (osString path).head? ≠ some 47)
    (hparent : parentPattern.pregMatch (osString path) = false) :
    (projectComponents build path).isNone = rooted build path := by
  have hdots : ((osString path).splitOnP build.separator).contains [46, 46] = false := by
    by_contra hcontains
    rw [Bool.not_eq_false, List.contains_iff_mem] at hcontains
    rw [parent_matched (separator_slash build) hcontains] at hparent
    cases hparent
  rw [project_components_none build hnonempty hslash, hdots, Bool.or_false]

/-- What PHP has made sure of about a project path. -/
theorem project_path_checked {path label : String} (h : assertProjectPath path label = .ok ()) :
    osString path ≠ [] ∧ '\x00' ∉ path.toList ∧ (osString path).head? ≠ some 47 ∧
      parentPattern.pregMatch (osString path) = false := by
  unfold assertProjectPath at h
  split at h
  · cases h
  · rename_i hvalid
    simp only [Bool.or_eq_true, not_or, beq_iff_eq, Bool.not_eq_true, List.contains_iff_mem]
      at hvalid
    obtain ⟨⟨⟨⟨⟨hempty, hzero⟩, hslash⟩, -⟩, -⟩, hparent⟩ := hvalid
    exact ⟨fun hbytes => hempty (os_string_empty.mp hbytes), hzero, hslash, hparent⟩

theorem project_path_accepted_iff {build : Build} {path label label' : String}
    (h : assertProjectPath path label = .ok ()) :
    validateRelativeProjectPath build path label' = .ok () ↔ rooted build path = false := by
  obtain ⟨hnonempty, hzero, hslash, hparent⟩ := project_path_checked h
  have htext : path.toList ≠ [] := by
    intro hnil
    rw [os_string_encode, hnil] at hnonempty
    exact hnonempty rfl
  unfold validateRelativeProjectPath
  rw [project_components_rooted build hnonempty hslash hparent, decide_eq_false htext,
    Bool.false_or, Bool.eq_false_iff.mpr (mt List.contains_iff_mem.mp hzero), Bool.false_or]
  cases rooted build path with
  | false => exact iff_of_true rfl rfl
  | true => exact iff_of_false nofun nofun

/-- The host accepts the exclusions of PHP if none of them is rooted. -/
theorem excludes_accepted_iff {build : Build} {unique : List String} {paths : List String}
    (h : assertExcludes unique paths = .ok ()) :
    validateExcludes build unique paths = .ok () ↔ ∀ path ∈ paths, rooted build path = false := by
  induction paths generalizing unique with
  | nil => exact iff_of_true rfl fun _ hmem => absurd hmem List.not_mem_nil
  | cons path rest ih =>
      rw [assertExcludes, check_bind_ok] at h
      obtain ⟨hpath, h⟩ := h
      split at h
      · cases h
      · rename_i hfresh
        split at h
        · cases h
        · rename_i hother
          rw [validateExcludes, check_bind_ok, if_neg hfresh, if_neg hother, ih h,
            project_path_accepted_iff hpath, List.forall_mem_cons]

/-! ## The icon -/

/-- The last name of a path, what is before it and the separators behind it. -/
theorem basename_place (build : Build) (path : List UInt8) :
    ∃ front tail, path = front ++ (basename build path ++ tail) ∧
      (front = [] ∨ ∃ before slash, build.separator slash = true ∧ front = before ++ [slash]) ∧
      (∀ b ∈ basename build path, build.separator b = false) ∧
      ∀ b ∈ tail, build.separator b = true := by
  let cut := path.rdropWhile build.separator
  refine ⟨cut.rdropWhile (!build.separator ·), path.rtakeWhile build.separator, ?_, ?_, ?_, ?_⟩
  · rw [basename, ← List.append_assoc, List.rdropWhile_append_rtakeWhile,
      List.rdropWhile_append_rtakeWhile]
  · cases hfront : cut.rdropWhile (!build.separator ·) using List.reverseRecOn with
    | nil => exact .inl rfl
    | append_singleton before slash _ =>
        refine .inr ⟨before, slash, ?_, rfl⟩
        have hlast := List.rdropWhile_last_not (!build.separator ·) cut (by rw [hfront]; simp)
        simp only [hfront, List.getLast_append_singleton] at hlast
        simpa using hlast
  · intro b hb
    have hmem := List.mem_rtakeWhile_imp hb
    simpa using hmem
  · intro b hb
    exact List.mem_rtakeWhile_imp hb

/-- A component that counts. -/
def isNormal (segment : List UInt8) : Bool := segment ≠ [] ∧ segment ≠ [46]

/-- The last component is the name that PHP finds. -/
theorem last_component {build : Build} {path : List UInt8}
    (hnormal : isNormal (basename build path) = true) :
    ((path.splitOnP build.separator).filter isNormal).getLast? = some (basename build path) := by
  obtain ⟨front, tail, hpath, hfront, hplain, htail⟩ := basename_place build path
  have hend : ((basename build path ++ tail).splitOnP build.separator).filter isNormal =
      [basename build path] := by
    cases tail with
    | nil =>
        rw [List.append_nil, List.splitOnP_eq_singleton hplain, List.filter_singleton, hnormal]
        rfl
    | cons slash rest =>
        obtain ⟨hslash, hrest⟩ := List.forall_mem_cons.mp htail
        rw [List.splitOnP_append_cons_of_forall_mem hplain _ hslash,
          List.filter_cons_of_pos hnormal, List.filter_eq_nil_iff.mpr]
        intro segment hsegment
        rw [split_separators hrest segment hsegment]
        decide
  obtain rfl | ⟨before, slash, hslash, rfl⟩ := hfront
  · conv_lhs => rw [hpath, List.nil_append, hend]
    rfl
  · conv_lhs => rw [hpath, List.append_assoc, List.singleton_append,
      List.splitOnP_append_cons _ _ hslash, List.filter_append, hend]
    exact List.getLast?_concat

/-- The host has the same lower case. -/
theorem lower_byte_host :
    lowerByte = fun byte => if 65 ≤ byte && byte ≤ 90 then byte + 32 else byte := by
  funext byte
  unfold lowerByte
  simp only [Bool.and_eq_true, decide_eq_true_iff, UInt8.le_iff_toNat_le]
  rfl

/-- An icon of PHP has an extension for the host if there is something before it. -/
theorem icon_accepted_iff {build : Build} {icon : String} (hrooted : rooted build icon = false)
    (hpath : (projectComponents build icon).isNone = rooted build icon)
    (h : [osString "png", osString "svg"].contains
      ((pathinfoExtension build (osString icon)).map lowerByte) = true) :
    [some (osString "png"), some (osString "svg")].contains (iconExtension build icon) = true ↔
      4 < (basename build (osString icon)).length := by
  let name := basename build (osString icon)
  let last := name.rtakeWhile (· ≠ 46)
  have hthree : ∀ ext : List UInt8,
      [osString "png", osString "svg"].contains (ext.map lowerByte) = true → ext.length = 3 := by
    intro ext hext
    rw [List.contains_iff_mem, List.mem_cons, List.mem_singleton] at hext
    rw [← List.length_map lowerByte]
    obtain hext | hext := hext <;> rw [hext] <;> rfl
  have hextension : pathinfoExtension build (osString icon) = last := by
    unfold pathinfoExtension at h ⊢
    dsimp only at h ⊢
    split
    · rfl
    · rename_i hdot
      rw [if_neg hdot] at h
      have hlength := hthree [] h
      cases hlength
  rw [hextension] at h
  have hlast : last.length = 3 := hthree last h
  have hnormal : isNormal name = true := by
    refine decide_eq_true ⟨?_, ?_⟩
    · intro hname
      rw [show last = name.rtakeWhile (· ≠ 46) from rfl, hname] at hlast
      cases hlast
    · intro hname
      rw [show last = name.rtakeWhile (· ≠ 46) from rfl, hname] at hlast
      cases hlast
  have hdots : name ≠ [46, 46] := by
    intro hname
    rw [show last = name.rtakeWhile (· ≠ 46) from rfl, hname] at hlast
    cases hlast
  have hcomponents : (projectComponents build icon).bind List.getLast? = some name := by
    rw [hrooted, Option.isNone_eq_false_iff] at hpath
    unfold projectComponents at hpath ⊢
    dsimp only at hpath ⊢
    split
    · rename_i hrefused
      rw [if_pos hrefused] at hpath
      cases hpath
    · exact last_component hnormal
  have hstem : (name.reverse.dropWhile (· ≠ 46)).tail = [] ↔ ¬ 4 < name.length := by
    have hparts : name.rdropWhile (· ≠ 46) ++ name.rtakeWhile (· ≠ 46) = name :=
      List.rdropWhile_append_rtakeWhile
    have hlength := congrArg List.length hparts
    rw [List.length_append, show name.rtakeWhile _ = last from rfl, hlast, List.rdropWhile,
      List.length_reverse] at hlength
    rw [← List.length_eq_zero_iff, List.length_tail]
    omega
  unfold iconExtension
  rw [hcomponents, Option.bind_some, extension]
  split
  · rename_i hnone
    rw [or_iff_right hdots, hstem] at hnone
    exact iff_of_false (by decide) hnone
  · rename_i hsome
    rw [or_iff_right hdots, hstem, not_not] at hsome
    refine iff_of_true ?_ hsome
    rw [Option.map_some, ← lower_byte_host]
    show [some (osString "png"), some (osString "svg")].contains (some (last.map lowerByte)) = true
    simpa using h

end PamDesktop.Php
