import Mathlib.Algebra.GroupWithZero.Nat
import PamDesktop.Foundations.PathText
import PamDesktop.Foundations.Serde
import PamDesktop.Php.Values

/-!
# `json_encode`

What PHP prints for a value, or that it throws instead. `encodable`, `nesting` and `jsonSize` say
from the value alone whether there is a text, how deep it is nested and how long it is;
`json_encode_prints` and `json_encode_some` connect them to the encoder.
-/

namespace PamDesktop.Php

open Foundations

/-- The text that the bytes of a string are. -/
def utf8Text (bytes : List UInt8) : Option String := String.fromUTF8? ⟨bytes.toArray⟩

/-- The name of a member. -/
def keyName : PhpKey → Option String
  | .int value => some (toString value)
  | .string bytes => utf8Text bytes

/-- The depth from which `json_encode` refuses to go on. -/
def maxJsonDepth : Nat := 512

/-- `array_is_list`. -/
def isList (entries : Entries) : Bool :=
  entries.map Prod.fst == (List.range entries.length).map fun index => .int index

section Encoder

-- how the engine prints a finite float
variable (floatText : PhpFloat → String)

mutual

/-- `json_encode` with `JSON_THROW_ON_ERROR` below so many arrays and objects; `none` is an
exception. -/
def jsonEncode (depth : Nat) : PhpValue → Option Json
  | .null => some .null
  | .bool value => some (.bool value)
  | .int value => some (.number value)
  | .float (.finite negative mantissa exponent) =>
      some (.decimal (floatText (.finite negative mantissa exponent)))
  | .float (.infinite _) | .float .nan => none
  | .string bytes => (utf8Text bytes).map .string
  | .array entries =>
      if maxJsonDepth < depth + 1 then none
      else if isList entries then (encodeItems (depth + 1) entries).map .array
      else (encodeEntries (depth + 1) entries).map .object
  | .object properties =>
      if maxJsonDepth < depth + 1 then none
      else (encodeProperties (depth + 1) properties).map .object
  | .serializable result => jsonEncode depth result
  | .backedEnum backing => jsonEncode depth backing
  | .thrower _ | .unitEnum | .resource | .recursion => none

def encodeItems (depth : Nat) : List (PhpKey × PhpValue) → Option (List Json)
  | [] => some []
  | (_, value) :: rest => do
      let json ← jsonEncode depth value
      let items ← encodeItems depth rest
      some (json :: items)

def encodeEntries (depth : Nat) : List (PhpKey × PhpValue) → Option (List (String × Json))
  | [] => some []
  | (key, value) :: rest => do
      let name ← keyName key
      let json ← jsonEncode depth value
      let members ← encodeEntries depth rest
      some ((name, json) :: members)

def encodeProperties (depth : Nat) : List (List UInt8 × PhpValue) → Option (List (String × Json))
  | [] => some []
  | (key, value) :: rest => do
      let name ← utf8Text key
      let json ← jsonEncode depth value
      let members ← encodeProperties depth rest
      some ((name, json) :: members)

end

end Encoder

mutual

/-- Nothing in the value makes `json_encode` throw. -/
def PhpValue.encodable : PhpValue → Bool
  | .null | .bool _ | .int _ | .float (.finite _ _ _) => true
  | .float (.infinite _) | .float .nan => false
  | .string bytes => (utf8Text bytes).isSome
  | .array entries => encodableEntries entries
  | .object properties => encodableProperties properties
  | .serializable result => result.encodable
  | .backedEnum backing => backing.encodable
  | .thrower _ | .unitEnum | .resource | .recursion => false

def encodableEntries : List (PhpKey × PhpValue) → Bool
  | [] => true
  | (key, value) :: rest => (keyName key).isSome && value.encodable && encodableEntries rest

def encodableProperties : List (List UInt8 × PhpValue) → Bool
  | [] => true
  | (key, value) :: rest => (utf8Text key).isSome && value.encodable && encodableProperties rest

end

mutual

/-- How deep arrays and objects are nested. -/
def PhpValue.nesting : PhpValue → Nat
  | .array entries => nestingOfEntries entries + 1
  | .object properties => nestingOfProperties properties + 1
  | .serializable result => result.nesting
  | .backedEnum backing => backing.nesting
  | .null | .bool _ | .int _ | .float _ | .string _ | .thrower _ | .unitEnum | .resource
  | .recursion => 0

def nestingOfEntries : List (PhpKey × PhpValue) → Nat
  | [] => 0
  | (_, value) :: rest => max value.nesting (nestingOfEntries rest)

def nestingOfProperties : List (List UInt8 × PhpValue) → Nat
  | [] => 0
  | (_, value) :: rest => max value.nesting (nestingOfProperties rest)

end

/-! ## The length of the text -/

/-- A character of a string: the line separators are escaped too. -/
def phpEscape (c : Char) : List Char :=
  match c.toNat with
  | 0x2028 => ['\\', 'u', '2', '0', '2', '8']
  | 0x2029 => ['\\', 'u', '2', '0', '2', '9']
  | _ => escapeChar c

/-- What `json_encode` prints. -/
def jsonText (json : Json) : List Char := json.text phpEscape

/-- The bytes of a number, by its text. -/
def numberSize (text : String) : Nat := (textBytes text.toList).length

/-- The bytes of a string with its quotes and escapes. -/
def stringSize (text : String) : Nat := (textBytes (quoted phpEscape text)).length

/-- The bytes of parts with commas between them. -/
def separated (sizes : List Nat) : Nat := sizes.sum + (sizes.length - 1)

section Size

variable (floatText : PhpFloat → String)

mutual

/-- The bytes of the text of an encodable value. -/
def jsonSize : PhpValue → Nat
  | .null | .bool true => 4
  | .bool false => 5
  | .int value => numberSize (toString value)
  | .float value => numberSize (floatText value)
  | .string bytes => ((utf8Text bytes).map stringSize).getD 0
  | .array entries =>
      2 + separated (if isList entries then itemSizes entries else entrySizes entries)
  | .object properties => 2 + separated (propertySizes properties)
  | .serializable result => jsonSize result
  | .backedEnum backing => jsonSize backing
  | .thrower _ | .unitEnum | .resource | .recursion => 0

def itemSizes : List (PhpKey × PhpValue) → List Nat
  | [] => []
  | (_, value) :: rest => jsonSize value :: itemSizes rest

def entrySizes : List (PhpKey × PhpValue) → List Nat
  | [] => []
  | (key, value) :: rest =>
      (((keyName key).map stringSize).getD 0 + (1 + jsonSize value)) :: entrySizes rest

def propertySizes : List (List UInt8 × PhpValue) → List Nat
  | [] => []
  | (key, value) :: rest =>
      (((utf8Text key).map stringSize).getD 0 + (1 + jsonSize value)) :: propertySizes rest

end

end Size

/-- The bytes of a JSON text. -/
def textSize (json : Json) : Nat := (textBytes (jsonText json)).length

theorem text_bytes_append (first second : List Char) :
    textBytes (first ++ second) = textBytes first ++ textBytes second := List.flatMap_append

theorem commas_size (parts : List (List Char)) :
    (textBytes (commas [] parts)).length =
      separated (parts.map fun part => (textBytes part).length) := by
  induction parts with
  | nil => rfl
  | cons part rest ih =>
      cases rest with
      | nil => simp [commas, separated]
      | cons next rest =>
          have hcomma : (textBytes [',']).length = 1 := by decide
          show (textBytes (part ++ [','] ++ commas [] (next :: rest))).length = _
          rw [text_bytes_append, text_bytes_append, List.length_append, List.length_append, ih,
            hcomma]
          simp only [separated, List.map_cons, List.sum_cons, List.length_cons]
          omega

/-- The bytes of one member. -/
def memberSize (member : String × Json) : Nat := stringSize member.1 + (1 + textSize member.2)

theorem array_size (items : List Json) :
    textSize (.array items) = 2 + separated (items.map textSize) := by
  have htexts : itemTexts phpEscape items = items.map jsonText := by
    induction items with
    | nil => rfl
    | cons item rest ih => rw [itemTexts, ih]; rfl
  have hopen : (textBytes ['[']).length = 1 := by decide
  have hclose : (textBytes [']']).length = 1 := by decide
  show (textBytes (['['] ++ commas [] (itemTexts phpEscape items) ++ [']'])).length = _
  rw [text_bytes_append, text_bytes_append, List.length_append, List.length_append, hopen, hclose,
    commas_size, htexts, List.map_map]
  show 1 + separated (items.map textSize) + 1 = _
  omega

theorem object_size (members : List (String × Json)) :
    textSize (.object members) = 2 + separated (members.map memberSize) := by
  have hcolon : (textBytes [':']).length = 1 := by decide
  have hsizes : (memberTexts phpEscape members).map (fun part => (textBytes part).length) =
      members.map memberSize := by
    induction members with
    | nil => rfl
    | cons member rest ih =>
        obtain ⟨name, value⟩ := member
        have hmember : (textBytes (quoted phpEscape name ++ ([':'] ++ jsonText value))).length =
            memberSize (name, value) := by
          rw [text_bytes_append, text_bytes_append, List.length_append, List.length_append, hcolon]
          rfl
        rw [memberTexts, List.map_cons, ih]
        exact congrArg (· :: rest.map memberSize) hmember
  have hopen : (textBytes ['\x7b']).length = 1 := by decide
  have hclose : (textBytes ['\x7d']).length = 1 := by decide
  show (textBytes (['\x7b'] ++ commas [] (memberTexts phpEscape members) ++ ['\x7d'])).length = _
  rw [text_bytes_append, text_bytes_append, List.length_append, List.length_append, hopen, hclose,
    commas_size, hsizes]
  omega

/-! ## One line -/

/-- Escapes leave no newline. -/
theorem escape_no_newline (c : Char) : '\n' ∉ phpEscape c := by
  have hcontrol : ∀ code : Fin 32, '\n' ∉ phpEscape (Char.ofNat code) := by decide
  by_cases hlt : c.toNat < 32
  · have := hcontrol ⟨c.toNat, hlt⟩
    rwa [show Char.ofNat (⟨c.toNat, hlt⟩ : Fin 32).val = c from Char.ofNat_toNat c] at this
  · have hne : '\n' ≠ c := by
      intro h
      rw [← h] at hlt
      exact hlt (by decide)
    unfold phpEscape escapeChar
    split
    · decide
    · decide
    · dsimp only
      split <;> simp_all
      rw [if_neg (Nat.not_lt.mpr hlt), List.mem_singleton]
      exact hne

/-- Names and strings take one line. -/
theorem quoted_no_newline (text : String) : '\n' ∉ quoted phpEscape text := by
  unfold quoted
  intro hmem
  rw [List.cons_append, List.mem_cons, List.mem_append, List.mem_singleton] at hmem
  obtain h | h | h := hmem
  · cases h
  · obtain ⟨c, -, hc⟩ := List.mem_flatMap.mp h
    exact escape_no_newline c hc
  · cases h

theorem int_no_newline (value : Int) : '\n' ∉ (toString value).toList := by
  have hdigits : ∀ n : Nat, '\n' ∉ n.repr.toList := by
    intro n hmem
    rw [Nat.toList_repr] at hmem
    have := Nat.isDigit_of_mem_toDigits (by omega) (by omega) hmem
    revert this
    decide
  cases value with
  | ofNat n => exact hdigits n
  | negSucc n =>
      show '\n' ∉ ("-" ++ (n + 1).repr).toList
      rw [String.toList_append, List.mem_append, not_or]
      exact ⟨by decide, hdigits (n + 1)⟩

theorem commas_no_newline {parts : List (List Char)} (h : ∀ part ∈ parts, '\n' ∉ part) :
    '\n' ∉ commas [] parts := by
  induction parts with
  | nil => exact List.not_mem_nil
  | cons part rest ih =>
      have hpart := h part List.mem_cons_self
      have hrest := ih fun other hmem => h other (List.mem_cons_of_mem _ hmem)
      cases rest with
      | nil => exact hpart
      | cons next rest =>
          show '\n' ∉ part ++ [','] ++ commas [] (next :: rest)
          rw [List.mem_append, List.mem_append, not_or, not_or]
          exact ⟨⟨hpart, by decide⟩, hrest⟩

/-- The bytes of a text without newlines have none. -/
theorem text_bytes_no_newline {text : List Char} (h : '\n' ∉ text) : 10 ∉ textBytes text := by
  intro hmem
  obtain ⟨c, hc, hbyte⟩ := List.mem_flatMap.mp hmem
  have hne : c ≠ '\n' := fun heq => h (heq ▸ hc)
  exact utf8_encode_avoids (by decide) hne 10 hbyte rfl

/-! ## The encoder and its specification -/

/-- A list has numbers for keys. -/
theorem keys_of_is_list {entries : Entries} (h : isList entries = true) :
    ∀ entry ∈ entries, (keyName entry.1).isSome = true := by
  intro entry hmem
  have hkey : entry.1 ∈ entries.map Prod.fst := List.mem_map_of_mem hmem
  rw [eq_of_beq h] at hkey
  obtain ⟨index, -, hindex⟩ := List.mem_map.mp hkey
  rw [← hindex]
  rfl

section Spec

variable {floatText : PhpFloat → String}

/-- What the text of a value is like. -/
structure Prints (floatText : PhpFloat → String) (value : PhpValue) (json : Json) : Prop where
  encodable : value.encodable = true
  depth : json.depth = value.nesting
  size : textSize json = jsonSize floatText value
  line : (∀ float, '\n' ∉ (floatText float).toList) → '\n' ∉ jsonText json

theorem array_line {items : List Json} (h : ∀ item ∈ items, '\n' ∉ jsonText item) :
    '\n' ∉ jsonText (.array items) := by
  have htexts : ∀ part ∈ itemTexts phpEscape items, '\n' ∉ part := by
    induction items with
    | nil => exact fun _ hmem => absurd hmem List.not_mem_nil
    | cons item rest ih =>
        intro part hmem
        obtain rfl | hmem := List.mem_cons.mp hmem
        · exact h item List.mem_cons_self
        · exact ih (fun other hother => h other (List.mem_cons_of_mem _ hother)) part hmem
  show '\n' ∉ ['['] ++ commas [] (itemTexts phpEscape items) ++ [']']
  rw [List.mem_append, List.mem_append, not_or, not_or]
  exact ⟨⟨by decide, commas_no_newline htexts⟩, by decide⟩

theorem object_line {members : List (String × Json)}
    (h : ∀ member ∈ members, '\n' ∉ jsonText member.2) : '\n' ∉ jsonText (.object members) := by
  have htexts : ∀ part ∈ memberTexts phpEscape members, '\n' ∉ part := by
    induction members with
    | nil => exact fun _ hmem => absurd hmem List.not_mem_nil
    | cons member rest ih =>
        intro part hmem
        obtain rfl | hmem := List.mem_cons.mp hmem
        · rw [List.mem_append, List.mem_cons, not_or, not_or]
          exact ⟨quoted_no_newline member.1, by decide, h member List.mem_cons_self⟩
        · exact ih (fun other hother => h other (List.mem_cons_of_mem _ hother)) part hmem
  show '\n' ∉ ['\x7b'] ++ commas [] (memberTexts phpEscape members) ++ ['\x7d']
  rw [List.mem_append, List.mem_append, not_or, not_or]
  exact ⟨⟨by decide, commas_no_newline htexts⟩, by decide⟩

mutual

/-- What `json_encode` prints has the depth and the length that the value announces. -/
theorem json_encode_prints : ∀ (value : PhpValue) {depth : Nat} {json : Json},
    jsonEncode floatText depth value = some json → Prints floatText value json
  | .null, _, _, h => by
      cases h
      have hsize : textSize .null = 4 := by decide
      exact ⟨rfl, rfl, hsize, fun _ => by decide⟩
  | .bool true, _, _, h => by
      cases h
      have hsize : textSize (.bool true) = 4 := by decide
      exact ⟨rfl, rfl, hsize, fun _ => by decide⟩
  | .bool false, _, _, h => by
      cases h
      have hsize : textSize (.bool false) = 5 := by decide
      exact ⟨rfl, rfl, hsize, fun _ => by decide⟩
  | .int value, _, _, h => by cases h; exact ⟨rfl, rfl, rfl, fun _ => int_no_newline value⟩
  | .float (.finite _ _ _), _, _, h => by cases h; exact ⟨rfl, rfl, rfl, fun hfloat => hfloat _⟩
  | .float (.infinite _), _, _, h => by cases h
  | .float .nan, _, _, h => by cases h
  | .string bytes, _, _, h => by
      obtain ⟨text, htext, rfl⟩ := Option.map_eq_some_iff.mp h
      refine ⟨?_, rfl, ?_, fun _ => quoted_no_newline text⟩
      · rw [PhpValue.encodable, htext]; rfl
      · rw [jsonSize, htext]; rfl
  | .array entries, depth, json, h => by
      rw [jsonEncode] at h
      split at h
      · cases h
      split at h
      · rename_i hlist
        obtain ⟨items, hitems, rfl⟩ := Option.map_eq_some_iff.mp h
        obtain ⟨hencodable, hdepth, hsizes, hlines⟩ :=
          encode_items_prints entries (keys_of_is_list hlist) hitems
        refine ⟨hencodable, ?_, ?_, fun hfloat => array_line (hlines hfloat)⟩
        · rw [Json.depth, hdepth, PhpValue.nesting]
        · rw [array_size, hsizes, jsonSize, if_pos hlist]
      · rename_i hlist
        obtain ⟨members, hmembers, rfl⟩ := Option.map_eq_some_iff.mp h
        obtain ⟨hencodable, hdepth, hsizes, hlines⟩ := encode_entries_prints entries hmembers
        refine ⟨hencodable, ?_, ?_, fun hfloat => object_line (hlines hfloat)⟩
        · rw [Json.depth, hdepth, PhpValue.nesting]
        · rw [object_size, hsizes, jsonSize, if_neg hlist]
  | .object properties, depth, json, h => by
      rw [jsonEncode] at h
      split at h
      · cases h
      obtain ⟨members, hmembers, rfl⟩ := Option.map_eq_some_iff.mp h
      obtain ⟨hencodable, hdepth, hsizes, hlines⟩ := encode_properties_prints properties hmembers
      refine ⟨hencodable, ?_, ?_, fun hfloat => object_line (hlines hfloat)⟩
      · rw [Json.depth, hdepth, PhpValue.nesting]
      · rw [object_size, hsizes, jsonSize]
  | .serializable result, _, _, h => by
      obtain ⟨hencodable, hdepth, hsize, hline⟩ := json_encode_prints result h
      exact ⟨hencodable, hdepth, hsize, hline⟩
  | .backedEnum backing, _, _, h => by
      obtain ⟨hencodable, hdepth, hsize, hline⟩ := json_encode_prints backing h
      exact ⟨hencodable, hdepth, hsize, hline⟩
  | .thrower _, _, _, h => by cases h
  | .unitEnum, _, _, h => by cases h
  | .resource, _, _, h => by cases h
  | .recursion, _, _, h => by cases h

theorem encode_items_prints : ∀ (entries : List (PhpKey × PhpValue)) {depth : Nat}
    {items : List Json}, (∀ entry ∈ entries, (keyName entry.1).isSome = true) →
    encodeItems floatText depth entries = some items →
      encodableEntries entries = true ∧ depthOfItems items = nestingOfEntries entries ∧
        items.map textSize = itemSizes floatText entries ∧
        ((∀ float, '\n' ∉ (floatText float).toList) → ∀ item ∈ items, '\n' ∉ jsonText item)
  | [], _, _, _, h => by
      cases h
      exact ⟨rfl, rfl, rfl, fun _ _ hmem => absurd hmem List.not_mem_nil⟩
  | (key, value) :: rest, _, _, hkeys, h => by
      obtain ⟨json, hjson, h⟩ := Option.bind_eq_some_iff.mp h
      obtain ⟨items, hitems, h⟩ := Option.bind_eq_some_iff.mp h
      cases h
      obtain ⟨hencodable, hdepth, hsize, hline⟩ := json_encode_prints value hjson
      obtain ⟨hencodables, hdepths, hsizes, hlines⟩ := encode_items_prints rest
        (fun entry hmem => hkeys entry (List.mem_cons_of_mem _ hmem)) hitems
      have hkey := hkeys (key, value) List.mem_cons_self
      refine ⟨?_, ?_, ?_, fun hfloat item hmem => ?_⟩
      · rw [encodableEntries, hkey, hencodable, hencodables]; rfl
      · rw [depthOfItems, nestingOfEntries, hdepth, hdepths]
      · rw [List.map_cons, itemSizes, hsize, hsizes]
      · obtain rfl | hmem := List.mem_cons.mp hmem
        · exact hline hfloat
        · exact hlines hfloat item hmem

theorem encode_entries_prints : ∀ (entries : List (PhpKey × PhpValue)) {depth : Nat}
    {members : List (String × Json)}, encodeEntries floatText depth entries = some members →
      encodableEntries entries = true ∧ depthOfMembers members = nestingOfEntries entries ∧
        members.map memberSize = entrySizes floatText entries ∧
        ((∀ float, '\n' ∉ (floatText float).toList) →
          ∀ member ∈ members, '\n' ∉ jsonText member.2)
  | [], _, _, h => by
      cases h
      exact ⟨rfl, rfl, rfl, fun _ _ hmem => absurd hmem List.not_mem_nil⟩
  | (key, value) :: rest, _, _, h => by
      obtain ⟨name, hname, h⟩ := Option.bind_eq_some_iff.mp h
      obtain ⟨json, hjson, h⟩ := Option.bind_eq_some_iff.mp h
      obtain ⟨members, hmembers, h⟩ := Option.bind_eq_some_iff.mp h
      cases h
      obtain ⟨hencodable, hdepth, hsize, hline⟩ := json_encode_prints value hjson
      obtain ⟨hencodables, hdepths, hsizes, hlines⟩ := encode_entries_prints rest hmembers
      refine ⟨?_, ?_, ?_, fun hfloat member hmem => ?_⟩
      · rw [encodableEntries, hname, hencodable, hencodables]; rfl
      · rw [depthOfMembers, nestingOfEntries, hdepth, hdepths]
      · rw [List.map_cons, entrySizes, hname, hsizes, memberSize, hsize]; rfl
      · obtain rfl | hmem := List.mem_cons.mp hmem
        · exact hline hfloat
        · exact hlines hfloat member hmem

theorem encode_properties_prints : ∀ (properties : List (List UInt8 × PhpValue)) {depth : Nat}
    {members : List (String × Json)}, encodeProperties floatText depth properties = some members →
      encodableProperties properties = true ∧
        depthOfMembers members = nestingOfProperties properties ∧
        members.map memberSize = propertySizes floatText properties ∧
        ((∀ float, '\n' ∉ (floatText float).toList) →
          ∀ member ∈ members, '\n' ∉ jsonText member.2)
  | [], _, _, h => by
      cases h
      exact ⟨rfl, rfl, rfl, fun _ _ hmem => absurd hmem List.not_mem_nil⟩
  | (key, value) :: rest, _, _, h => by
      obtain ⟨name, hname, h⟩ := Option.bind_eq_some_iff.mp h
      obtain ⟨json, hjson, h⟩ := Option.bind_eq_some_iff.mp h
      obtain ⟨members, hmembers, h⟩ := Option.bind_eq_some_iff.mp h
      cases h
      obtain ⟨hencodable, hdepth, hsize, hline⟩ := json_encode_prints value hjson
      obtain ⟨hencodables, hdepths, hsizes, hlines⟩ := encode_properties_prints rest hmembers
      refine ⟨?_, ?_, ?_, fun hfloat member hmem => ?_⟩
      · rw [encodableProperties, hname, hencodable, hencodables]; rfl
      · rw [depthOfMembers, nestingOfProperties, hdepth, hdepths]
      · rw [List.map_cons, propertySizes, hname, hsizes, memberSize, hsize]; rfl
      · obtain rfl | hmem := List.mem_cons.mp hmem
        · exact hline hfloat
        · exact hlines hfloat member hmem

end

mutual

/-- `json_encode` prints every encodable value that is not nested too deep. -/
theorem json_encode_some : ∀ (value : PhpValue) {depth : Nat}, value.encodable = true →
    depth + value.nesting ≤ maxJsonDepth → ∃ json, jsonEncode floatText depth value = some json
  | .null, _, _, _ => ⟨_, rfl⟩
  | .bool _, _, _, _ => ⟨_, rfl⟩
  | .int _, _, _, _ => ⟨_, rfl⟩
  | .float (.finite _ _ _), _, _, _ => ⟨_, rfl⟩
  | .float (.infinite _), _, h, _ => by cases h
  | .float .nan, _, h, _ => by cases h
  | .string bytes, _, h, _ => by
      obtain ⟨text, htext⟩ := Option.isSome_iff_exists.mp h
      exact ⟨.string text, by rw [jsonEncode, htext]; rfl⟩
  | .array entries, depth, h, hdepth => by
      rw [PhpValue.encodable] at h
      rw [PhpValue.nesting] at hdepth
      obtain ⟨items, hitems⟩ := encode_items_some entries (depth + 1) h (by omega)
      obtain ⟨members, hmembers⟩ := encode_entries_some entries (depth + 1) h (by omega)
      rw [jsonEncode, if_neg (by omega)]
      split
      · exact ⟨_, by rw [hitems]; rfl⟩
      · exact ⟨_, by rw [hmembers]; rfl⟩
  | .object properties, depth, h, hdepth => by
      rw [PhpValue.encodable] at h
      rw [PhpValue.nesting] at hdepth
      obtain ⟨members, hmembers⟩ := encode_properties_some properties (depth + 1) h (by omega)
      rw [jsonEncode, if_neg (by omega), hmembers]
      exact ⟨_, rfl⟩
  | .serializable result, _, h, hdepth => json_encode_some result h hdepth
  | .backedEnum backing, _, h, hdepth => json_encode_some backing h hdepth
  | .thrower _, _, h, _ => by cases h
  | .unitEnum, _, h, _ => by cases h
  | .resource, _, h, _ => by cases h
  | .recursion, _, h, _ => by cases h

theorem encode_items_some : ∀ (entries : List (PhpKey × PhpValue)) (depth : Nat),
    encodableEntries entries = true → depth + nestingOfEntries entries ≤ maxJsonDepth →
      ∃ items, encodeItems floatText depth entries = some items
  | [], _, _, _ => ⟨[], rfl⟩
  | (key, value) :: rest, depth, h, hdepth => by
      rw [encodableEntries, Bool.and_eq_true, Bool.and_eq_true] at h
      rw [nestingOfEntries] at hdepth
      obtain ⟨json, hjson⟩ : ∃ json, jsonEncode floatText depth value = some json :=
        json_encode_some value h.1.2 (by omega)
      obtain ⟨items, hitems⟩ := encode_items_some rest depth h.2 (by omega)
      exact ⟨json :: items, by rw [encodeItems, hjson, hitems]; rfl⟩

theorem encode_entries_some : ∀ (entries : List (PhpKey × PhpValue)) (depth : Nat),
    encodableEntries entries = true → depth + nestingOfEntries entries ≤ maxJsonDepth →
      ∃ members, encodeEntries floatText depth entries = some members
  | [], _, _, _ => ⟨[], rfl⟩
  | (key, value) :: rest, depth, h, hdepth => by
      rw [encodableEntries, Bool.and_eq_true, Bool.and_eq_true] at h
      rw [nestingOfEntries] at hdepth
      obtain ⟨name, hname⟩ := Option.isSome_iff_exists.mp h.1.1
      obtain ⟨json, hjson⟩ : ∃ json, jsonEncode floatText depth value = some json :=
        json_encode_some value h.1.2 (by omega)
      obtain ⟨members, hmembers⟩ := encode_entries_some rest depth h.2 (by omega)
      exact ⟨(name, json) :: members, by rw [encodeEntries, hname, hjson, hmembers]; rfl⟩

theorem encode_properties_some : ∀ (properties : List (List UInt8 × PhpValue)) (depth : Nat),
    encodableProperties properties = true →
    depth + nestingOfProperties properties ≤ maxJsonDepth →
      ∃ members, encodeProperties floatText depth properties = some members
  | [], _, _, _ => ⟨[], rfl⟩
  | (key, value) :: rest, depth, h, hdepth => by
      rw [encodableProperties, Bool.and_eq_true, Bool.and_eq_true] at h
      rw [nestingOfProperties] at hdepth
      obtain ⟨name, hname⟩ := Option.isSome_iff_exists.mp h.1.1
      obtain ⟨json, hjson⟩ : ∃ json, jsonEncode floatText depth value = some json :=
        json_encode_some value h.1.2 (by omega)
      obtain ⟨members, hmembers⟩ := encode_properties_some rest depth h.2 (by omega)
      exact ⟨(name, json) :: members, by rw [encodeProperties, hname, hjson, hmembers]; rfl⟩

end

end Spec

end PamDesktop.Php
