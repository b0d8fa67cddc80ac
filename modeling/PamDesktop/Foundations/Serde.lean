import Mathlib.Data.List.Nodup
import Mathlib.Data.String.Basic

/-!
# Codecs

Values as JSON, the way a derived serializer writes them: a `Codec` is an encoder and a decoder
with the proof that decoding undoes encoding. `Record` builds the codec of a structure from its
fields, each with its name, the value a missing member stands for and the values that are left
out. Read `Field` and `Record.codec` first.
-/

namespace Foundations

/-! ## Values -/

/-- A JSON value. `decimal` is a number that is no integer, as it is written. -/
inductive Json where
  | null
  | bool (value : Bool)
  | number (value : Int)
  | decimal (text : String)
  | string (value : String)
  | array (items : List Json)
  | object (members : List (String × Json))

mutual

/-- How deep arrays and objects are nested. -/
def Json.depth : Json → Nat
  | .array items => depthOfItems items + 1
  | .object members => depthOfMembers members + 1
  | .null | .bool _ | .number _ | .decimal _ | .string _ => 0

def depthOfItems : List Json → Nat
  | [] => 0
  | item :: rest => max item.depth (depthOfItems rest)

def depthOfMembers : List (String × Json) → Nat
  | [] => 0
  | (_, value) :: rest => max value.depth (depthOfMembers rest)

end

theorem depth_of_items_le {items : List Json} {bound : Nat}
    (h : ∀ item ∈ items, item.depth ≤ bound) : depthOfItems items ≤ bound := by
  induction items with
  | nil => exact Nat.zero_le bound
  | cons item rest ih =>
      rw [depthOfItems]
      have hrest := ih fun other hmem => h other (List.mem_cons_of_mem _ hmem)
      have hitem := h item List.mem_cons_self
      omega

theorem depth_le_of_items {items : List Json} {item : Json} (h : item ∈ items) :
    item.depth ≤ depthOfItems items := by
  induction items with
  | nil => cases h
  | cons other rest ih =>
      rw [depthOfItems]
      obtain rfl | hmem := List.mem_cons.mp h
      · exact Nat.le_max_left _ _
      · exact Nat.le_trans (ih hmem) (Nat.le_max_right _ _)

theorem depth_of_members_le {members : List (String × Json)} {bound : Nat}
    (h : ∀ member ∈ members, member.2.depth ≤ bound) : depthOfMembers members ≤ bound := by
  induction members with
  | nil => exact Nat.zero_le bound
  | cons member rest ih =>
      rw [depthOfMembers]
      have hrest := ih fun other hmem => h other (List.mem_cons_of_mem _ hmem)
      have hmember := h member List.mem_cons_self
      omega

theorem depth_le_of_members {members : List (String × Json)} {member : String × Json}
    (h : member ∈ members) : member.2.depth ≤ depthOfMembers members := by
  induction members with
  | nil => cases h
  | cons other rest ih =>
      rw [depthOfMembers]
      obtain rfl | hmem := List.mem_cons.mp h
      · exact Nat.le_max_left _ _
      · exact Nat.le_trans (ih hmem) (Nat.le_max_right _ _)

/-! ## Text -/

/-- A character of a string, with the escapes that JSON asks for. -/
def escapeChar (c : Char) : List Char :=
  let hex (digit : Nat) : Char := Char.ofNat (if digit < 10 then 48 + digit else 87 + digit)
  match c.toNat with
  | 8 => ['\\', 'b']
  | 9 => ['\\', 't']
  | 10 => ['\\', 'n']
  | 12 => ['\\', 'f']
  | 13 => ['\\', 'r']
  | 34 => ['\\', c]
  | 92 => ['\\', c]
  | code => if code < 32 then ['\\', 'u', '0', '0', hex (code / 16), hex (code % 16)] else [c]

section Text

variable (escape : Char → List Char)

/-- A string in quotes. -/
def quoted (text : String) : List Char := '"' :: text.toList.flatMap escape ++ ['"']

/-- The text of a value that is neither an array nor an object. -/
def Json.scalar : Json → List Char
  | .bool true => ['t', 'r', 'u', 'e']
  | .bool false => ['f', 'a', 'l', 's', 'e']
  | .number value => (toString value).toList
  | .decimal text => text.toList
  | .string value => quoted escape value
  | .null | .array _ | .object _ => ['n', 'u', 'l', 'l']

/-- Items or members with commas between them. -/
def commas (separator : List Char) : List (List Char) → List Char
  | [] => []
  | [last] => last
  | first :: rest => first ++ ',' :: separator ++ commas separator rest

mutual

/-- The text without white space. -/
def Json.text : Json → List Char
  | .array items => '[' :: commas [] (itemTexts items) ++ [']']
  | .object members => '\x7b' :: commas [] (memberTexts members) ++ ['\x7d']
  | scalar => scalar.scalar escape

def itemTexts : List Json → List (List Char)
  | [] => []
  | item :: rest => item.text :: itemTexts rest

def memberTexts : List (String × Json) → List (List Char)
  | [] => []
  | (name, value) :: rest => (quoted escape name ++ ':' :: value.text) :: memberTexts rest

end

/-- An array or object with a line for each item or member, two spaces in from `indent`. -/
def block (opening closing : Char) (indent : List Char) (lines : List (List Char)) : List Char :=
  let inner := '\n' :: ' ' :: ' ' :: indent
  if lines.isEmpty then [opening, closing]
  else opening :: inner ++ commas inner lines ++ '\n' :: indent ++ [closing]

mutual

/-- The text with one item or member a line. -/
def Json.pretty (indent : List Char) : Json → List Char
  | .array items => block '[' ']' indent (prettyItems (' ' :: ' ' :: indent) items)
  | .object members => block '\x7b' '\x7d' indent (prettyMembers (' ' :: ' ' :: indent) members)
  | scalar => scalar.scalar escape

def prettyItems (indent : List Char) : List Json → List (List Char)
  | [] => []
  | item :: rest => item.pretty indent :: prettyItems indent rest

def prettyMembers (indent : List Char) : List (String × Json) → List (List Char)
  | [] => []
  | (name, value) :: rest =>
      (quoted escape name ++ ':' :: ' ' :: value.pretty indent) :: prettyMembers indent rest

end

end Text

/-! ## Codecs -/

/-- How the values of a type are written and read. `Valid` values come back, and are nested no
deeper than `depth`. -/
structure Codec (α : Type) where
  encode : α → Json
  decode : Json → Option α
  Valid : α → Prop
  depth : Nat
  decode_encode : ∀ a, Valid a → decode (encode a) = some a
  depth_encode : ∀ a, Valid a → (encode a).depth ≤ depth

namespace Codec

/-- No value at all. -/
def never {α : Type} : Codec α where
  encode _ := .null
  decode _ := none
  Valid _ := False
  depth := 0
  decode_encode _ h := h.elim
  depth_encode _ h := h.elim

/-- A string. -/
def text : Codec String where
  encode := .string
  decode
    | .string value => some value
    | _ => none
  Valid _ := True
  depth := 0
  decode_encode _ _ := rfl
  depth_encode _ _ := Nat.le_refl 0

theorem text_ne_null (value : String) : text.encode value ≠ .null := nofun

/-- A boolean. -/
def boolean : Codec Bool where
  encode := .bool
  decode
    | .bool value => some value
    | _ => none
  Valid _ := True
  depth := 0
  decode_encode _ _ := rfl
  depth_encode _ _ := Nat.le_refl 0

/-- A value kept as it is. -/
def raw (depth : Nat) : Codec Json where
  encode json := json
  decode := some
  Valid json := json.depth ≤ depth
  depth := depth
  decode_encode _ _ := rfl
  depth_encode _ h := h

/-- An unsigned integer of so many bits. -/
def unsigned (bits : Nat) : Codec Nat where
  encode n := .number n
  decode
    | .number value =>
        if 0 ≤ value ∧ value < ((2 ^ bits : Nat) : Int) then some value.toNat else none
    | _ => none
  Valid n := n < 2 ^ bits
  depth := 0
  decode_encode n hn := by
    have hrange : (0 : Int) ≤ n ∧ (n : Int) < ((2 ^ bits : Nat) : Int) :=
      ⟨Int.natCast_nonneg n, by exact_mod_cast hn⟩
    show (if _ then _ else _) = _
    rw [if_pos hrange]
    rfl
  depth_encode _ _ := Nat.le_refl 0

/-- An enumeration, written as the position of the variant, from one on. -/
def variant {α : Type} [DecidableEq α] (variants : List α) (hall : ∀ a, a ∈ variants)
    (hcount : variants.length < 2 ^ 8 := by decide) : Codec α where
  encode a := (unsigned 8).encode (variants.idxOf a + 1)
  decode json :=
    match (unsigned 8).decode json with
    | some (position + 1) => variants[position]?
    | _ => none
  Valid _ := True
  depth := 0
  decode_encode a _ := by
    have hbound := List.idxOf_lt_length_of_mem (hall a)
    rw [(unsigned 8).decode_encode (variants.idxOf a + 1) (Nat.lt_of_le_of_lt hbound hcount)]
    show variants[variants.idxOf a]? = some a
    rw [List.getElem?_eq_getElem hbound, List.getElem_idxOf]
  depth_encode _ _ := Nat.le_refl 0

/-- A value that may be missing, written as `null`. -/
def option {α : Type} (codec : Codec α) (hnull : ∀ a, codec.encode a ≠ .null) :
    Codec (Option α) where
  encode
    | none => .null
    | some a => codec.encode a
  decode
    | .null => some none
    | json => (codec.decode json).map some
  Valid value := ∀ a, value = some a → codec.Valid a
  depth := codec.depth
  decode_encode value hvalid := by
    cases value with
    | none => rfl
    | some a =>
        have hdecode := codec.decode_encode a (hvalid a rfl)
        split
        · rename_i h
          exact absurd h (hnull a)
        · rw [hdecode]
          rfl
  depth_encode value hvalid := by
    cases value with
    | none => exact Nat.zero_le _
    | some a => exact codec.depth_encode a (hvalid a rfl)

theorem map_decode {α β : Type} {read : β → Option α} {write : α → β} {values : List α}
    (h : ∀ a ∈ values, read (write a) = some a) : (values.map write).mapM read = some values := by
  induction values with
  | nil => rfl
  | cons a rest ih =>
      have hrest := ih fun other hmem => h other (List.mem_cons_of_mem _ hmem)
      rw [List.map_cons, List.mapM_cons, h a List.mem_cons_self, hrest]
      rfl

/-- A sequence. -/
def list {α : Type} (codec : Codec α) : Codec (List α) where
  encode values := .array (values.map codec.encode)
  decode
    | .array items => items.mapM codec.decode
    | _ => none
  Valid values := ∀ a ∈ values, codec.Valid a
  depth := codec.depth + 1
  decode_encode values hvalid := map_decode fun a hmem => codec.decode_encode a (hvalid a hmem)
  depth_encode values hvalid := by
    refine Nat.succ_le_succ (depth_of_items_le fun item hmem => ?_)
    obtain ⟨a, ha, rfl⟩ := List.mem_map.mp hmem
    exact codec.depth_encode a (hvalid a ha)

/-- The values of a type that stand for those of another. -/
def convert {α β : Type} (codec : Codec α) (make : α → β) (back : β → α)
    (hback : ∀ b, make (back b) = b) : Codec β where
  encode b := codec.encode (back b)
  decode json := (codec.decode json).map make
  Valid b := codec.Valid (back b)
  depth := codec.depth
  decode_encode b hvalid := by
    rw [codec.decode_encode (back b) hvalid]
    exact congrArg some (hback b)
  depth_encode b := codec.depth_encode (back b)

end Codec

/-! ## Maps -/

/-- A map, as its entries in the order of their keys. -/
abbrev Sorted (α : Type) (entries : List (String × α)) : Prop :=
  entries.Pairwise fun first second => first.1 < second.1

section Maps

variable {α : Type}

/-- Insert an entry, in the place of one that has its key. -/
def insertEntry (name : String) (value : α) : List (String × α) → List (String × α)
  | [] => [(name, value)]
  | (other, old) :: rest =>
      if name < other then (name, value) :: (other, old) :: rest
      else if name = other then (name, value) :: rest
      else (other, old) :: insertEntry name value rest

theorem mem_insert_entry {name : String} {value : α} {entries : List (String × α)}
    {entry : String × α} (h : entry ∈ insertEntry name value entries) :
    entry = (name, value) ∨ entry ∈ entries := by
  induction entries with
  | nil => exact .inl (List.mem_singleton.mp h)
  | cons head rest ih =>
      rw [insertEntry] at h
      split at h
      · exact List.mem_cons.mp h
      · split at h
        · obtain h | h := List.mem_cons.mp h
          · exact .inl h
          · exact .inr (List.mem_cons_of_mem _ h)
        · obtain rfl | h := List.mem_cons.mp h
          · exact .inr List.mem_cons_self
          · exact (ih h).imp id (List.mem_cons_of_mem _)

theorem Sorted.insert {name : String} {value : α} {entries : List (String × α)}
    (h : Sorted α entries) : Sorted α (insertEntry name value entries) := by
  induction entries with
  | nil => exact List.pairwise_singleton _ _
  | cons head rest ih =>
      obtain ⟨other, old⟩ := head
      obtain ⟨hhead, hrest⟩ := List.pairwise_cons.mp h
      rw [insertEntry]
      split
      · rename_i hlt
        refine List.pairwise_cons.mpr ⟨fun entry hmem => ?_, h⟩
        obtain rfl | hmem := List.mem_cons.mp hmem
        · exact hlt
        · exact lt_trans hlt (hhead entry hmem)
      · rename_i hle
        split
        · rename_i hname
          subst hname
          exact List.pairwise_cons.mpr ⟨hhead, hrest⟩
        · rename_i hne
          refine List.pairwise_cons.mpr ⟨fun entry hmem => ?_, ih hrest⟩
          obtain rfl | hmem := mem_insert_entry hmem
          · exact lt_of_le_of_ne (not_lt.mp hle) (Ne.symm hne)
          · exact hhead entry hmem

/-- An entry behind all others goes to the end. -/
theorem insert_entry_last {name : String} {value : α} {entries : List (String × α)}
    (h : ∀ entry ∈ entries, entry.1 < name) :
    insertEntry name value entries = entries ++ [(name, value)] := by
  induction entries with
  | nil => rfl
  | cons head rest ih =>
      have hhead := h head List.mem_cons_self
      rw [insertEntry, if_neg (lt_asymm hhead), if_neg hhead.ne',
        ih fun entry hmem => h entry (List.mem_cons_of_mem _ hmem)]
      rfl

/-- Read the members one by one into a map. -/
def readEntries (codec : Codec α) (entries : {entries // Sorted α entries}) :
    List (String × Json) → Option {entries // Sorted α entries}
  | [] => some entries
  | (name, json) :: rest => do
      let value ← codec.decode json
      readEntries codec ⟨insertEntry name value entries.1, entries.2.insert⟩ rest

theorem read_entries {codec : Codec α} {read entries : List (String × α)}
    (hsorted : Sorted α (read ++ entries)) (hread : Sorted α read)
    (hvalid : ∀ entry ∈ entries, codec.Valid entry.2) :
    readEntries codec ⟨read, hread⟩
        (entries.map fun entry => (entry.1, codec.encode entry.2)) =
      some ⟨read ++ entries, hsorted⟩ := by
  induction entries generalizing read with
  | nil => simp [readEntries]
  | cons entry rest ih =>
      have hlast : insertEntry entry.1 entry.2 read = read ++ [entry] :=
        insert_entry_last fun other hmem =>
          (List.pairwise_append.mp hsorted).2.2 other hmem entry List.mem_cons_self
      have hsorted' : Sorted α ((read ++ [entry]) ++ rest) := by
        rw [List.append_assoc]
        exact hsorted
      have hprefix : Sorted α (read ++ [entry]) := (List.pairwise_append.mp hsorted').1
      have hrest := ih hsorted' hprefix fun other hmem => hvalid other (List.mem_cons_of_mem _ hmem)
      rw [List.map_cons, readEntries, codec.decode_encode _ (hvalid entry List.mem_cons_self)]
      simp only [Option.bind_eq_bind, Option.bind_some, hlast, hrest, List.append_assoc,
        List.singleton_append]

theorem insert_entry_perm {name : String} {value : α} {entries : List (String × α)}
    (h : name ∉ entries.map Prod.fst) :
    (insertEntry name value entries).Perm ((name, value) :: entries) := by
  induction entries with
  | nil => exact List.Perm.refl _
  | cons head rest ih =>
      obtain ⟨other, old⟩ := head
      rw [List.map_cons, List.mem_cons, not_or] at h
      rw [insertEntry]
      split
      · exact List.Perm.refl _
      · rw [if_neg h.1]
        exact ((ih h.2).cons (other, old)).trans (List.Perm.swap _ _ _)

/-- Entries that are written in any order are read into the map that they make up. -/
theorem read_entries_perm {codec : Codec α} {read entries : List (String × α)}
    (hread : Sorted α read) (hnodup : ((read ++ entries).map Prod.fst).Nodup)
    (hvalid : ∀ entry ∈ entries, codec.Valid entry.2) :
    ∃ all, readEntries codec ⟨read, hread⟩
        (entries.map fun entry => (entry.1, codec.encode entry.2)) = some all ∧
      all.1.Perm (read ++ entries) := by
  induction entries generalizing read with
  | nil =>
      rw [List.append_nil]
      exact ⟨⟨read, hread⟩, rfl, List.Perm.refl _⟩
  | cons entry rest ih =>
      have hfresh : entry.1 ∉ read.map Prod.fst := by
        rw [List.map_append, List.nodup_append] at hnodup
        intro hmem
        exact hnodup.2.2 _ hmem _ List.mem_cons_self rfl
      have hinsert : (insertEntry entry.1 entry.2 read).Perm (entry :: read) :=
        insert_entry_perm hfresh
      have hmoved : (insertEntry entry.1 entry.2 read ++ rest).Perm (read ++ entry :: rest) :=
        (hinsert.append_right rest).trans List.perm_middle.symm
      obtain ⟨all, hall, hperm⟩ := ih hread.insert
        ((hmoved.map Prod.fst).nodup_iff.mpr hnodup)
        fun other hmem => hvalid other (List.mem_cons_of_mem _ hmem)
      refine ⟨all, ?_, hperm.trans hmoved⟩
      rw [List.map_cons, readEntries, codec.decode_encode _ (hvalid entry List.mem_cons_self)]
      exact hall

/-- A map with the keys as names; of two members with one name the later counts. -/
def Codec.map (codec : Codec α) : Codec {entries // Sorted α entries} where
  encode entries := .object (entries.1.map fun entry => (entry.1, codec.encode entry.2))
  decode
    | .object members => readEntries codec ⟨[], List.Pairwise.nil⟩ members
    | _ => none
  Valid entries := ∀ entry ∈ entries.1, codec.Valid entry.2
  depth := codec.depth + 1
  decode_encode entries hvalid := read_entries entries.2 List.Pairwise.nil hvalid
  depth_encode entries hvalid := by
    refine Nat.succ_le_succ (depth_of_members_le fun member hmem => ?_)
    obtain ⟨entry, hentry, rfl⟩ := List.mem_map.mp hmem
    exact codec.depth_encode entry.2 (hvalid entry hentry)

end Maps

/-! ## Structures -/

/-- A field of a structure: its name, the value that a missing member stands for, and the values
for which it is left out. -/
structure Field (σ α : Type) where
  name : String
  get : σ → α
  codec : Codec α
  missing : Option α
  skip : α → Bool
  restored : ∀ a, skip a = true → missing = some a

theorem lookup_absent {α : Type} {members : List (String × α)} {name : String}
    (h : name ∉ members.map Prod.fst) : members.lookup name = none := by
  rw [List.lookup_eq_none_iff]
  intro member hmem
  rw [bne_iff_ne]
  intro hname
  exact h (List.mem_map.mpr ⟨member, hmem, hname.symm⟩)

namespace Field

variable {σ α : Type} (field : Field σ α)

/-- The member, unless it is left out. -/
def write (s : σ) : List (String × Json) :=
  if field.skip (field.get s) then [] else [(field.name, field.codec.encode (field.get s))]

/-- The value of a member that may be missing. -/
def read (member : Option Json) : Option α :=
  match member with
  | some json => field.codec.decode json
  | none => field.missing

/-- What is written is read back, whatever follows it. -/
theorem read_write {s : σ} (hvalid : field.codec.Valid (field.get s))
    {after : List (String × Json)} (hafter : field.name ∉ after.map Prod.fst) :
    field.read ((field.write s ++ after).lookup field.name) = some (field.get s) := by
  unfold write
  split
  · rename_i hskip
    rw [List.nil_append, lookup_absent hafter]
    exact field.restored _ hskip
  · rw [List.cons_append, List.lookup_cons_self]
    exact field.codec.decode_encode _ hvalid

end Field

/-- The fields of a structure read so far: `value` is what they make of it. -/
structure Record (σ τ : Type) where
  names : List String
  write : σ → List (String × Json)
  read : List (String × Json) → Option τ
  readItems : List Json → Option (τ × List Json)
  value : σ → τ
  Valid : σ → Prop
  depth : Nat
  names_write : ∀ s, ((write s).map Prod.fst).Sublist names
  read_write : names.Nodup → ∀ s, Valid s → ∀ after : List (String × Json),
    (∀ name ∈ names, name ∉ after.map Prod.fst) → read (write s ++ after) = some (value s)
  depth_write : ∀ s, Valid s → ∀ member ∈ write s, member.2.depth ≤ depth

namespace Record

variable {σ τ α : Type}

/-- No field yet. -/
def start (σ : Type) (build : τ) : Record σ τ where
  names := []
  write _ := []
  read _ := some build
  readItems items := some (build, items)
  value _ := build
  Valid _ := True
  depth := 0
  names_write _ := List.Sublist.slnil
  read_write _ _ _ _ _ := rfl
  depth_write _ _ _ h := absurd h List.not_mem_nil

/-- One more field. -/
def field (record : Record σ (α → τ)) (field : Field σ α) : Record σ τ where
  names := record.names ++ [field.name]
  write s := record.write s ++ field.write s
  read members := do
    let build ← record.read members
    let a ← field.read (members.lookup field.name)
    some (build a)
  readItems items := do
    let (build, rest) ← record.readItems items
    let a ← field.read rest.head?
    some (build a, rest.tail)
  value s := record.value s (field.get s)
  Valid s := record.Valid s ∧ field.codec.Valid (field.get s)
  depth := max record.depth field.codec.depth
  names_write s := by
    rw [List.map_append]
    refine (record.names_write s).append ?_
    unfold Field.write
    split
    · exact List.nil_sublist _
    · exact List.Sublist.refl _
  read_write hnodup s hvalid after hafter := by
    obtain ⟨hnames, -, hfresh⟩ := List.nodup_append.mp hnodup
    have hfield : field.name ∉ record.names := fun hmem =>
      hfresh _ hmem _ List.mem_cons_self rfl
    have hread : record.read (record.write s ++ (field.write s ++ after)) =
        some (record.value s) := by
      refine record.read_write hnames s hvalid.1 _ fun name hname hmem => ?_
      rw [List.map_append, List.mem_append] at hmem
      obtain hmem | hmem := hmem
      · unfold Field.write at hmem
        split at hmem
        · cases hmem
        · rw [List.map_singleton, List.mem_singleton] at hmem
          rw [hmem] at hname
          exact hfield hname
      · exact hafter name (List.mem_append_left _ hname) hmem
    have hlookup : (record.write s ++ (field.write s ++ after)).lookup field.name =
        (field.write s ++ after).lookup field.name := by
      rw [List.lookup_append, lookup_absent, Option.none_or]
      intro hmem
      exact hfield ((record.names_write s).subset hmem)
    have hvalue : field.read ((field.write s ++ after).lookup field.name) = some (field.get s) :=
      field.read_write hvalid.2 (hafter field.name (List.mem_append_right _ List.mem_cons_self))
    rw [List.append_assoc, hread, hlookup, hvalue]
    rfl
  depth_write s hvalid member hmem := by
    obtain hmem | hmem := List.mem_append.mp hmem
    · exact Nat.le_trans (record.depth_write s hvalid.1 member hmem) (Nat.le_max_left _ _)
    · unfold Field.write at hmem
      split at hmem
      · cases hmem
      · obtain rfl := List.mem_singleton.mp hmem
        exact Nat.le_trans (field.codec.depth_encode _ hvalid.2) (Nat.le_max_right _ _)

/-- A field that must be there. -/
def required (record : Record σ (α → τ)) (name : String) (get : σ → α) (codec : Codec α) :
    Record σ τ :=
  record.field ⟨name, get, codec, none, fun _ => false, nofun⟩

/-- A field with a default. -/
def defaulted (record : Record σ (α → τ)) (name : String) (get : σ → α) (codec : Codec α)
    (default : α) : Record σ τ :=
  record.field ⟨name, get, codec, some default, fun _ => false, nofun⟩

/-- A field with a default that is left out under a condition. -/
def skipped (record : Record σ (α → τ)) (name : String) (get : σ → α) (codec : Codec α)
    (default : α) (skip : α → Bool) (hskip : ∀ a, skip a = true → a = default) : Record σ τ :=
  record.field ⟨name, get, codec, some default, skip, fun a h => by rw [hskip a h]⟩

/-- An optional field that is left out when there is none. -/
def optional (record : Record σ (Option α → τ)) (name : String) (get : σ → Option α)
    (codec : Codec α) (hnull : ∀ a, codec.encode a ≠ .null) : Record σ τ :=
  record.skipped name get (codec.option hnull) none Option.isNone
    fun _ => Option.isNone_iff_eq_none.mp

/-- The structure itself. An object must name no field twice, and with `deny` no other; an array
gives the fields in their order. -/
def codec (record : Record σ σ) (deny : Bool)
    (hvalue : ∀ s, record.value s = s := by intro s; cases s; rfl)
    (hnames : record.names.Nodup := by decide) : Codec σ where
  encode s := .object (record.write s)
  decode
    | .object members =>
        let names := members.map Prod.fst
        if deny && names.any (· ∉ record.names) then none
        else if (names.filter (· ∈ record.names)).Nodup then record.read members
        else none
    | .array items =>
        match record.readItems items with
        | some (s, []) => some s
        | _ => none
    | _ => none
  Valid := record.Valid
  depth := record.depth + 1
  decode_encode s hvalid := by
    have hread : record.read (record.write s) = some s := by
      have := record.read_write hnames s hvalid [] fun _ _ => List.not_mem_nil
      rw [List.append_nil, hvalue] at this
      exact this
    have hknown : ((record.write s).map Prod.fst).any (· ∉ record.names) = false := by
      rw [List.any_eq_false]
      intro name hmem
      simpa using (record.names_write s).subset hmem
    have hnodup : (((record.write s).map Prod.fst).filter (· ∈ record.names)).Nodup :=
      ((record.names_write s).nodup hnames).filter _
    simp only [hknown, Bool.and_false, Bool.false_eq_true, if_false, if_pos hnodup, hread]
  depth_encode s hvalid := Nat.succ_le_succ (depth_of_members_le (record.depth_write s hvalid))

end Record

/-! ## Bytes -/

/-- The bytes of a text. -/
def textBytes (text : List Char) : List UInt8 := text.flatMap String.utf8EncodeChar

/-- The text without white space, as a file or a message holds it. -/
def Json.bytes (json : Json) : List UInt8 := textBytes (json.text escapeChar)

/-- How deep a text may be nested to be parsed. -/
def recursionLimit : Nat := 128

/-- The parser reads the text of this value, if it is not nested too deep. -/
def Parses (parse : List UInt8 → Option Json) (bytes : List UInt8) (json : Json) : Prop :=
  json.depth < recursionLimit → parse bytes = some json

/-- A parser that knows one text. -/
def parserOf (text : List UInt8) (json : Json) (bytes : List UInt8) : Option Json :=
  if bytes = text then some json else none

theorem parses_known (text : List UInt8) (json : Json) : Parses (parserOf text json) text json :=
  fun _ => if_pos rfl

namespace Codec

variable {α : Type} (codec : Codec α)

/-- The bytes of a value. -/
def toVec (a : α) : List UInt8 := (codec.encode a).bytes

/-- The value that the bytes stand for. -/
def fromSlice (parse : List UInt8 → Option Json) (bytes : List UInt8) : Option α :=
  (parse bytes).bind codec.decode

/-- A valid value of a codec that is not nested too deep comes back. -/
theorem from_slice {parse : List UInt8 → Option Json} {a : α} {bytes : List UInt8}
    (hvalid : codec.Valid a) (hdepth : codec.depth < recursionLimit)
    (hparse : Parses parse bytes (codec.encode a)) : codec.fromSlice parse bytes = some a := by
  have hlimit := Nat.lt_of_le_of_lt (codec.depth_encode a hvalid) hdepth
  rw [fromSlice, hparse hlimit]
  exact codec.decode_encode a hvalid

end Codec

/-! ## What is valid -/

section Valid

variable {σ τ α β : Type} {name : String}

@[simp] theorem Codec.text_valid {a : String} : Codec.text.Valid a ↔ True := Iff.rfl

@[simp] theorem Codec.boolean_valid {a : Bool} : Codec.boolean.Valid a ↔ True := Iff.rfl

@[simp] theorem Codec.raw_valid {depth : Nat} {json : Json} :
    (Codec.raw depth).Valid json ↔ json.depth ≤ depth := Iff.rfl

@[simp] theorem Codec.unsigned_valid {bits n : Nat} :
    (Codec.unsigned bits).Valid n ↔ n < 2 ^ bits := Iff.rfl

@[simp] theorem Codec.variant_valid [DecidableEq α] {variants : List α}
    {hall : ∀ a, a ∈ variants} {hcount : variants.length < 2 ^ 8} {a : α} :
    (Codec.variant variants hall hcount).Valid a ↔ True := Iff.rfl

@[simp] theorem Codec.list_valid {codec : Codec α} {values : List α} :
    codec.list.Valid values ↔ ∀ a ∈ values, codec.Valid a := Iff.rfl

@[simp] theorem Codec.option_valid {codec : Codec α} {hnull : ∀ a, codec.encode a ≠ .null}
    {value : Option α} : (codec.option hnull).Valid value ↔ ∀ a, value = some a → codec.Valid a :=
  Iff.rfl

@[simp] theorem Codec.convert_valid {codec : Codec α} {make : α → β} {back : β → α}
    {hback : ∀ b, make (back b) = b} {b : β} :
    (codec.convert make back hback).Valid b ↔ codec.Valid (back b) := Iff.rfl

@[simp] theorem Codec.map_valid {codec : Codec α} {entries : {entries // Sorted α entries}} :
    codec.map.Valid entries ↔ ∀ entry ∈ entries.1, codec.Valid entry.2 := Iff.rfl

namespace Record

@[simp] theorem start_valid {build : τ} {s : σ} : (start σ build).Valid s ↔ True := Iff.rfl

@[simp] theorem required_valid {record : Record σ (α → τ)} {get : σ → α} {codec : Codec α} {s : σ} :
    (record.required name get codec).Valid s ↔ record.Valid s ∧ codec.Valid (get s) := Iff.rfl

@[simp] theorem defaulted_valid {record : Record σ (α → τ)} {get : σ → α} {codec : Codec α}
    {default : α} {s : σ} :
    (record.defaulted name get codec default).Valid s ↔ record.Valid s ∧ codec.Valid (get s) :=
  Iff.rfl

@[simp] theorem skipped_valid {record : Record σ (α → τ)} {get : σ → α} {codec : Codec α}
    {default : α} {skip : α → Bool} {hskip : ∀ a, skip a = true → a = default} {s : σ} :
    (record.skipped name get codec default skip hskip).Valid s ↔
      record.Valid s ∧ codec.Valid (get s) := Iff.rfl

@[simp] theorem optional_valid {record : Record σ (Option α → τ)} {get : σ → Option α}
    {codec : Codec α} {hnull : ∀ a, codec.encode a ≠ .null} {s : σ} :
    (record.optional name get codec hnull).Valid s ↔
      record.Valid s ∧ ∀ a, get s = some a → codec.Valid a := Iff.rfl

@[simp] theorem codec_valid {record : Record σ σ} {deny : Bool}
    {hvalue : ∀ s, record.value s = s} {hnames : record.names.Nodup} {s : σ} :
    (record.codec deny hvalue hnames).Valid s ↔ record.Valid s := Iff.rfl

end Record

end Valid

end Foundations
