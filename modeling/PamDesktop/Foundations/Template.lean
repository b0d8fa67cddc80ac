/-!
# Templates

Texts with places that values are put into, as format strings have them.
-/

namespace Foundations

variable {ι : Type}

/-- A character of a template: its own, or the place of a value. -/
inductive Symbol (ι : Type) where
  | char (c : Char)
  | hole (index : ι)
deriving DecidableEq

/-- A piece of a format string. -/
inductive Piece (ι : Type) where
  | text (text : String)
  | value (index : ι)

/-- The characters of a format string. -/
def symbols (pieces : List (Piece ι)) : List (Symbol ι) :=
  pieces.flatMap fun
    | .text text => text.toList.map .char
    | .value index => [.hole index]

/-- `format!`. -/
def format (values : ι → String) (pieces : List (Piece ι)) : String :=
  String.join <| pieces.map fun
    | .text text => text
    | .value index => values index

/-- What stands in a text for a symbol. -/
def Symbol.fill (values : ι → List Char) : Symbol ι → List Char
  | .char c => [c]
  | .hole index => values index

/-- A template with values put into it. -/
def fill (values : ι → List Char) (text : List (Symbol ι)) : List Char :=
  text.flatMap (Symbol.fill values)

variable {values : ι → List Char}

@[simp] theorem fill_nil : fill values [] = [] := rfl

@[simp] theorem fill_cons (symbol : Symbol ι) (text : List (Symbol ι)) :
    fill values (symbol :: text) = symbol.fill values ++ fill values text := rfl

@[simp] theorem fill_append (first second : List (Symbol ι)) :
    fill values (first ++ second) = fill values first ++ fill values second :=
  List.flatMap_append

@[simp] theorem fill_char (c : Char) : (Symbol.char c).fill values = [c] := rfl

@[simp] theorem fill_hole (index : ι) : (Symbol.hole index).fill values = values index := rfl

theorem fill_chars (text : List Char) : fill values (text.map .char) = text := by
  induction text with
  | nil => rfl
  | cons c rest ih => simp [ih]

/-- What `format!` writes is the template with the values put into it. -/
theorem format_symbols (values : ι → String) (pieces : List (Piece ι)) :
    (format values pieces).toList = fill (fun index => (values index).toList) (symbols pieces) := by
  induction pieces with
  | nil => rfl
  | cons piece rest ih =>
      have hformat : (format values (piece :: rest)).toList =
          (format values [piece]).toList ++ (format values rest).toList := by
        simp [format]
      rw [hformat, ih]
      cases piece with
      | text text => simp [format, symbols, fill_chars]
      | value index => simp [format, symbols]

/-- The characters of the pieces, spelled out one by one. The kernel takes a literal for such a
list, and would need long to compute it. -/
inductive Spells : List (Piece ι) → List (Symbol ι) → Prop
  | nil : Spells [] []
  | text (characters : List Char) {pieces : List (Piece ι)} {template : List (Symbol ι)}
      (h : Spells pieces template) :
      Spells (.text (String.ofList characters) :: pieces) (characters.map .char ++ template)
  | value (index : ι) {pieces : List (Piece ι)} {template : List (Symbol ι)}
      (h : Spells pieces template) : Spells (.value index :: pieces) (.hole index :: template)

theorem symbols_of_spells {pieces : List (Piece ι)} {template : List (Symbol ι)}
    (h : Spells pieces template) : symbols pieces = template := by
  induction h with
  | nil => rfl
  | text characters h ih =>
      show (String.ofList characters).toList.map .char ++ symbols _ = _
      rw [String.toList_ofList, ih]
  | value index h ih => exact congrArg (Symbol.hole index :: ·) ih

end Foundations
