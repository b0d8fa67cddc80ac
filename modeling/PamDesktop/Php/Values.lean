import PamDesktop.Foundations.FileTree

/-!
# PHP values

The values that handlers of the PHP package return and receive. Strings are bytes. An object
shows what `json_encode` sees of it, and a value that contains itself is cut at the place where it
meets itself.
-/

namespace PamDesktop.Php

open Foundations

/-- A float; the finite ones are `± mantissa * 2 ^ exponent`. -/
inductive PhpFloat where
  | finite (negative : Bool) (mantissa : Nat) (exponent : Int)
  | infinite (negative : Bool)
  | nan
  deriving DecidableEq

/-- An array key. -/
inductive PhpKey where
  | int (value : Int)
  | string (bytes : List UInt8)
  deriving DecidableEq

/-- A value. `object` has its public properties, `serializable` what `jsonSerialize` returns and
`thrower` what it throws; `backedEnum` has its backing value; `recursion` is an array or an object
that is met again inside itself. -/
inductive PhpValue where
  | null
  | bool (value : Bool)
  | int (value : Int)
  | float (value : PhpFloat)
  | string (bytes : List UInt8)
  | array (entries : List (PhpKey × PhpValue))
  | object (properties : List (List UInt8 × PhpValue))
  | serializable (result : PhpValue)
  | thrower (message : List UInt8)
  | backedEnum (backing : PhpValue)
  | unitEnum
  | resource
  | recursion

/-- The entries of an array. -/
abbrev Entries := List (PhpKey × PhpValue)

/-- `array_key_exists` and the value there. -/
def entryNamed (entries : Entries) (name : String) : Option PhpValue :=
  (entries.find? fun entry => entry.1 == .string (osString name)).map Prod.snd

end PamDesktop.Php
