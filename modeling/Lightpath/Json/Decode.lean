import Lightpath.Json.Value
import Lightpath.Numeric.Power
import Lightpath.Text.Numeral

/-!
# Decoding JSON — from a document tree to typed values

A decoder is a function to `Option`: a tree either has the asked shape or it has not. A record is
read by its field names. It may be written as an object, where unknown members are skipped and a
known one must not repeat, or as an array of its fields in order, of which trailing ones may be
missing.
-/

namespace Lightpath.Json

/-! ## Scalars -/

/-- A text. -/
def text? : Json → Option String
  | .str s => some s
  | _ => none

/-- A truth value. -/
def bool? : Json → Option Bool
  | .bool b => some b
  | _ => none

/-- A whole number from `low` to `high`. -/
def wholeIn? (low high : Int) : Json → Option Int
  | .int n => if low ≤ n ∧ n ≤ high then some n else none
  | _ => none

/-- A natural number of 64 bits. -/
def natural? (j : Json) : Option Nat :=
  (wholeIn? 0 (twoPow 64 - 1 : Nat) j).map Int.toNat

/-- A whole number of 32 bits with sign. -/
def integer32? (j : Json) : Option Int := wholeIn? (-(twoPow 31 : Nat)) (twoPow 31 - 1 : Nat) j

/-- The nearest double of a whole number. -/
def floatOfInt (n : Int) : Float :=
  if n < 0 then -(Float.ofNat n.natAbs) else Float.ofNat n.natAbs

/-- A number, whole or not. -/
def float? : Json → Option Float
  | .int n => some (floatOfInt n)
  | .float x => some x
  | _ => none

/-- One of a list of names, written as a text or as an object with the name as its only member and
null as its value. -/
def oneOf? {α : Type} (named : String → Option α) : Json → Option α
  | .str s => named s
  | .obj [(s, .null)] => named s
  | _ => none

/-! ## Containers -/

/-- An array, item by item. -/
def list? {α : Type} (item : Json → Option α) : Json → Option (List α)
  | .arr items => items.mapM item
  | _ => none

/-- An object as entries in written order, repeated names included. -/
def entries? {κ ν : Type} (key : String → Option κ) (value : Json → Option ν) :
    Json → Option (List (κ × ν))
  | .obj members =>
    members.mapM fun m =>
      match key m.1, value m.2 with
      | some k, some v => some (k, v)
      | _, _ => none
  | _ => none

/-- A value that may be null. -/
def nullable? {α : Type} (value : Json → Option α) : Json → Option (Option α)
  | .null => some none
  | j => (value j).map some

/-! ## Records -/

/-- The member called `name`, which must not repeat: `none` if it does, `some none` if it is
missing. -/
def soleMember? (name : String) (members : List (String × Json)) : Option (Option Json) :=
  match members.filter (fun m => m.1 == name) with
  | [] => some none
  | [m] => some (some m.2)
  | _ => none

/-- The fields of a record in the order of `names`, each missing or present. -/
def fields? (names : List String) : Json → Option (List (Option Json))
  | .obj members => names.mapM (fun name => soleMember? name members)
  | .arr items =>
    if items.length ≤ names.length then
      some (items.map some ++ List.replicate (names.length - items.length) none)
    else none
  | _ => none

/-- A field that must be present. -/
def required? {α : Type} (value : Json → Option α) : Option Json → Option α
  | some j => value j
  | none => none

/-- A field with a value for its absence. -/
def defaulted? {α : Type} (absent : α) (value : Json → Option α) : Option Json → Option α
  | some j => value j
  | none => some absent

/-- A field that may be missing or null. -/
def optional? {α : Type} (value : Json → Option α) (field : Option Json) : Option (Option α) :=
  defaulted? none (nullable? value) field

end Lightpath.Json
