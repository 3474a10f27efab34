/-!
# JSON values — the document tree

Numbers are either whole (`int`) or doubles (`float`), as their written form decides. Object members
keep their written order and repeated names, so that a reader of a document can tell which came last
and refuse what must not repeat.

A value can be well formed and still stand for nothing: a number beyond the range of doubles, a text
with half of a surrogate pair, an object with such a text as a name. It is the value `void`, which
may be skipped but never read.
-/

namespace Lightpath

/-- A JSON document tree. -/
inductive Json where
  | null
  | bool (b : Bool)
  | int (n : Int)
  | float (x : Float)
  | str (s : String)
  | void
  | arr (items : List Json)
  | obj (members : List (String × Json))
deriving Inhabited

namespace Json

/-! ## Readability -/

mutual

/-- Whether the tree holds no `void` and nests at most `depth` levels of arrays and objects. -/
def fits : Nat → Json → Bool
  | _, .void => false
  | 0, .arr _ => false
  | 0, .obj _ => false
  | depth + 1, .arr items => fitsItems depth items
  | depth + 1, .obj members => fitsMembers depth members
  | _, _ => true

/-- `fits` for every item of an array. -/
def fitsItems : Nat → List Json → Bool
  | _, [] => true
  | depth, j :: rest => fits depth j && fitsItems depth rest

/-- `fits` for every member of an object. -/
def fitsMembers : Nat → List (String × Json) → Bool
  | _, [] => true
  | depth, (_, j) :: rest => fits depth j && fitsMembers depth rest

end

/-- The number of nested arrays and objects of a document down to which its parts may be read as
whole trees. -/
def depthLimit : Nat := 127

/-! ## Members -/

/-- The value of the last member called `name`. -/
def lastMember? (name : String) (members : List (String × Json)) : Option Json :=
  (members.reverse.find? (fun m => m.1 == name)).map (·.2)

/-- The value of the last member of an object called `name`; `none` for any other value. -/
def member? (name : String) : Json → Option Json
  | .obj members => lastMember? name members
  | _ => none

/-- An object without the members whose value is absent. -/
def ofFields (fields : List (String × Option Json)) : Json :=
  .obj (fields.filterMap (fun f => f.2.map (fun j => (f.1, j))))

/-- A double as a document number; a double that is not finite has none and is null. -/
def ofFloat (x : Float) : Json := if x.isFinite then .float x else .null

/-- A natural number as a document number. -/
def ofNat (n : Nat) : Json := .int n

end Json

end Lightpath
