import Lightpath.Json.Value
import Lightpath.Text.Decimal

/-!
# Writing JSON — from a document tree to text

`Json.compact` writes a tree on one line without blanks, `Json.pretty` one item per line, indented
by two spaces per level. Doubles have their shortest text.
-/

namespace Lightpath.Json

/-- The written form of a character of a text. -/
def writeChar (c : Char) : List Char :=
  if c = '"' then ['\\', '"']
  else if c = '\\' then ['\\', '\\']
  else if c = '\x08' then ['\\', 'b']
  else if c = '\x0c' then ['\\', 'f']
  else if c = '\n' then ['\\', 'n']
  else if c = '\r' then ['\\', 'r']
  else if c = '\t' then ['\\', 't']
  else if c.toNat < 0x20 then
    ['\\', 'u', '0', '0'] ++ (if c.toNat < 0x10 then ['0'] else []) ++ Nat.toDigits 16 c.toNat
  else [c]

/-- A text between quotes. -/
def writeText (s : String) : String := String.ofList ('"' :: s.toList.flatMap writeChar ++ ['"'])

/-- The written form of a value that is no array and no object. -/
def writeScalar : Json → String
  | .bool true => "true"
  | .bool false => "false"
  | .int n => toString n
  | .float x => Text.shortest x
  | .str s => writeText s
  | _ => "null"

mutual

/-- A tree on one line without blanks. -/
def compact : Json → String
  | .arr items => "[" ++ String.intercalate "," (compactItems items) ++ "]"
  | .obj members => "\x7b" ++ String.intercalate "," (compactMembers members) ++ "\x7d"
  | j => writeScalar j

/-- The items of an array on one line each. -/
def compactItems : List Json → List String
  | [] => []
  | j :: rest => compact j :: compactItems rest

/-- The members of an object. -/
def compactMembers : List (String × Json) → List String
  | [] => []
  | (name, j) :: rest => (writeText name ++ ":" ++ compact j) :: compactMembers rest

end

/-- A line break and the indentation of a level. -/
def newLine (level : Nat) : String := "\n" ++ String.ofList (List.replicate (2 * level) ' ')

/-- Written parts of an array or object on lines of their own; nothing between the brackets of an
empty one. -/
def block (openMark closeMark : String) (level : Nat) (parts : List String) : String :=
  if parts.isEmpty then openMark ++ closeMark
  else openMark ++ newLine (level + 1) ++ String.intercalate ("," ++ newLine (level + 1)) parts ++
    newLine level ++ closeMark

mutual

/-- A tree with one item per line, at an indentation level. -/
def prettyAt : Nat → Json → String
  | level, .arr items => block "[" "]" level (prettyItems (level + 1) items)
  | level, .obj members => block "\x7b" "\x7d" level (prettyMembers (level + 1) members)
  | _, j => writeScalar j

/-- The items of an array. -/
def prettyItems : Nat → List Json → List String
  | _, [] => []
  | level, j :: rest => prettyAt level j :: prettyItems level rest

/-- The members of an object. -/
def prettyMembers : Nat → List (String × Json) → List String
  | _, [] => []
  | level, (name, j) :: rest =>
    (writeText name ++ ": " ++ prettyAt level j) :: prettyMembers level rest

end

/-- A tree with one item per line. -/
def pretty (j : Json) : String := prettyAt 0 j

end Lightpath.Json
