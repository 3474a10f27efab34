import Lightpath.Json.Value
import Lightpath.Numeric.Power
import Lightpath.Text.Numeral

/-!
# Reading JSON — from text to a document tree

`Json.read?` accepts exactly one value with nothing but white space around it. Nesting has no limit
here; a reader that loads a tree as a whole asks `Json.fits`.

A number without point and exponent is whole while it fits into 64 bits (a minus zero is not
whole). Any other number is a double: its digits, as far as 64 bits hold them, form a significand
that is rounded once and then multiplied or divided by a power of ten.
-/

namespace Lightpath.Json

open Lightpath.Text (digit?)

/-! ## Numbers -/

/-- The largest significand, and the largest whole number. -/
def significandBound : Nat := twoPow 64 - 1

/-- Takes digits into a significand as long as it stays within bounds; gives the number of digits
taken. The digits after the first one that does not fit are left out. -/
def takeDigits (significand taken : Nat) : List Nat → Nat × Nat
  | [] => (significand, taken)
  | d :: rest =>
    if significand * 10 + d ≤ significandBound then
      takeDigits (significand * 10 + d) (taken + 1) rest
    else (significand, taken)

/-- `f · 10 ^ exponent`, dividing in several steps where the power itself is out of range. -/
def scaleDown (steps : Nat) (f : Float) (exponent : Nat) : Float :=
  match steps with
  | 0 => f
  | steps + 1 =>
    if exponent ≤ 308 then f / Float.ofScientific 1 false exponent
    else if f == 0.0 then f
    else scaleDown steps (f / Float.ofScientific 1 false 308) (exponent - 308)

/-- The double of a significand and an exponent; `none` beyond the range of doubles. -/
def scaled? (significand : Nat) (exponent : Int) : Option Float :=
  let f := Float.ofNat significand
  if exponent < 0 then some (scaleDown 4 f exponent.natAbs)
  else if exponent ≤ 308 then
    let r := f * Float.ofScientific 1 false exponent.natAbs
    if r.isInf then none else some r
  else if significand = 0 then some f
  else none

/-- The written parts of a number. -/
structure Numeral where
  negative : Bool
  /-- The digits before the point. -/
  whole : List Nat
  /-- The digits after the point, if there is a point. -/
  fraction : Option (List Nat)
  /-- The sign and the digits of the exponent, if there is one; `true` is minus. -/
  exponent : Option (Bool × List Nat)

/-- The largest written exponent that is computed with. -/
def exponentBound : Nat := twoPow 31 - 1

/-- The value of a written exponent; `none` beyond the bound. -/
def exponentValue? (digits : List Nat) : Option Nat :=
  let n := digits.foldl (fun acc d => acc * 10 + d) 0
  if n ≤ exponentBound then some n else none

/-- The double that a numeral stands for; `none` beyond the range of doubles. -/
def Numeral.toFloat? (n : Numeral) : Option Float :=
  let (wholeSignificand, wholeTaken) := takeDigits 0 0 n.whole
  let left := n.whole.length - wholeTaken
  let (significand, taken) := takeDigits wholeSignificand 0 (n.fraction.getD [])
  let base : Int := (left : Int) - (taken : Int)
  let magnitude := match n.exponent with
    | none => scaled? significand base
    | some (minus, digits) =>
      match exponentValue? digits with
      | some e => scaled? significand (if minus then base - (e : Int) else base + (e : Int))
      | none => if significand ≠ 0 ∧ !minus then none else some 0.0
  magnitude.map (fun f => if n.negative then -f else f)

/-- The value of a numeral: whole, a double, or `void` beyond the range of doubles. -/
def Numeral.toJson (n : Numeral) : Json :=
  let value := n.whole.foldl (fun acc d => acc * 10 + d) 0
  let isWhole := n.fraction.isNone && n.exponent.isNone &&
    (if n.negative then 0 < value && value ≤ twoPow 63 else value ≤ significandBound)
  if isWhole then .int (if n.negative then -(value : Int) else value)
  else match n.toFloat? with
    | some x => .float x
    | none => .void

/-- The digits at the head of a text, and what follows them. -/
def digitRun (cs : List Char) : List Nat × List Char :=
  ((cs.takeWhile (fun c => (digit? c).isSome)).filterMap digit?,
    cs.dropWhile (fun c => (digit? c).isSome))

/-- The exponent at the head of a text, if there is one. -/
def exponentHead? : List Char → Option (Option (Bool × List Nat) × List Char)
  | [] => some (none, [])
  | c :: rest =>
    if c = 'e' ∨ c = 'E' then
      let (minus, rest) := match rest with
        | '-' :: r => (true, r)
        | '+' :: r => (false, r)
        | r => (false, r)
      match digitRun rest with
      | ([], _) => none
      | (ds, rest) => some (some (minus, ds), rest)
    else some (none, c :: rest)

/-- The number at the head of a text. -/
def numeralHead? (cs : List Char) : Option (Numeral × List Char) :=
  let (negative, cs) := match cs with
    | '-' :: r => (true, r)
    | r => (false, r)
  match digitRun cs with
  | ([], _) => none
  | (whole, rest) =>
    -- a leading zero stands alone
    if whole.head? = some 0 ∧ whole.length ≠ 1 then none
    else
      let fraction : Option (Option (List Nat) × List Char) := match rest with
        | '.' :: r =>
          match digitRun r with
          | ([], _) => none
          | (ds, r) => some (some ds, r)
        | r => some (none, r)
      match fraction with
      | none => none
      | some (fraction, rest) =>
        (exponentHead? rest).map (fun (exponent, rest) =>
          (⟨negative, whole, fraction, exponent⟩, rest))

/-! ## Texts -/

/-- A piece of a written text: a character, or a 16-bit unit written as its number. -/
inductive Piece where
  | char (c : Char)
  | unit (n : Nat)

/-- The value of a hexadecimal digit. -/
def hexDigit? (c : Char) : Option Nat :=
  if '0' ≤ c ∧ c ≤ '9' then some (c.toNat - '0'.toNat)
  else if 'a' ≤ c ∧ c ≤ 'f' then some (c.toNat - 'a'.toNat + 10)
  else if 'A' ≤ c ∧ c ≤ 'F' then some (c.toNat - 'A'.toNat + 10)
  else none

/-- The character that a letter after a backslash stands for. -/
def escaped? : Char → Option Char
  | '"' => some '"'
  | '\\' => some '\\'
  | '/' => some '/'
  | 'b' => some '\x08'
  | 'f' => some '\x0c'
  | 'n' => some '\n'
  | 'r' => some '\r'
  | 't' => some '\t'
  | _ => none

/-- The pieces of a text up to its closing quote, and what follows the quote. Control characters
have to be written as numbers. -/
def pieces? : List Char → Option (List Piece × List Char)
  | [] => none
  | '"' :: rest => some ([], rest)
  | '\\' :: 'u' :: a :: b :: c :: d :: rest =>
    match hexDigit? a, hexDigit? b, hexDigit? c, hexDigit? d with
    | some a, some b, some c, some d =>
      (pieces? rest).map (fun (ps, r) => (.unit (((a * 16 + b) * 16 + c) * 16 + d) :: ps, r))
    | _, _, _, _ => none
  | '\\' :: e :: rest =>
    match escaped? e with
    | some c => (pieces? rest).map (fun (ps, r) => (.char c :: ps, r))
    | none => none
  | c :: rest =>
    if c.toNat < 0x20 then none else (pieces? rest).map (fun (ps, r) => (.char c :: ps, r))

/-- The characters of a piece list, surrogate units joined in pairs; `none` if a unit lacks its
partner. -/
def joinPieces? : List Piece → Option (List Char)
  | [] => some []
  | .char c :: rest => (joinPieces? rest).map (c :: ·)
  | .unit hi :: .unit lo :: rest =>
    if 0xD800 ≤ hi ∧ hi < 0xDC00 then
      if 0xDC00 ≤ lo ∧ lo < 0xE000 then
        (joinPieces? rest).map (Char.ofNat (0x10000 + (hi - 0xD800) * 0x400 + (lo - 0xDC00)) :: ·)
      else none
    else if 0xDC00 ≤ hi ∧ hi < 0xE000 then none
    else (joinPieces? (.unit lo :: rest)).map (Char.ofNat hi :: ·)
  | .unit n :: rest =>
    if 0xD800 ≤ n ∧ n < 0xE000 then none else (joinPieces? rest).map (Char.ofNat n :: ·)

/-- The text of a piece list; `none` if a unit lacks its partner. -/
def textOfPieces? (ps : List Piece) : Option String := (joinPieces? ps).map String.ofList

/-- The value of a written text. -/
def ofPieces (ps : List Piece) : Json :=
  match textOfPieces? ps with
  | some s => .str s
  | none => .void

/-- The value of an object with written names; `void` if one of them has no text. -/
def ofMembers (members : List (Option String × Json)) : Json :=
  match members.mapM (fun m => m.1.map (fun name => (name, m.2))) with
  | some ms => .obj ms
  | none => .void

/-! ## Values -/

/-- Drops the white space of the format: space, tabulator and line breaks. -/
def skipSpace (cs : List Char) : List Char :=
  cs.dropWhile (fun c => c == ' ' || c == '\t' || c == '\n' || c == '\r')

/-- Drops `word` from the head of a text. -/
def dropWord? : List Char → List Char → Option (List Char)
  | [], cs => some cs
  | _ :: _, [] => none
  | w :: word, c :: cs => if w = c then dropWord? word cs else none

mutual

/-- The value at the head of a text; `fuel` bounds the nesting and the number of items. -/
def valueHead? : Nat → List Char → Option (Json × List Char)
  | 0, _ => none
  | fuel + 1, cs =>
    match skipSpace cs with
    | '\x7b' :: rest =>
      match skipSpace rest with
      | '\x7d' :: rest => some (.obj [], rest)
      | rest => (membersHead? fuel rest).map (fun (ms, r) => (ofMembers ms, r))
    | '[' :: rest =>
      match skipSpace rest with
      | ']' :: rest => some (.arr [], rest)
      | rest => (itemsHead? fuel rest).map (fun (js, r) => (.arr js, r))
    | '"' :: rest => (pieces? rest).map (fun (ps, r) => (ofPieces ps, r))
    | 'n' :: rest => (dropWord? ['u', 'l', 'l'] rest).map (fun r => (.null, r))
    | 't' :: rest => (dropWord? ['r', 'u', 'e'] rest).map (fun r => (.bool true, r))
    | 'f' :: rest => (dropWord? ['a', 'l', 's', 'e'] rest).map (fun r => (.bool false, r))
    | rest => (numeralHead? rest).map (fun (n, r) => (n.toJson, r))

/-- The items of an array up to its closing bracket, at least one. -/
def itemsHead? : Nat → List Char → Option (List Json × List Char)
  | 0, _ => none
  | fuel + 1, cs =>
    match valueHead? fuel cs with
    | none => none
    | some (j, rest) =>
      match skipSpace rest with
      | ']' :: rest => some ([j], rest)
      | ',' :: rest => (itemsHead? fuel rest).map (fun (js, r) => (j :: js, r))
      | _ => none

/-- The members of an object up to its closing brace, at least one, each with the text of its name
if it has one. -/
def membersHead? : Nat → List Char → Option (List (Option String × Json) × List Char)
  | 0, _ => none
  | fuel + 1, cs =>
    match skipSpace cs with
    | '"' :: rest =>
      match pieces? rest with
      | none => none
      | some (ps, rest) =>
        match skipSpace rest with
        | ':' :: rest =>
          match valueHead? fuel rest with
          | none => none
          | some (j, rest) =>
            let entry := (textOfPieces? ps, j)
            match skipSpace rest with
            | '\x7d' :: rest => some ([entry], rest)
            | ',' :: rest => (membersHead? fuel rest).map (fun (ms, r) => (entry :: ms, r))
            | _ => none
        | _ => none
    | _ => none

end

/-- The tree of a text that holds one value and white space. Every step of the reader uses up a
character or opens a value, so twice the length is fuel enough. -/
def read? (text : String) : Option Json :=
  let cs := text.toList
  match valueHead? (2 * cs.length + 2) cs with
  | some (j, rest) => if (skipSpace rest).isEmpty then some j else none
  | none => none

/-- The tree of a text that is loaded as a whole: no part of it may be without value, and nesting
is limited. -/
def load? (text : String) : Option Json := (read? text).filter (fits depthLimit)

end Lightpath.Json
