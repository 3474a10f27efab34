/-!
# Blank characters — trimming and splitting at white space and line breaks

The blank characters are those with the Unicode property `White_Space`. The property is wider than
the ASCII blanks that `Char.isWhitespace` knows: it has the no-break space, the ideographic space
and the line and paragraph separators, and it lacks the zero width space.
-/

namespace Lightpath.Text

/-- Whether `c` has the Unicode property `White_Space`. -/
def isBlank (c : Char) : Bool :=
  let n := c.toNat
  (0x9 ≤ n && n ≤ 0xD) || n == 0x20 || n == 0x85 || n == 0xA0 || n == 0x1680 ||
    (0x2000 ≤ n && n ≤ 0x200A) || n == 0x2028 || n == 0x2029 || n == 0x202F || n == 0x205F ||
    n == 0x3000

/-- A character list without its leading and trailing blanks. -/
def trimChars (cs : List Char) : List Char :=
  (((cs.dropWhile isBlank).reverse).dropWhile isBlank).reverse

/-- A text without its leading and trailing blanks. -/
def trim (s : String) : String := String.ofList (trimChars s.toList)

/-- The maximal runs of non-blank characters, in order; `run` holds the open run backwards. -/
def wordsFrom (run : List Char) : List Char → List (List Char)
  | [] => if run.isEmpty then [] else [run.reverse]
  | c :: rest =>
    if isBlank c then
      if run.isEmpty then wordsFrom [] rest else run.reverse :: wordsFrom [] rest
    else wordsFrom (c :: run) rest

/-- The words of a text: its maximal runs of non-blank characters, in order. -/
def words (s : String) : List String := (wordsFrom [] s.toList).map String.ofList

/-- The lines of a text, each without its line break; `run` holds the open line backwards. A line break
at the end opens no further line. -/
def linesFrom (run : List Char) : List Char → List (List Char)
  | [] => if run.isEmpty then [] else [run.reverse]
  | c :: rest => if c = '\n' then run.reverse :: linesFrom [] rest else linesFrom (c :: run) rest

/-- The lines of a text, each without its line break. -/
def lines (s : String) : List String := (linesFrom [] s.toList).map String.ofList

example : words " a  b\t" = ["a", "b"] := by decide +kernel

end Lightpath.Text
