/-!
# Separated values — one record per line, fields between semicolons

A field that holds the separator, a double quote or a line break is put between double quotes, and
a double quote inside it is written twice.
-/

namespace Lightpath.Text

/-- The character between two fields. -/
def fieldSeparator : Char := ';'

/-- Whether a field has to be put between quotes. -/
def needsQuotes (field : List Char) : Bool :=
  field.any (fun c => c == fieldSeparator || c == '"' || c == '\r' || c == '\n')

/-- The written form of a field. -/
def writeField (field : String) : String :=
  let cs := field.toList
  if needsQuotes cs then
    String.ofList ('"' :: cs.flatMap (fun c => if c = '"' then ['"', '"'] else [c]) ++ ['"'])
  else field

/-- A record as one line without its line break. -/
def writeRecord (fields : List String) : String :=
  String.intercalate (String.singleton fieldSeparator) (fields.map writeField)

end Lightpath.Text
