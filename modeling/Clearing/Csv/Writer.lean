/-!
# Writing comma separated records

A field is put into quotes when it holds a comma, a quote or a line end, and a quote inside is
written twice. Every record ends with a line feed.
-/

namespace Clearing.Csv

/-- The characters that force quotes around a field. -/
def needsQuotes (c : Char) : Bool := c = ',' || c = '"' || c = '\n' || c = '\r'

/-- The text of a field. -/
def fieldText (cs : List Char) : List Char :=
  if cs.any needsQuotes then
    '"' :: cs.flatMap (fun c => if c = '"' then ['"', '"'] else [c]) ++ ['"']
  else cs

/-- The text of fields, with commas between them. -/
def fieldsText : List (List Char) → List Char
  | [] => []
  | [field] => fieldText field
  | field :: rest => fieldText field ++ ',' :: fieldsText rest

/-- The text of a record. -/
def recordText (fields : List (List Char)) : List Char := fieldsText fields ++ ['\n']

/-- The text of a table. A table without rows is not even given its header. -/
def tableText (header : List (List Char)) (rows : List (List (List Char))) : List Char :=
  if rows.isEmpty then [] else (header :: rows).flatMap recordText

end Clearing.Csv
