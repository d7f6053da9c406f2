import Mathlib.Data.List.Basic

/-!
# CSV text

What `csv.writer` of Python makes of a record in its default dialect, with a bare
newline at the end.
-/

namespace MiddlewareBench.CsvText

/-- A field with one of these is quoted. -/
def special (c : Char) : Bool :=
  c = ',' || c = '"' || c = '\r' || c = '\n'

/-- A field between quotes, the quotes in it doubled. -/
def quoted (field : List Char) : List Char :=
  '"' :: field.flatMap (fun c => if c = '"' then ['"', '"'] else [c]) ++ ['"']

/-- `QUOTE_MINIMAL`. -/
def writeField (field : String) : List Char :=
  if field.toList.any special then quoted field.toList else field.toList

/-- `writerow`: a record of one empty field is not an empty line. -/
def writeRow (fields : List String) : List Char :=
  if fields = [""] then quoted [] ++ ['\n']
  else List.intercalate [','] (fields.map writeField) ++ ['\n']

end MiddlewareBench.CsvText
