/-!
# Comma separated records

Records end with a line feed, a carriage return or both, and empty lines are no records. A field
that begins with a quote runs to the next single quote, over commas and line ends; two quotes stand
for one. Anything between that quote and the end of the field belongs to the field as it stands. A
byte order mark at the very beginning is left out.
-/

namespace Clearing.Csv

/-- Where the reading of a record stands. -/
inductive Place where
  /-- Before the first byte of a record. -/
  | recordStart
  /-- Before the first byte of a field that is not the first. -/
  | fieldStart
  /-- In a field without quotes, or behind the closing quote. -/
  | plain
  /-- Between the quotes. -/
  | quoted
  /-- Right behind a quote that closes the field unless another follows. -/
  | closing
  deriving DecidableEq, Repr

/-- A field in bytes. -/
abbrev Field := List UInt8

/-- A record as it is being read, last byte and last field first. -/
structure Partial where
  place : Place
  field : Field
  fields : List Field
  deriving DecidableEq, Repr

/-- Before a record. -/
def Partial.start : Partial := ⟨.recordStart, [], []⟩

/-- Whether a byte ends a record. -/
def isEnd (b : UInt8) : Bool := b = 10 || b = 13

/-- The byte between fields. -/
def comma : UInt8 := 44

/-- The byte around fields. -/
def quote : UInt8 := 34

/-- The fields of a record that ends here. -/
def Partial.finish (p : Partial) : List Field := (p.field.reverse :: p.fields).reverse

/-- Begin the next field. -/
def Partial.nextField (p : Partial) : Partial := ⟨.fieldStart, [], p.field.reverse :: p.fields⟩

/-- Add a byte to the field. -/
def Partial.add (p : Partial) (b : UInt8) (place : Place) : Partial :=
  ⟨place, b :: p.field, p.fields⟩

/-- Read one byte. A record that ends with it is handed out. -/
def Partial.step (p : Partial) (b : UInt8) : Option (List Field) × Partial :=
  match p.place with
  | .quoted => (none, if b = quote then { p with place := .closing } else p.add b .quoted)
  | .closing =>
      if b = quote then (none, p.add b .quoted)
      else if b = comma then (none, p.nextField)
      else if isEnd b then (some p.finish, .start)
      else (none, p.add b .plain)
  | .plain =>
      if b = comma then (none, p.nextField)
      else if isEnd b then (some p.finish, .start)
      else (none, p.add b .plain)
  | .fieldStart =>
      if b = quote then (none, { p with place := .quoted })
      else if b = comma then (none, p.nextField)
      else if isEnd b then (some p.finish, .start)
      else (none, p.add b .plain)
  | .recordStart =>
      if isEnd b then (none, p)
      else if b = quote then (none, { p with place := .quoted })
      else if b = comma then (none, p.nextField)
      else (none, p.add b .plain)

/-- The records that follow a partial one. -/
def recordsFrom (p : Partial) : List UInt8 → List (List Field)
  | [] => if p.place = .recordStart then [] else [p.finish]
  | b :: bytes =>
      match p.step b with
      | (some record, p) => record :: recordsFrom p bytes
      | (none, p) => recordsFrom p bytes

/-- Leave out a byte order mark in front. -/
def dropMark : List UInt8 → List UInt8
  | 0xEF :: 0xBB :: 0xBF :: bytes => bytes
  | bytes => bytes

/-- The records of a byte sequence. -/
def records (bytes : List UInt8) : List (List Field) := recordsFrom .start (dropMark bytes)

end Clearing.Csv
