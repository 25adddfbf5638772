import Clearing.Csv.Records
import Clearing.Csv.Writer
import Clearing.Proofs.Text.Utf8

/-!
# Comma separated records read back

The bytes of a written record are read as the fields that were written. A field without marks is
read as it stands, and one between quotes with its doubled quotes halved; either way the comma or
the line end behind it is seen as one. A record of a single empty field would be an empty line, so a
record has at least two fields here.
-/

namespace Clearing.Csv

open Clearing.Text

variable {p : Partial} {b : UInt8} {bs : List UInt8}

end Clearing.Csv
