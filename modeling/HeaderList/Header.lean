import HeaderList.Scanner.Run

/-!
# `HeaderList/Header.lean` — reading one header

The value of a header from where a cursor stands, or of a whole datum. What the scanner needs and
what it leaves behind stay inside: the answer is the value or the fault, the notices, and the
cursor past what was read. A cursor over a message is left at the start of the next header.
-/

set_option autoImplicit false

namespace HeaderList.Header

variable [Decoders]

/-- The value of the header at a cursor, and the cursor after it. -/
def readAt (cursor : Cursor) (given : Settings) : Traced Value × Cursor :=
  match Scanner.start cursor given with
  | .error fault => (.fail fault, cursor)
  | .ok scanner =>
    match scanner.readValue with
    | .ok value s => (⟨.ok value, s.notices.toList⟩, s.cursor)
    | .error fault s => (⟨.error fault, s.notices.toList⟩, s.cursor)

/-- The value of a header that a caller hands in. -/
def read (data : Datum) (given : Settings) : Traced Value :=
  match Cursor.ofDatum data with
  | .error fault => .fail fault
  | .ok cursor => (readAt cursor given).1

end HeaderList.Header
