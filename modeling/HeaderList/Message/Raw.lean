import HeaderList.Message.Basic

/-!
# `HeaderList/Message/Raw.lean` — a message from its octets

A message begins with header lines, and a header may go on over lines that start with a space or a
tab. The header part ends at the first line that is neither, mostly the empty line before the
body. The value of a field is what follows the colon, without the blanks in front and the line
breaks at the end; the line breaks between its lines stay. Octets of the upper half become the
surrogates that carry them, so that nothing is lost however they will be read.
-/

set_option autoImplicit false

namespace HeaderList.Message

/-- The lines of octets, each with its line break: LF, CR LF, or CR alone. `line` is
the line so far, backwards. -/
def linesFrom (line : Octets) : Octets → List Octets
  | [] => if line.isEmpty then [] else [line.reverse]
  | Octet.cr :: Octet.lf :: rest => (Octet.lf :: Octet.cr :: line).reverse :: linesFrom [] rest
  | b :: rest =>
    if Octet.isLineBreak b then (b :: line).reverse :: linesFrom [] rest
    else linesFrom (b :: line) rest

def lines (bs : Octets) : List Octets := linesFrom [] bs

def colon : UInt8 := 0x3A

/-- What a line in front of the header fields may begin with, to say who sent the message. -/
def envelope : Octets := [0x46, 0x72, 0x6F, 0x6D, 0x20]

/-- An octet of the name of a field: printable ASCII except space and colon. -/
def isNameOctet (b : UInt8) : Bool := 0x21 ≤ b && b ≤ 0x7E && b != colon

def isContinuation (line : Octets) : Bool := line.head?.any Octet.isBlank

def isHeaderLine (line : Octets) : Bool :=
  isContinuation line || envelope.isPrefixOf line ||
  (line.dropWhile isNameOctet).head? == some colon

/-- Octets as text, those of the upper half as the surrogates that carry them. -/
def escapeText (bs : Octets) : Text :=
  bs.map fun b => if b < 0x80 then CodePoint.ofOctet b else .escaped b

/-- The field of a header line and the lines that continue it. -/
def fieldOf (line : Octets) (continued : List Octets) : Field :=
  let value := ((line.dropWhile (· != colon)).drop 1).dropWhile Octet.isBlank ++ continued.flatten
  ⟨escapeText (line.takeWhile (· != colon)),
   .text (escapeText (value.reverse.dropWhile Octet.isLineBreak).reverse)⟩

/-- The fields of header lines. Continuations of nothing, envelope lines and lines without a name
are passed over, with the lines that continue them. -/
def fieldsFrom : List Octets → List Field
  | [] => []
  | line :: rest =>
    let continued := rest.takeWhile isContinuation
    let fields := fieldsFrom rest
    if isContinuation line || envelope.isPrefixOf line || line.head? == some colon then fields
    else fieldOf line continued :: fields

def ofOctets (bs : Octets) : Message := ⟨fieldsFrom ((lines bs).takeWhile isHeaderLine)⟩

end HeaderList.Message
