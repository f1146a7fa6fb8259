import HeaderList.Fault

/-!
# `HeaderList/Charset/Form.lean` — reading one character at a time

An encoding form says what the first octets of a non-empty string are: a character, or a flaw, and
in either case how many octets it takes. That is all a form knows; what becomes of a flaw is the
business of an error policy. A piece counts the octets after its first one, so that it always
takes at least one and a reader that goes from piece to piece comes to the end.
-/

set_option autoImplicit false

namespace HeaderList

/-- What stands at the start of a string of octets: a character or a flaw, made of one octet and
`more` after it. -/
inductive Piece
  | char (c : CodePoint) (more : Nat)
  | flaw (what : Flaw) (more : Nat)
deriving DecidableEq

structure Form where
  name : String
  /-- The piece at the start, given the first octet and those after it. -/
  read : UInt8 → Octets → Piece
  /-- The surrogate that the form would write at the start, and the number of its octets. -/
  surrogate? : Octets → Option (CodePoint × Nat)

namespace Form

/-- A form of one octet a character, with a flaw for the octets that are none. -/
def ofTable (name : String) (flaw : Flaw) (table : UInt8 → Option CodePoint) : Form where
  name := name
  read b _ := match table b with
    | some c => .char c 0
    | none => .flaw flaw 0
  surrogate? _ := none

def ascii : Form :=
  ofTable "ascii" .notAscii fun b => if b < 0x80 then some (.ofOctet b) else none

def latin1 : Form := ofTable "iso8859-1" .unmapped fun b => some (.ofOctet b)

end Form

end HeaderList
