import HeaderList.Charset.Registry

/-!
# `HeaderList/Charset/Name.lean` — from a name to a charset

The name of a charset is written in many ways. What counts are its ASCII letters without
their case, its digits and its full stops; anything else only separates, however much of it
there is. `Charset.lookup` goes from a name to the charset, and refuses the names that find
none and those that find a transform.
-/

set_option autoImplicit false

namespace HeaderList

namespace CodePoint

def labelChar? (c : CodePoint) : Option Char :=
  let n := c.val
  if 0x41 ≤ n ∧ n ≤ 0x5A then some (Char.ofNat (n + 0x20))
  else if (0x61 ≤ n ∧ n ≤ 0x7A) ∨ (0x30 ≤ n ∧ n ≤ 0x39) ∨ n = 0x2E then some (Char.ofNat n)
  else none

end CodePoint

namespace Charset

/-- The label characters of a name. A low line stands for each separation between two of them;
`begun` says that one came before, `apart` that something else came since. -/
def labelFrom (begun apart : Bool) : Text → List Char
  | [] => []
  | c :: rest =>
    match c.labelChar? with
    | some l => (if begun && apart then ['_', l] else [l]) ++ labelFrom true false rest
    | none => labelFrom begun true rest

def normalize (name : Text) : String := String.ofList (labelFrom false false name)

/-- Can the text be a name at all? A NUL and a surrogate cannot be in one. -/
def isName (name : Text) : Bool := name.all fun c => c != 0 && !c.isSurrogate

def named? (name : Text) : Option Charset :=
  if isName name then
    match find? (normalize name) with
    | some c => if c.scheme = .transform then none else some c
    | none => none
  else none

def lookup : Datum → Except Fault Charset
  | .text name => match named? name with
    | some c => .ok c
    | none => .error (.unknownCharset name)
  | d => .error (.notText .charsetName d.kind)

end Charset

end HeaderList
