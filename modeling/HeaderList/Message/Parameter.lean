import HeaderList.Charset.Decode
import HeaderList.Message.Basic
import HeaderList.Text.Blank

/-!
# `HeaderList/Message/Parameter.lean` — the parameters of a header field

A field has parameters between semicolons. A semicolon between quotation marks does not count, and
what stands in front of the first semicolon is taken for a parameter like any other.

A parameter may also come in its extended form, in one part or several: the name ends in an
asterisk, possibly with the number of the part after it and another asterisk, and the value has
percent escapes after the names of a charset and a language. The parts of one name are put in
order, which fails if only some of them have a number. `Parameter.find?` looks a parameter up; the
plain form is preferred wherever it stands.
-/

set_option autoImplicit false

namespace HeaderList

namespace Text

/-- What stands before the first of the given code point and, if there
is one, what stands after it. -/
def cut (mark : CodePoint) (t : Text) : Text × Option Text :=
  (t.takeWhile (· != mark), (t.dropWhile (· != mark)).tail?)

/-- A text without the quotation marks or angle brackets around it; within quotation marks, a
backslash gives way to the backslash or quotation mark after it. -/
def unquote (t : Text) : Text :=
  match t, t.getLast? with
  | first :: inner@(_ :: _), some last =>
    if first = CodePoint.quotation ∧ last = CodePoint.quotation then marks (slashes inner.dropLast)
    else if first = 0x3C ∧ last = 0x3E then inner.dropLast
    else t
  | _, _ => t
where
  slashes : Text → Text
    | [] => []
    | [c] => [c]
    | c :: d :: rest =>
      if c = CodePoint.backslash ∧ d = CodePoint.backslash then c :: slashes rest
      else c :: slashes (d :: rest)
  marks : Text → Text
    | [] => []
    | [c] => [c]
    | c :: d :: rest =>
      if c = CodePoint.backslash ∧ d = CodePoint.quotation then d :: marks rest
      else c :: marks (d :: rest)

/-- A text with its percent escapes resolved; each stands for the code point of its number. -/
def unpercent : Text → Text
  | [] => []
  | [c] => [c]
  | [c, d] => [c, d]
  | c :: d :: e :: rest =>
    if c = 0x25 then
      match hexValue? d.val, hexValue? e.val with
      | some x, some y => .ofNat (x * 16 + y) :: unpercent rest
      | _, _ => c :: unpercent (d :: e :: rest)
    else c :: unpercent (d :: e :: rest)

end Text

/-! ## Parameters -/

/-- A parameter of a field: its name and its value as it is written. -/
structure Parameter where
  name : Text
  value : Text

namespace Parameter

/-- A text cut at the semicolons that are not between quotation marks. A quotation mark after a
backslash does not count as one. `part` is the part so far, backwards. -/
def splitFrom (quoted : Bool) (part : Text) : Text → List Text
  | [] => [part.reverse]
  | c :: rest =>
    if c = 0x3B ∧ quoted = false then part.reverse :: splitFrom false [] rest
    else if c = CodePoint.quotation ∧ part.head? ≠ some CodePoint.backslash then
      splitFrom (!quoted) (c :: part) rest
    else splitFrom quoted (c :: part) rest

/-- The parameter that a piece of the value says. A name with a value is put in lower case. -/
def ofText (t : Text) : Parameter :=
  match t.cut 0x3D with
  | (name, some value) => ⟨name.trim.lower, value.trim⟩
  | (name, none) => ⟨name.trim, []⟩

def ofField (value : Text) : List Parameter := (splitFrom false [] value).map ofText

def isWordChar (c : CodePoint) : Bool :=
  let n := c.val
  (0x30 ≤ n && n ≤ 0x39) || (0x41 ≤ n && n ≤ 0x5A) || (0x61 ≤ n && n ≤ 0x7A) || n == 0x5F

def isDigit (c : CodePoint) : Bool := 0x30 ≤ c.val && c.val ≤ 0x39

def number (digits : Text) : Nat := digits.foldl (fun n c => n * 10 + (c.val - 0x30)) 0

/-! ## Extended parameters -/

/-- A part of an extended parameter: its number, if it has one, its value without quotation marks,
and whether the value has percent escapes. -/
structure Part where
  number : Option Nat
  value : Text
  escaped : Bool

/-- The name of the extended parameter that this is a part of, and the part: the name is written
`name*`, `name*1` or `name*1*`. -/
def part? (p : Parameter) : Option (Text × Part) :=
  let base := p.name.takeWhile isWordChar
  let part (n : Option Nat) : Option (Text × Part) :=
    some (base, ⟨n, p.value.unquote, p.name.getLast? == some 0x2A⟩)
  match p.name.dropWhile isWordChar with
  | star :: rest =>
    let digits := rest.takeWhile isDigit
    let after := rest.dropWhile isDigit
    if star = 0x2A ∧ base ≠ [] then
      if rest = [] then part none
      else if digits ≠ [] ∧ (after = [] ∨ after = [0x2A]) then part (some (number digits))
      else none
    else none
  | [] => none

namespace Part

def numberKind (p : Part) : Kind := if p.number.isSome then .integer else .null

/-- The order of parts: by their numbers, and among parts of one number by their values. -/
def precedes (a b : Part) : Bool :=
  if a.number = b.number then
    if a.value = b.value then !a.escaped || b.escaped else a.value < b.value
  else a.number.getD 0 < b.number.getD 0

/-- Parts in their order. A part with a number and one without have none. -/
def inOrder : List Part → Except Fault (List Part)
  | [] => .ok []
  | p :: ps =>
    match ps.find? fun q => q.numberKind != p.numberKind with
    | some q => .error (.unordered q.numberKind p.numberKind)
    | none => .ok ((p :: ps).mergeSort precedes)

def text (p : Part) : Text := if p.escaped then p.value.unpercent else p.value

end Part

/-- Code points as octets: those past FF as an escape of their number. -/
def escapeWide (t : Text) : Octets :=
  t.flatMap fun c =>
    if c.val < 0x100 then [UInt8.ofNat c.val] else c.numbered.map fun d => UInt8.ofNat d.val

variable [Decoders]

/-- A text read under the charset of a name, ASCII if there is no name. It stays as it is if there
is no such charset, or if it cannot be read. -/
def readUnder (charset text : Text) : Except Fault Text :=
  if 0 ∈ charset then .error .nulInName
  else match Charset.named? (if charset.isEmpty then "us-ascii" else charset) with
    | some c => match c.decode (Text.ofString Policy.strict.name) (escapeWide text) with
      | .ok t => .ok t
      | .error _ => .ok text
    | none => .ok text

/-- The text that an extended value stands for: the names of a charset and a language and a text,
with apostrophes between them, or a text alone. -/
def readExtended (value : Text) : Except Fault Text :=
  match value.cut CodePoint.apostrophe with
  | (charset, some rest) => match rest.cut CodePoint.apostrophe with
    | (_, some text) => readUnder charset text
    | (_, none) => readUnder [] value
  | (_, none) => readUnder [] value

/-- The value of an extended parameter with the given parts, in order. -/
def joined (parts : List Part) : Except Fault Text :=
  let value := (parts.map Part.text).flatten
  if parts.any Part.escaped then readExtended value else .ok value

/-- The extended parameters by their names, in the order of their first parts. What stands in
front of the first semicolon is no part of one. -/
def extended (ps : List Parameter) : Except Fault (List (Text × List Part)) :=
  let parts := ps.tail.filterMap part?
  (parts.map Prod.fst).eraseDups.mapM fun name => do
    return (name, ← Part.inOrder ((parts.filter fun p => p.1 == name).map Prod.snd))

/-- The value of the parameter with a name, given in lower case. -/
def find? (name : Text) (ps : List Parameter) : Except Fault (Option Text) := do
  let groups ← extended ps
  match ps.find? fun p => p.name.lower == name with
  | some p => return some p.value.unquote
  | none => match groups.find? fun g => g.1.lower == name with
    | some g => some <$> joined g.2
    | none => return none

end Parameter

end HeaderList
