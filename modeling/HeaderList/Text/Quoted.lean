import HeaderList.Text.Basic
import HeaderList.Text.PrintTable

/-!
# `HeaderList/Text/Quoted.lean` — texts and octets in quotes

How messages show a text or a string of octets so that every character can be told: between quotes,
with a backslash in front of what would be misread. The quote is `'`, unless the text has one and no
`"`. What cannot be printed is written by its number, in two, four or eight hexadecimal digits.
The quote around is escaped inside; in octets that can change it is always the apostrophe that is.
-/

set_option autoImplicit false

namespace HeaderList

namespace CodePoint

def isPrintable (c : CodePoint) : Bool :=
  let table := if c.val ≤ 0x3000 then lowUnprintable else highUnprintable
  if c.val < 0x7F then 0x20 ≤ c.val
  else !table.any fun (low, high) => low ≤ c.val && c.val ≤ high

def apostrophe : CodePoint := 0x27

def quotation : CodePoint := 0x22

def backslash : CodePoint := 0x5C

/-- A backslash, a letter that says how many digits follow, and the number of the code point. -/
def numbered (c : CodePoint) : Text :=
  if c.val < 0x100 then backslash :: 0x78 :: Text.hex 2 c.val
  else if c.val < 0x10000 then backslash :: 0x75 :: Text.hex 4 c.val
  else backslash :: 0x55 :: Text.hex 8 c.val

/-- One code point between quotes, of which `quote` is escaped; `shown` says which are printed as
themselves. -/
def escapedIn (quote : CodePoint) (shown : CodePoint → Bool) (c : CodePoint) : Text :=
  if c = quote ∨ c = backslash then [backslash, c]
  else if c = 0x09 then [backslash, 0x74]
  else if c = 0x0A then [backslash, 0x6E]
  else if c = 0x0D then [backslash, 0x72]
  else if shown c then [c]
  else numbered c

end CodePoint

namespace Text

/-- The quote for a text: `'`, unless the text has one and no `"`. -/
def quoteMark (t : Text) : CodePoint :=
  if CodePoint.apostrophe ∈ t ∧ CodePoint.quotation ∉ t then CodePoint.quotation
  else CodePoint.apostrophe

/-- A text between quotes of its kind, `escaped` being the quote that has a backslash in front of
it and `shown` what is printed as itself. -/
def quotedBy (t : Text) (escaped : CodePoint) (shown : CodePoint → Bool) : Text :=
  quoteMark t :: t.flatMap (CodePoint.escapedIn escaped shown) ++ [quoteMark t]

def quoted (t : Text) : Text := t.quotedBy t.quoteMark CodePoint.isPrintable

def commaSeparated (ts : List Text) : Text := List.intercalate [0x2C, 0x20] ts

/-- A list of texts: each in quotes, in square brackets. -/
def quotedList (ts : List Text) : Text := 0x5B :: commaSeparated (ts.map quoted) ++ [0x5D]

end Text

namespace Octets

/-- The printable octets of ASCII, which are shown as themselves. -/
def isShown (c : CodePoint) : Bool := 0x20 ≤ c.val && c.val ≤ 0x7E

def quoted (bs : Octets) : Text :=
  let t := Text.ofOctets bs
  0x62 :: t.quotedBy t.quoteMark isShown

/-- The same for octets that can change: an apostrophe in them is escaped
between quotes of either kind. -/
def quotedBuffer (bs : Octets) : Text :=
  0x62 :: (Text.ofOctets bs).quotedBy CodePoint.apostrophe isShown

end Octets

end HeaderList
