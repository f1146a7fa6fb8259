import HeaderList.Text.Basic

/-!
# `HeaderList/Text/Blank.lean` — white space in texts

The white space characters of Unicode as texts are trimmed of them: the six of ASCII, the four
information separators, and the space separators, line separator and paragraph separator.
`Text.trim` takes them off both ends.
-/

set_option autoImplicit false

namespace HeaderList

/-- The ranges of white space, ends included. -/
def blankRanges : List (Nat × Nat) :=
  [(0x09, 0x0D), (0x1C, 0x20), (0x85, 0x85), (0xA0, 0xA0), (0x1680, 0x1680), (0x2000, 0x200A),
   (0x2028, 0x2029), (0x202F, 0x202F), (0x205F, 0x205F), (0x3000, 0x3000)]

def CodePoint.isBlank (c : CodePoint) : Bool :=
  blankRanges.any fun (low, high) => low ≤ c.val && c.val ≤ high

namespace Text

def trimStart (t : Text) : Text := t.dropWhile CodePoint.isBlank

def trimEnd (t : Text) : Text := (t.reverse.dropWhile CodePoint.isBlank).reverse

/-- A text without the white space at its ends. -/
def trim (t : Text) : Text := t.trimStart.trimEnd

end Text

end HeaderList
