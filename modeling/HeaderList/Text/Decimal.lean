import HeaderList.Text.Basic

/-!
# `HeaderList/Text/Decimal.lean` — decimal fractions in texts

A decimal fraction is a sign, a mantissa and a number of places after the point. It is written
with its own digits, without zeros at the end: positionally when its first digit stands in a place
from 10^-4 to 10^15, and otherwise with one digit before the point and an exponent of at least two
digits. A whole number keeps one zero after the point.
-/

set_option autoImplicit false

namespace HeaderList.Text

/-- The digits of a number, most significant first, without the zeros at the end. -/
def significant (n : Nat) : List Char :=
  ((Nat.toDigits 10 n).reverse.dropWhile (· == '0')).reverse

/-- Digits with the point after `point` of them, and at least one digit on either side. -/
def positional (digits : List Char) (point : Int) : List Char :=
  if point ≤ 0 then ['0', '.'] ++ List.replicate (-point).toNat '0' ++ digits
  else
    let whole := digits.take point.toNat
    let fraction := digits.drop point.toNat
    whole ++ List.replicate (point.toNat - whole.length) '0' ++ '.' ::
      (if fraction.isEmpty then ['0'] else fraction)

/-- Digits with the point after the first, and the power of ten that this leaves. -/
def scientific (digits : List Char) (exponent : Int) : List Char :=
  let power := Nat.toDigits 10 exponent.natAbs
  digits.take 1 ++ (if digits.length ≤ 1 then [] else '.' :: digits.drop 1) ++
    'e' :: (if exponent < 0 then '-' else '+') ::
      (List.replicate (2 - power.length) '0' ++ power)

/-- The decimal fraction `mantissa / 10 ^ places`, after a minus sign if it is negative. -/
def fraction (negative : Bool) (mantissa places : Nat) : Text :=
  let digits := significant mantissa
  let point : Int := (Nat.toDigits 10 mantissa).length - places
  let body :=
    if mantissa = 0 then ['0', '.', '0']
    else if -4 < point ∧ point ≤ 16 then positional digits point
    else scientific digits (point - 1)
  ofString (String.ofList (if negative then '-' :: body else body))

def integer (n : Int) : Text :=
  if n < 0 then 0x2D :: decimal n.natAbs else decimal n.natAbs

end HeaderList.Text
