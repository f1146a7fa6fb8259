import HeaderList.Text.Quoted
import HeaderList.Text.Decimal

/-!
# `HeaderList/Datum.lean` — what a caller hands in

A caller may hand in anything where a text is wanted: a setting may be a number, the value of a
header may be a list. `Datum` is what can arrive. The operations say which kinds they take; for
the others they need the name of the kind (`Kind.name`), whether the datum counts as given
(`Datum.isTruthy`), and how it reads as text (`Datum.display`).
-/

set_option autoImplicit false

namespace HeaderList

inductive Kind
  | null | flag | integer | decimal | text | octets | buffer | view | list
deriving DecidableEq, Repr

def Kind.name : Kind → String
  | .null => "NoneType"
  | .flag => "bool"
  | .integer => "int"
  | .decimal => "float"
  | .text => "str"
  | .octets => "bytes"
  | .buffer => "bytearray"
  | .view => "memoryview"
  | .list => "list"

/-- What a caller can hand in. `buffer` and `view` are octets in two other guises. -/
inductive Datum
  | null
  | flag (value : Bool)
  | integer (value : Int)
  /-- `mantissa / 10 ^ places`, with a sign of its own: there is a negative zero. The fraction is
  exact, so it is not rounded as a machine number would be, and none of them is infinite. -/
  | decimal (negative : Bool) (mantissa : Nat) (places : Nat)
  | text (value : Text)
  | octets (value : Octets)
  | buffer (value : Octets)
  | view (value : Octets)
  | list (items : List Datum)
deriving Inhabited

namespace Datum

def kind : Datum → Kind
  | null => .null
  | flag _ => .flag
  | integer _ => .integer
  | decimal .. => .decimal
  | text _ => .text
  | octets _ => .octets
  | buffer _ => .buffer
  | view _ => .view
  | list _ => .list

def isNull : Datum → Bool
  | null => true
  | _ => false

/-- Nothing, zero and what is empty do not count as given. -/
def isTruthy : Datum → Bool
  | null => false
  | flag b => b
  | integer n => n != 0
  | decimal _ m _ => m != 0
  | text t => !t.isEmpty
  | octets bs | buffer bs | view bs => !bs.isEmpty
  | list ds => !ds.isEmpty

/-- Can the datum change after it was handed in? -/
def isChangeable : Datum → Bool
  | buffer _ | list _ => true
  | _ => false

def octets? : Datum → Option Octets
  | octets bs | buffer bs | view bs => some bs
  | _ => none

/-- The datum, or the default where nothing is there. -/
def orElse (d default : Datum) : Datum := if d.isNull then default else d

/-! ## Reading as text -/

/-- What a view reads as. The text stands in for one that names the place of the view in
memory, which no datum has. -/
def viewText : Text := "<memory>"

mutual

/-- A datum as it stands inside another: texts are in quotes. -/
def inspect : Datum → Text
  | null => "None"
  | flag b => if b then "True" else "False"
  | integer n => Text.integer n
  | decimal negative m p => Text.fraction negative m p
  | text t => t.quoted
  | octets bs => bs.quoted
  | buffer bs => ("bytearray(" : Text) ++ bs.quotedBuffer ++ (")" : Text)
  | view _ => viewText
  | list ds => ("[" : Text) ++ Text.commaSeparated (inspectAll ds) ++ ("]" : Text)

def inspectAll : List Datum → List Text
  | [] => []
  | d :: ds => inspect d :: inspectAll ds

end

/-- A datum as text: a text is itself, anything else is as it would stand in a list. -/
def display : Datum → Text
  | text t => t
  | d => inspect d

end Datum

end HeaderList
