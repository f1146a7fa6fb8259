import HeaderList.Charset.Writing

/-!
# `HeaderList/Charset/Policy.lean` — what becomes of a flaw

An error policy has a name, and the name is checked where it is handed in: it has to be a
text, without surrogates and without NUL. Whether a policy of that name exists is asked
when the policy is needed. `Policy.mend` says what a policy puts in the place of a flaw,
and how many octets it takes away.
-/

set_option autoImplicit false

namespace HeaderList

inductive Policy
  | strict
  | ignore
  | replace
  | backslashReplace
  | xmlReplace
  | nameReplace
  | surrogateEscape
  | surrogatePass
deriving DecidableEq, Repr

namespace Policy

def name : Policy → String
  | strict => "strict"
  | ignore => "ignore"
  | replace => "replace"
  | backslashReplace => "backslashreplace"
  | xmlReplace => "xmlcharrefreplace"
  | nameReplace => "namereplace"
  | surrogateEscape => "surrogateescape"
  | surrogatePass => "surrogatepass"

def all : List Policy :=
  [strict, ignore, replace, backslashReplace, xmlReplace, nameReplace, surrogateEscape,
    surrogatePass]

def named (name : Text) : Except Fault Policy :=
  match all.find? fun p => Text.ofString p.name == name with
  | some p => .ok p
  | none => .error (.policy (.unknown name) none)

/-- The name that a caller hands in where `role` says. -/
def nameOf (role : TextRole) : Datum → Except Fault Text
  | .text name => match Utf8.write name with
    | .error fault => .error (.unicode fault)
    | .ok _ => if 0 ∈ name then .error .nulInName else .ok name
  | d => .error (.notText role d.kind)

def lookup (d : Datum) : Except Fault Policy := do named (← nameOf .policyName d)

/-- What stands in the place of a flaw, and the number of octets that it stands for. The flaw is
the first `count` octets of `rest`, which starts in place `start`. -/
def mend (policy : Policy) (form : Form) (start : Nat) (rest : Octets) (count : Nat) (flaw : Flaw) :
    Except Fault (Text × Nat) :=
  let span := rest.take count
  let fault := .error (.unicode (.undecodable form.name start span flaw))
  match policy with
  | strict => fault
  | ignore => .ok ([], count)
  | replace => .ok ([.replacement], count)
  | backslashReplace => .ok (span.flatMap fun b => (CodePoint.ofOctet b).numbered, count)
  | xmlReplace | nameReplace => .error (.policy .unfit none)
  | surrogateEscape =>
    let upper := span.takeWhile (0x80 ≤ ·)
    if upper.isEmpty then fault else .ok (upper.map CodePoint.escaped, upper.length)
  | surrogatePass => match form.surrogate? rest with
    | some (c, taken) => .ok ([c], taken)
    | none => fault

end Policy

end HeaderList
