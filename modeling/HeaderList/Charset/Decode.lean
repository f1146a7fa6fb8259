import HeaderList.Charset.Name
import HeaderList.Charset.Policy

/-!
# `HeaderList/Charset/Decode.lean` — octets as the text of a charset

`Form.decodeFrom` reads piece after piece and lets the error policy mend the flaws.
`Charset.decode` is the same for a charset of the registry: it sees to the marks at the start, and
to the charsets that are no form at all. No octets are no text under any charset and any policy.

Many charsets are known by name only: the registry knows that they are there, and their tables are
kept elsewhere. What octets mean under one of them is a parameter of the library (`Decoders`).
-/

set_option autoImplicit false

namespace HeaderList

namespace Form

/-- The text of octets that start in place `start` of a longer string. The policy is asked
for only if there is a flaw. -/
def decodeFrom (form : Form) (policy : Except Fault Policy) (start : Nat) :
    Octets → Except Fault Text
  | [] => .ok []
  | b :: rest =>
    match form.read b rest with
    | .char c more => (c :: ·) <$> decodeFrom form policy (start + more + 1) (rest.drop more)
    | .flaw what more =>
      match policy >>= fun p => p.mend form start (b :: rest) (more + 1) what with
      | .error fault => .error fault
      | .ok (text, taken) =>
        (text ++ ·) <$> decodeFrom form policy (start + taken) (rest.drop (taken - 1))
termination_by bs => bs.length
decreasing_by all_goals simp only [List.length_drop, List.length_cons]; omega

end Form

/-- Is an error policy that does not serve reported as it is? The other
decoders put their name to it. -/
def Scheme.isPlain : Scheme → Bool
  | .ascii | .latin1 | .utf8 | .utf16 none | .utf32 none => true
  | _ => false

/-- The decoders of what is known by name only: the text of octets that are not empty, given the
name of an error policy. They are asked for the charsets whose tables are kept elsewhere, and for
the labels of domain names that stand for another spelling. -/
class Decoders where
  decode : Charset → Text → Octets → Except Fault Text

/-- Where no decoders are at hand, such a charset refuses what it is to decode. -/
@[reducible] def Decoders.none : Decoders :=
  ⟨fun c _ _ => .error (.unicode (.refused c.name .noDecoder))⟩

namespace Charset

variable [Decoders]

def afterUtf8Mark : Octets → Octets
  | 0xEF :: 0xBB :: 0xBF :: rest => rest
  | data => data

/-- The order that the mark at the start says, and the number of octets of the mark. Without
a mark the order is little. -/
def utf16Mark : Octets → ByteOrder × Nat
  | 0xFF :: 0xFE :: _ => (.little, 2)
  | 0xFE :: 0xFF :: _ => (.big, 2)
  | _ => (.little, 0)

def utf32Mark : Octets → ByteOrder × Nat
  | 0xFF :: 0xFE :: 0x00 :: 0x00 :: _ => (.little, 4)
  | 0x00 :: 0x00 :: 0xFE :: 0xFF :: _ => (.big, 4)
  | _ => (.little, 0)

/-- What the labels of a domain name begin with that stand for another spelling. -/
def respelled : Octets := [0x78, 0x6E, 0x2D, 0x2D]

/-- One label of a domain name. A label is ASCII unless it stands for another spelling, which the
decoders at hand know; a spelling without any character is refused. -/
def decodeLabel (c : Charset) (label : Octets) : Except Fault Text :=
  if respelled.isPrefixOf label then
    match Decoders.decode c Policy.strict.name label with
    | .ok [] => .error (.unicode (.refused "idna" .emptyLabel))
    | result => result
  else Form.ascii.decodeFrom (.ok .strict) 0 label

/-- Domain names are read strictly or not at all: label after label, with the full stops between
them. The place of an octet that is no character is counted from the start of its label. -/
def decodeDomain (c : Charset) (errors : Text) (data : Octets) : Except Fault Text :=
  if errors = Text.ofString Policy.strict.name then
    ([0x2E].intercalate ·) <$> (data.splitOn 0x2E).mapM c.decodeLabel
  else .error (.unicode (.refused "idna" (.policy errors)))

def decodeScheme (c : Charset) (errors : Text) (data : Octets) : Except Fault Text :=
  let policy := Policy.named errors
  match c.scheme with
  | .ascii => Form.ascii.decodeFrom policy 0 data
  | .latin1 => Form.latin1.decodeFrom policy 0 data
  | .singleByte table => table.form.decodeFrom policy 0 data
  | .utf8 => Utf8.form.decodeFrom policy 0 data
  | .utf8Signed => Utf8.form.decodeFrom policy 0 (afterUtf8Mark data)
  | .utf16 (some order) => (Utf16.form order).decodeFrom policy 0 data
  | .utf16 none =>
    let (order, mark) := utf16Mark data
    (Utf16.form order).decodeFrom policy mark (data.drop mark)
  | .utf32 (some order) => (Utf32.form order).decodeFrom policy 0 data
  | .utf32 none =>
    let (order, mark) := utf32Mark data
    (Utf32.form order).decodeFrom policy mark (data.drop mark)
  | .idna => c.decodeDomain errors data
  | .undefinedEncoding => .error (.unicode (.refused c.name .undefinedEncoding))
  | .undecoded => Decoders.decode c errors data
  | .transform => .error (.unicode (.refused c.name .noDecoder))

/-- The text of octets, `errors` being the name of a policy. -/
def decode (c : Charset) (errors : Text) (data : Octets) : Except Fault Text :=
  if data.isEmpty then .ok []
  else match c.decodeScheme errors data with
    | .error (.policy fault none) =>
      .error (.policy fault (if c.scheme.isPlain then none else some c.name))
    | result => result

/-- The text of octets, `errors` being what a caller hands in for the name of a policy. -/
def decodeWith (c : Charset) (errors : Datum) (data : Octets) : Except Fault Text := do
  c.decode (← Policy.nameOf .decodingPolicy errors) data

theorem decode_nil (c : Charset) (errors : Text) : c.decode errors [] = .ok [] := rfl

end Charset

end HeaderList
