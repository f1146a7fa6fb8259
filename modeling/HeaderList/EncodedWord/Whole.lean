import HeaderList.EncodedWord.Decode
import HeaderList.Text.Blank

/-!
# `HeaderList/EncodedWord/Whole.lean` — a text that is one encoded word

Here the whole of what is handed in has to be an encoded word, white space at its ends
apart. Unlike the reader at a cursor, this one ends the payload at the end of the text and
not at the first question mark, and lets anything but a question mark into the name of the
charset. Octets are read as the code points of their numbers and go back the same way; a
text goes into the decoder as UTF-8.
-/

set_option autoImplicit false

namespace HeaderList.EncodedWord

variable [Decoders]

def questionMark : CodePoint := 0x3F

def equalsSign : CodePoint := 0x3D

/-- The payload in front of the closing `?=`, if it has no line feed. -/
def payload? (t : Text) : Option Text :=
  match t.reverse with
  | e :: q :: payload =>
    if e = equalsSign ∧ q = questionMark ∧ (0x0A : CodePoint) ∉ payload then some payload.reverse
    else none
  | _ => none

/-- The fields of a text that has the form of an encoded word: charset, encoding, payload. -/
def fields? (t : Text) : Option (Text × Text × Text) :=
  match t with
  | e :: q :: rest =>
    if e = equalsSign ∧ q = questionMark then
      match rest.dropWhile (· != questionMark) with
      | _ :: encoding :: q :: tail =>
        if encoding ∈ Text.ofString "qQbB" ∧ q = questionMark then
          (payload? tail).map fun payload =>
            (rest.takeWhile (· != questionMark), [encoding], payload)
        else none
      | _ => none
    else none
  | _ => none

/-- The text of a whole encoded word, `write` being the way from its fields to octets. -/
def decodeBy (write : Text → Except UnicodeFault Octets) (t : Text) (fallback : Datum) :
    Traced Text :=
  match fields? t.trim with
  | none => .fail (.word (.notAWord t))
  | some (charset, encoding, payload) =>
    match write charset, write encoding, write payload with
    | .ok charset, .ok encoding, .ok payload => decode ⟨charset, encoding, payload⟩ fallback
    | .error fault, _, _ | _, .error fault, _ | _, _, .error fault => .fail (.unicode fault)

/-- Code points below 100 hexadecimal as octets. -/
def writeLatin1 (t : Text) : Except UnicodeFault Octets := .ok (t.map fun c => UInt8.ofNat c.val)

/-- The text of a datum that is one encoded word. -/
def decodeWhole (d : Datum) (fallback : Datum) : Traced Text :=
  match d with
  | .text t => decodeBy Utf8.write t fallback
  | .octets bs | .buffer bs => decodeBy writeLatin1 (Text.ofOctets bs) fallback
  | d => .fail (.lacks d.kind "strip")

end HeaderList.EncodedWord
