import HeaderList.Charset.Fallback
import HeaderList.EncodedWord.Base64
import HeaderList.EncodedWord.QEncoding

/-!
# `HeaderList/EncodedWord/Decode.lean` — the text of an encoded word

An encoded word has three fields: the name of a charset, the name of an encoding, and a
payload. The encoding says how the payload stands for octets and the charset how the octets are
read. The name of the charset ends at an asterisk; what follows is a language. A charset that
does not decode the octets, with its fallback, makes the word a bad one; a fallback that is not
known is a fault of the caller.
-/

set_option autoImplicit false

namespace HeaderList

structure EncodedWord where
  charset : Octets
  encoding : Octets
  payload : Octets
deriving DecidableEq, Repr

namespace EncodedWord

variable [Decoders]

/-- Octets as ASCII text, with U+FFFD for each octet that is none. -/
def asciiText (bs : Octets) : Text :=
  bs.map fun b => if b < 0x80 then CodePoint.ofOctet b else .replacement

/-- The name of the charset, without a language. -/
def charsetName (w : EncodedWord) : Text := (asciiText w.charset).takeWhile (· != 0x2A)

def octets (w : EncodedWord) : Except WordFault Octets :=
  let encoding := w.encoding.map Octet.toLower
  if encoding = [0x71] then .ok (QEncoding.decode w.payload)
  else if encoding = [0x62] then
    match Base64.decode? w.payload with
    | some bs => .ok bs
    | none => .error .base64
  else .error (.unknownEncoding encoding)

def decode (w : EncodedWord) (fallback : Datum) : Traced Text :=
  if w.charsetName.isEmpty then .fail (.word .missingCharset)
  else
    match w.octets with
    | .error fault => .fail (.word fault)
    | .ok bs =>
      let text := Charset.decodeNamed bs (.text w.charsetName) fallback .null
      match text.result with
      | .error (.unicode fault) => ⟨.error (.word (.charset fault)), text.notices⟩
      | _ => text

end EncodedWord

end HeaderList
