import HeaderList.Charset.Writing
import HeaderList.Message.Parameter

/-!
# `HeaderList/Message/ContentType.lean` — the charset that a message declares

The charset of a message is the parameter `charset` of its first `Content-Type` field
(`Message.declaredCharset`). The value of the field is taken for ASCII as soon as it carries an
octet that no charset explains.
-/

set_option autoImplicit false

namespace HeaderList.Message

variable [Decoders]

/-- The text of the value of a field. A text with surrogates has to be ASCII apart from the octets
that they carry, and U+FFFD stands for each of these. -/
def visible : Datum → Except Fault Text
  | .text t =>
    if t.any CodePoint.isSurrogate then
      match Target.ascii.writeFrom true 0 t with
      | .ok _ => .ok (t.map fun c => if c.isSurrogate then .replacement else c)
      | .error fault => .error (.unicode fault)
    else .ok t
  | d => .ok d.display

/-- The charset that a message declares, in lower case. It has to be ASCII and not empty. -/
def declaredCharset (m : Message) : Except Fault (Option Text) :=
  match (m.valuesOf "content-type").head? with
  | none => .ok none
  | some value => do
    match ← Parameter.find? "charset" (Parameter.ofField (← visible value)) with
    | none => return none
    | some name =>
      return if name.isEmpty || name.any (fun c => 0x80 ≤ c.val) then none else some name.lower

end HeaderList.Message
