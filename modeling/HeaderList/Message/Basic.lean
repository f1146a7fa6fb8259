import HeaderList.Datum
import HeaderList.Fault
import HeaderList.Text.LowerCase

/-!
# `HeaderList/Message/Basic.lean` — the header fields of a message

Of a message only the header fields matter here, in their order: a name and a value each.
A value is mostly text, but a message that was put together by hand may hold anything.
Names are compared in lower case.
-/

set_option autoImplicit false

namespace HeaderList

structure Field where
  name : Text
  value : Datum

structure Message where
  fields : List Field

namespace Message

/-- The values of the fields with a name, in order; the name is in lower case. -/
def valuesOf (m : Message) (name : Text) : List Datum :=
  (m.fields.filter fun f => f.name.lower == name).map Field.value

/-- The values of the fields that a caller names. Nothing names no field, and octets, which are
never equal to a text, name none either. -/
def valuesNamed (m : Message) : Datum → Except Fault (List Datum)
  | .null | .octets _ | .buffer _ => .ok []
  | .text name => .ok (m.valuesOf name.lower)
  | d => .error (.lacks d.kind "lower")

end Message

end HeaderList
