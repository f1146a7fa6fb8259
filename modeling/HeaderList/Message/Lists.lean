import HeaderList.Header
import HeaderList.Message.ContentType

/-!
# `HeaderList/Message/Lists.lean` — the lists in the headers of a message

Reading a header of a message as a list: its first occurrence (`Message.readList`) or all of them
together (`Message.readLists`). The charset of plain words is what the caller says, or else what
the message declares, or else the default. A header that is not there is an empty value, and so is
an occurrence without a value.
-/

set_option autoImplicit false

namespace HeaderList.Message

variable [Decoders]

/-- The charset for the headers of a message, if there is a message and it declares one. -/
def effectiveCharset (m : Option Message) (charset : Datum) : Except Fault Datum :=
  if charset.isTruthy then .ok charset
  else match m with
    | none => .ok .null
    | some message => do
      match ← message.declaredCharset with
      | some name => return .text name
      | none => return .null

/-- The octets of the value of a header. Octets are themselves; anything else is read as text, in
which surrogates may carry octets. -/
def octetsOf : Datum → Except Fault Octets
  | .octets bs => .ok bs
  | d => match Utf8.writeEscaped d.display with
    | .ok bs => .ok bs
    | .error fault => .error (.unicode fault)

/-- The list in the value of a header, which may be missing. -/
def readField (m : Option Message) (value : Datum) (given : Settings) : Traced Value :=
  if value.isNull then .value .empty
  else do
    let bs ← Traced.silent (octetsOf value)
    let charset ← Traced.silent (effectiveCharset m given.charset)
    Header.read (.octets bs) { given with charset }

theorem effectiveCharset_of_given {charset : Datum} (h : charset.isTruthy = true)
    (m : Option Message) : effectiveCharset m charset = .ok charset := by
  unfold effectiveCharset
  exact if_pos h

theorem effectiveCharset_some (m : Message) (charset : Datum) :
    effectiveCharset (some m) charset =
      if charset.isTruthy then .ok charset
      else m.declaredCharset.map fun declared => (declared.map Datum.text).getD .null := by
  rw [effectiveCharset]
  split
  · rfl
  · cases m.declaredCharset with
    | error fault => rfl
    | ok declared => cases declared <;> rfl

theorem result_readField {value : Datum} (h : value.isNull = false) (m : Option Message)
    (given : Settings) :
    (readField m value given).result =
      octetsOf value >>= fun bs => effectiveCharset m given.charset >>= fun charset =>
        (Header.read (.octets bs) { given with charset }).result := by
  rw [readField, if_neg (by rw [h]; decide), Traced.result_bind]
  apply bind_congr
  intro bs
  rw [Traced.result_bind]
  rfl

/-- The list in the first header with a name, or in the value of a
header that is handed in instead. -/
def readList (m : Option Message) (name header : Datum) (given : Settings) : Traced Value :=
  if header.isNull then
    match m with
    | none => .value .empty
    | some message =>
      match message.valuesNamed name with
      | .error fault => .fail fault
      | .ok values => readField m (values.head?.getD .null) given
  else readField m header given

/-- The values of all headers with a name. Without a message, only no name names none. -/
def occurrences (m : Option Message) (name : Datum) : Except Fault (List Datum) :=
  match m with
  | some message => message.valuesNamed name
  | none =>
    if name.isNull then .ok []
    else match (Message.mk []).valuesNamed name with
      | .error fault => .error fault
      | .ok _ => .error (.lacks .null "raw_items")

/-- The entries of all occurrences, in their order. By now the charset is settled, and no
message is needed to find it. -/
def readEntries (given : Settings) : List Datum → Traced (List Text)
  | [] => .value []
  | value :: rest => do
    let first ← readField none value given
    let others ← readEntries given rest
    pure (first.entries ++ others)

/-- The lists in all headers with a name, as one. -/
def readLists (m : Option Message) (name : Datum) (given : Settings) : Traced Value := do
  let charset ← Traced.silent (effectiveCharset m given.charset)
  let values ← Traced.silent (occurrences m name)
  let entries ← readEntries { given with charset } values
  pure (.ofEntries entries)

end HeaderList.Message
