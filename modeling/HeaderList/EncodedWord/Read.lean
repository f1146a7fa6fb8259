import HeaderList.Cursor
import HeaderList.EncodedWord.Decode

/-!
# `HeaderList/EncodedWord/Read.lean` — an encoded word at a cursor

An encoded word stands in a header as `=?charset?encoding?payload?=`. Reading starts past the
first equals sign and takes the word field by field. No field goes over a line break, and the
first two have no white space. A reader that fails leaves the cursor past the octet that it
stumbled over, and one that succeeds has taken octets (`EncodedWord.takes_read`).
-/

set_option autoImplicit false

namespace HeaderList

/-- A reader of encoded words: it moves a cursor, also when it fails. -/
abbrev WordReader := EStateM WordFault Cursor

namespace EncodedWord

/-- Takes an octet that has to be there. -/
def expect (b : UInt8) (fault : WordFault) : WordReader Unit := fun c =>
  match c.next? with
  | none => .error fault c
  | some (x, d) => if x = b then .ok () d else .error fault d

/-- Takes the octets up to the next question mark, and the mark. The field began in place `start`,
and `field` is its name in messages. -/
def readFieldFrom (field : Text) (blanks : Bool) (start : Nat) (c : Cursor) :
    EStateM.Result WordFault Cursor Octets :=
  match _step : c.next? with
  | none => .error (.unterminated field) c
  | some (b, d) =>
    if Octet.isLineBreak b then .error (.unterminated field) d
    else if b = Octet.question then .ok (c.slice start c.pos) d
    else if Octet.isBlank b && !blanks then .error (.whitespace field) d
    else readFieldFrom field blanks start d
termination_by c.left
decreasing_by exact Cursor.left_next? _step

/-- Takes a field and the question mark that ends it; `blanks` says
whether it may have white space. -/
def readField (field : Text) (blanks : Bool) : WordReader Octets := fun c =>
  readFieldFrom field blanks c.pos c

/-- Takes an encoded word, from the question mark after its first equals sign on. -/
def read : WordReader EncodedWord := do
  expect Octet.question .notOpened
  let charset ← readField "charset" false
  let encoding ← readField "encoding" false
  let payload ← readField "payload" true
  expect Octet.equals .notClosed
  pure ⟨charset, encoding, payload⟩

/-- The text of the encoded word at a cursor, and the cursor past what was read of it. -/
def decodeAt [Decoders] (fallback : Datum) (c : Cursor) : Traced Text × Cursor :=
  match read c with
  | .ok w d => (w.decode fallback, d)
  | .error fault d => (.fail (.word fault), d)

/-- The same, with nothing for a text where there is no valid encoded word. -/
def decodeAt? [Decoders] (fallback : Datum) (c : Cursor) : Traced (Option Text) × Cursor :=
  let (text, d) := decodeAt fallback c
  match text.result with
  | .ok t => (⟨.ok (some t), text.notices⟩, d)
  | .error (.word _) => (⟨.ok none, text.notices⟩, d)
  | .error fault => (⟨.error fault, text.notices⟩, d)

/-! ## Reading goes forward

A reader takes octets whenever it succeeds, and a chain of readers does so if each of them does. -/

/-- A reader that takes octets whenever it succeeds. -/
def Takes {α : Type} (r : WordReader α) : Prop :=
  ∀ ⦃c d : Cursor⦄ ⦃a : α⦄, r c = .ok a d → d.left < c.left

theorem takes_bind {α β : Type} {r : WordReader α} {f : α → WordReader β} (hr : Takes r)
    (hf : ∀ a, Takes (f a)) : Takes (r >>= f) := by
  intro c d b h
  simp only [bind, EStateM.bind] at h
  split at h
  · rename_i hc
    exact Nat.lt_trans (hf _ h) (hr hc)
  · simp at h

theorem takes_bind_pure {α β : Type} {r : WordReader α} (hr : Takes r) (g : α → β) :
    Takes (r >>= fun a => pure (g a)) := by
  intro c d b h
  simp only [bind, EStateM.bind, pure, EStateM.pure] at h
  split at h
  · rename_i hc
    cases h
    exact hr hc
  · simp at h

theorem takes_expect (b : UInt8) (fault : WordFault) : Takes (expect b fault) := by
  intro c d a h
  unfold expect at h
  split at h
  · simp at h
  · split at h
    · cases h
      exact Cursor.left_next? (by assumption)
    · simp at h

theorem takes_readFieldFrom (field : Text) (blanks : Bool) (start : Nat) :
    Takes (readFieldFrom field blanks start) := by
  intro c d bs h
  -- on the reader; every octet of the field is taken, and the question mark too
  fun_induction readFieldFrom field blanks start c with
  | case1 => simp at h
  | case2 => simp at h
  | case3 _ _ hn =>
    cases h
    exact Cursor.left_next? hn
  | case4 => simp at h
  | case5 _ _ _ hn _ _ _ ih => exact Nat.lt_trans (ih h) (Cursor.left_next? hn)

theorem takes_readField (field : Text) (blanks : Bool) : Takes (readField field blanks) :=
  fun c => @takes_readFieldFrom field blanks c.pos c

/-- The octets that an encoded word has taken are what lets a scanner end. -/
theorem takes_read : Takes read :=
  takes_bind (takes_expect _ _) fun _ =>
  takes_bind (takes_readField _ _) fun _ =>
  takes_bind (takes_readField _ _) fun _ =>
  takes_bind (takes_readField _ _) fun _ =>
  takes_bind_pure (takes_expect _ _) _

end EncodedWord

end HeaderList
