import HeaderList.EncodedWord.Read
import HeaderList.Proofs.Cursor

/-!
# `HeaderList/Proofs/EncodedWord/Form.lean` — the written form of an encoded word

The reader of encoded words goes field by field and fails at the first octet that does not fit.
Seen from outside it does something simpler: there is a written form, `EncodedWord.body`, and the
reader succeeds exactly where the written form of a word with legible fields comes next
(`read_eq_ok_iff`). Then it stands after that form and nowhere else.

Two things follow that the scanner needs. No written form goes over a line feed, so that what
comes after the line is of no account, and there is at most one word at a place.
-/

set_option autoImplicit false

namespace HeaderList.EncodedWord

/-! ## The form

A field cannot have a question mark in it, so the marks between the fields are found again. The
payload may have blanks, and everything else in a word is without white space. -/

/-- Can the octet stand in a field? -/
def Fits (blanks : Bool) (b : UInt8) : Prop :=
  Octet.isLineBreak b = false ∧ b ≠ Octet.question ∧ (Octet.isBlank b = true → blanks = true)

instance (blanks : Bool) (b : UInt8) : Decidable (Fits blanks b) :=
  inferInstanceAs (Decidable (_ ∧ _ ∧ _))

/-- What the octets of a field can be: no line break and no question mark, and no white space
either unless `blanks` allows it. -/
def IsField (blanks : Bool) (f : Octets) : Prop := ∀ b ∈ f, Fits blanks b

instance (blanks : Bool) (f : Octets) : Decidable (IsField blanks f) :=
  decidable_of_iff ((f.all fun b => Fits blanks b) = true) (by simp [IsField])

/-- A word whose fields can be told apart when they are written. -/
structure Legible (w : EncodedWord) : Prop where
  charset : IsField false w.charset
  encoding : IsField false w.encoding
  payload : IsField true w.payload

/-- The octets of a word after the equals sign that it begins with. -/
def body (w : EncodedWord) : Octets :=
  Octet.question :: (w.charset ++ Octet.question :: (w.encoding ++ Octet.question ::
    (w.payload ++ [Octet.question, Octet.equals])))

theorem IsField.no_lf {blanks : Bool} {f : Octets} (h : IsField blanks f) : Octet.lf ∉ f := by
  intro hm
  exact absurd (h _ hm).1 (by decide)

/-- A word is in one line. -/
theorem Legible.no_lf {w : EncodedWord} (h : w.Legible) : Octet.lf ∉ w.body := by
  have hq : Octet.lf ≠ Octet.question := by decide
  have he : Octet.lf ≠ Octet.equals := by decide
  simp [body, h.charset.no_lf, h.encoding.no_lf, h.payload.no_lf, hq, he]

/-- What comes first where a field and its question mark come: the
mark, or an octet of the field. -/
theorem IsField.head_cases {blanks : Bool} {g tail bs : Octets} {b : UInt8} (hg : IsField blanks g)
    (h : b :: bs = g ++ Octet.question :: tail) :
    (g = [] ∧ b = Octet.question ∧ bs = tail) ∨
      (Fits blanks b ∧ ∃ g', g = b :: g' ∧ IsField blanks g' ∧
        bs = g' ++ Octet.question :: tail) := by
  cases g with
  | nil =>
    obtain ⟨hb, hbs⟩ := List.cons.inj h
    exact Or.inl ⟨rfl, hb, hbs⟩
  | cons x g' =>
    obtain ⟨rfl, hbs⟩ := List.cons.inj h
    rw [IsField, List.forall_mem_cons] at hg
    exact Or.inr ⟨hg.1, g', rfl, hg.2, hbs⟩

/-! ## What the readers accept

One equivalence for each reader, on the octets that are left, and one for putting two readers
after each other. The equivalence of `read` is then these five in a row. -/

theorem bind_eq_ok_iff {α β : Type} {r : WordReader α} {f : α → WordReader β} {c e : Cursor}
    {b : β} : (r >>= f) c = .ok b e ↔ ∃ a d, r c = .ok a d ∧ f a d = .ok b e := by
  simp only [bind, EStateM.bind]
  cases hr : r c with
  | ok a d => simp [and_assoc]
  | error fault d => simp

theorem expect_eq_ok_iff {b : UInt8} {fault : WordFault} {c d : Cursor} {a : Unit} :
    expect b fault c = .ok a d ↔ ∃ tail, c.rest = b :: tail ∧ d = c.skip 1 := by
  cases hc : c.rest with
  | nil => simp [expect, Cursor.next?_of_nil hc]
  | cons x xs =>
    simp only [expect, Cursor.next?_of_cons hc]
    by_cases hx : x = b
    · simp [hx, eq_comm]
    · simp [hx]

/-- A field is read up to its question mark. The slice that is answered
starts where the field began. -/
theorem readFieldFrom_eq_ok_iff {field : Text} {blanks : Bool} {start : Nat} {c d : Cursor}
    {f : Octets} (hstart : start ≤ c.pos) :
    readFieldFrom field blanks start c = .ok f d ↔
      ∃ g tail, IsField blanks g ∧ c.rest = g ++ Octet.question :: tail ∧
        f = c.slice start c.pos ++ g ∧ d = c.skip (g.length + 1) := by
  -- on the reader: `start` stays where it is while the cursor moves on
  fun_induction readFieldFrom field blanks start c with
  | case1 c hn => simp [Cursor.next?_eq_none_iff.1 hn]
  | case2 c b e hn hb =>
    refine ⟨fun h => by simp at h, ?_⟩
    rintro ⟨g, tail, hg, hrest, -, -⟩
    rcases hg.head_cases (Cursor.rest_next? hn ▸ hrest) with ⟨-, rfl, -⟩ | ⟨hfit, -⟩
    · exact absurd hb (by decide)
    · rw [hfit.1] at hb
      exact absurd hb (by simp)
  | case3 c e hn _ =>
    have he := Cursor.eq_skip_of_next? hn
    constructor
    · intro h
      obtain ⟨rfl, rfl⟩ := EStateM.Result.ok.injEq _ _ _ _ ▸ h
      exact ⟨[], e.rest, by simp [IsField], Cursor.rest_next? hn, by rw [List.append_nil], he⟩
    · rintro ⟨g, tail, hg, hrest, rfl, rfl⟩
      rcases hg.head_cases (Cursor.rest_next? hn ▸ hrest) with ⟨rfl, -, -⟩ | ⟨hfit, -⟩
      · simp [he]
      · exact absurd rfl hfit.2.1
  | case4 c b e hn _ hq hbl =>
    rw [Bool.and_eq_true, Bool.not_eq_true'] at hbl
    refine ⟨fun h => by simp at h, ?_⟩
    rintro ⟨g, tail, hg, hrest, -, -⟩
    rcases hg.head_cases (Cursor.rest_next? hn ▸ hrest) with ⟨-, hb, -⟩ | ⟨hfit, -⟩
    · exact absurd hb hq
    · have := hfit.2.2 hbl.1
      rw [hbl.2] at this
      exact absurd this (by simp)
  | case5 c b e hn hb hq hbl ih =>
    have hr := Cursor.rest_next? hn
    have he := Cursor.eq_skip_of_next? hn
    have hfit : Fits blanks b := ⟨by simpa using hb, hq, fun hx => by simpa [hx] using hbl⟩
    have hslice : e.slice start e.pos = c.slice start c.pos ++ [b] := by
      rw [Cursor.slice_congr (d := c) (by rw [he, Cursor.skip_data]), he, Cursor.skip_pos,
        Cursor.slice_succ hr hstart]
    rw [ih (by rw [he, Cursor.skip_pos]; omega), hslice, hr]
    constructor
    · rintro ⟨g, tail, hg, hrest, rfl, rfl⟩
      refine ⟨b :: g, tail, ?_, by rw [hrest, List.cons_append], by simp, ?_⟩
      · rw [IsField, List.forall_mem_cons]
        exact ⟨hfit, hg⟩
      · rw [he, Cursor.skip_skip, List.length_cons, Nat.add_comm 1]
    · rintro ⟨g, tail, hg, hrest, rfl, rfl⟩
      rcases hg.head_cases hrest with ⟨-, hb', -⟩ | ⟨-, g', rfl, hg', htail⟩
      · exact absurd hb' hq
      · refine ⟨g', tail, hg', htail, by simp, ?_⟩
        rw [he, Cursor.skip_skip, List.length_cons, Nat.add_comm 1]

/-- A field and its question mark are gone over, and the octets of the field are the answer. -/
theorem readField_eq_ok_iff {field : Text} {blanks : Bool} {c d : Cursor} {f : Octets} :
    readField field blanks c = .ok f d ↔
      ∃ tail, IsField blanks f ∧ c.rest = f ++ Octet.question :: tail ∧
      d = c.skip (f.length + 1) := by
  rw [readField, readFieldFrom_eq_ok_iff (Nat.le_refl _)]
  constructor
  · rintro ⟨g, tail, hg, hrest, rfl, rfl⟩
    rw [Cursor.slice_self, List.nil_append]
    exact ⟨tail, hg, hrest, rfl⟩
  · rintro ⟨tail, hf, hrest, rfl⟩
    exact ⟨f, tail, hf, hrest, by rw [Cursor.slice_self, List.nil_append], rfl⟩

theorem rest_of_octet {c : Cursor} {b : UInt8} {tail : Octets} (h : c.rest = b :: tail) :
    (c.skip 1).rest = tail := Cursor.rest_skip_of_eq (f := [b]) h

theorem rest_of_field {c : Cursor} {f tail : Octets} (h : c.rest = f ++ Octet.question :: tail) :
    (c.skip (f.length + 1)).rest = tail := by
  have hr := Cursor.rest_skip_of_eq (f := f ++ [Octet.question]) (t := tail) (h.trans (by simp))
  rwa [List.length_append, List.length_singleton] at hr

/-- A word is read exactly where its written form comes next. -/
theorem read_eq_ok_iff {c d : Cursor} {w : EncodedWord} :
    read c = .ok w d ↔ ∃ tail, w.Legible ∧ c.rest = w.body ++ tail ∧ d = c.skip w.body.length := by
  simp only [read, bind_eq_ok_iff, expect_eq_ok_iff, readField_eq_ok_iff]
  constructor
  · rintro ⟨_, c₁, ⟨t₁, h₁, rfl⟩, cs, c₂, ⟨t₂, hcs, h₂, rfl⟩, e, c₃, ⟨t₃, he, h₃, rfl⟩, p, c₄,
      ⟨t₄, hp, h₄, rfl⟩, _, c₅, ⟨t₅, h₅, rfl⟩, h⟩
    obtain ⟨rfl, rfl⟩ := EStateM.Result.ok.injEq _ _ _ _ ▸ h
    -- what one reader left is what the next one saw
    have e₁ : t₁ = cs ++ Octet.question :: t₂ := by rw [← h₂, rest_of_octet h₁]
    have e₂ : t₂ = e ++ Octet.question :: t₃ := by rw [← h₃, rest_of_field h₂]
    have e₃ : t₃ = p ++ Octet.question :: t₄ := by rw [← h₄, rest_of_field h₃]
    have e₄ : t₄ = Octet.equals :: t₅ := by rw [← h₅, rest_of_field h₄]
    refine ⟨t₅, ⟨hcs, he, hp⟩, ?_, ?_⟩
    · simp [h₁, e₁, e₂, e₃, e₄, body]
    · simp only [Cursor.skip_skip, body, List.length_cons, List.length_append, List.length_nil]
      congr 1
      omega
  · rintro ⟨tail, hw, hrest, rfl⟩
    have h₁ : c.rest = Octet.question :: (w.charset ++ Octet.question :: (w.encoding ++
        Octet.question :: (w.payload ++ Octet.question :: Octet.equals :: tail))) := by
      simp [hrest, body]
    have h₂ := rest_of_octet h₁
    have h₃ := rest_of_field h₂
    have h₄ := rest_of_field h₃
    have h₅ := rest_of_field h₄
    refine ⟨(), _, ⟨_, h₁, rfl⟩, w.charset, _, ⟨_, hw.charset, h₂, rfl⟩, w.encoding, _,
      ⟨_, hw.encoding, h₃, rfl⟩, w.payload, _, ⟨_, hw.payload, h₄, rfl⟩, (), _, ⟨_, h₅, rfl⟩, ?_⟩
    simp only [Cursor.skip_skip, body, List.length_cons, List.length_append, List.length_nil,
      pure, EStateM.pure, EStateM.Result.ok.injEq, true_and]
    congr 1
    omega

/-- There is one word at a place at most. -/
theorem body_append_inj {v w : EncodedWord} {s t : Octets} (hv : v.Legible) (hw : w.Legible)
    (h : v.body ++ s = w.body ++ t) : v = w ∧ s = t := by
  -- the reader has one answer at a place
  have rv := read_eq_ok_iff.2 ⟨s, hv, Cursor.rest_ofOctets (v.body ++ s), rfl⟩
  have rw' := read_eq_ok_iff.2 ⟨t, hw, Cursor.rest_ofOctets (w.body ++ t), rfl⟩
  rw [h, rw'] at rv
  obtain ⟨rfl, -⟩ := EStateM.Result.ok.injEq _ _ _ _ ▸ rv
  exact ⟨rfl, List.append_cancel_left h⟩

/-! ## Attempts

An attempt to decode a word finds one whose text is `Traced Text`, or fails over its form. -/

variable [Decoders]

/-- Does the written form of a word come first in octets? -/
def Begins (bs : Octets) : Prop :=
  ∃ (w : EncodedWord) (tail : Octets), w.Legible ∧ bs = w.body ++ tail

omit [Decoders] in
/-- The form begins with a question mark, since the equals sign has been gone over. -/
theorem head?_of_begins {bs : Octets} (h : Begins bs) : bs.head? = some Octet.question := by
  obtain ⟨w, tail, -, rfl⟩ := h
  rfl

omit [Decoders] in
theorem not_begins_of_ne {b : UInt8} {rest : Octets} (h : b ≠ Octet.question) :
    ¬ Begins (b :: rest) := by
  intro hbegins
  exact h (Option.some.inj (head?_of_begins hbegins))

/-- Where a written form comes next, its word is decoded, and the cursor is behind
it however the decoding ends. -/
theorem decodeAt_of_body (fallback : Datum) {c : Cursor} {w : EncodedWord} {tail : Octets}
    (hw : w.Legible) (h : c.rest = w.body ++ tail) :
    decodeAt fallback c = (w.decode fallback, c.skip w.body.length) := by
  rw [decodeAt, read_eq_ok_iff.2 ⟨tail, hw, h, rfl⟩]

/-- Where none comes next, the attempt fails over the form and nothing is decoded. -/
theorem decodeAt_of_not_begins (fallback : Datum) {c : Cursor} (h : ¬ Begins c.rest) :
    ∃ fault d, decodeAt fallback c = (.fail (.word fault), d) := by
  cases hr : read c with
  | ok w d =>
    obtain ⟨tail, hw, hrest, -⟩ := read_eq_ok_iff.1 hr
    exact absurd ⟨w, tail, hw, hrest⟩ h
  | error fault d => exact ⟨fault, d, by rw [decodeAt, hr]⟩

/-- The text of a word, or nothing where the word is not valid after all. -/
def decode? (w : EncodedWord) (fallback : Datum) : Except Fault (Option Text) :=
  match (w.decode fallback).result with
  | .ok t => .ok (some t)
  | .error (.word _) => .ok none
  | .error fault => .error fault

/-- What a caller gets of a word is told by its fields and the fallback. -/
theorem decodeAt?_of_body (fallback : Datum) {c : Cursor} {w : EncodedWord} {tail : Octets}
    (hw : w.Legible) (h : c.rest = w.body ++ tail) :
    (decodeAt? fallback c).1.result = w.decode? fallback ∧
      (decodeAt? fallback c).2 = c.skip w.body.length := by
  rw [decodeAt?, decodeAt_of_body fallback hw h, decode?]
  dsimp only
  split <;> simp_all

theorem decodeAt?_of_not_begins (fallback : Datum) {c : Cursor} (h : ¬ Begins c.rest) :
    (decodeAt? fallback c).1.result = .ok none := by
  obtain ⟨fault, d, hd⟩ := decodeAt_of_not_begins fallback h
  rw [decodeAt?, hd]
  rfl

omit [Decoders] in
/-- Octets without a line feed that come first are in front of any line feed. -/
theorem append_eq_of_no_lf {l tail bs more : Octets} (hl : Octet.lf ∉ l)
    (h : bs ++ Octet.lf :: more = l ++ tail) :
    ∃ as, bs = l ++ as ∧ tail = as ++ Octet.lf :: more := by
  rcases List.append_eq_append_iff.1 h with ⟨as, rfl, h'⟩ | ⟨as, rfl, h'⟩
  · cases as with
    | nil => exact ⟨[], by simp, by simpa using h'.symm⟩
    | cons a as =>
      obtain ⟨rfl, -⟩ := List.cons.inj h'
      exact absurd (by simp) hl
  · exact ⟨as, rfl, h'⟩

omit [Decoders] in
/-- What comes behind the line can neither begin a word in it nor keep one from beginning. -/
theorem begins_append_lf {bs : Octets} (more : Octets) :
    Begins (bs ++ Octet.lf :: more) ↔ Begins bs := by
  constructor
  · rintro ⟨w, tail, hw, h⟩
    obtain ⟨as, hbs, -⟩ := append_eq_of_no_lf hw.no_lf h
    exact ⟨w, as, hw, hbs⟩
  · rintro ⟨w, tail, hw, rfl⟩
    exact ⟨w, tail ++ Octet.lf :: more, hw, by simp⟩

end HeaderList.EncodedWord
