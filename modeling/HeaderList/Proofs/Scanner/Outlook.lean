import HeaderList.Proofs.Scanner.Step

/-!
# `HeaderList/Proofs/Scanner/Outlook.lean` — what a scanner will have in the end

The scanner delivers words late: a plain word is only a place until the next word, a comma or the
end, and a space is pushed in front of a word or behind it, depending on what comes. The proof
that nothing goes wrong in all this is one quantity that does not change. `Scanner.outlook` is
what the entries will be in the end, told from a scanner in the middle of a header: the entries it
has, the items of the entry that it is at, its open word, and the items of the octets that are
left. That every step keeps it is for the next file; here are the definition and its laws.

The items of the entry that the scanner is at are not in its state, which has only their
fragments. They are carried along beside it (`Holds`).
-/

set_option autoImplicit false

namespace HeaderList.Scanner

open Item (joined entryOf between)

/-! ## Fragments and items

Fragments are pushed one by one, with spaces as fragments of their own, and the entry is all of
them in a row. That they spell the same as the items of the entry is not a matter of counting: the
space between two items may have been pushed with the first of them or with the second. -/

/-- Fragments that spell the items of an entry. -/
structure Spells (fragments : Array Text) (is : List Item) : Prop where
  text : fragments.toList.flatten = joined is
  empty_iff : fragments.isEmpty = true ↔ is = []

theorem Spells.nil : Spells #[] [] := ⟨rfl, by simp⟩

/-- Behind any item a plain word has a space in front. -/
theorem joined_word (is : List Item) (t : Text) :
    joined (is ++ [.word t]) = joined is ++ (if is.isEmpty then [] else gap) ++ t := by
  rcases List.eq_nil_or_concat is with rfl | ⟨js, j, rfl⟩
  · rfl
  · have hb : between j (.word t) = gap := by simp [between, Item.isEncoded]
    rw [List.concat_eq_append, Item.joined_concat, hb]
    simp [Item.text]

/-- Closing a plain word adds it as an item. The scanner puts the space in front of it. -/
theorem Spells.withWord {fragments : Array Text} {is : List Item} (h : Spells fragments is)
    (t : Text) : Spells (withWord fragments false t) (is ++ [.word t]) := by
  refine ⟨?_, by simp [Scanner.withWord]⟩
  rw [joined_word, ← h.text]
  by_cases he : is = []
  · simp [Scanner.withWord, h.empty_iff.2 he, he]
  · have hf : fragments.isEmpty = false := by simpa using fun hf => he (h.empty_iff.1 hf)
    simp [Scanner.withWord, hf, he]

/-- A plain word in front of an encoded one has the space behind it already. -/
theorem Spells.withWord_push {fragments : Array Text} {is : List Item} (h : Spells fragments is)
    (t e : Text) :
    Spells ((Scanner.withWord fragments true t).push e) (is ++ [.word t] ++ [.encoded e]) := by
  refine ⟨?_, by simp⟩
  -- the space behind the word is the one that stands between the two items
  have hw : ((Scanner.withWord fragments true t).push e).toList.flatten =
      (Scanner.withWord fragments false t).toList.flatten ++ gap ++ e := by
    simp [Scanner.withWord]
  rw [hw, (h.withWord t).text, Item.joined_concat]
  rfl

/-- An encoded word that follows an encoded word, or begins the entry, is pushed without a
space. -/
theorem Spells.push {fragments : Array Text} {is : List Item} (h : Spells fragments is)
    (hlast : ∀ js j, is = js ++ [j] → j.isEncoded = true) (e : Text) :
    Spells (fragments.push e) (is ++ [.encoded e]) := by
  refine ⟨?_, by simp⟩
  rw [Array.toList_push, List.flatten_append, h.text]
  rcases List.eq_nil_or_concat is with rfl | ⟨js, j, rfl⟩
  · simp [joined, Item.text]
  · have hb : between j (.encoded e) = [] := by
      rw [between, hlast js j (List.concat_eq_append ..)]
      rfl
    rw [List.concat_eq_append, Item.joined_concat, hb]
    simp [Item.text]

/-- Closing an entry adds it to the list, and adds nothing if it has no items. -/
theorem closeEntry_of_spells {s : Scanner} {is : List Item} (h : Spells s.fragments is) :
    s.closeEntry =
      { s with entries := (s.entries.toList ++ entryOf is).toArray, fragments := #[] } := by
  unfold closeEntry entryOf
  by_cases he : is = []
  · have hf : s.fragments = #[] := Array.isEmpty_iff.1 (h.empty_iff.2 he)
    simp [← hf, he]
  · have hf : s.fragments.isEmpty = false := by simpa using fun hf => he (h.empty_iff.1 hf)
    simp [hf, he, h.text, ← Array.toList_inj]

/-! ## What holds between two steps

Two things are kept by every step and are needed by the next one. `Coherent` is about the
places: it says that the octets of the open word are there to be read, and that within a word only
carriage returns were passed over since its last octet. `Holds` is about the fragments, and
carries the items that they came from; these cannot be found in the state, since a space in a
fragment may be one that was pushed or one that a word has. -/

/-- The places of a scanner fit together. -/
structure Coherent (s : Scanner) : Prop where
  /-- Inside a word there is an open word. -/
  inside : s.wordStart = none → s.atWordStart = true
  /-- An open word has an octet, and is behind the cursor. -/
  bounds : ∀ start, s.wordStart = some start →
    ∃ stop, s.wordEnd = some stop ∧ start < stop ∧ stop ≤ s.cursor.pos
  /-- Inside a word, nothing but carriage returns came after its last octet. -/
  tight : s.atWordStart = false → ∀ stop, s.wordEnd = some stop →
    ∀ b ∈ s.cursor.slice stop s.cursor.pos, b = Octet.cr

/-- Within a word, there is an open word with an octet, behind the cursor. -/
theorem Coherent.inWord {s : Scanner} (hs : Coherent s) (h : s.atWordStart = false) :
    ∃ start stop, s.wordStart = some start ∧ s.wordEnd = some stop ∧ start < stop ∧
      stop ≤ s.cursor.pos := by
  cases hw : s.wordStart with
  | none => exact absurd ((hs.inside hw).symm.trans h) (by simp)
  | some start =>
    obtain ⟨stop, hstop, hlt, hle⟩ := hs.bounds start hw
    exact ⟨start, stop, rfl, hstop, hlt, hle⟩

/-- Without an open word there is nothing that could fail to fit. -/
theorem Coherent.of_closed {s : Scanner} (h : s.wordStart = none) (hw : s.atWordStart = true) :
    Coherent s where
  inside _ := hw
  bounds start hstart := absurd (h.symm.trans hstart) (by simp)
  tight hin := absurd (hw.symm.trans hin) (by simp)

/-- Going on to where a word may begin keeps what holds of an open word. -/
theorem Coherent.of_atWordStart {s t : Scanner} (hs : Coherent s)
    (hstart : t.wordStart = s.wordStart) (hend : t.wordEnd = s.wordEnd)
    (hpos : s.cursor.pos ≤ t.cursor.pos) (hw : t.atWordStart = true) :
    Coherent t where
  inside _ := hw
  bounds start h := by
    obtain ⟨stop, hstop, hlt, hle⟩ := hs.bounds start (hstart ▸ h)
    exact ⟨stop, hend ▸ hstop, hlt, Nat.le_trans hle hpos⟩
  tight h := absurd (hw.symm.trans h) (by simp)

/-- The fragments of a scanner spell the items of the entry that it is at. Without an open word,
the last of them is an encoded word. -/
structure Holds (s : Scanner) (held : List Item) : Prop where
  spells : Spells s.fragments held
  inEntry : Item.InEntry held
  last : s.wordStart = none → ∀ is i, held = is ++ [i] → i.isEncoded = true

/-- Only the fragments matter, and whether a word is open. -/
theorem Holds.congr {s t : Scanner} {held : List Item} (hg : Holds s held)
    (hf : t.fragments = s.fragments) (hw : t.wordStart = s.wordStart) : Holds t held :=
  ⟨hf ▸ hg.spells, hg.inEntry, hw ▸ hg.last⟩

/-! ## What is still to come

The rest of the header falls into two parts: octets that go on with the word the scanner is in
(`tail`), and the line behind it, which can be cut into items as if nothing had come before
(`line`). Between words the first part is empty. In front of both is what the scanner has: its
entries, the items that it holds, and the octets of its open word. `outlook` is all of this in
order, and `none` where some word of it does not decode, since then there will be no value. -/

/-- The octets that still belong to the word the scanner is in. -/
def tail (s : Scanner) : Octets :=
  if s.atWordStart then [] else (Header.content s.cursor.rest).takeWhile Octet.isWord

/-- The octets of the header after the word that the scanner is in. -/
def line (s : Scanner) : Octets :=
  if s.atWordStart then Header.content s.cursor.rest
  else (Header.content s.cursor.rest).dropWhile Octet.isWord

/-- At the end of the header nothing is to come. -/
theorem tail_line_of_nil {s : Scanner} (h : Header.content s.cursor.rest = []) :
    s.tail = [] ∧ s.line = [] := by
  simp [tail, line, h]

/-- Between words, and at an octet that is part of none, all that is left is the line. -/
theorem tail_line_of_cons {s : Scanner} {b : UInt8} {l : Octets}
    (h : Header.content s.cursor.rest = b :: l)
    (hb : s.atWordStart = true ∨ Octet.isWord b = false) : s.tail = [] ∧ s.line = b :: l := by
  rcases hb with hb | hb <;> simp [tail, line, h, hb]

theorem tail_line_of_atWordStart {s : Scanner} (h : s.atWordStart = true) :
    s.tail = [] ∧ s.line = Header.content s.cursor.rest := by
  simp [tail, line, h]

/-- Within a word the octets that are left are divided where the word ends. -/
theorem tail_line_of_inside {s : Scanner} (h : s.atWordStart = false) :
    s.tail = (Header.content s.cursor.rest).takeWhile Octet.isWord ∧
      s.line = (Header.content s.cursor.rest).dropWhile Octet.isWord := by
  simp [tail, line, h]

variable [Decoders]

/-- The item of the open word, if there is one, with more octets after those it has. -/
def wordAhead (s : Scanner) (more : Octets) : Option (List Item) :=
  match s.wordStart with
  | none => some []
  | some start => (s.reads (s.wordOctets start ++ more)).result.toOption.map fun t => [.word t]

/-- The items of a line, under the settings of the scanner. -/
def itemsAhead (s : Scanner) (line : Octets) : Option (List Item) :=
  (items (fun word => (s.reads word).result) s.fallback line).toOption

/-- The entries that a scanner will have at the end of the header,
unless something does not decode. -/
def outlook (s : Scanner) (held : List Item) : Option (List Text) :=
  (s.wordAhead (s.tail.filter (· != Octet.cr))).bind fun word =>
    (s.itemsAhead s.line).map fun is => s.entries.toList ++ Item.entries (held ++ word ++ is)

/-- The outlook where the two parts of the rest are known. -/
theorem outlook_of {s : Scanner} {more l : Octets} (htail : s.tail = more) (hline : s.line = l)
    (held : List Item) :
    s.outlook held = (s.wordAhead (more.filter (· != Octet.cr))).bind fun word =>
      (s.itemsAhead l).map fun is => s.entries.toList ++ Item.entries (held ++ word ++ is) := by
  rw [outlook, htail, hline]

/-- The entries that a scanner has when the header ends here. -/
def ending (s : Scanner) (held : List Item) : Option (List Text) :=
  (s.wordAhead []).map fun word => s.entries.toList ++ entryOf (held ++ word)

/-- What a step does to the outlook. -/
inductive Advance (s : Scanner) (held : List Item) : ScanResult Bool → Prop
  | goesOn (t : Scanner) (held' : List Item) (coherent : Coherent t) (holds : Holds t held')
      (same : t.outlook held' = s.outlook held) : Advance s held (.ok true t)
  | ends (t : Scanner) (inside : t.wordStart = none → t.atWordStart = true) (holds : Holds t held)
      (same : t.ending held = s.outlook held) : Advance s held (.ok false t)
  | fails (fault : Fault) (t : Scanner) (same : s.outlook held = none) :
      Advance s held (.error fault t)

theorem wordAhead_of_none {s : Scanner} (h : s.wordStart = none) (more : Octets) :
    s.wordAhead more = some [] := by
  rw [wordAhead, h]

theorem itemsAhead_nil (s : Scanner) : s.itemsAhead [] = some [] := by
  rw [itemsAhead, items_nil]
  rfl

/-- What only separates can be left away. The laws below say the same of the other kinds of octet;
they are those of `items`, for an answer without its fault. -/
theorem itemsAhead_gap (s : Scanner) {b : UInt8}
    (h : Octet.isBlank b = true ∨ b = Octet.lf ∨ b = Octet.cr) (l : Octets) :
    s.itemsAhead (b :: l) = s.itemsAhead l := by
  rw [itemsAhead, items_gap h, itemsAhead]

theorem itemsAhead_comma (s : Scanner) (l : Octets) :
    s.itemsAhead (Octet.comma :: l) = (s.itemsAhead l).map (Item.comma :: ·) := by
  rw [itemsAhead, items_comma, itemsAhead]
  cases items (fun word => (s.reads word).result) s.fallback l <;> rfl

theorem itemsAhead_word (s : Scanner) {b : UInt8} (hb : Octet.StartsWord b) {l : Octets}
    (h : encodedAt s.fallback (b :: l) = .ok none) :
    s.itemsAhead (b :: l) =
      (s.reads (b :: (l.takeWhile Octet.isWord).filter (· != Octet.cr))).result.toOption.bind
      fun t =>
        (s.itemsAhead (l.dropWhile Octet.isWord)).map (Item.word t :: ·) := by
  rw [itemsAhead, items_word hb h]
  simp only [itemsAhead, bind, Except.bind]
  cases (s.reads (b :: (l.takeWhile Octet.isWord).filter (· != Octet.cr))).result with
  | error fault => rfl
  | ok t =>
    cases items (fun word => (s.reads word).result) s.fallback (l.dropWhile Octet.isWord) <;> rfl

theorem itemsAhead_encoded (s : Scanner) {l after : Octets} {t : Text}
    (h : encodedAt s.fallback (Octet.equals :: l) = .ok (some (t, after))) :
    s.itemsAhead (Octet.equals :: l) = (s.itemsAhead after).map (Item.encoded t :: ·) := by
  rw [itemsAhead, items_encoded h, itemsAhead]
  cases items (fun word => (s.reads word).result) s.fallback after <;> rfl

theorem itemsAhead_fault (s : Scanner) {l : Octets} {fault : Fault}
    (h : encodedAt s.fallback (Octet.equals :: l) = .error fault) :
    s.itemsAhead (Octet.equals :: l) = none := by
  rw [itemsAhead, items_fault h]
  rfl

end HeaderList.Scanner
