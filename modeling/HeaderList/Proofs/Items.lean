import HeaderList.Header
import HeaderList.Proofs.EncodedWord.Form
import HeaderList.Proofs.Pieces

/-!
# `HeaderList/Proofs/Items.lean` — what a header value means

The scanner finds out what a header says octet by octet, and remembers places instead of words.
The same can be said without a scanner, in four steps:

1. the header goes up to the first line feed that no blank follows (`Header.content`);
2. its octets are cut into plain words, encoded words and commas (`items`);
3. encoded words without text are left out (`Item.counts`);
4. what stands between two commas is one entry, unless nothing stands there (`Item.entries`);
   between two items of an entry is a space, except between two encoded words (`Item.joined`).

`Header.meaning` puts the steps together. Nothing in it looks back: it is the reference that the
scanner is compared with, and the laws at the end of each section are what the comparison needs.
-/

set_option autoImplicit false

namespace HeaderList

/-! ## The octets of a header

Whether a line feed ends the header is told by the octet behind it, and a line feed that is the
last octet does end it. So the octets of a header cannot be found by looking for line feeds
alone, and what comes behind some octets can matter to how far a header within them goes. The
laws below say when it does not. -/

/-- Does a line with these octets after its line feed end there? -/
def Header.endsBefore (rest : Octets) : Bool := !rest.head?.any Octet.isBlank

/-- The octets of the header that octets begin with: those in front of the first line
feed that no blank follows. -/
def Header.content : Octets → Octets
  | [] => []
  | b :: rest => if b = Octet.lf ∧ endsBefore rest = true then [] else b :: content rest

namespace Header

theorem content_lf {rest : Octets} (h : endsBefore rest = true) :
    content (Octet.lf :: rest) = [] := by
  rw [content, if_pos ⟨rfl, h⟩]

theorem content_cons {b : UInt8} {rest : Octets} (h : ¬ (b = Octet.lf ∧ endsBefore rest = true)) :
    content (b :: rest) = b :: content rest := by
  rw [content, if_neg h]

theorem content_cons_of_ne {b : UInt8} (hb : b ≠ Octet.lf) (rest : Octets) :
    content (b :: rest) = b :: content rest :=
  content_cons fun h => hb h.1

/-- A header without octets is one at the end of the octets, or at the line feed that ends it. -/
theorem content_eq_nil {bs : Octets} (h : content bs = []) :
    bs = [] ∨ ∃ more, bs = Octet.lf :: more ∧ endsBefore more = true := by
  cases bs with
  | nil => exact Or.inl rfl
  | cons b more =>
    by_cases hb : b = Octet.lf ∧ endsBefore more = true
    · obtain ⟨rfl, hmore⟩ := hb
      exact Or.inr ⟨more, rfl, hmore⟩
    · rw [content_cons hb] at h
      cases h

/-- The first octet of a header is the first octet there is, and does not end it. -/
theorem content_eq_cons {bs l : Octets} {b : UInt8} (h : content bs = b :: l) :
    ∃ more, bs = b :: more ∧ ¬ (b = Octet.lf ∧ endsBefore more = true) ∧ content more = l := by
  cases bs with
  | nil => cases h
  | cons x more =>
    by_cases hx : x = Octet.lf ∧ endsBefore more = true
    · rw [content, if_pos hx] at h
      cases h
    · rw [content_cons hx] at h
      obtain ⟨rfl, hmore⟩ := List.cons.inj h
      exact ⟨more, rfl, hx, hmore⟩

/-- A header goes on to the end of the octets, or to a line feed that is not part of
it and that no blank follows. -/
theorem content_cases (bs : Octets) :
    content bs = bs ∨ ∃ more, endsBefore more = true ∧ bs = content bs ++ Octet.lf :: more := by
  induction bs with
  | nil => exact Or.inl rfl
  | cons b rest ih =>
    by_cases h : b = Octet.lf ∧ endsBefore rest = true
    · obtain ⟨rfl, hr⟩ := h
      exact Or.inr ⟨rest, hr, by rw [content_lf hr, List.nil_append]⟩
    · rw [content_cons h]
      rcases ih with ih | ⟨more, hm, ih⟩
      · exact Or.inl (by rw [ih])
      · exact Or.inr ⟨more, hm, by rw [List.cons_append, ← ih]⟩

theorem isPrefix_content (bs : Octets) : content bs <+: bs := by
  rcases content_cases bs with heq | ⟨more, -, heq⟩
  · exact ⟨[], by rw [List.append_nil, heq]⟩
  · exact ⟨Octet.lf :: more, heq.symm⟩

/-- Does every line feed go on, so that no header is over within the octets? -/
def GoesOn (bs : Octets) : Prop := ∀ rest, Octet.lf :: rest <:+ bs → endsBefore rest = false

theorem GoesOn.tail {b : UInt8} {bs : Octets} (h : GoesOn (b :: bs)) : GoesOn bs :=
  fun rest hrest => h rest (hrest.trans (List.suffix_cons b bs))

/-- Octets whose lines all go on are the front of the header that they stand in. A line feed as
their last octet is excluded: whether that line goes on is for `more` to say. -/
theorem content_append_of_goesOn {bs : Octets} (h : GoesOn bs) (more : Octets) :
    content (bs ++ more) = bs ++ content more := by
  induction bs with
  | nil => rfl
  | cons b bs ih =>
    have hb : ¬ (b = Octet.lf ∧ endsBefore (bs ++ more) = true) := by
      rintro ⟨rfl, hend⟩
      have hgoes : endsBefore bs = false := h bs (List.suffix_refl _)
      -- the blank that follows the line feed is within the octets
      cases bs with
      | nil => cases hgoes
      | cons x bs =>
        have hsame : endsBefore (x :: bs ++ more) = endsBefore (x :: bs) := rfl
        rw [hsame, hgoes] at hend
        cases hend
    rw [List.cons_append, content_cons hb, ih h.tail, List.cons_append]

theorem content_of_goesOn {bs : Octets} (h : GoesOn bs) : content bs = bs := by
  have hself := content_append_of_goesOn h []
  rwa [List.append_nil, content, List.append_nil] at hself

/-- The case without line feeds, which is the one for octets of a word. -/
theorem content_append_of_no_lf {l : Octets} (hl : Octet.lf ∉ l) (rest : Octets) :
    content (l ++ rest) = l ++ content rest :=
  content_append_of_goesOn (fun _ hlf => absurd (hlf.subset List.mem_cons_self) hl) rest

/-- What a header begins with can be told from its own octets. -/
theorem begins_content (bs : Octets) : EncodedWord.Begins (content bs) ↔ EncodedWord.Begins bs := by
  rcases content_cases bs with h | ⟨more, -, h⟩
  · rw [h]
  · have hb : EncodedWord.Begins (content bs ++ Octet.lf :: more) ↔
        EncodedWord.Begins (content bs) :=
      EncodedWord.begins_append_lf more
    rw [← h] at hb
    exact hb.symm

end Header

/-! ## Items and entries

An item is what the scanner takes in at once. Plain words come as their texts and not as their
octets, so that an item says all that matters to a value: `Item.entries` needs no settings. -/

inductive Item
  | word (text : Text)
  | encoded (text : Text)
  | comma
deriving DecidableEq

namespace Item

def text : Item → Text
  | word t | encoded t => t
  | comma => []

def isEncoded : Item → Bool
  | encoded _ => true
  | _ => false

/-- An encoded word without text counts for nothing. -/
def counts : Item → Bool
  | encoded t => !t.isEmpty
  | _ => true

/-- What stands between two items of an entry. -/
def between (i j : Item) : Text := if i.isEncoded && j.isEncoded then [] else Scanner.gap

def joined : List Item → Text
  | [] => []
  | [i] => i.text
  | i :: j :: rest => i.text ++ between i j ++ joined (j :: rest)

def entries (is : List Item) : List Text :=
  (((is.filter counts).splitOn comma).filter (!·.isEmpty)).map joined

/-- The items of each entry, where those that count for nothing have been left out. -/
def groups (is : List Item) : List (List Item) :=
  ((is.filter counts).splitOn comma).filter (!·.isEmpty)

theorem entries_eq_map_groups (is : List Item) : entries is = (groups is).map joined := rfl

/-- One more item brings its text and what stands between it and the item before. This is the end
at which a scanner adds items, while `joined` goes from the other one. -/
theorem joined_concat (is : List Item) (i j : Item) :
    joined (is ++ [i] ++ [j]) = joined (is ++ [i]) ++ between i j ++ j.text := by
  induction is with
  | nil => simp [joined]
  | cons k is ih =>
    cases is with
    | nil => simp [joined]
    | cons l is =>
      simp only [List.cons_append, joined] at ih ⊢
      rw [ih]
      simp only [List.append_assoc]

theorem entries_skip {i : Item} (h : i.counts = false) (is js : List Item) :
    entries (is ++ i :: js) = entries (is ++ js) := by
  simp [entries, h]

/-- Items that are part of one entry: there is no comma among them, and all of them count. -/
structure InEntry (is : List Item) : Prop where
  no_comma : comma ∉ is
  counts : ∀ i ∈ is, i.counts = true

theorem InEntry.nil : InEntry [] := ⟨by simp, by simp⟩

theorem InEntry.singleton {i : Item} (hi : i ≠ comma) (hc : i.counts = true) : InEntry [i] :=
  ⟨by simpa using hi.symm, by simpa using hc⟩

theorem InEntry.append {is js : List Item} (hi : InEntry is) (hj : InEntry js) :
    InEntry (is ++ js) := by
  refine ⟨by simp [hi.no_comma, hj.no_comma], fun i h => ?_⟩
  rcases List.mem_append.1 h with h | h
  · exact hi.counts i h
  · exact hj.counts i h

theorem inEntry_encoded {ps : List Text} (h : ∀ p ∈ ps, p ≠ []) : InEntry (ps.map encoded) := by
  refine ⟨by simp, fun i hi => ?_⟩
  obtain ⟨p, hp, rfl⟩ := List.mem_map.1 hi
  simpa [Item.counts] using h p hp

/-- Encoded words that follow each other are put together without anything between. -/
theorem joined_encoded (ps : List Text) : joined (ps.map encoded) = ps.flatten := by
  induction ps with
  | nil => rfl
  | cons p ps ih =>
    cases ps with
    | nil => simp [joined, text]
    | cons q ps =>
      rw [List.map_cons, List.map_cons, joined, ← List.map_cons, ih]
      simp [between, isEncoded, text]

theorem mem_of_mem_splitOn {is g : List Item} (h : g ∈ is.splitOn comma) :
    comma ∉ g ∧ ∀ i ∈ g, i ∈ is := by
  have hmem : ∀ i ∈ g, i ∈ is ∧ (i == comma) = false := fun i hi => mem_of_mem_splitOnP h hi
  refine ⟨fun hcomma => ?_, fun i hi => (hmem i hi).1⟩
  have hne := (hmem comma hcomma).2
  rw [beq_self_eq_true] at hne
  cases hne

/-- An entry has an item, all of its items count, and there is no comma among them. -/
theorem inEntry_of_mem_groups {is g : List Item} (h : g ∈ groups is) :
    InEntry g ∧ g ≠ [] ∧ ∀ i ∈ g, i ∈ is := by
  obtain ⟨hsplit, hne⟩ := List.mem_filter.1 h
  obtain ⟨hcomma, hmem⟩ := mem_of_mem_splitOn hsplit
  refine ⟨⟨hcomma, fun i hi => (List.mem_filter.1 (hmem i hi)).2⟩, by simpa using hne, ?_⟩
  exact fun i hi => (List.mem_filter.1 (hmem i hi)).1

/-- Items without a comma are one entry, or none if there are no items. -/
def entryOf (is : List Item) : List Text := if is.isEmpty then [] else [joined is]

/-- Items of one entry make this entry, and none if there are no items. -/
theorem entries_of_inEntry {is : List Item} (h : InEntry is) : entries is = entryOf is := by
  rw [entries, List.filter_eq_self.2 h.counts, List.splitOn_eq_singleton h.no_comma, entryOf]
  cases is <;> rfl

/-- What stands on one side of a comma does not matter to the entries of the other. -/
theorem entries_append_comma (is js : List Item) :
    entries (is ++ comma :: js) = entries is ++ entries js := by
  have hc : comma.counts = true := rfl
  rw [entries, entries, entries, List.filter_append, List.filter_cons_of_pos hc,
    List.splitOn_append_cons_self, List.filter_append, List.map_append]

theorem entries_comma {is : List Item} (h : InEntry is) (js : List Item) :
    entries (is ++ comma :: js) = entryOf is ++ entries js := by
  rw [entries_append_comma, entries_of_inEntry h]

end Item

/-! ## Cutting octets into items

At each place the first octet decides. What begins with an equals sign and a question mark may be
an encoded word; whether it is one is told by `encodedAt`, which reads with the same reader as the
scanner and so agrees with it by definition, and only where the word ends is counted in octets
that are left. The cut is a recursion over what is left, as every case takes at least one octet. -/

/-- Can the octet be part of a plain word? A carriage return can: it is dropped later. -/
def Octet.isWord (b : UInt8) : Bool := !(Octet.isBlank b || b == Octet.lf || b == Octet.comma)

/-- Does a word begin where the octet stands between words? -/
def Octet.StartsWord (b : UInt8) : Prop := Octet.isWord b = true ∧ b ≠ Octet.cr

theorem Octet.startsWord_of_not {b : UInt8}
    (hgap : ¬ (Octet.isBlank b = true ∨ b = Octet.lf ∨ b = Octet.cr)) (hcomma : b ≠ Octet.comma) :
    Octet.StartsWord b := by
  rw [not_or, not_or] at hgap
  exact ⟨by simp [Octet.isWord, hgap, hcomma], hgap.2.2⟩

theorem Octet.StartsWord.ne_lf {b : UInt8} (h : Octet.StartsWord b) : b ≠ Octet.lf := by
  rintro rfl
  exact absurd h.1 (by decide)

theorem Octet.StartsWord.filter_cr {b : UInt8} (h : Octet.StartsWord b) (l : Octets) :
    (b :: l).filter (· != Octet.cr) = b :: l.filter (· != Octet.cr) := by
  rw [List.filter_cons, if_pos (by simpa using h.2)]

/-- Are the octets those of a plain word, without its carriage returns? -/
structure IsWord (word : Octets) : Prop where
  ne_nil : word ≠ []
  startsWord : ∀ b ∈ word, Octet.StartsWord b

/-- What is cut out as a plain word is one: its first octet stays when the carriage returns are
dropped, so it is not empty. -/
theorem isWord_takeWhile {b : UInt8} (hb : Octet.StartsWord b) (rest : Octets) :
    IsWord ((b :: rest.takeWhile Octet.isWord).filter (· != Octet.cr)) := by
  refine ⟨by rw [hb.filter_cr]; exact List.cons_ne_nil _ _, fun x hx => ?_⟩
  obtain ⟨hmem, hcr⟩ := List.mem_filter.1 hx
  have hword : Octet.isWord x = true := by
    rcases List.mem_cons.1 hmem with rfl | hmem
    · exact hb.1
    · exact List.all_eq_true.1 (List.all_takeWhile) x hmem
  exact ⟨hword, by simpa using hcr⟩

/-- No word goes beyond an octet that is part of none. -/
theorem takeWhile_append_of_not_word {l : Octets} (hl : ∀ b ∈ l.head?, Octet.isWord b = false)
    (bs : Octets) :
    (bs ++ l).takeWhile Octet.isWord = bs.takeWhile Octet.isWord ∧
      (bs ++ l).dropWhile Octet.isWord = bs.dropWhile Octet.isWord ++ l := by
  induction bs with
  | nil =>
    cases l with
    | nil => exact ⟨rfl, rfl⟩
    | cons b l =>
      have hb : ¬ Octet.isWord b = true := by simpa using hl b rfl
      exact ⟨List.takeWhile_cons_of_neg hb, List.dropWhile_cons_of_neg hb⟩
  | cons b bs ih =>
    cases hb : Octet.isWord b with
    | true =>
      rw [List.cons_append, List.takeWhile_cons_of_pos hb, List.takeWhile_cons_of_pos hb,
        List.dropWhile_cons_of_pos hb, List.dropWhile_cons_of_pos hb, ih.1]
      exact ⟨rfl, ih.2⟩
    | false =>
      have hb' : ¬ Octet.isWord b = true := by simp [hb]
      rw [List.cons_append, List.takeWhile_cons_of_neg hb', List.takeWhile_cons_of_neg hb',
        List.dropWhile_cons_of_neg hb', List.dropWhile_cons_of_neg hb']
      exact ⟨rfl, rfl⟩

section Cutting

variable [Decoders] (plain : Octets → Except Fault Text) (fallback : Datum)

/-- The text of the encoded word that octets begin with, if they do, and the octets after it. -/
def encodedAt : Octets → Except Fault (Option (Text × Octets))
  | Octet.equals :: Octet.question :: rest =>
    let (text, cursor) := EncodedWord.decodeAt? fallback (Cursor.ofOctets (Octet.question :: rest))
    text.result.map fun t => t.map (·, (Octet.question :: rest).drop cursor.pos)
  | _ => .ok none

omit plain in
/-- What is left after an encoded word is left of the octets, and the first of them is not. -/
theorem isSuffix_encodedAt {b : UInt8} {rest after : Octets} {text : Text}
    (h : encodedAt fallback (b :: rest) = .ok (some (text, after))) : after <:+ rest := by
  unfold encodedAt at h
  split at h
  · next heq =>
    obtain ⟨-, rfl⟩ := List.cons.inj heq
    obtain ⟨found, -, hfound⟩ := map_eq_ok h
    obtain ⟨t, -, ht⟩ := Option.map_eq_some_iff.1 hfound
    obtain ⟨-, rfl⟩ := Prod.mk.inj ht
    exact List.drop_suffix _ _
  · cases h

omit plain in
/-- An encoded word takes octets. This is what the recursion of `items` goes down by. -/
theorem length_encodedAt {bs after : Octets} {text : Text}
    (h : encodedAt fallback bs = .ok (some (text, after))) : after.length < bs.length := by
  cases bs with
  | nil => cases h
  | cons b rest => exact Nat.lt_succ_of_le (isSuffix_encodedAt fallback h).length_le

/-- Past the equals sign, a legible word is found: it has a text or not, and what is left is what
stands behind its last octet. -/
theorem encodedAt_of_body {w : EncodedWord} (hw : w.Legible) (tail : Octets) :
    encodedAt fallback (Octet.equals :: (w.body ++ tail)) =
      (w.decode? fallback).map fun t => t.map (·, tail) := by
  have hrest := Cursor.rest_ofOctets (w.body ++ tail)
  obtain ⟨hresult, hcursor⟩ := EncodedWord.decodeAt?_of_body fallback hw hrest
  have heq : encodedAt fallback (Octet.equals :: (w.body ++ tail)) =
      (EncodedWord.decodeAt? fallback (.ofOctets (w.body ++ tail))).1.result.map fun t =>
        t.map (·, (w.body ++ tail).drop
          (EncodedWord.decodeAt? fallback (.ofOctets (w.body ++ tail))).2.pos) := rfl
  rw [heq, hresult, hcursor, Cursor.skip_pos, Cursor.ofOctets, Nat.zero_add, List.drop_left]

theorem encodedAt_of_not_begins {b : UInt8} {rest : Octets} (h : ¬ EncodedWord.Begins rest) :
    encodedAt fallback (b :: rest) = .ok none := by
  unfold encodedAt
  split
  · rename_i heq
    obtain ⟨-, rfl⟩ := List.cons.inj heq
    have hr := EncodedWord.decodeAt?_of_not_begins fallback
      (c := .ofOctets (Octet.question :: _)) (by rwa [Cursor.rest_ofOctets])
    simp [hr, Except.map]
  · rfl

theorem encodedAt_of_ne {b : UInt8} {rest : Octets} (h : b ≠ Octet.equals) :
    encodedAt fallback (b :: rest) = .ok none := by
  unfold encodedAt
  split
  · rename_i heq
    exact absurd (List.cons.inj heq).1 h
  · rfl

/-- What is found is a legible word with a text, and what is left stands behind it. -/
theorem encodedAt_eq_some {b : UInt8} {rest after : Octets} {t : Text}
    (h : encodedAt fallback (b :: rest) = .ok (some (t, after))) :
    b = Octet.equals ∧
      ∃ w : EncodedWord, w.Legible ∧ rest = w.body ++ after ∧
      w.decode? fallback = .ok (some t) := by
  by_cases hb : b = Octet.equals
  · subst hb
    refine ⟨rfl, ?_⟩
    -- whether a word is legible is settled by its octets, and only then is its text asked for
    by_cases hbegins : EncodedWord.Begins rest
    · obtain ⟨w, tail, hw, rfl⟩ := hbegins
      rw [encodedAt_of_body fallback hw] at h
      obtain ⟨found, hfound, hmap⟩ := map_eq_ok h
      obtain ⟨t', rfl, heq⟩ := Option.map_eq_some_iff.1 hmap
      obtain ⟨rfl, rfl⟩ := Prod.mk.inj heq
      exact ⟨w, hw, rfl, hfound⟩
    · rw [encodedAt_of_not_begins fallback hbegins] at h
      cases h
  · rw [encodedAt_of_ne fallback hb] at h
    cases h

/-- A word that is complete is the same whatever comes after. -/
theorem encodedAt_append_of_begins {bs : Octets} (h : EncodedWord.Begins bs)
    (more : Octets) : encodedAt fallback (Octet.equals :: (bs ++ more)) =
      (encodedAt fallback (Octet.equals :: bs)).map fun found => found.map fun p =>
        (p.1, p.2 ++ more) := by
  obtain ⟨w, tail, hw, rfl⟩ := h
  rw [List.append_assoc, encodedAt_of_body fallback hw, encodedAt_of_body fallback hw]
  cases w.decode? fallback with
  | error fault => rfl
  | ok found => cases found <;> rfl

/-- Where nothing is found, nothing is found in fewer octets. -/
theorem encodedAt_of_longer {b : UInt8} {bs more : Octets}
    (h : encodedAt fallback (b :: (bs ++ more)) = .ok none) :
    encodedAt fallback (b :: bs) = .ok none := by
  by_cases hb : b = Octet.equals
  · subst hb
    by_cases hbegins : EncodedWord.Begins bs
    · rw [encodedAt_append_of_begins fallback hbegins] at h
      obtain ⟨found, hfound, hnone⟩ := map_eq_ok h
      rw [hfound, Option.map_eq_none_iff.1 hnone]
    · exact encodedAt_of_not_begins fallback hbegins
  · exact encodedAt_of_ne fallback hb

/-- The items of a header's octets. White space, folded lines and carriage returns only separate;
a comma is an item of its own. Where a word begins, it is an encoded word if one can be read
there, and else a plain word that goes as far as it can; `plain` says how its octets read. -/
def items : Octets → Except Fault (List Item)
  | [] => .ok []
  | b :: rest =>
    if Octet.isBlank b ∨ b = Octet.lf ∨ b = Octet.cr then items rest
    else if b = Octet.comma then (Item.comma :: ·) <$> items rest
    else
      match _h : encodedAt fallback (b :: rest) with
      | .error fault => .error fault
      | .ok (some (text, after)) => (Item.encoded text :: ·) <$> items after
      | .ok none => do
        let text ← plain ((b :: rest.takeWhile Octet.isWord).filter (· != Octet.cr))
        let others ← items (rest.dropWhile Octet.isWord)
        return .word text :: others
termination_by bs => bs.length
decreasing_by
  · simp
  · simp
  · exact length_encodedAt fallback _h
  · have := (List.dropWhile_sublist Octet.isWord (l := rest)).length_le
    simp only [List.length_cons]
    omega

variable {plain fallback}

theorem items_nil : items plain fallback [] = .ok [] := by
  rw [items]

theorem items_gap {b : UInt8} (h : Octet.isBlank b ∨ b = Octet.lf ∨ b = Octet.cr) (rest : Octets) :
    items plain fallback (b :: rest) = items plain fallback rest := by
  rw [items, if_pos h]

theorem items_comma (rest : Octets) :
    items plain fallback (Octet.comma :: rest) = (Item.comma :: ·) <$>
      items plain fallback rest := by
  rw [items, if_neg (by decide), if_pos rfl]

/-- What `items` is where a word begins. Its own equation has a match that remembers where its
cases come from, for the recursion; here the match is a plain one. -/
theorem items_startsWord {b : UInt8} (hb : Octet.StartsWord b) (rest : Octets) :
    items plain fallback (b :: rest) =
      match encodedAt fallback (b :: rest) with
      | .error fault => .error fault
      | .ok (some (text, after)) => (Item.encoded text :: ·) <$> items plain fallback after
      | .ok none => do
        let text ← plain ((b :: rest.takeWhile Octet.isWord).filter (· != Octet.cr))
        let others ← items plain fallback (rest.dropWhile Octet.isWord)
        return .word text :: others := by
  have h := hb.1
  simp only [Octet.isWord, Bool.not_eq_true', Bool.or_eq_false_iff, beq_eq_false_iff_ne] at h
  rw [items, if_neg (by simp [h, hb.2]), if_neg h.2]
  -- the match in `items` carries the equation that its recursion goes down by
  split <;> simp_all

/-- A plain word goes as far as it can. Its first octet is no carriage return and is kept by the
filter, so that it can stand in front. -/
theorem items_word {b : UInt8} (hb : Octet.StartsWord b) {rest : Octets}
    (h : encodedAt fallback (b :: rest) = .ok none) :
    items plain fallback (b :: rest) = do
      let text ← plain (b :: (rest.takeWhile Octet.isWord).filter (· != Octet.cr))
      let others ← items plain fallback (rest.dropWhile Octet.isWord)
      return .word text :: others := by
  rw [items_startsWord hb, h]
  simp only [hb.filter_cr]

theorem items_encoded {rest after : Octets} {text : Text}
    (h : encodedAt fallback (Octet.equals :: rest) = .ok (some (text, after))) :
    items plain fallback (Octet.equals :: rest) =
      (Item.encoded text :: ·) <$> items plain fallback after := by
  rw [items_startsWord ⟨by decide, by decide⟩, h]

theorem items_fault {rest : Octets} {fault : Fault}
    (h : encodedAt fallback (Octet.equals :: rest) = .error fault) :
    items plain fallback (Octet.equals :: rest) = .error fault := by
  rw [items_startsWord ⟨by decide, by decide⟩, h]

/-- What a plain word says is what its octets read as. -/
theorem word_of_items {bs : Octets} {is : List Item} {t : Text}
    (h : items plain fallback bs = .ok is) (ht : Item.word t ∈ is) :
    ∃ word, IsWord word ∧ plain word = .ok t := by
  -- on the cutting; only a plain word adds an item of this kind, and its octets are
  -- those that were cut out there
  fun_induction items plain fallback bs generalizing is with
  | case1 =>
    cases h
    cases ht
  | case2 b rest hgap ih => exact ih h ht
  | case3 rest hgap ih =>
    obtain ⟨js, hjs, rfl⟩ := map_eq_ok h
    exact ih hjs (by simpa using ht)
  | case4 => cases h
  | case5 b rest hgap hcomma text after hfound ih =>
    obtain ⟨js, hjs, rfl⟩ := map_eq_ok h
    exact ih hjs (by simpa using ht)
  | case6 b rest hgap hcomma hnone ih =>
    obtain ⟨text, htext, h⟩ := bind_eq_ok h
    obtain ⟨js, hjs, h⟩ := bind_eq_ok h
    cases h
    rcases List.mem_cons.1 ht with heq | ht
    · cases heq
      exact ⟨_, isWord_takeWhile (Octet.startsWord_of_not hgap hcomma) rest, htext⟩
    · exact ih hjs ht

/-- Where every word can be read, all octets can be cut into items. -/
theorem items_total (hplain : ∀ word, IsWord word → ∃ t, plain word = .ok t)
    (hencoded : ∀ bs, ∃ t, encodedAt fallback bs = .ok t) (bs : Octets) :
    ∃ is, items plain fallback bs = .ok is := by
  -- on the cutting: the four cases without a fault leave fewer octets, and
  -- the fault does not come up
  fun_induction items plain fallback bs with
  | case1 => exact ⟨[], rfl⟩
  | case2 b rest h ih => exact ih
  | case3 rest h ih =>
    obtain ⟨is, his⟩ := ih
    exact ⟨_, by rw [his]; rfl⟩
  | case4 b rest h hc fault he =>
    obtain ⟨t, ht⟩ := hencoded (b :: rest)
    rw [he] at ht
    cases ht
  | case5 b rest h hc text after he ih =>
    obtain ⟨is, his⟩ := ih
    exact ⟨_, by rw [his]; rfl⟩
  | case6 b rest h hc he ih =>
    obtain ⟨t, ht⟩ := hplain _ (isWord_takeWhile (Octet.startsWord_of_not h hc) rest)
    obtain ⟨is, his⟩ := ih
    exact ⟨Item.word t :: is, by rw [ht, his]; rfl⟩

end Cutting

/-! ## The meaning of a header -/

variable [Decoders]

/-- How the octets of a plain word read under settings. -/
def Settings.readsWord (given : Settings) (word : Octets) : Except Fault Text :=
  (Charset.decodeNamed word (Setting.charset.value given.charset) given.fallback
    (Setting.decodeErrors.value given.errors)).result

/-- The value of the header that octets begin with. -/
def Header.meaning (given : Settings) (bs : Octets) : Except Fault Value :=
  (fun is => Value.ofEntries (Item.entries is)) <$>
    items given.readsWord given.fallback (content bs)

end HeaderList
