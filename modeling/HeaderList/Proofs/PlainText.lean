import HeaderList.Proofs.Defaults
import HeaderList.Proofs.Pieces

/-!
# `HeaderList/Proofs/PlainText.lean` — headers without encoded words

Where no equals sign stands in front of a question mark, a header has no encoded word, and what it
says is a matter of cutting (`Header.readAt_of_plain`): at commas into entries, at white space
into words, and from the words the carriage returns are dropped.

The scanner cuts octets, and every word of octets is decoded by itself. For a text that comes to
the same as cutting the text (`Text.listed`), although its characters have up to four octets: no
octet that separates is part of a longer character, so that every word is the octets of some
characters and is decoded to them. No character is lost or replaced (`read_plain_text`).
-/

set_option autoImplicit false

namespace HeaderList

/-! ## Octets -/

namespace Octet

/-- Does the octet separate words? -/
def isGap (b : UInt8) : Bool := isBlank b || b == lf

/-- The words of each entry, empty entries included. -/
def words (bs : Octets) : List (List Octets) := parts (· == comma) isGap (· != cr) bs

/-- White space and carriage returns in front of the words say nothing. -/
theorem words_skip {b : UInt8} (h : isBlank b = true ∨ b = lf ∨ b = cr) (bs : Octets) :
    words (b :: bs) = words bs := by
  refine parts_skip ?_ ?_
  · rw [beq_eq_false_iff_ne]
    rintro rfl
    exact absurd h (by decide)
  · rw [isGap, Bool.or_eq_true, beq_iff_eq, bne_eq_false_iff_eq, or_assoc]
    exact h

/-- A comma in front ends an entry that has no words. -/
theorem words_comma (bs : Octets) : words (comma :: bs) = [] :: words bs := parts_stop rfl

theorem isWord_spec {b : UInt8} (h : isWord b = true) : (b == comma) = false ∧ isGap b = false := by
  rw [isWord, Bool.not_eq_true', Bool.or_eq_false_iff] at h
  exact h.symm

/-- An octet that begins a word brings the word in front of the others of its entry. It ends where
the octets of the word end, at something that separates or at the end of all. -/
theorem words_word {b : UInt8} (hb : StartsWord b) (bs : Octets) :
    words (b :: bs) = (words (bs.dropWhile isWord)).modifyHead
      ((b :: bs.takeWhile isWord).filter (· != cr) :: ·) := by
  have hword : ∀ x ∈ b :: bs.takeWhile isWord, isWord x = true :=
    List.forall_mem_cons.2 ⟨hb.1, fun x hx => List.all_eq_true.1 List.all_takeWhile x hx⟩
  have hcut : b :: bs = (b :: bs.takeWhile isWord) ++ bs.dropWhile isWord := by
    rw [List.cons_append, List.takeWhile_append_dropWhile]
  rw [words, hcut]
  refine parts_append (fun x hx => (isWord_spec (hword x hx)).1)
    (fun x hx => (isWord_spec (hword x hx)).2)
    (isWord_takeWhile hb bs).ne_nil ?_
  intro x hx
  have hno : isWord x = false := by
    have := List.head?_dropWhile_not isWord bs
    rw [Option.mem_def.1 hx] at this
    exact this
  rw [isWord, Bool.not_eq_false', Bool.or_eq_true] at hno
  exact hno.symm

end Octet

/-- Is no equals sign in front of a question mark, so that no encoded
word can begin in the octets? -/
def Plain (bs : Octets) : Prop := ¬ [Octet.equals, Octet.question] <:+: bs

theorem Plain.of_suffix {bs cs : Octets} (h : Plain bs) (hcs : cs <:+ bs) : Plain cs :=
  fun hmarks => h (hmarks.trans hcs.isInfix)

theorem plain_content {bs : Octets} (h : Plain bs) : Plain (Header.content bs) :=
  fun hmarks => h (hmarks.trans (Header.isPrefix_content bs).isInfix)

section Cutting

variable [Decoders] {plain : Octets → Except Fault Text} {read : Octets → Text} {fallback : Datum}
  {bs : Octets}

theorem encodedAt_of_plain (h : Plain bs) : encodedAt fallback bs = .ok none := by
  unfold encodedAt
  split
  · exact absurd (List.prefix_append [Octet.equals, Octet.question] _).isInfix h
  · rfl

/-- Octets without encoded words are cut into words and commas, and into nothing else. -/
theorem items_of_plain (fallback : Datum) (hplain : ∀ word, plain word = .ok (read word))
    (h : Plain bs) :
    ∃ is, items plain fallback bs = .ok is ∧ (∀ i ∈ is, i.counts = true) ∧
      is.splitOn Item.comma = (Octet.words bs).map (List.map fun word => .word (read word)) := by
  -- on the cutting; the two cases with an encoded word do not come up
  fun_induction items plain fallback bs with
  | case1 => exact ⟨[], rfl, by simp, rfl⟩
  | case2 b rest hgap ih =>
    rw [Octet.words_skip hgap]
    exact ih (h.of_suffix (List.suffix_cons b rest))
  | case3 rest hgap ih =>
    obtain ⟨is, his, hcounts, hsplit⟩ := ih (h.of_suffix (List.suffix_cons _ rest))
    refine ⟨.comma :: is, by rw [his]; rfl, List.forall_mem_cons.2 ⟨rfl, hcounts⟩, ?_⟩
    rw [Octet.words_comma, List.splitOn_cons_eq_if_modifyHead, if_pos (beq_self_eq_true _), hsplit]
    rfl
  | case4 b rest hgap hcomma fault hfault =>
    rw [encodedAt_of_plain h] at hfault
    cases hfault
  | case5 b rest hgap hcomma text after hfound ih =>
    rw [encodedAt_of_plain h] at hfound
    cases hfound
  | case6 b rest hgap hcomma hnone ih =>
    have hrest : rest.dropWhile Octet.isWord <:+ b :: rest :=
      (List.dropWhile_suffix Octet.isWord).trans (List.suffix_cons b rest)
    obtain ⟨is, his, hcounts, hsplit⟩ := ih (h.of_suffix hrest)
    let word := (b :: rest.takeWhile Octet.isWord).filter (· != Octet.cr)
    refine ⟨.word (read word) :: is, ?_, List.forall_mem_cons.2 ⟨rfl, hcounts⟩, ?_⟩
    · rw [hplain, his]
      rfl
    · rw [Octet.words_word (Octet.startsWord_of_not hgap hcomma),
        List.splitOn_cons_eq_if_modifyHead, if_neg (by simp), hsplit]
      cases Octet.words (rest.dropWhile Octet.isWord) <;> rfl

omit [Decoders] in
/-- Plain words have a space between any two of them. -/
theorem joined_words (ts : List Text) :
    Item.joined (ts.map .word) = Scanner.gap.intercalate ts := by
  induction ts with
  | nil => rfl
  | cons t ts ih =>
    cases ts with
    | nil => simp [Item.joined, Item.text]
    | cons u ts =>
      rw [List.map_cons, List.map_cons, Item.joined, ← List.map_cons, ih,
        List.intercalate_cons_cons]
      rfl

end Cutting

/-! ## Headers

The items of a header without encoded words are those of `Octet.words`, each word as it reads.
What the header means is then told without items. -/

/-- The words of each entry of the header that octets begin with. -/
def Header.words (bs : Octets) : List (List Octets) :=
  (Octet.words (content bs)).filter (!·.isEmpty)

/-- What plain words say, joined to entries. -/
def Header.spoken (read : Octets → Text) (bs : Octets) : List Text :=
  (words bs).map fun ws => Scanner.gap.intercalate (ws.map read)

namespace Header

variable [Decoders] {given : Settings} {read : Octets → Text} {bs : Octets}

/-- Every item counts, as there is no encoded word among them, and the commas cut the
items where they cut the octets. -/
theorem meaning_of_plain (hread : ∀ word, given.readsWord word = .ok (read word)) (h : Plain bs) :
    meaning given bs = .ok (.ofEntries (spoken read bs)) := by
  obtain ⟨is, his, hcounts, hsplit⟩ := items_of_plain given.fallback hread (plain_content h)
  have hentries : Item.entries is = spoken read bs := by
    rw [Item.entries, List.filter_eq_self.2 hcounts, hsplit, filter_isEmpty_map, List.map_map,
      spoken, words]
    congr 1
    funext ws
    rw [Function.comp_apply, ← joined_words, List.map_map]
    rfl
  rw [meaning, his, ← hentries]
  rfl

/-- With good settings that read every word, a header without encoded words has the
value of what its words say. -/
theorem readAt_of_plain {c : Cursor} {s : Scanner} (hs : Scanner.start c given = .ok s)
    (hread : ∀ word, given.readsWord word = .ok (read word)) (h : Plain c.rest) :
    (readAt c given).1.result = .ok (.ofEntries (spoken read c.rest)) :=
  readAt_of_meaning hs (meaning_of_plain hread h)

end Header

/-! ## Texts -/

namespace CodePoint

/-- Space and tab. -/
def folds (c : CodePoint) : Bool := c == 0x20 || c == 0x09

/-- White space between words. -/
def isGap (c : CodePoint) : Bool := c.folds || c == 0x0A

end CodePoint

/-- Can the texts be the words of an entry? -/
structure IsSpoken (ws : List Text) : Prop where
  ne_nil : ws ≠ []
  words : ∀ w ∈ ws, w ≠ [] ∧ ∀ c ∈ w, c ≠ 0x2C ∧ c.isGap = false ∧ c ≠ 0x0D

theorem IsSpoken.space_not_mem {ws : List Text} (h : IsSpoken ws) {w : Text} (hw : w ∈ ws) :
    0x20 ∉ w := by
  intro hmem
  have hgap := ((h.words w hw).2 _ hmem).2.1
  cases hgap

/-- Words without a space in them can be told apart when they are joined. -/
theorem IsSpoken.splitOn_eq {ws : List Text} (h : IsSpoken ws) :
    (List.intercalate [0x20] ws).splitOn 0x20 = ws :=
  List.splitOn_intercalate 0x20 (fun _ hw => h.space_not_mem hw) h.ne_nil

namespace Text

/-- A text in front of the first line feed that neither a space nor a tab follows. -/
def line : Text → Text
  | [] => []
  | c :: rest => if c = 0x0A ∧ (!rest.head?.any CodePoint.folds) = true then [] else c :: line rest

/-- The words of each entry of a text. Commas end entries and white space ends words; carriage
returns are dropped, and so are words of which nothing is left, and entries without a word. -/
def words (t : Text) : List (List Text) :=
  (parts (· == 0x2C) CodePoint.isGap (· != 0x0D) t.line).filter (!·.isEmpty)

/-- The entries of a text: the words of each, with a space between them. -/
def listed (t : Text) : List Text := t.words.map (List.intercalate [0x20])

/-- A word has something in it, and its characters are of the line and separate nothing. -/
theorem mem_of_mem_words {t w : Text} {ws : List Text} (hws : ws ∈ t.words) (hw : w ∈ ws) :
    w ≠ [] ∧ ∀ c ∈ w, c ∈ t.line ∧ c ≠ 0x2C ∧ c.isGap = false ∧ c ≠ 0x0D := by
  obtain ⟨hne, hmem⟩ := mem_parts (List.mem_filter.1 hws).1 hw
  refine ⟨hne, fun c hc => ?_⟩
  obtain ⟨hline, hcomma, hgap, hcr⟩ := hmem c hc
  exact ⟨hline, by simpa using hcomma, hgap, by simpa using hcr⟩

theorem isSpoken_of_mem_words {t : Text} {ws : List Text} (hws : ws ∈ t.words) : IsSpoken ws := by
  refine ⟨by simpa using (List.mem_filter.1 hws).2, fun w hw => ?_⟩
  obtain ⟨hne, hmem⟩ := mem_of_mem_words hws hw
  exact ⟨hne, fun c hc => (hmem c hc).2⟩

/-- Without the spaces that join them, words are as they were. -/
theorem filter_intercalate {ws : List Text} (h : IsSpoken ws) :
    (List.intercalate [0x20] ws).filter (· != 0x20) = ws.flatten := by
  have hflatten := flatten_splitOnP (· == 0x20) (List.intercalate [0x20] ws)
  rw [← List.splitOn_eq_splitOnP, h.splitOn_eq] at hflatten
  exact hflatten.symm

/-- The entries have every character of the line that does not separate
and is not a carriage return. -/
theorem flatMap_listed (t : Text) :
    t.listed.flatMap (List.filter (· != 0x20)) =
      t.line.filter fun c => c != 0x2C && (!c.isGap && c != 0x0D) := by
  have hjoined : ∀ ws ∈ t.words, (List.intercalate [0x20] ws).filter (· != 0x20) = ws.flatten :=
    fun ws hws => filter_intercalate (isSpoken_of_mem_words hws)
  calc t.listed.flatMap (List.filter (· != 0x20))
      = (t.words.map List.flatten).flatten := by
        rw [listed, List.flatMap_def, List.map_map]
        exact congrArg _ (List.map_congr_left hjoined)
    _ = t.words.flatten.flatten := List.flatten_flatten.symm
    _ = (parts (· == 0x2C) CodePoint.isGap (· != 0x0D) t.line).flatten.flatten := by
        rw [words, List.flatten_filter_not_isEmpty]
    _ = t.line.filter fun c => c != 0x2C && (!c.isGap && c != 0x0D) := flatten_parts _ _ _ _

end Text

/-! ## Texts as octets

A text is handed in as UTF-8. What the scanner asks of an octet, the text is asked of a character,
and both give one answer (`Answers`): an octet below 0x80 is a character by itself, and no longer
character has such an octet in it. Each question is settled once, and cutting the octets is then
cutting the text (`parts_flatMap`). -/

namespace Utf8

/-- A question about octets of ASCII can be asked of characters. -/
theorem answers_encode {p : CodePoint → Bool} {q : UInt8 → Bool}
    (hp : ∀ c, p c = true ↔ ∃ b, q b = true ∧ c = .ofOctet b) (hq : ∀ b, q b = true → b < 0x80) :
    Answers encode p q := by
  intro c
  cases hc : p c with
  | true =>
    obtain ⟨b, hb, rfl⟩ := (hp c).1 hc
    exact Or.inl ⟨rfl, b, encode_one (hq b hb), hb⟩
  | false =>
    refine Or.inr ⟨rfl, fun b hb => ?_⟩
    rw [Bool.eq_false_iff]
    intro hqb
    -- an octet of ASCII is a character by itself
    rcases encode_cases c with ⟨x, hx, rfl, hencode⟩ | hno
    · rw [hencode, List.mem_singleton] at hb
      subst hb
      rw [(hp _).2 ⟨b, hqb, rfl⟩] at hc
      cases hc
    · exact hno b hb (hq b hqb)

theorem answers_comma : Answers encode (· == 0x2C) (· == Octet.comma) := by
  refine answers_encode (fun c => ?_) (fun b hb => ?_)
  · simp only [beq_iff_eq, exists_eq_left]
    rfl
  · rw [beq_iff_eq.1 hb]
    decide

theorem answers_folds : Answers encode CodePoint.folds Octet.isBlank := by
  refine answers_encode (fun c => ?_) (fun b hb => ?_)
  · simp only [CodePoint.folds, Octet.isBlank, Bool.or_eq_true, beq_iff_eq, or_and_right, exists_or,
      exists_eq_left]
    rfl
  · rw [Octet.isBlank, Bool.or_eq_true, beq_iff_eq, beq_iff_eq] at hb
    rcases hb with rfl | rfl <;> decide

theorem isGap_iff {c : CodePoint} :
    c.isGap = true ↔ ∃ b, Octet.isGap b = true ∧ c = .ofOctet b := by
  simp only [CodePoint.isGap, CodePoint.folds, Octet.isGap, Octet.isBlank, Bool.or_eq_true,
    beq_iff_eq, or_and_right, exists_or, exists_eq_left]
  rfl

theorem lt_of_isGap {b : UInt8} (hb : Octet.isGap b = true) : b < 0x80 := by
  rw [Octet.isGap, Octet.isBlank, Bool.or_eq_true, Bool.or_eq_true, beq_iff_eq, beq_iff_eq,
    beq_iff_eq] at hb
  rcases hb with (rfl | rfl) | rfl <;> decide

theorem answers_gap : Answers encode CodePoint.isGap Octet.isGap :=
  answers_encode (fun _ => isGap_iff) fun _ => lt_of_isGap

theorem answers_cr : Answers encode (fun c => !(c != 0x0D)) (fun b => !(b != Octet.cr)) := by
  refine answers_encode (fun c => ?_) (fun b hb => ?_)
  · simp only [bne, Bool.not_not, beq_iff_eq, exists_eq_left]
    rfl
  · simp only [bne, Bool.not_not, beq_iff_eq] at hb
    rw [hb]
    decide

/-- Whether a line goes on is told by its next character as it is by its next octet. -/
theorem endsBefore_encode (t : Text) :
    Header.endsBefore (t.flatMap encode) = !t.head?.any CodePoint.folds := by
  cases t with
  | nil => rfl
  | cons c t =>
    rw [Header.endsBefore, List.flatMap_cons, List.head?_cons, Option.any_some]
    congr 1
    rcases answers_folds c with ⟨hc, b, hb, hblank⟩ | ⟨hc, hno⟩
    · rw [hb, hc]
      exact hblank
    · obtain ⟨b, bs, hencode⟩ := List.exists_cons_of_ne_nil (encode_ne_nil c)
      rw [hencode, hc]
      exact hno b (by rw [hencode]; exact List.mem_cons_self)

/-- The octets of a header handed in as a text are those of its line. -/
theorem content_encode (t : Text) : Header.content (t.flatMap encode) = t.line.flatMap encode := by
  induction t with
  | nil => rfl
  | cons c t ih =>
    rw [List.flatMap_cons, Text.line]
    -- a line feed is the only character with the octet of one
    by_cases hc : c = 0x0A
    · have hencode : encode c = [Octet.lf] := by
        rw [hc]
        rfl
      rw [hencode, List.singleton_append, Header.content, endsBefore_encode, ih]
      simp only [hc, true_and]
      split
      · rfl
      · rw [List.flatMap_cons, ← hc, hencode]
        rfl
    · have hno : Octet.lf ∉ encode c := by
        intro hlf
        rcases encode_cases c with ⟨b, -, rfl, hb⟩ | hno
        · rw [hb, List.mem_singleton] at hlf
          subst hlf
          exact hc rfl
        · exact hno _ hlf (by decide)
      rw [Header.content_append_of_no_lf hno, ih, if_neg (fun h => hc h.1), List.flatMap_cons]

/-- The words of the octets are the octets of the words. -/
theorem words_encode (t : Text) :
    Header.words (t.flatMap encode) = t.words.map (List.map (List.flatMap encode)) := by
  rw [Header.words, Octet.words, content_encode,
    parts_flatMap answers_comma answers_gap answers_cr encode_ne_nil, filter_isEmpty_map,
    Text.words]

/-- Two octets that begin an encoded word would be two characters that do. -/
theorem plain_encode {t : Text} (h : ¬ ([0x3D, 0x3F] : Text) <:+: t) :
    Plain (t.flatMap encode) := by
  rintro ⟨front, back, hcut⟩
  rw [List.append_assoc] at hcut
  have hequals : Octet.equals < 0x80 := by decide
  have hquestion : Octet.question < 0x80 := by decide
  obtain ⟨u, v, rfl, -, hv⟩ := split_encode hequals hcut.symm
  obtain ⟨v, rfl, -⟩ := cons_of_encode hquestion hv
  refine h ⟨u, v, ?_⟩
  rw [List.append_assoc]
  rfl

/-- What was written as UTF-8 is read back without a replacement. -/
theorem lossy_encode {t : Text} (h : ∀ c ∈ t, c.isSurrogate = false) :
    form.lossy (t.flatMap encode) = t := by
  have hread := decodeFrom_write (writeFrom_of_no_surrogate h 0) (.ok .replace) 0
  rw [Form.decodeFrom_replace] at hread
  exact Except.ok.inj hread

end Utf8

namespace Text

theorem isPrefix_line (t : Text) : t.line <+: t := by
  induction t with
  | nil => exact List.prefix_rfl
  | cons c t ih =>
    rw [line]
    split
    · exact List.nil_prefix
    · exact (List.prefix_cons_inj c).2 ih

/-- What the octets of a text say are the entries of the text. -/
theorem spoken_encode {t : Text} (h : ∀ c ∈ t, c.isSurrogate = false) :
    Header.spoken Utf8.form.lossy (t.flatMap Utf8.encode) = t.listed := by
  rw [Header.spoken, Utf8.words_encode, List.map_map, listed]
  refine List.map_congr_left fun ws hws => ?_
  have hread : ∀ w ∈ ws, Utf8.form.lossy (w.flatMap Utf8.encode) = w := by
    intro w hw
    refine Utf8.lossy_encode fun c hc => h c ((isPrefix_line t).subset ?_)
    exact ((mem_of_mem_words hws hw).2 c hc).1
  rw [Function.comp_apply, List.map_map]
  exact congrArg _ ((List.map_congr_left hread).trans (List.map_id ws))

end Text

section Reading

variable [Decoders]

theorem readsWord_utf8 (word : Octets) :
    ({} : Settings).readsWord word = .ok (Utf8.form.lossy word) := by
  obtain ⟨last, hlast, hscheme⟩ := Charset.lookup_default
  refine Charset.result_decodeNamed_of_ok hlast hlast ?_
  rw [Setting.value_value, Charset.decodeWith_default]
  exact Charset.decode_replace_utf8 hscheme word

/-- By default a header without encoded words is read, whatever its octets are. -/
theorem Header.read_octets_of_plain {bs : Octets} (h : Plain bs) :
    (read (.octets bs) {}).result = .ok (.ofEntries (spoken Utf8.form.lossy bs)) := by
  obtain ⟨last, hlast, -⟩ := Charset.lookup_default
  obtain ⟨s, hs⟩ : ∃ s, Scanner.start (.ofOctets bs) {} = .ok s := Scanner.start_of_lookup hlast _
  have hread := readAt_of_plain hs readsWord_utf8 (by rwa [Cursor.rest_ofOctets])
  rw [Cursor.rest_ofOctets] at hread
  exact hread

theorem Header.read_text_of_plain {t : Text} (hs : ∀ c ∈ t, c.isSurrogate = false)
    (hplain : ¬ ([0x3D, 0x3F] : Text) <:+: t) :
    (read (.text t) {}).result = .ok (.ofEntries t.listed) := by
  have hwrite : Utf8.write t = .ok (t.flatMap Utf8.encode) := Utf8.writeFrom_of_no_surrogate hs 0
  have hread := read_octets_of_plain (Utf8.plain_encode hplain)
  rw [Text.spoken_encode hs] at hread
  rw [read, Cursor.ofDatum, hwrite]
  exact hread

/-- A text without encoded words says what its characters say. Its entries are its words between
commas, none of them empty, with a space between two words; every character that does not
separate is there, in its place. -/
theorem read_plain_text {t : Text} (hs : ∀ c ∈ t, c.isSurrogate = false)
    (hplain : ¬ ([0x3D, 0x3F] : Text) <:+: t) :
    (Header.read (.text t) {}).result = .ok (.ofEntries t.listed) ∧
      t.listed.flatMap (List.filter (· != 0x20)) =
        t.line.filter fun c => c != 0x2C && (!c.isGap && c != 0x0D) :=
  ⟨Header.read_text_of_plain hs hplain, t.flatMap_listed⟩

end Reading

/-- Words with carriage returns in them, characters of up to four octets, a folded line, an
entry of white space only, an equals sign that nothing follows but a carriage return, and a line
that is not part of the header. -/
theorem plain_text_of_long_characters :
    let t : Text := "é\r世, \t,=\r?\n 😀b,\r\nx"
    (@Header.read .none (.text t) {}).result = .ok (.list ["é世", "=? 😀b"]) := by
  intro t
  have hall : t.all (!·.isSurrogate) = true := by decide +kernel
  have hs : ∀ c ∈ t, c.isSurrogate = false := by
    intro c hc
    simpa using List.all_eq_true.1 hall c hc
  have hplain : ¬ ([0x3D, 0x3F] : Text) <:+: t := by decide +kernel
  have hlisted : t.listed = (["é世", "=? 😀b"] : List Text) := by decide +kernel
  have hread := (@read_plain_text .none t hs hplain).1
  rw [hlisted] at hread
  exact hread

end HeaderList
