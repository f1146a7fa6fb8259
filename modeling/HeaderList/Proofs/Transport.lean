import HeaderList.Proofs.Charset.Fallback
import HeaderList.Proofs.EncodedWord.Payload
import HeaderList.Proofs.Scanner.Meaning

/-!
# `HeaderList/Proofs/Transport.lean` — texts survive transport in encoded words

Any list of texts can be sent through a header: each text is cut into pieces, each piece
becomes an encoded word, the words of a text stand one after the other with nothing but
folding white space between them, and a comma stands between two texts. `ListWire` says
which octets are such a header. There are many for one list, and every one of them reads as
the list (`readAt_of_listWire`).
-/

set_option autoImplicit false

namespace HeaderList

/-! ## A word

A word is told by its fields and not by its octets. What a reader makes of it, and that it can be
read at all, follows from the fields; the octets come in with `written`. -/

/-- The name of UTF-8 in every letter case. -/
def utf8Names : List Octets :=
  [0x75, 0x55].flatMap fun u => [0x74, 0x54].flatMap fun t => [0x66, 0x46].map fun f =>
    [u, t, f, 0x2D, 0x38]

namespace EncodedWord

/-- Is the word a form of the text? Its charset is UTF-8, maybe with a language after an asterisk,
and its payload stands for the octets of the text in one of the two encodings. -/
structure Carries (w : EncodedWord) (t : Text) : Prop where
  charset : w.charset ∈ utf8Names ∨
    ∃ name ∈ utf8Names, ∃ tag, IsField false tag ∧ w.charset = name ++ 0x2A :: tag
  payload : ∃ bs, Utf8.write t = .ok bs ∧
    ((w.encoding ∈ [[0x71], [0x51]] ∧ QEncoding.Writes w.payload bs) ∨
      (w.encoding ∈ [[0x62], [0x42]] ∧ Base64.Writes w.payload bs))

theorem named?_utf8 : ∀ name ∈ utf8Names,
    (Charset.named? (asciiText name)).map Charset.scheme = some .utf8 := by
  decide +kernel

/-- None of them has an asterisk in it or is empty, and each can stand in a word. -/
theorem utf8Names_table : ∀ name ∈ utf8Names,
    (asciiText name).all (· != 0x2A) = true ∧ (asciiText name).isEmpty = false ∧
    IsField false name := by
  decide

theorem asciiText_append (bs cs : Octets) : asciiText (bs ++ cs) = asciiText bs ++ asciiText cs :=
  List.map_append

/-- The language after an asterisk is no part of the name. -/
theorem charsetName_of_carries {w : EncodedWord} {t : Text} (h : w.Carries t) :
    ∃ name ∈ utf8Names, w.charsetName = asciiText name := by
  -- the name goes up to the first asterisk, and there is none in it
  obtain ⟨name, hname, tail, heq, htail⟩ : ∃ name ∈ utf8Names, ∃ tail, w.charset = name ++ tail ∧
      (asciiText tail).takeWhile (· != 0x2A) = [] := by
    rcases h.charset with hname | ⟨name, hname, tag, -, heq⟩
    · exact ⟨w.charset, hname, [], (List.append_nil _).symm, rfl⟩
    · exact ⟨name, hname, 0x2A :: tag, heq, rfl⟩
  obtain ⟨hstar, -⟩ := utf8Names_table name hname
  refine ⟨name, hname, ?_⟩
  rw [charsetName, heq, asciiText_append, List.takeWhile_append_of_pos (List.all_eq_true.1 hstar),
    htail, List.append_nil]

/-- A word that carries a text can be written and read. -/
theorem legible_of_carries {w : EncodedWord} {t : Text} (h : w.Carries t) : w.Legible := by
  obtain ⟨bs, -, hpayload⟩ := h.payload
  refine ⟨?_, ?_, ?_⟩
  · rcases h.charset with hname | ⟨name, hname, tag, htag, heq⟩
    · exact (utf8Names_table _ hname).2.2
    · rw [heq]
      intro b hb
      rcases List.mem_append.1 hb with hb | hb
      · exact (utf8Names_table _ hname).2.2 b hb
      · rcases List.mem_cons.1 hb with rfl | hb
        · decide
        · exact htag b hb
  · rcases hpayload with ⟨henc, -⟩ | ⟨henc, -⟩
    · exact (by decide : ∀ e ∈ [[0x71], [0x51]], IsField false e) _ henc
    · exact (by decide : ∀ e ∈ [[0x62], [0x42]], IsField false e) _ henc
  · rcases hpayload with ⟨-, hp⟩ | ⟨-, hp⟩
    · exact QEncoding.isField_of_writes hp
    · exact Base64.isField_of_writes hp

/-- In either encoding the payload stands for the octets of the text. -/
theorem octets_of_carries {w : EncodedWord} {t : Text} (h : w.Carries t) :
    ∃ bs, Utf8.write t = .ok bs ∧ w.octets = .ok bs := by
  obtain ⟨bs, hbs, hpayload⟩ := h.payload
  refine ⟨bs, hbs, ?_⟩
  rcases hpayload with ⟨henc, hp⟩ | ⟨henc, hp⟩
  · have hq := (by decide : ∀ e ∈ [[0x71], [0x51]], e.map Octet.toLower = [0x71]) _ henc
    rw [octets, hq, if_pos rfl, QEncoding.decode_of_writes hp]
  · have hb := (by decide : ∀ e ∈ [[0x62], [0x42]], e.map Octet.toLower = [0x62]) _ henc
    rw [octets, hb, if_neg (by decide), if_pos rfl, Base64.decode?_of_writes hp]

/-- A word reads as the text that it carries, under any fallback that is known. -/
theorem decode?_of_carries [Decoders] {w : EncodedWord} {t : Text} {fallback : Datum}
    {last : Charset} (h : w.Carries t)
    (hlast : Charset.lookup (Setting.fallbackCharset.value fallback) = .ok last) :
    w.decode? fallback = .ok (some t) := by
  obtain ⟨name, hname, hcharset⟩ := charsetName_of_carries h
  obtain ⟨bs, hbs, hoctets⟩ := octets_of_carries h
  obtain ⟨c, hc, hscheme⟩ := Option.map_eq_some_iff.1 (named?_utf8 name hname)
  obtain ⟨-, hempty, -⟩ := utf8Names_table name hname
  have hlookup : Charset.lookup (.text w.charsetName) = .ok c := by
    rw [hcharset, Charset.lookup, hc]
  have hdecode : c.decodeWith (Setting.decodeErrors.value .null) bs = .ok t := by
    rw [Charset.decodeWith_default]
    exact Charset.decode_write hscheme hbs _
  have hresult := Charset.result_decodeNamed_of_ok hlast hlookup hdecode
  have hne : w.charsetName.isEmpty = false := by rw [hcharset, hempty]
  simp only [decode?, decode, hne, hoctets, hresult, Bool.false_eq_true, if_false]

/-- The octets of a word, as they stand in a header. -/
def written (w : EncodedWord) : Octets := Octet.equals :: w.body

end EncodedWord

/-! ## The wire -/

/-- Are the octets folding white space: blanks, carriage returns, and line
feeds that a blank follows? -/
def IsFolding : Octets → Prop
  | [] => True
  | b :: rest =>
    (Octet.isBlank b = true ∨ b = Octet.cr ∨ (b = Octet.lf ∧ Header.endsBefore rest = false)) ∧
      IsFolding rest

instance decidableIsFolding : (f : Octets) → Decidable (IsFolding f)
  | [] => isTrue trivial
  | _ :: rest => @instDecidableAnd _ _ _ (decidableIsFolding rest)

/-- Are the octets a form of the text: words that carry the pieces of it, none of them empty, with
folding white space between them? -/
inductive TextWire : Octets → Text → Prop
  | last {w : EncodedWord} {t : Text} (h : w.Carries t) (hne : t ≠ []) : TextWire w.written t
  | more {w : EncodedWord} {t u : Text} {f os : Octets} (h : w.Carries t) (hne : t ≠ [])
      (hf : IsFolding f) (hos : TextWire os u) : TextWire (w.written ++ (f ++ os)) (t ++ u)

/-- Are the octets a form of the list: forms of its texts, with a comma between them and
folding white space around it? -/
inductive ListWire : Octets → List Text → Prop
  | nil : ListWire [] []
  | last {os : Octets} {t : Text} (h : TextWire os t) : ListWire os [t]
  | more {os f g rest : Octets} {t u : Text} {us : List Text} (h : TextWire os t) (hf : IsFolding f)
      (hg : IsFolding g) (hrest : ListWire rest (u :: us)) :
      ListWire (os ++ (f ++ Octet.comma :: (g ++ rest))) (t :: u :: us)

/-! ### The octets of the header -/

/-- Folding white space does not end with a line feed, so a blank of its own comes behind each. -/
theorem goesOn_of_isFolding {f : Octets} (hf : IsFolding f) : Header.GoesOn f := by
  induction f with
  | nil =>
    intro rest hrest
    cases List.suffix_nil.1 hrest
  | cons b f ih =>
    intro rest hrest
    rcases List.suffix_cons_iff.1 hrest with heq | hrest
    · obtain ⟨rfl, rfl⟩ := List.cons.inj heq
      rcases hf.1 with hb | hb | ⟨-, hb⟩
      · exact absurd hb (by decide)
      · exact absurd hb (by decide)
      · exact hb
    · exact ih hf.2 rest hrest

/-- Folding white space does not end the header, and neither does a word, as there is no line feed
in it; so no part of a form does. -/
theorem content_folding {f : Octets} (hf : IsFolding f) (more : Octets) :
    Header.content (f ++ more) = f ++ Header.content more :=
  Header.content_append_of_goesOn (goesOn_of_isFolding hf) more

theorem content_written {w : EncodedWord} {t : Text} (h : w.Carries t) (more : Octets) :
    Header.content (w.written ++ more) = w.written ++ Header.content more := by
  apply Header.content_append_of_no_lf
  intro hlf
  rcases List.mem_cons.1 hlf with hlf | hlf
  · exact absurd hlf (by decide)
  · exact (EncodedWord.legible_of_carries h).no_lf hlf

theorem content_textWire {os : Octets} {t : Text} (h : TextWire os t) (more : Octets) :
    Header.content (os ++ more) = os ++ Header.content more := by
  induction h with
  | last h hne => exact content_written h more
  | more h hne hf hos ih =>
    rw [List.append_assoc, List.append_assoc, content_written h, content_folding hf, ih,
      List.append_assoc, List.append_assoc]

/-- The form of a list is part of the header, and so is what the header has behind it. -/
theorem content_listWire {os : Octets} {ts : List Text} (h : ListWire os ts) (more : Octets) :
    Header.content (os ++ more) = os ++ Header.content more := by
  induction h with
  | nil => rfl
  | last h => exact content_textWire h more
  | more h hf hg hrest ih =>
    rw [List.append_assoc, List.append_assoc, List.cons_append, List.append_assoc,
      content_textWire h, content_folding hf,
      Header.content_cons (fun hb => absurd hb.1 (by decide)), content_folding hg, ih]
    simp only [List.append_assoc, List.cons_append]

/-! ### The items of the header -/

section Reading

variable [Decoders] {plain : Octets → Except Fault Text} {fallback : Datum} {last : Charset}

theorem items_folding {f : Octets} (hf : IsFolding f) (more : Octets) :
    items plain fallback (f ++ more) = items plain fallback more := by
  induction f with
  | nil => rfl
  | cons b f ih =>
    obtain ⟨hb, hf⟩ := hf
    have hgap : Octet.isBlank b = true ∨ b = Octet.lf ∨ b = Octet.cr := by
      rcases hb with hb | hb | hb
      · exact Or.inl hb
      · exact Or.inr (Or.inr hb)
      · exact Or.inr (Or.inl hb.1)
    rw [List.cons_append, items_gap hgap, ih hf]

variable (hlast : Charset.lookup (Setting.fallbackCharset.value fallback) = .ok last)

include hlast

/-- A word is an item with the text that it carries, whatever comes next. Behind the closing
mark no white space is needed. -/
theorem items_written {w : EncodedWord} {t : Text} (h : w.Carries t) (more : Octets) :
    items plain fallback (w.written ++ more) = (Item.encoded t :: ·) <$>
      items plain fallback more := by
  have hword := encodedAt_of_body fallback (EncodedWord.legible_of_carries h) more
  rw [EncodedWord.decode?_of_carries h hlast] at hword
  exact items_encoded hword

/-- The words of a text are its pieces, and nothing stands between them. -/
theorem items_textWire {os : Octets} {t : Text} (h : TextWire os t) :
    ∃ ps : List Text, ps ≠ [] ∧ (∀ p ∈ ps, p ≠ []) ∧ ps.flatten = t ∧ ∀ more,
      items plain fallback (os ++ more) = (ps.map Item.encoded ++ ·) <$>
        items plain fallback more := by
  induction h with
  | last h hne =>
    refine ⟨[_], by simp, by simpa using hne, by simp, fun more => ?_⟩
    exact items_written hlast h more
  | more h hne hf hos ih =>
    obtain ⟨ps, hps, hall, hflat, hitems⟩ := ih
    refine ⟨_ :: ps, by simp, List.forall_mem_cons.2 ⟨hne, hall⟩, by rw [List.flatten_cons, hflat],
      fun more => ?_⟩
    rw [List.append_assoc, List.append_assoc, items_written hlast h, items_folding hf, hitems]
    cases items plain fallback more <;> rfl

omit hlast in
omit [Decoders] in
theorem entryOf_pieces {ps : List Text} (hne : ps ≠ []) :
    Item.entryOf (ps.map Item.encoded) = [ps.flatten] := by
  rw [Item.entryOf, Item.joined_encoded, if_neg (by simpa using hne)]

/-- The items of a form make the entries of the list: its texts are
kept apart by the commas alone. -/
theorem items_listWire {os : Octets} {ts : List Text} (h : ListWire os ts) :
    ∃ is, Item.entries is = ts ∧ ∀ f, IsFolding f → items plain fallback (os ++ f) = .ok is := by
  -- on the form; the folding white space at the end stands behind its last text only
  induction h with
  | nil =>
    refine ⟨[], rfl, fun f hf => ?_⟩
    rw [List.nil_append, ← List.append_nil f, items_folding hf, items_nil]
  | last h =>
    obtain ⟨ps, hps, hall, rfl, hitems⟩ := items_textWire hlast h
    refine ⟨ps.map Item.encoded, ?_, fun f hf => ?_⟩
    · rw [Item.entries_of_inEntry (Item.inEntry_encoded hall), entryOf_pieces hps]
    · rw [hitems, ← List.append_nil f, items_folding hf, items_nil]
      simp [Functor.map, Except.map]
  | more h hf hg hrest ih =>
    obtain ⟨ps, hps, hall, rfl, hitems⟩ := items_textWire hlast h
    obtain ⟨is, his, hrest⟩ := ih
    refine ⟨ps.map Item.encoded ++ Item.comma :: is, ?_, fun f' hf' => ?_⟩
    · rw [Item.entries_comma (Item.inEntry_encoded hall), entryOf_pieces hps, his]
      rfl
    · rw [List.append_assoc, List.append_assoc, List.cons_append, List.append_assoc, hitems,
        items_folding hf, items_comma, items_folding hg, hrest f' hf']
      rfl

end Reading

/-- A form of a list stands at a cursor, with folding white space behind it and then the end of
the header: the value has the texts of the list. -/
theorem readAt_of_listWire [Decoders] {c : Cursor} {given : Settings} {s : Scanner}
    {os f ending : Octets} {ts : List Text} (hs : Scanner.start c given = .ok s)
    (h : ListWire os ts) (hf : IsFolding f)
    (hend : ending = [] ∨ ∃ more, ending = Octet.lf :: more ∧ Header.endsBefore more = true)
    (hc : c.rest = os ++ (f ++ ending)) :
    (Header.readAt c given).1.result = .ok (.ofEntries ts) := by
  -- the header is the form and the folding white space, and nothing of what ends it
  have hcontent : Header.content c.rest = os ++ f := by
    rw [hc, content_listWire h, content_folding hf]
    rcases hend with rfl | ⟨more, rfl, hmore⟩
    · rw [Header.content, List.append_nil]
    · rw [Header.content_lf hmore, List.append_nil]
  obtain ⟨last, hlast⟩ := Header.lookup_of_start hs
  obtain ⟨is, his, hitems⟩ : ∃ is, Item.entries is = ts ∧ ∀ f, IsFolding f →
      items given.readsWord given.fallback (os ++ f) = .ok is := items_listWire hlast h
  rw [eq_ok_iff_toOption, Header.toOption_readAt hs, Header.meaning, hcontent, hitems f hf,
    ← his]
  rfl

/-! ## Every list has a form -/

/-- A text without surrogates has octets, and base64 can write any octets. -/
theorem exists_carries {t : Text} (h : ∀ c ∈ t, c.isSurrogate = false) :
    ∃ w : EncodedWord, w.Carries t := by
  let bs := t.flatMap Utf8.encode
  have hname : [0x75, 0x74, 0x66, 0x2D, 0x38] ∈ utf8Names := by decide
  refine ⟨⟨[0x75, 0x74, 0x66, 0x2D, 0x38], [0x62], Base64.encode bs⟩, Or.inl hname, bs, ?_, ?_⟩
  · exact Utf8.writeFrom_of_no_surrogate h 0
  · exact Or.inr ⟨by simp, 0, Nat.zero_le _, (List.append_nil _).symm⟩

/-- One word for each text is a form of the list. -/
theorem exists_listWire {ts : List Text}
    (h : ∀ t ∈ ts, t ≠ [] ∧ ∀ c ∈ t, c.isSurrogate = false) : ∃ os, ListWire os ts := by
  induction ts with
  | nil => exact ⟨[], .nil⟩
  | cons t ts ih =>
    rw [List.forall_mem_cons] at h
    obtain ⟨w, hw⟩ := exists_carries h.1.2
    have ht : TextWire w.written t := .last hw h.1.1
    cases ts with
    | nil => exact ⟨w.written, .last ht⟩
    | cons u us =>
      obtain ⟨rest, hrest⟩ := ih h.2
      exact ⟨_, .more (f := []) (g := []) ht trivial trivial hrest⟩

/-- Any list of texts survives transport in encoded words: it has forms, and whichever of them
stands at a cursor, with folding white space behind it and then the end of the header, the
value has the texts of the list. -/
theorem texts_survive_transport [Decoders] {ts : List Text}
    (hts : ∀ t ∈ ts, t ≠ [] ∧ ∀ c ∈ t, c.isSurrogate = false) :
    (∃ os, ListWire os ts) ∧
    ∀ (c : Cursor) (given : Settings) (s : Scanner) (os f ending : Octets),
      Scanner.start c given = .ok s → ListWire os ts → IsFolding f →
      (ending = [] ∨ ∃ more, ending = Octet.lf :: more ∧ Header.endsBefore more = true) →
      c.rest = os ++ (f ++ ending) →
      (Header.readAt c given).1.result = .ok (.ofEntries ts) :=
  ⟨exists_listWire hts, fun _ _ _ _ _ _ hs h hf hend hc => readAt_of_listWire hs h hf hend hc⟩

/-- Two words of one text in two encodings over a folded line, and a word of another. -/
theorem transport_of_folded_words :
    (@Header.readAt .none (.ofOctets
      [0x3D, 0x3F, 0x55, 0x54, 0x46, 0x2D, 0x38, 0x2A, 0x65, 0x6E, 0x3F, 0x71, 0x3F,
       0x3D, 0x32, 0x43, 0x5F, 0x3F, 0x3D, 0x0A, 0x20,
       0x3D, 0x3F, 0x75, 0x74, 0x66, 0x2D, 0x38, 0x3F, 0x42, 0x3F, 0x50, 0x77, 0x3F, 0x3D,
       0x2C, 0x0D,
       0x3D, 0x3F, 0x75, 0x74, 0x66, 0x2D, 0x38, 0x3F, 0x62, 0x3F, 0x77, 0x36, 0x6B, 0x3D, 0x3F,
       0x3D, 0x0A])
      {}).1.result = .ok (.list [[0x2C, 0x20, 0x3F], [0xE9]]) := by
  have hts : ∀ t ∈ ([[0x2C, 0x20, 0x3F], [0xE9]] : List Text),
      t ≠ [] ∧ ∀ c ∈ t, c.isSurrogate = false := by
    simp only [List.forall_mem_cons, List.not_mem_nil, false_imp_iff, implies_true, and_true]
    exact ⟨⟨by simp, rfl, rfl, rfl⟩, by simp, rfl⟩
  have hquoted : EncodedWord.Carries ⟨[0x55, 0x54, 0x46, 0x2D, 0x38, 0x2A, 0x65, 0x6E], [0x71],
      [0x3D, 0x32, 0x43, 0x5F]⟩ [0x2C, 0x20] :=
    ⟨Or.inr ⟨[0x55, 0x54, 0x46, 0x2D, 0x38], by decide, [0x65, 0x6E], by decide, rfl⟩,
      [0x2C, 0x20], rfl,
      Or.inl ⟨by decide, .escape true true 0x2C (.space .nil)⟩⟩
  have hmark : EncodedWord.Carries ⟨[0x75, 0x74, 0x66, 0x2D, 0x38], [0x42], [0x50, 0x77]⟩ [0x3F] :=
    ⟨Or.inl (by decide), [0x3F], rfl, Or.inr ⟨by decide, 0, by decide, rfl⟩⟩
  have haccent :
      EncodedWord.Carries ⟨[0x75, 0x74, 0x66, 0x2D, 0x38], [0x62], [0x77, 0x36, 0x6B, 0x3D]⟩
      [0xE9] :=
    ⟨Or.inl (by decide), [0xC3, 0xA9], rfl, Or.inr ⟨by decide, 1, by decide, rfl⟩⟩
  have hfirst := TextWire.more (f := [0x0A, 0x20]) hquoted (by decide) (by decide)
    (.last hmark (by decide))
  have hwire := ListWire.more (f := []) (g := [0x0D]) hfirst trivial (by decide)
    (.last (.last haccent (by decide)))
  exact (@texts_survive_transport .none _ hts).2 _ {} _ _ [] [0x0A] rfl hwire trivial
    (Or.inr ⟨[], rfl, rfl⟩) rfl

end HeaderList
