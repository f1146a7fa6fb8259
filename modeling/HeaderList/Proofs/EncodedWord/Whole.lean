import HeaderList.EncodedWord.Whole
import HeaderList.Proofs.Charset.Utf8
import HeaderList.Proofs.EncodedWord.Form

/-!
# `HeaderList/Proofs/EncodedWord/Whole.lean` — one encoded word, and nothing else

Encoded words are taken apart in two ways. The reader at a cursor goes octet by octet and ends
each field at the first question mark; the reader of a whole text has its ends in sight, and what
stands between the question mark after the encoding and the last two characters is the payload. So
the second accepts everything that the first accepts, whatever white space is around it and in
whatever guise it is handed in (`whole_of_reader`).

It accepts more (`whole_beyond_reader`): a payload that holds question marks, or the end of a word
and the beginning of another, and white space in the name of the charset. The word is then an
`Enclosed` one that is not `Legible`, and the reader at a cursor does not read it.
-/

set_option autoImplicit false

namespace HeaderList

/-! ## White space at the ends -/

namespace Text

theorem trim_append {a b s u : Text} {c d : CodePoint} (ha : ∀ x ∈ a, x.isBlank = true)
    (hb : ∀ x ∈ b, x.isBlank = true) (hc : c.isBlank = false) (hd : d.isBlank = false)
    (h : c :: s = u ++ [d]) : trim (a ++ c :: s ++ b) = c :: s := by
  have hstart : trimStart (a ++ c :: s ++ b) = c :: s ++ b := by
    rw [trimStart, List.append_assoc, List.dropWhile_append_of_pos ha, List.cons_append,
      List.dropWhile_cons_of_neg (by simp [hc])]
  have hb' : ∀ x ∈ b.reverse, x.isBlank = true := by
    intro x hx
    exact hb x (List.mem_reverse.1 hx)
  rw [trim, hstart, h, trimEnd, List.reverse_append, List.reverse_append,
    List.dropWhile_append_of_pos hb', List.reverse_singleton, List.singleton_append,
    List.dropWhile_cons_of_neg (by simp [hd]),
    List.reverse_cons, List.reverse_reverse]

end Text

namespace EncodedWord

/-- Octets without what is white space when they are read as code points. -/
def stripped (bs : Octets) : Octets :=
  ((bs.dropWhile fun b => (CodePoint.ofOctet b).isBlank).reverse.dropWhile fun b =>
    (CodePoint.ofOctet b).isBlank).reverse

theorem trim_ofOctets (bs : Octets) : (Text.ofOctets bs).trim = Text.ofOctets (stripped bs) := by
  simp only [Text.trim, Text.trimStart, Text.trimEnd, Text.ofOctets, List.dropWhile_map,
    ← List.map_reverse]
  rfl

/-! ## The form

The regular expression of the reader is written as a recursion that goes through a text once
(`fields?`). What it accepts is the form, and a text of this form has one set of fields: the name
goes up to the first question mark, and the payload to the last two characters. -/

/-- A text in the form of an encoded word. -/
def formOf (charset : Text) (e : CodePoint) (payload : Text) : Text :=
  equalsSign :: questionMark :: (charset ++ questionMark :: e :: questionMark ::
    (payload ++ [questionMark, equalsSign]))

theorem payload?_eq_some_iff {t p : Text} :
    payload? t = some p ↔ (0x0A : CodePoint) ∉ p ∧ t = p ++ [questionMark, equalsSign] := by
  constructor
  · intro h
    rw [payload?] at h
    split at h
    · next e q rest hrev =>
      split at h
      · next hcond =>
        obtain ⟨rfl, rfl, hlf⟩ := hcond
        cases h
        refine ⟨fun hmem => hlf (List.mem_reverse.1 hmem), ?_⟩
        rw [← List.reverse_reverse t, hrev]
        simp
      · cases h
    · cases h
  · rintro ⟨hlf, rfl⟩
    have hrev : (p ++ [questionMark, equalsSign]).reverse =
        equalsSign :: questionMark :: p.reverse := by simp
    have hlf' : (0x0A : CodePoint) ∉ p.reverse := fun hmem => hlf (List.mem_reverse.1 hmem)
    rw [payload?, hrev]
    dsimp only
    rw [if_pos ⟨rfl, rfl, hlf'⟩, List.reverse_reverse]

/-- A text with fields is written from them. -/
theorem formOf_of_fields? {t cs es p : Text} (h : fields? t = some (cs, es, p)) :
    ∃ e, es = [e] ∧ e ∈ Text.ofString "qQbB" ∧ questionMark ∉ cs ∧ (0x0A : CodePoint) ∉ p ∧
      t = formOf cs e p := by
  unfold fields? at h
  split at h
  · next a b rest =>
    split at h
    · next hopen =>
      obtain ⟨rfl, rfl⟩ := hopen
      split at h
      · next x e q tail hdrop =>
        split at h
        · next hcond =>
          obtain ⟨he, rfl⟩ := hcond
          obtain ⟨payload, hpayload, hfields⟩ := Option.map_eq_some_iff.1 h
          obtain ⟨hlf, rfl⟩ := payload?_eq_some_iff.1 hpayload
          cases hfields
          have hx : x = questionMark := by
            have hhead := List.head_dropWhile_not (· != questionMark) (l := rest)
                (by rw [hdrop]; simp)
            simpa [hdrop] using hhead
          refine ⟨e, rfl, he, ?_, hlf, ?_⟩
          · intro hmem
            have hall := List.all_eq_true.1 List.all_takeWhile _ hmem
            simp at hall
          · have hsplit := List.takeWhile_append_dropWhile (p := (· != questionMark)) (l := rest)
            rw [hdrop, hx] at hsplit
            rw [formOf, hsplit]
        · cases h
      · cases h
    · cases h
  · cases h

/-- A text in the form of an encoded word has the fields that it is written from. -/
theorem fields?_formOf {cs p : Text} {e : CodePoint} (he : e ∈ Text.ofString "qQbB")
    (hcs : questionMark ∉ cs) (hlf : (0x0A : CodePoint) ∉ p) :
    fields? (formOf cs e p) = some (cs, [e], p) := by
  have hcs' : ∀ x ∈ cs, (x != questionMark) = true := by
    intro x hx
    rw [bne_iff_ne]
    rintro rfl
    exact hcs hx
  have hpayload : payload? (p ++ [questionMark, equalsSign]) = some p :=
    payload?_eq_some_iff.2 ⟨hlf, rfl⟩
  rw [formOf, fields?, if_pos ⟨rfl, rfl⟩, List.dropWhile_append_of_pos hcs',
    List.takeWhile_append_of_pos hcs', List.dropWhile_cons_of_neg (by simp),
    List.takeWhile_cons_of_neg (by simp), List.append_nil]
  dsimp only
  rw [if_pos ⟨he, rfl⟩, hpayload]
  rfl

theorem trim_formOf {a b cs p : Text} {e : CodePoint} (ha : ∀ x ∈ a, x.isBlank = true)
    (hb : ∀ x ∈ b, x.isBlank = true) : (a ++ formOf cs e p ++ b).trim = formOf cs e p := by
  have hequals : equalsSign.isBlank = false := rfl
  have hlast :
      formOf cs e p = (equalsSign :: questionMark :: (cs ++ questionMark :: e :: questionMark ::
      (p ++ [questionMark]))) ++ [equalsSign] := by simp [formOf]
  exact Text.trim_append ha hb hequals hequals hlast

/-! ## Words in octets

Octets are taken for a text of the same numbers, so a text of octets has the form exactly where
the octets are those of a word. -/

/-- The names of the encodings, in both cases. -/
def encodings : Octets := [0x71, 0x51, 0x62, 0x42]

theorem encodings_spec {e : UInt8} (he : e ∈ encodings) : e < 0x80 ∧ e ≠ Octet.question := by
  simp only [encodings, List.mem_cons, List.not_mem_nil, or_false] at he
  rcases he with rfl | rfl | rfl | rfl <;> decide

/-- A word that can be all of a text: the name of its charset ends at the first question mark, but
its payload ends where the text ends. -/
structure Enclosed (w : EncodedWord) : Prop where
  charset : Octet.question ∉ w.charset
  encoding : ∃ e ∈ encodings, w.encoding = [e]
  payload : Octet.lf ∉ w.payload

theorem ofOctets_body {w : EncodedWord} {e : UInt8} (h : w.encoding = [e]) :
    Text.ofOctets (Octet.equals :: w.body) =
      formOf (Text.ofOctets w.charset) (.ofOctet e) (Text.ofOctets w.payload) := by
  simp only [formOf, body, h, Text.ofOctets, List.map_cons, List.map_append, List.map_nil]
  rfl

theorem fields?_of_enclosed {w : EncodedWord} (hw : w.Enclosed) :
    fields? (Text.ofOctets (Octet.equals :: w.body)) =
      some (Text.ofOctets w.charset, Text.ofOctets w.encoding, Text.ofOctets w.payload) := by
  obtain ⟨e, he, hencoding⟩ := hw.encoding
  rw [ofOctets_body hencoding, hencoding]
  apply fields?_formOf
  · exact Text.ofOctet_mem_ofOctets.2 he
  · intro h
    exact hw.charset (Text.ofOctet_mem_ofOctets.1 h)
  · intro h
    exact hw.payload (Text.ofOctet_mem_ofOctets.1 h)

theorem enclosed_of_fields? {bs : Octets} {cs es p : Text}
    (h : fields? (Text.ofOctets bs) = some (cs, es, p)) :
    ∃ w : EncodedWord, w.Enclosed ∧ bs = Octet.equals :: w.body := by
  obtain ⟨x, -, hx, hcs, hp, hform⟩ := formOf_of_fields? h
  -- a part of a text of octets is a text of octets
  simp only [Text.ofOctets, formOf, List.map_eq_cons_iff, List.map_eq_append_iff] at hform
  obtain ⟨a, _, rfl, ha, b, _, rfl, hb, charset, _, rfl, rfl, c, _, rfl, hc, e, _, rfl, rfl, d, _,
    rfl, hd, payload, _, rfl, rfl, f, _, rfl, hf, g, _, rfl, hg, hnil⟩ := hform
  cases List.map_eq_nil_iff.1 hnil
  obtain rfl : a = Octet.equals := CodePoint.ofOctet_inj ha
  obtain rfl : b = Octet.question := CodePoint.ofOctet_inj hb
  obtain rfl : c = Octet.question := CodePoint.ofOctet_inj hc
  obtain rfl : d = Octet.question := CodePoint.ofOctet_inj hd
  obtain rfl : f = Octet.question := CodePoint.ofOctet_inj hf
  obtain rfl : g = Octet.equals := CodePoint.ofOctet_inj hg
  refine ⟨⟨charset, [e], payload⟩, ⟨?_, ⟨e, ?_, rfl⟩, ?_⟩, rfl⟩
  · intro hmem
    exact hcs (Text.ofOctet_mem_ofOctets.2 hmem)
  · exact Text.ofOctet_mem_ofOctets.1 hx
  · intro hmem
    exact hp (Text.ofOctet_mem_ofOctets.2 hmem)

/-- White space around a word is of no account. -/
theorem stripped_append {a b : Octets} {w : EncodedWord} (hw : w.Enclosed)
    (ha : ∀ x ∈ a, (CodePoint.ofOctet x).isBlank = true)
    (hb : ∀ x ∈ b, (CodePoint.ofOctet x).isBlank = true) :
    stripped (a ++ Octet.equals :: w.body ++ b) = Octet.equals :: w.body := by
  obtain ⟨e, -, hencoding⟩ := hw.encoding
  have hform := ofOctets_body hencoding
  apply Text.ofOctets_inj
  rw [← trim_ofOctets, hform, ← trim_formOf (a := Text.ofOctets a) (b := Text.ofOctets b), ← hform]
  · simp only [Text.ofOctets, List.map_append]
  · intro x hx
    obtain ⟨y, hy, rfl⟩ := List.mem_map.1 hx
    exact ha y hy
  · intro x hx
    obtain ⟨y, hy, rfl⟩ := List.mem_map.1 hx
    exact hb y hy

theorem writeLatin1_ofOctets (bs : Octets) : writeLatin1 (Text.ofOctets bs) = .ok bs := by
  have hback : (UInt8.ofNat ∘ Fin.val) ∘ CodePoint.ofOctet = id := by
    funext b
    exact UInt8.ofNat_toNat
  rw [writeLatin1, Text.ofOctets, List.map_map]
  show Except.ok (bs.map ((UInt8.ofNat ∘ Fin.val) ∘ CodePoint.ofOctet)) = _
  rw [hback, List.map_id]

/-! ## The reader of a whole text -/

variable [Decoders]

/-- A text that has the form of a word and is written as its fields is read as that word. -/
theorem decodeBy_of_fields {write : Text → Except UnicodeFault Octets} {t cs es p : Text}
    {w : EncodedWord} (h : fields? t.trim = some (cs, es, p)) (hcs : write cs = .ok w.charset)
    (hes : write es = .ok w.encoding) (hp : write p = .ok w.payload) (fallback : Datum) :
    decodeBy write t fallback = w.decode fallback := by
  rw [decodeBy, h]
  dsimp only
  rw [hcs, hes, hp]

theorem decodeWhole_of_stripped {w : EncodedWord} (hw : w.Enclosed) {bs : Octets}
    (h : stripped bs = Octet.equals :: w.body) (fallback : Datum) :
    decodeWhole (.octets bs) fallback = w.decode fallback := by
  have hfields : fields? (Text.ofOctets bs).trim =
      some (Text.ofOctets w.charset, Text.ofOctets w.encoding, Text.ofOctets w.payload) := by
    rw [trim_ofOctets, h, fields?_of_enclosed hw]
  exact decodeBy_of_fields hfields (writeLatin1_ofOctets _) (writeLatin1_ofOctets _)
    (writeLatin1_ofOctets _)
    fallback

/-- Octets are read as a word exactly where a word is all of them, white space at the ends apart. -/
theorem decodeWhole_eq_ok_iff {bs : Octets} {fallback : Datum} {t : Text} :
    (decodeWhole (.octets bs) fallback).result = .ok t ↔
      ∃ w : EncodedWord, w.Enclosed ∧ stripped bs = Octet.equals :: w.body ∧
        (w.decode fallback).result = .ok t := by
  constructor
  · intro h
    have hread : (decodeBy writeLatin1 (Text.ofOctets bs) fallback).result = .ok t := h
    rw [decodeBy, trim_ofOctets] at hread
    split at hread
    · cases hread
    · next cs es p hfields =>
      obtain ⟨w, hw, hbs⟩ := enclosed_of_fields? hfields
      refine ⟨w, hw, hbs, ?_⟩
      rwa [← decodeWhole_of_stripped hw hbs]
  · rintro ⟨w, hw, hbs, h⟩
    rwa [decodeWhole_of_stripped hw hbs]

/-! ## Texts

A text that was handed in is not the octets of a word but what these are in UTF-8, and
its parts have to be written again. The form is told by characters of ASCII, so the
text is cut where the octets are. -/

omit [Decoders] in
/-- A text whose octets are those of a word has the fields of the word, written in UTF-8. -/
theorem fields?_of_write {w : EncodedWord} (hw : w.Enclosed) {u : Text}
    (hu : Utf8.write u = .ok (Octet.equals :: w.body)) :
    ∃ charset e payload, u = formOf charset e payload ∧ fields? u = some (charset, [e], payload) ∧
      Utf8.write charset = .ok w.charset ∧ Utf8.write [e] = .ok w.encoding ∧
      Utf8.write payload = .ok w.payload := by
  obtain ⟨e, he, hencoding⟩ := hw.encoding
  have hascii : e < 0x80 := (encodings_spec he).1
  have hequals : Octet.equals < 0x80 := by decide
  have hquestion : Octet.question < 0x80 := by decide
  obtain ⟨hs, h₀⟩ := Utf8.writeFrom_eq_ok hu
  rw [body, hencoding] at h₀
  -- the marks are ASCII, so that the text is cut at each of them
  obtain ⟨u₁, rfl, h₁⟩ := Utf8.cons_of_encode hequals h₀.symm
  obtain ⟨u₂, rfl, h₂⟩ := Utf8.cons_of_encode hquestion h₁
  obtain ⟨charset, u₃, rfl, hcharset, h₃⟩ := Utf8.split_encode hquestion h₂
  obtain ⟨u₄, rfl, h₄⟩ := Utf8.cons_of_encode hascii h₃
  obtain ⟨u₅, rfl, h₅⟩ := Utf8.cons_of_encode hquestion h₄
  obtain ⟨payload, u₆, rfl, hpayload, h₆⟩ := Utf8.split_encode hquestion h₅
  obtain ⟨u₇, rfl, h₇⟩ := Utf8.cons_of_encode hequals h₆
  obtain rfl : u₇ = [] := Utf8.eq_nil_of_encode h₇
  have hwrite : ∀ {part : Text}, part ⊆ _ → Utf8.write part = .ok (part.flatMap Utf8.encode) :=
    fun hpart => Utf8.writeFrom_of_no_surrogate (fun c hc => hs c (hpart hc)) 0
  refine ⟨charset, .ofOctet e, payload, rfl, fields?_formOf ?_ ?_ ?_, ?_, ?_, ?_⟩
  · exact Text.ofOctet_mem_ofOctets.2 he
  · intro h
    exact hw.charset (hcharset ▸ Utf8.mem_of_ofOctet_mem hquestion h)
  · intro h
    have hlf : Octet.lf < 0x80 := by decide
    exact hw.payload (hpayload ▸ Utf8.mem_of_ofOctet_mem hlf h)
  · rw [hwrite (by intro c hc; simp [hc]), hcharset]
  · rw [hwrite (by intro c hc; simp [List.mem_singleton.1 hc]), hencoding, List.flatMap_singleton,
      Utf8.encode_one hascii]
  · rw [hwrite (by intro c hc; simp [hc]), hpayload]

theorem decodeWhole_text {w : EncodedWord} (hw : w.Enclosed) {a b u : Text}
    (ha : ∀ x ∈ a, x.isBlank = true) (hb : ∀ x ∈ b, x.isBlank = true)
    (hu : Utf8.write u = .ok (Octet.equals :: w.body)) (fallback : Datum) :
    decodeWhole (.text (a ++ u ++ b)) fallback = w.decode fallback := by
  obtain ⟨charset, e, payload, rfl, hfields, hcharset, hencoding, hpayload⟩ :=
    fields?_of_write hw hu
  refine decodeBy_of_fields ?_ hcharset hencoding hpayload fallback
  rw [trim_formOf ha hb, hfields]

/-! ## The two readers

Both readers decode a word by its fields. What is left is to compare which words they find: a
legible word with a text is enclosed, and a word that is enclosed need not be legible. -/

/-- A word that the reader at a cursor finds. -/
theorem word_of_decodeAt? {c : Cursor} {fallback : Datum} {t : Text}
    (h : (decodeAt? fallback c).1.result = .ok (some t)) :
    ∃ (w : EncodedWord) (tail : Octets), w.Legible ∧ c.rest = w.body ++ tail ∧
      (w.decode fallback).result = .ok t ∧ (decodeAt? fallback c).2 = c.skip w.body.length := by
  by_cases hbegins : Begins c.rest
  · obtain ⟨w, tail, hw, hrest⟩ := hbegins
    obtain ⟨hresult, hcursor⟩ := decodeAt?_of_body fallback hw hrest
    refine ⟨w, tail, hw, hrest, ?_, hcursor⟩
    rw [h, decode?] at hresult
    split at hresult
    · next hdecode =>
      cases hresult
      exact hdecode
    · cases hresult
    · cases hresult
  · rw [decodeAt?_of_not_begins fallback hbegins] at h
    cases h

omit [Decoders] in
theorem eq_of_toLower {b x : UInt8} (h : Octet.toLower b = x) : b = x ∨ b = x - 0x20 := by
  rw [Octet.toLower] at h
  split at h
  · rw [← h, UInt8.add_sub_cancel]
    exact Or.inr rfl
  · exact Or.inl h

omit [Decoders] in
/-- A name of one small letter is that letter, or its capital. -/
theorem eq_of_map_toLower {es : Octets} {x : UInt8} (h : es.map Octet.toLower = [x]) :
    es = [x] ∨ es = [x - 0x20] := by
  obtain ⟨e, rest, rfl, he, hrest⟩ := List.map_eq_cons_iff.1 h
  rw [List.map_eq_nil_iff.1 hrest]
  rcases eq_of_toLower he with rfl | rfl
  · exact Or.inl rfl
  · exact Or.inr rfl

omit [Decoders] in
theorem encoding_of_octets {w : EncodedWord} {bs : Octets} (h : w.octets = .ok bs) :
    ∃ e ∈ encodings, w.encoding = [e] := by
  simp only [octets] at h
  split at h
  · next hq =>
    rcases eq_of_map_toLower hq with hencoding | hencoding
    · exact ⟨_, by decide, hencoding⟩
    · exact ⟨_, by decide, hencoding⟩
  split at h
  · next hb =>
    rcases eq_of_map_toLower hb with hencoding | hencoding
    · exact ⟨_, by decide, hencoding⟩
    · exact ⟨_, by decide, hencoding⟩
  · cases h

/-- A word with a text, if it can be read at a cursor, can be all of a text. -/
theorem Legible.enclosed {w : EncodedWord} (hw : w.Legible) {fallback : Datum} {t : Text}
    (h : (w.decode fallback).result = .ok t) : w.Enclosed := by
  refine ⟨?_, ?_, hw.payload.no_lf⟩
  · intro hmem
    exact (hw.charset _ hmem).2.1 rfl
  · rw [decode] at h
    split at h
    · cases h
    · cases hoctets : w.octets with
      | error fault =>
        rw [hoctets] at h
        cases h
      | ok bs => exact encoding_of_octets hoctets

omit [Decoders] in
/-- A first part is known where the octet behind it does not stand in it. -/
theorem eq_of_append_cons {x : UInt8} {a b s t : Octets} (ha : x ∉ a) (hb : x ∉ b)
    (h : a ++ x :: s = b ++ x :: t) : a = b ∧ s = t := by
  induction a generalizing b with
  | nil =>
    cases b with
    | nil => exact ⟨rfl, (List.cons.inj h).2⟩
    | cons y b => exact absurd (by rw [(List.cons.inj h).1]; exact List.mem_cons_self) hb
  | cons z a ih =>
    rw [List.mem_cons, not_or] at ha
    cases b with
    | nil => exact absurd (List.cons.inj h).1.symm ha.1
    | cons y b =>
      rw [List.mem_cons, not_or] at hb
      obtain ⟨rfl, hrest⟩ := List.cons.inj h
      obtain ⟨rfl, rfl⟩ := ih ha.2 hb.2 hrest
      exact ⟨rfl, rfl⟩

omit [Decoders] in
/-- Whichever reader it is for, a word is known from its written form. -/
theorem Legible.eq_of_body_eq {v w : EncodedWord} (hv : v.Legible) (hw : w.Enclosed)
    (h : v.body = w.body) : v = w := by
  obtain ⟨e, he, hencoding⟩ := hw.encoding
  have hno : ∀ {blanks : Bool} {f : Octets}, IsField blanks f → Octet.question ∉ f := by
    intro blanks f hf hmem
    exact (hf _ hmem).2.1 rfl
  have hno' : Octet.question ∉ w.encoding := by
    rw [hencoding, List.mem_singleton]
    exact Ne.symm (encodings_spec he).2
  obtain ⟨hcharset, h₁⟩ := eq_of_append_cons (hno hv.charset) hw.charset (List.cons.inj h).2
  obtain ⟨hencoding', h₂⟩ := eq_of_append_cons (hno hv.encoding) hno' h₁
  have hpayload : v.payload = w.payload := List.append_cancel_right h₂
  cases v
  cases w
  simp only at hcharset hencoding' hpayload
  rw [hcharset, hencoding', hpayload]

/-- What the reader at a cursor finds, the reader of a whole text finds in the octets that were
read, however they are handed in and whatever white space is around them. -/
theorem whole_of_reader {pre w post : Octets} {c : Cursor} {fallback : Datum} {t : Text}
    (hdata : c.data.toList = pre ++ w ++ post) (hw : w.head? = some Octet.equals)
    (hpos : c.pos = pre.length + 1) (hread : (decodeAt? fallback c).1.result = .ok (some t))
    (hend : (decodeAt? fallback c).2.pos = pre.length + w.length) :
    (∀ a b : Octets, (∀ x ∈ a ++ b, (CodePoint.ofOctet x).isBlank = true) →
      (decodeWhole (.octets (a ++ w ++ b)) fallback).result = .ok t ∧
      (decodeWhole (.buffer (a ++ w ++ b)) fallback).result = .ok t) ∧
    ∀ u : Text, Utf8.form.decodeFrom (.ok .strict) 0 w = .ok u →
      ∀ a b : Text, (∀ x ∈ a ++ b, x.isBlank = true) →
        (decodeWhole (.text (a ++ u ++ b)) fallback).result = .ok t := by
  obtain ⟨word, tail, hlegible, hrest, hdecode, hcursor⟩ := word_of_decodeAt? hread
  have henclosed : word.Enclosed := hlegible.enclosed hdecode
  -- the octets that were read are the word
  obtain ⟨rest, rfl⟩ := List.head?_eq_some_iff.1 hw
  have hrest' : c.rest = rest ++ post := by
    rw [Cursor.rest, hdata, hpos, List.append_assoc, List.drop_append]
    simp
  have hlength : rest.length = word.body.length := by
    rw [hcursor, Cursor.skip_pos, hpos, List.length_cons] at hend
    omega
  obtain rfl : rest = word.body := (List.append_inj (hrest'.symm.trans hrest) hlength).1
  constructor
  · intro a b hblank
    rw [List.forall_mem_append] at hblank
    have hstripped := stripped_append henclosed hblank.1 hblank.2
    have hoctets :
        (decodeWhole (.octets (a ++ Octet.equals :: word.body ++ b)) fallback).result = .ok t := by
      rw [decodeWhole_of_stripped henclosed hstripped, hdecode]
    exact ⟨hoctets, hoctets⟩
  · intro u hu a b hblank
    rw [List.forall_mem_append] at hblank
    rw [decodeWhole_text henclosed hblank.1 hblank.2 (Utf8.write_of_decodeFrom hu), hdecode]

omit [Decoders] in
/-- A word with an `é` as it is in UTF-8, between `x` and `y`. -/
theorem whole_of_raw_payload :
    let w : Octets :=
      [0x3D, 0x3F, 0x75, 0x74, 0x66, 0x2D, 0x38, 0x3F, 0x71, 0x3F, 0xC3, 0xA9, 0x3F, 0x3D]
    let u : Text := "=?utf-8?q?é?="
    let c : Cursor := ⟨(0x78 :: w ++ [0x79]).toArray, 2, 0⟩
    (@decodeAt? .none .null c).1.result = .ok (some "é") ∧ (@decodeAt? .none .null c).2.pos = 15 ∧
    (@decodeWhole .none (.octets ([0x20] ++ w ++ [0x0D, 0x0A])) .null).result = .ok "é" ∧
    (@decodeWhole .none (.buffer ([0x20] ++ w ++ [0x0D, 0x0A])) .null).result = .ok "é" ∧
    (@decodeWhole .none (.text ([0x09] ++ u ++ [0x0A])) .null).result = .ok "é" := by
  intro w u c
  have hread : (@decodeAt? .none .null c).1.result = .ok (some "é") := by
    rw [eq_ok_iff_toOption]
    decide +kernel
  have hend : (@decodeAt? .none .null c).2.pos = 15 := by decide +kernel
  have hstrict : Utf8.form.decodeFrom (.ok .strict) 0 w = .ok u := by
    rw [eq_ok_iff_toOption]
    decide +kernel
  have hblank : ∀ x ∈ ([0x09] ++ [0x0A] : Text), x.isBlank = true := by
    intro x hx
    simp only [List.singleton_append, List.mem_cons, List.not_mem_nil, or_false] at hx
    rcases hx with rfl | rfl <;> rfl
  obtain ⟨hoctets, htext⟩ :=
    @whole_of_reader .none [0x78] w [0x79] c .null "é" rfl rfl rfl hread hend
  have hwhite : ∀ x ∈ ([0x20] ++ [0x0D, 0x0A] : Octets), (CodePoint.ofOctet x).isBlank = true := by
    intro x hx
    simp only [List.singleton_append, List.mem_cons, List.not_mem_nil, or_false] at hx
    rcases hx with rfl | rfl | rfl <;> rfl
  obtain ⟨hplain, hbuffer⟩ := hoctets [0x20] [0x0D, 0x0A] hwhite
  exact ⟨hread, hend, hplain, hbuffer, htext u hstrict [0x09] [0x0A] hblank⟩

/-- What the reader of a whole text finds is one word with a decoded text. Its payload may hold
question marks and carriage returns, and its charset white space; the reader at a cursor finds the
same text, and the end, if and only if there is nothing of that kind. -/
theorem whole_beyond_reader {bs : Octets} {fallback : Datum} {t : Text}
    (h : (decodeWhole (.octets bs) fallback).result = .ok t) :
    ∃ w : EncodedWord, w.Enclosed ∧ stripped bs = Octet.equals :: w.body ∧
      (w.decode fallback).result = .ok t ∧
      ∀ c : Cursor, c.data.toList = stripped bs → c.pos = 1 →
        ((decodeAt? fallback c).1.result = .ok (some t) ∧
          (decodeAt? fallback c).2.pos = (stripped bs).length ↔ w.Legible) := by
  obtain ⟨w, hw, hbs, hdecode⟩ := decodeWhole_eq_ok_iff.1 h
  refine ⟨w, hw, hbs, hdecode, ?_⟩
  intro c hdata hpos
  have hrest : c.rest = w.body := by
    rw [Cursor.rest, hdata, hpos, hbs]
    rfl
  constructor
  · rintro ⟨hread, hend⟩
    obtain ⟨v, tail, hv, hrest', -, hcursor⟩ := word_of_decodeAt? hread
    rw [hrest] at hrest'
    have hnil : tail = [] := by
      rw [hcursor, Cursor.skip_pos, hpos, hbs, hrest', List.length_cons, List.length_append] at hend
      apply List.eq_nil_of_length_eq_zero
      omega
    rw [hnil, List.append_nil] at hrest'
    rwa [← hv.eq_of_body_eq hw hrest'.symm]
  · intro hlegible
    have hbody : c.rest = w.body ++ [] := by rw [hrest, List.append_nil]
    obtain ⟨hresult, hcursor⟩ := decodeAt?_of_body fallback hlegible hbody
    constructor
    · rw [hresult, decode?, hdecode]
    · rw [hcursor, Cursor.skip_pos, hpos, hbs, List.length_cons, Nat.add_comm]

omit [Decoders] in
/-- One word with a question mark in its payload, which the reader at a cursor does not get over. -/
theorem whole_of_question :
    let bs : Octets :=
      [0x3D, 0x3F, 0x75, 0x74, 0x66, 0x2D, 0x38, 0x3F, 0x71, 0x3F, 0x3F, 0x3F, 0x3D]
    (@decodeWhole .none (.octets bs) .null).result = .ok "?" ∧
    ∃ w : EncodedWord, w.Enclosed ∧ stripped bs = Octet.equals :: w.body ∧
      (@decode .none w .null).result = .ok "?" ∧ ¬ w.Legible := by
  intro bs
  have h : (@decodeWhole .none (.octets bs) .null).result = .ok "?" := by
    rw [eq_ok_iff_toOption]
    decide +kernel
  obtain ⟨w, hw, hbs, hdecode, hreads⟩ := @whole_beyond_reader .none bs .null "?" h
  refine ⟨h, w, hw, hbs, hdecode, ?_⟩
  intro hlegible
  have hstripped : stripped bs = bs := by decide +kernel
  obtain ⟨hread, -⟩ := (hreads ⟨bs.toArray, 1, 0⟩ hstripped.symm rfl).2 hlegible
  have hnone : (@decodeAt? .none .null ⟨bs.toArray, 1, 0⟩).1.result = .ok none := by
    rw [eq_ok_iff_toOption]
    decide +kernel
  rw [hnone] at hread
  cases hread

omit [Decoders] in
/-- Two words with a space between them are one to the reader of a whole text, and the first of
two to the reader at a cursor. -/
theorem two_words_as_one :
    let bs : Octets :=
      [0x3D, 0x3F, 0x75, 0x74, 0x66, 0x2D, 0x38, 0x3F, 0x71, 0x3F, 0x61, 0x3F, 0x3D, 0x20, 0x3D,
      0x3F, 0x75, 0x74, 0x66, 0x2D, 0x38, 0x3F, 0x71, 0x3F, 0x62, 0x3F, 0x3D]
    let c : Cursor := ⟨bs.toArray, 1, 0⟩
    (@decodeWhole .none (.octets bs) .null).result = .ok "a?= =?utf-8?q?b" ∧
    (@decodeAt? .none .null c).1.result = .ok (some "a") ∧ (@decodeAt? .none .null c).2.pos = 13 ∧
    stripped bs = bs ∧ bs.length = 27 := by
  intro bs c
  refine ⟨?_, ?_, by decide +kernel, by decide +kernel, by decide +kernel⟩
  · rw [eq_ok_iff_toOption]
    decide +kernel
  · rw [eq_ok_iff_toOption]
    decide +kernel

end EncodedWord

end HeaderList
