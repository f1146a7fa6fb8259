import HeaderList.Proofs.Defaults
import HeaderList.Proofs.EncodedWord.Whole

/-!
# `HeaderList/Proofs/EncodedWord/Grammar.lean` — which octets are an encoded word

Whether the reader at a cursor has a text is decided in several places: where a field is read,
where the language is cut off the name of the charset, where the encoding is looked at, where
base64 is undone. Taken together these are one grammar (`EncodedWord.Conveys`), and the reader
accepts that grammar and nothing else (`decodeAt?_accepts`). With the default fallback there is no
third way: what is not of the grammar has no text, and nothing is a fault.
-/

set_option autoImplicit false

namespace HeaderList.EncodedWord

/-! ## The grammar -/

/-- The name of the charset as it is written: the octets in front of the
first asterisk, or all of them. -/
def nameOctets (w : EncodedWord) : Octets := w.charset.takeWhile (· != 0x2A)

/-- Do the encoding and the payload of a word stand for octets? -/
inductive StandsFor (w : EncodedWord) : Octets → Prop
  | quoted (encoding : w.encoding = [0x71] ∨ w.encoding = [0x51]) :
      StandsFor w (QEncoding.decode w.payload)
  | base64 (encoding : w.encoding = [0x62] ∨ w.encoding = [0x42]) {bs : Octets}
      (payload : Base64.decode? w.payload = some bs) : StandsFor w bs

/-- Is the word of the grammar, and does its payload stand for octets? -/
structure Conveys (w : EncodedWord) (bs : Octets) : Prop where
  legible : w.Legible
  named : w.nameOctets ≠ []
  payload : w.StandsFor bs

/-! ## Its parts

Each part of the grammar is compared with the place in the reader where it is decided. -/

theorem asciiText_eq_asterisk {b : UInt8} :
    (if b < 0x80 then CodePoint.ofOctet b else .replacement) = 0x2A ↔ b = 0x2A := by
  constructor
  · intro h
    split at h
    · exact CodePoint.ofOctet_inj (c := 0x2A) h
    · exact absurd h (by decide)
  · rintro rfl
    rfl

/-- It makes no difference whether the language is cut off before or after
the name is taken for a text. -/
theorem charsetName_eq (w : EncodedWord) : w.charsetName = asciiText w.nameOctets := by
  rw [charsetName, asciiText, List.takeWhile_map, nameOctets, asciiText]
  congr 2
  funext b
  rw [Function.comp_apply, Bool.eq_iff_iff, bne_iff_ne, bne_iff_ne, Ne, Ne, asciiText_eq_asterisk]

theorem charsetName_isEmpty {w : EncodedWord} :
    w.charsetName.isEmpty = true ↔ w.nameOctets = [] := by
  rw [charsetName_eq, List.isEmpty_iff, asciiText, List.map_eq_nil_iff]

theorem octets_eq_ok_iff {w : EncodedWord} {bs : Octets} : w.octets = .ok bs ↔ w.StandsFor bs := by
  have hquoted : ∀ e ∈ [[0x71], [0x51]], e.map Octet.toLower = [0x71] := by decide
  have hbase64 : ∀ e ∈ [[0x62], [0x42]], e.map Octet.toLower = [0x62] := by decide
  constructor
  · intro h
    simp only [octets] at h
    split at h
    · next hq =>
      cases h
      exact .quoted (eq_of_map_toLower hq)
    split at h
    · next hb =>
      split at h
      · next hpayload =>
        cases h
        exact .base64 (eq_of_map_toLower hb) hpayload
      · cases h
    · cases h
  · intro h
    cases h with
    | quoted encoding => rw [octets, hquoted _ (by simpa using encoding), if_pos rfl]
    | base64 encoding payload =>
      rw [octets, hbase64 _ (by simpa using encoding), if_neg (by decide), if_pos rfl, payload]

/-! ## What the reader accepts -/

variable [d : Decoders] {w : EncodedWord} {bs tail : Octets} {c : Cursor}

/-- A word has a text, by default, if it has a name of a charset and its payload
stands for octets, and only then. -/
theorem decode?_eq_some_iff (hd : d.Replace) {t : Text} :
    w.decode? .null = .ok (some t) ↔ w.nameOctets ≠ [] ∧ ∃ bs, w.StandsFor bs ∧
      (Charset.decodeNamed bs (.text (asciiText w.nameOctets)) .null .null).result = .ok t := by
  constructor
  · intro h
    cases hname : w.charsetName.isEmpty with
    | true => simp [decode?, decode, hname, Traced.fail] at h
    | false =>
      cases hoctets : w.octets with
      | error fault => simp [decode?, decode, hname, hoctets, Traced.fail] at h
      | ok bs =>
        refine ⟨fun hnil => ?_, bs, octets_eq_ok_iff.1 hoctets, ?_⟩
        · rw [charsetName_isEmpty.2 hnil] at hname
          cases hname
        · rw [decode?_of_octets hd hname hoctets] at h
          cases h
          rw [← charsetName_eq, Charset.result_decodeNamed_default hd]
  · rintro ⟨hname, bs, hpayload, ht⟩
    rw [← charsetName_eq, Charset.result_decodeNamed_default hd] at ht
    cases ht
    refine decode?_of_octets hd ?_ (octets_eq_ok_iff.2 hpayload)
    rwa [Bool.eq_false_iff, Ne, charsetName_isEmpty]

theorem decodeAt?_of_conveys (hd : d.Replace) (hw : w.Conveys bs) (h : c.rest = w.body ++ tail) :
    ∃ t, (Charset.decodeNamed bs (.text (asciiText w.nameOctets)) .null .null).result = .ok t ∧
      (decodeAt? .null c).1.result = .ok (some t) ∧
      (decodeAt? .null c).2 = c.skip w.body.length := by
  have ht := Charset.result_decodeNamed_default hd (asciiText w.nameOctets) bs
  obtain ⟨hresult, hcursor⟩ := decodeAt?_of_body .null hw.legible h
  refine ⟨_, ht, ?_, hcursor⟩
  rw [hresult]
  exact (decode?_eq_some_iff hd).2 ⟨hw.named, bs, hw.payload, ht⟩

/-- Where no word of the grammar comes next there is no text, and no fault either. -/
theorem decodeAt?_of_not_conveys (hd : d.Replace)
    (h : ¬ ∃ (w : EncodedWord) (bs tail : Octets), w.Conveys bs ∧ c.rest = w.body ++ tail) :
    (decodeAt? .null c).1.result = .ok none := by
  by_cases hbegins : Begins c.rest
  · obtain ⟨w, tail, hw, hrest⟩ := hbegins
    obtain ⟨last, hlast, -⟩ := Charset.lookup_default
    obtain ⟨found, hfound⟩ := decode?_total hd hlast w
    rw [(decodeAt?_of_body .null hw hrest).1, hfound]
    cases found with
    | none => rfl
    | some t =>
      -- a legible word with a text is of the grammar
      obtain ⟨hname, bs, hpayload, -⟩ := (decode?_eq_some_iff hd).1 hfound
      exact absurd ⟨w, bs, tail, ⟨hw, hname, hpayload⟩, hrest⟩ h
  · exact decodeAt?_of_not_begins .null hbegins

/-- With the default fallback, reading an encoded word at a cursor does not fail. There is a text
exactly where a word of the grammar comes next; the word is then the only one that comes next, the
cursor is left behind its last equals sign, and the text is what its octets read as under its name
of a charset. Elsewhere there is no text. -/
theorem decodeAt?_accepts (hd : d.Replace) (c : Cursor) :
    (∃ found, (decodeAt? .null c).1.result = .ok found) ∧
    ((∃ t, (decodeAt? .null c).1.result = .ok (some t)) ↔
      ∃ (w : EncodedWord) (bs tail : Octets), w.Conveys bs ∧ c.rest = w.body ++ tail) ∧
    (∀ (w : EncodedWord) (bs tail : Octets), w.Conveys bs → c.rest = w.body ++ tail →
      (∀ (v : EncodedWord) (s : Octets), v.Legible → c.rest = v.body ++ s → v = w ∧ s = tail) ∧
      (decodeAt? .null c).2.data = c.data ∧ (decodeAt? .null c).2.pos = c.pos + w.body.length ∧
      ∃ t, (Charset.decodeNamed bs (.text (asciiText w.nameOctets)) .null .null).result = .ok t ∧
        (decodeAt? .null c).1.result = .ok (some t)) ∧
    ((¬ ∃ (w : EncodedWord) (bs tail : Octets), w.Conveys bs ∧ c.rest = w.body ++ tail) →
      (decodeAt? .null c).1.result = .ok none) := by
  have hrefused := decodeAt?_of_not_conveys (c := c) hd
  refine ⟨?_, ⟨?_, ?_⟩, ?_, hrefused⟩
  · by_cases h : ∃ (w : EncodedWord) (bs tail : Octets), w.Conveys bs ∧ c.rest = w.body ++ tail
    · obtain ⟨w, bs, tail, hw, hrest⟩ := h
      obtain ⟨t, -, hfound, -⟩ := decodeAt?_of_conveys hd hw hrest
      exact ⟨some t, hfound⟩
    · exact ⟨none, hrefused h⟩
  · rintro ⟨t, ht⟩
    apply Classical.byContradiction
    intro h
    rw [hrefused h] at ht
    cases ht
  · rintro ⟨w, bs, tail, hw, hrest⟩
    obtain ⟨t, -, hfound, -⟩ := decodeAt?_of_conveys hd hw hrest
    exact ⟨t, hfound⟩
  · intro w bs tail hw hrest
    obtain ⟨t, ht, hfound, hcursor⟩ := decodeAt?_of_conveys hd hw hrest
    refine ⟨fun v s hv hrest' => body_append_inj hv hw.legible (hrest'.symm.trans hrest), ?_, ?_, t,
      ht, hfound⟩
    · rw [hcursor, Cursor.skip_data]
    · rw [hcursor, Cursor.skip_pos]

omit d in
/-- A word in the B encoding, of a charset that is known by name only, with a language and a payload
that lacks its padding; the same word with nothing in front of the asterisk; and a word in the Q
encoding, with a low line, an escape in lower case and an equals sign that begins none. -/
theorem grammar_of_language :
    let w : EncodedWord := ⟨[0x62, 0x69, 0x67, 0x35, 0x2A, 0x7A, 0x68], [0x42], [0x59, 0x51]⟩
    let c : Cursor := ⟨(0x3D :: (w.body ++ [0x78])).toArray, 1, 0⟩
    let nameless : EncodedWord := { w with charset := [0x2A, 0x7A, 0x68] }
    let c' : Cursor := ⟨(0x3D :: nameless.body).toArray, 1, 0⟩
    let q : EncodedWord :=
      ⟨[0x55, 0x54, 0x46, 0x2D, 0x38], [0x51], [0x3D, 0x63, 0x33, 0x3D, 0x41, 0x39,
      0x5F, 0x3D]⟩
    let c'' : Cursor := ⟨(0x3D :: (q.body ++ [0x2C])).toArray, 1, 0⟩
    w.Conveys [0x61] ∧ (@decodeAt? .asciiOnly .null c).1.result = .ok (some "a") ∧
      (@decodeAt? .asciiOnly .null c).2.pos = 1 + w.body.length ∧
      (@decodeAt? .asciiOnly .null c').1.result = .ok none ∧
      q.Conveys [0xC3, 0xA9, 0x20, 0x3D] ∧
      (@decodeAt? .asciiOnly .null c'').1.result = .ok (some "é =") ∧
      (@decodeAt? .asciiOnly .null c'').2.pos = 1 + q.body.length := by
  intro w c nameless c' q c''
  have hw : w.Conveys [0x61] :=
    ⟨⟨by decide, by decide, by decide⟩, by decide, .base64 (Or.inr rfl) (by decide +kernel)⟩
  have hq : q.Conveys [0xC3, 0xA9, 0x20, 0x3D] :=
    ⟨⟨by decide, by decide, by decide⟩, by decide, .quoted (Or.inr rfl)⟩
  have htext : (@Charset.decodeNamed .asciiOnly [0x61] (.text (asciiText w.nameOctets)) .null
      .null).result = .ok "a" := by
    rw [eq_ok_iff_toOption]
    decide +kernel
  have hqtext : (@Charset.decodeNamed .asciiOnly [0xC3, 0xA9, 0x20, 0x3D]
      (.text (asciiText q.nameOctets)) .null .null).result = .ok "é =" := by
    rw [eq_ok_iff_toOption]
    decide +kernel
  have haccepts := @decodeAt?_accepts .asciiOnly Decoders.replace_asciiOnly
  obtain ⟨-, -, hpos, t, ht, hfound⟩ := (haccepts c).2.2.1 w [0x61] [0x78] hw rfl
  obtain rfl : t = "a" := Except.ok.inj (ht.symm.trans htext)
  obtain ⟨-, -, hqpos, u, hu, hqfound⟩ :=
    (haccepts c'').2.2.1 q [0xC3, 0xA9, 0x20, 0x3D] [0x2C] hq rfl
  obtain rfl : u = "é =" := Except.ok.inj (hu.symm.trans hqtext)
  refine ⟨hw, hfound, hpos, (haccepts c').2.2.2 ?_, hq, hqfound, hqpos⟩
  rintro ⟨v, bs, tail, hv, hrest⟩
  -- the nameless word is legible, so it is the one that would have a name
  have hlegible : nameless.Legible := ⟨by decide, by decide, by decide⟩
  have hrest' : nameless.body ++ [] = v.body ++ tail := hrest
  obtain ⟨rfl, -⟩ := body_append_inj hlegible hv.legible hrest'
  exact hv.named rfl

end HeaderList.EncodedWord
