import HeaderList.Proofs.Defaults
import HeaderList.Proofs.EncodedWord.Whole

/-!
# `HeaderList/Proofs/EncodedWord/WholeFaults.lean` — what is said of a text that is no encoded word

The reader of a whole text refuses what is no encoded word, and a caller looks for one kind of
fault only. With the default fallback charset the word itself fails in no other way
(`decode_cases`): its octets have a text under any name of a charset. What is left is the way from
a text to octets. It is taken field by field, after the form of the text has been found good, and
a surrogate in a field stops it with a fault of another kind. Octets have no surrogates, so this
is the only leak (`faults_of_whole`).
-/

set_option autoImplicit false

namespace HeaderList.EncodedWord

/-- Has a text the form of an encoded word, white space at its ends apart,
and a surrogate in a field? -/
def HasSurrogateField (t : Text) : Prop :=
  ∃ charset e payload, t.trim = formOf charset e payload ∧ e ∈ Text.ofString "qQbB" ∧
    questionMark ∉ charset ∧ (0x0A : CodePoint) ∉ payload ∧
    ∃ c ∈ charset ++ payload, c.isSurrogate = true

theorem hasSurrogateField_iff {t : Text} :
    HasSurrogateField t ↔ ∃ charset es payload, fields? t.trim = some (charset, es, payload) ∧
      ∃ c ∈ charset ++ payload, c.isSurrogate = true := by
  constructor
  · rintro ⟨charset, e, payload, hform, he, hcharset, hpayload, hsurrogate⟩
    exact ⟨charset, [e], payload, by rw [hform, fields?_formOf he hcharset hpayload], hsurrogate⟩
  · rintro ⟨charset, es, payload, hfields, hsurrogate⟩
    obtain ⟨e, -, he, hcharset, hpayload, hform⟩ := formOf_of_fields? hfields
    exact ⟨charset, e, payload, hform, he, hcharset, hpayload, hsurrogate⟩

theorem write_encoding {e : CodePoint} (he : e ∈ Text.ofString "qQbB") :
    ∃ bs, Utf8.write [e] = .ok bs := by
  have hall : (Text.ofString "qQbB").all (fun c => !c.isSurrogate) = true := rfl
  refine ⟨_, Utf8.writeFrom_of_no_surrogate (fun c hc => ?_) 0⟩
  rw [List.mem_singleton.1 hc]
  simpa using List.all_eq_true.1 hall e he

variable [d : Decoders]

/-- With the default fallback charset, a word has a text or is a bad word. -/
theorem decode_cases (hd : d.Replace) (w : EncodedWord) :
    (∃ t, (w.decode .null).result = .ok t) ∨
    ∃ fault, (w.decode .null).result = .error (.word fault) := by
  cases hname : w.charsetName.isEmpty with
  | true => exact Or.inr ⟨.missingCharset, by rw [decode, if_pos hname]; rfl⟩
  | false =>
    cases hoctets : w.octets with
    | error fault => exact Or.inr ⟨fault, by simp [decode, hname, hoctets, Traced.fail]⟩
    | ok bs => exact Or.inl ⟨_, result_decode_of_octets hd hname hoctets⟩

/-- A way to octets that is never stuck leaves no fault but that of a bad word. -/
theorem decodeBy_cases (hd : d.Replace) {write : Text → Except UnicodeFault Octets} {t : Text}
    (hwrite : ∀ charset es payload, fields? t.trim = some (charset, es, payload) →
      ∃ w : EncodedWord, write charset = .ok w.charset ∧ write es = .ok w.encoding ∧
        write payload = .ok w.payload) :
    (∃ u, (decodeBy write t .null).result = .ok u) ∨
      ∃ fault, (decodeBy write t .null).result = .error (.word fault) := by
  cases hfields : fields? t.trim with
  | none => exact Or.inr ⟨.notAWord t, by rw [decodeBy, hfields]; rfl⟩
  | some fields =>
    obtain ⟨charset, es, payload⟩ := fields
    obtain ⟨w, hcharset, hes, hpayload⟩ := hwrite charset es payload hfields
    rw [decodeBy_of_fields hfields hcharset hes hpayload]
    exact decode_cases hd w

/-- Octets are taken back from the text that was made of them, so nothing stops the way. -/
theorem decodeWhole_octets_cases (hd : d.Replace) (bs : Octets) :
    (∃ t, (decodeWhole (.octets bs) .null).result = .ok t) ∨
      ∃ fault, (decodeWhole (.octets bs) .null).result = .error (.word fault) :=
  decodeBy_cases hd fun _ _ _ _ => ⟨⟨_, _, _⟩, rfl, rfl, rfl⟩

theorem decodeWhole_text_cases (hd : d.Replace) {t : Text} (h : ¬ HasSurrogateField t) :
    (∃ u, (decodeWhole (.text t) .null).result = .ok u) ∨
      ∃ fault, (decodeWhole (.text t) .null).result = .error (.word fault) := by
  refine decodeBy_cases hd fun charset es payload hfields => ?_
  obtain ⟨e, rfl, he, -⟩ := formOf_of_fields? hfields
  obtain ⟨encoding, hencoding⟩ := write_encoding he
  have hnone : ∀ c ∈ charset ++ payload, c.isSurrogate = false := by
    intro c hc
    rw [← Bool.not_eq_true]
    intro hsurrogate
    exact h (hasSurrogateField_iff.2 ⟨charset, [e], payload, hfields, c, hc, hsurrogate⟩)
  rw [List.forall_mem_append] at hnone
  exact ⟨⟨_, encoding, _⟩, Utf8.writeFrom_of_no_surrogate hnone.1 0, hencoding,
    Utf8.writeFrom_of_no_surrogate hnone.2 0⟩

/-- A surrogate in a field is found when the field is written, and nothing is decoded. -/
theorem decodeWhole_of_hasSurrogateField {t : Text} (h : HasSurrogateField t) (fallback : Datum) :
    ∃ place c span, c.isSurrogate = true ∧ (decodeWhole (.text t) fallback).result =
      .error (.unicode (.unwritable .utf8 place (c :: span))) := by
  obtain ⟨charset, es, payload, hfields, x, hx, hsurrogate⟩ := hasSurrogateField_iff.1 h
  obtain ⟨e, rfl, he, -⟩ := formOf_of_fields? hfields
  obtain ⟨encoding, hencoding⟩ := write_encoding he
  rw [decodeWhole, decodeBy, hfields]
  dsimp only
  rw [hencoding]
  -- the fields are written in their order, and the first surrogate of all is the fault
  rcases Utf8.writeFrom_cases charset 0 with ⟨hnone, hcharset⟩ | ⟨u, c, v, span, -, -, hc, hcharset⟩
  · -- the surrogate is in the payload
    rcases Utf8.writeFrom_cases payload 0 with ⟨hnone', -⟩ | ⟨u, c, v, span, -, -, hc, hpayload⟩
    · have hall := List.forall_mem_append.2 ⟨hnone, hnone'⟩
      cases (hall x hx).symm.trans hsurrogate
    · refine ⟨0 + u.length, c, span, hc, ?_⟩
      rw [Utf8.write, Utf8.write, hcharset, hpayload]
      rfl
  · refine ⟨0 + u.length, c, span, hc, ?_⟩
    rw [Utf8.write, hcharset]
    rfl

/-- Octets, a buffer of them or a text have a decoded text or are refused as no encoded word, and
nothing else can come of them under the default fallback charset, with one exception: a text in
the form of an encoded word with a surrogate in its charset or its payload. That is refused as a
text that cannot be written, at a surrogate. -/
theorem faults_of_whole (hd : d.Replace) {datum : Datum}
    (hkind : datum.kind = .text ∨ datum.kind = .octets ∨ datum.kind = .buffer) :
    (((∃ t, (decodeWhole datum .null).result = .ok t) ∨
        ∃ fault, (decodeWhole datum .null).result = .error (.word fault)) ↔
      ∀ t, datum = .text t → ¬ HasSurrogateField t) ∧
    ∀ t, datum = .text t → HasSurrogateField t →
      ∃ place c span, c.isSurrogate = true ∧ (decodeWhole datum .null).result =
        .error (.unicode (.unwritable .utf8 place (c :: span))) := by
  have hstuck : ∀ t, datum = .text t → HasSurrogateField t →
      ∃ place c span, c.isSurrogate = true ∧ (decodeWhole datum .null).result =
        .error (.unicode (.unwritable .utf8 place (c :: span))) := by
    rintro t rfl h
    exact decodeWhole_of_hasSurrogateField h .null
  refine ⟨⟨?_, ?_⟩, hstuck⟩
  · rintro hword t ht h
    obtain ⟨place, c, span, -, hresult⟩ := hstuck t ht h
    rcases hword with ⟨u, hu⟩ | ⟨fault, hfault⟩
    · cases hresult.symm.trans hu
    · cases hresult.symm.trans hfault
  · intro h
    cases datum with
    | text t => exact decodeWhole_text_cases hd (h t rfl)
    | octets bs => exact decodeWhole_octets_cases hd bs
    | buffer bs => exact decodeWhole_octets_cases hd bs
    | _ => simp [Datum.kind] at hkind

omit d in
/-- A word with an octet that came with a message as a surrogate, and the same word in octets. -/
theorem faults_of_escaped_octet :
    let t : Text := Text.ofString "=?utf-8?q?" ++ [0xDCE9] ++ Text.ofString "?="
    let bs : Octets :=
      [0x3D, 0x3F, 0x75, 0x74, 0x66, 0x2D, 0x38, 0x3F, 0x71, 0x3F, 0xE9, 0x3F, 0x3D]
    (∃ place c span, CodePoint.isSurrogate c = true ∧
      (@decodeWhole .asciiOnly (.text t) .null).result =
        .error (.unicode (.unwritable .utf8 place (c :: span)))) ∧
    ((∃ u, (@decodeWhole .asciiOnly (.octets bs) .null).result = .ok u) ∨
      ∃ fault, (@decodeWhole .asciiOnly (.octets bs) .null).result = .error (.word fault)) := by
  intro t bs
  have hfield : HasSurrogateField t :=
    ⟨"utf-8", 0x71, [0xDCE9], by decide +kernel, by decide, by decide, by decide, 0xDCE9, by decide,
      by decide⟩
  have hd := Decoders.replace_asciiOnly
  exact ⟨(@faults_of_whole .asciiOnly hd (.text t) (Or.inl rfl)).2 t rfl hfield,
    (@faults_of_whole .asciiOnly hd (.octets bs) (Or.inr (Or.inl rfl))).1.2 nofun⟩

omit d in
/-- A text in the form of an encoded word that is neither decoded nor refused as no encoded word. -/
theorem surrogate_not_refused :
    (@decodeWhole .none (.text (Text.ofString "=?utf-8?q?" ++ [0xDCE9] ++ Text.ofString "?="))
      .null).result = .error (.unicode (.unwritable .utf8 0 [0xDCE9])) := by
  have hfields :
      fields? (Text.trim (Text.ofString "=?utf-8?q?" ++ [0xDCE9] ++ Text.ofString "?=")) =
        some (Text.ofString "utf-8", Text.ofString "q", [0xDCE9]) := by
    decide +kernel
  simp only [decodeWhole, decodeBy, hfields]
  rfl

end HeaderList.EncodedWord
