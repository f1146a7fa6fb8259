import HeaderList.Message.Lists
import HeaderList.Message.Raw
import HeaderList.Proofs.Charset.Replacing
import HeaderList.Proofs.Scanner.Meaning

/-!
# `HeaderList/Proofs/Defaults.lean` — with the defaults, reading does not fail

As long as the error policy and the fallback charset are left out, no octets and no name of a
charset make the reading of a header fail, be it handed in or in a message
(`reading_with_defaults`). Nothing is checked along the way that could: a plain word has a text
whatever charset is named for it, and an encoded word that has none is a plain word. The lemmas on
words and headers ask less of the fallback charset than that it is the default: it has to be
found, and for plain words it has to read them (`Header.read_total_of_words`).

That a message declares a charset or none is assumed of the message: looking for the declaration
can fail by itself, where the parts of an extended parameter have no order.
-/

set_option autoImplicit false

namespace HeaderList

variable [d : Decoders]

/-! ## Words

A name that is not known, and a charset that refuses the octets, lead to the last resort. With the
default for it this is UTF-8 with replacements, which reads everything (`Charset.readUnder`). -/

/-- With a name and a payload that can be undone, a word has a text. -/
theorem EncodedWord.result_decode_of_octets (hd : d.Replace) {w : EncodedWord} {bs : Octets}
    (hname : w.charsetName.isEmpty = false) (hbs : w.octets = .ok bs) :
    (w.decode .null).result = .ok (Charset.readUnder w.charsetName bs) := by
  have hresult := Charset.result_decodeNamed_default hd w.charsetName bs
  simp only [decode, hname, hbs, hresult, Bool.false_eq_true, if_false]

theorem EncodedWord.decode?_of_octets (hd : d.Replace) {w : EncodedWord} {bs : Octets}
    (hname : w.charsetName.isEmpty = false) (hbs : w.octets = .ok bs) :
    w.decode? .null = .ok (some (Charset.readUnder w.charsetName bs)) := by
  rw [decode?, result_decode_of_octets hd hname hbs]

section

variable {fallback : Datum} {last : Charset}

/-- An encoded word can be read or is none, whatever the last resort makes of its octets. -/
theorem EncodedWord.decode?_total (hd : d.Replace)
    (hlast : Charset.lookup (Setting.fallbackCharset.value fallback) = .ok last) (w : EncodedWord) :
    ∃ t, w.decode? fallback = .ok t := by
  cases hname : w.charsetName.isEmpty with
  | true => exact ⟨none, by simp [decode?, decode, hname, Traced.fail]⟩
  | false =>
    cases hbs : w.octets with
    | error fault => exact ⟨none, by simp [decode?, decode, hname, hbs, Traced.fail]⟩
    | ok bs =>
      have hresult := Charset.result_decodeNamed_replace hd hlast w.charsetName bs
      rcases Charset.readOr_cases hd last w.charsetName bs with ⟨t, ht⟩ | ⟨fault, hf⟩
      · exact ⟨some t, by simp [decode?, decode, hname, hbs, hresult, ht]⟩
      · exact ⟨none, by simp [decode?, decode, hname, hbs, hresult, hf]⟩

/-- At any place there is an encoded word or none, and to find out which does not fail. -/
theorem encodedAt_total (hd : d.Replace)
    (hlast : Charset.lookup (Setting.fallbackCharset.value fallback) = .ok last) (bs : Octets) :
    ∃ t, encodedAt fallback bs = .ok t := by
  cases bs with
  | nil => exact ⟨none, rfl⟩
  | cons b rest =>
    by_cases hb : b = Octet.equals
    · subst hb
      by_cases hbegins : EncodedWord.Begins rest
      · obtain ⟨w, tail, hw, rfl⟩ := hbegins
        obtain ⟨t, ht⟩ := EncodedWord.decode?_total hd hlast w
        rw [encodedAt_of_body fallback hw, ht]
        exact ⟨_, rfl⟩
      · exact ⟨none, encodedAt_of_not_begins fallback hbegins⟩
    · exact ⟨none, encodedAt_of_ne fallback hb⟩

end

/-! ## Headers -/

omit d in
/-- What a caller can hand in for the charset of plain words: nothing, or a text. -/
def IsCharsetName (charset : Datum) : Prop := charset = .null ∨ ∃ name, charset = .text name

theorem readsWord_default (hd : d.Replace) (name : Text) (word : Octets) :
    Settings.readsWord { charset := .text name } word = .ok (Charset.readUnder name word) :=
  Charset.result_decodeNamed_default hd name word

section

variable {charset fallback : Datum} {last : Charset}

/-- Under another fallback it is this one that the word is read by in the end. -/
theorem readsWord_replace (hd : d.Replace)
    (hlast : Charset.lookup (Setting.fallbackCharset.value fallback) = .ok last) (name : Text)
    (word : Octets) :
    Settings.readsWord { charset := .text name, fallback } word = Charset.readOr last name word :=
  Charset.result_decodeNamed_replace hd hlast name word

/-- A word that the last resort reads has a text, whatever charset is named for it. -/
theorem readsWord_total (hd : d.Replace)
    (hlast : Charset.lookup (Setting.fallbackCharset.value fallback) = .ok last)
    (hc : IsCharsetName charset) {word : Octets} (hword : ∃ t, last.decode "replace" word = .ok t) :
    ∃ t, Settings.readsWord { charset, fallback } word = .ok t := by
  rcases hc with rfl | ⟨name, rfl⟩
  · obtain ⟨t, ht⟩ := Charset.readOr_total hword "utf-8"
    exact ⟨t, (readsWord_replace hd hlast "utf-8" word).trans ht⟩
  · rw [readsWord_replace hd hlast]
    exact Charset.readOr_total hword name

omit d in
/-- With a fallback that is known, nothing else can keep a scanner from starting. -/
theorem Scanner.start_of_lookup
    (hlast : Charset.lookup (Setting.fallbackCharset.value fallback) = .ok last) (c : Cursor) :
    ∃ s, start c { charset, fallback } = .ok s := by
  have hpolicy : Policy.lookup (Setting.decodeErrors.value .null) = .ok .replace := rfl
  simp only [start, hpolicy, hlast]
  exact ⟨_, rfl⟩

namespace Header

/-- Where the last resort reads every word, a header has a value, and
it is what the header means. -/
theorem read_total_of_words (hd : d.Replace)
    (hlast : Charset.lookup (Setting.fallbackCharset.value fallback) = .ok last)
    (hc : IsCharsetName charset)
    (hwords : ∀ word, IsWord word → ∃ t, last.decode "replace" word = .ok t) (bs : Octets) :
    ∃ v, (read (.octets bs) { charset, fallback }).result = .ok v ∧
      meaning { charset, fallback } bs = .ok v := by
  obtain ⟨is, his⟩ :=
    items_total (fun word hword => readsWord_total hd hlast hc (hwords word hword))
    (encodedAt_total hd hlast) (content bs)
  let v : Value := .ofEntries (Item.entries is)
  have hm : meaning { charset, fallback } bs = .ok v := by
    rw [meaning, his]
    rfl
  refine ⟨v, ?_, hm⟩
  obtain ⟨s, hstart⟩ := Scanner.start_of_lookup hlast (.ofOctets bs)
  exact readAt_of_meaning hstart (by rwa [Cursor.rest_ofOctets])

end Header

end

/-- With the defaults, a header has a value under any name of a charset. -/
theorem Header.read_total (hd : d.Replace) {charset : Datum} (hc : IsCharsetName charset)
    (bs : Octets) :
    ∃ v, (read (.octets bs) { charset }).result = .ok v ∧ meaning { charset } bs = .ok v := by
  obtain ⟨last, hlast, hscheme⟩ := Charset.lookup_default
  exact read_total_of_words hd hlast hc
    (fun word _ => ⟨_, Charset.decode_replace_utf8 hscheme word⟩) bs

/-! ## Messages

The values that a message reader has are texts in which an octet beyond ASCII is escaped, as those
of `Message.ofOctets` are, and so they can be turned back into octets without a fault. -/

namespace Message

omit d in
/-- Octets that were escaped are written as they were. -/
theorem writeFrom_escapeText (bs : Octets) (k : Nat) :
    Target.utf8.writeFrom true k (escapeText bs) = .ok bs := by
  induction bs generalizing k with
  | nil => rfl
  | cons b bs ih =>
    by_cases hb : b < 0x80
    · have hlt : b.toNat < 0x80 := by simpa [UInt8.lt_iff_toNat_lt] using hb
      have hval : (CodePoint.ofOctet b).val = b.toNat := rfl
      have hsur : (CodePoint.ofOctet b).isSurrogate = false := by
        simp only [CodePoint.isSurrogate, hval, Bool.and_eq_false_iff, decide_eq_false_iff_not]
        omega
      have henc : Utf8.encode (CodePoint.ofOctet b) = [b] := by
        simp [Utf8.encode, hval, hlt]
      have hcons : escapeText (b :: bs) = CodePoint.ofOctet b :: escapeText bs := by
        simp [escapeText, hb]
      simp only [hcons, Target.writeFrom, Target.octets?, hsur, henc, ih]
      rfl
    · have hcons : escapeText (b :: bs) = CodePoint.escaped b :: escapeText bs := by
        simp [escapeText, hb]
      have hge : 0x80 ≤ b := UInt8.not_lt.1 hb
      rw [hcons, Target.writeFrom_escaped _ _ hge, ih]
      rfl

omit d in
theorem octetsOf_escapeText (bs : Octets) : octetsOf (.text (escapeText bs)) = .ok bs := by
  simp only [octetsOf, Datum.display, Utf8.writeEscaped, writeFrom_escapeText]

omit d in
theorem value_of_fieldsFrom {f : Field} {ls : List Octets} (hf : f ∈ fieldsFrom ls) :
    ∃ bs, f.value = .text (escapeText bs) := by
  induction ls with
  | nil => cases hf
  | cons l ls ih =>
    rw [fieldsFrom] at hf
    split at hf
    · exact ih hf
    · rcases List.mem_cons.1 hf with rfl | hf
      · exact ⟨_, rfl⟩
      · exact ih hf

omit d in
theorem value_of_ofOctets {raw : Octets} {name : Text} {value : Datum}
    (h : value ∈ (ofOctets raw).valuesOf name) : ∃ bs, value = .text (escapeText bs) := by
  obtain ⟨f, hf, rfl⟩ := List.mem_map.1 h
  exact value_of_fieldsFrom (List.mem_filter.1 hf).1

/-- Once the declaration is found or found missing, there is a charset to read by. -/
theorem effectiveCharset_total {m : Message} {declared : Option Text}
    (h : m.declaredCharset = .ok declared) :
    ∃ charset, effectiveCharset (some m) .null = .ok charset ∧ IsCharsetName charset := by
  cases declared with
  | none =>
    exact ⟨.null, by simp [effectiveCharset, Datum.isTruthy, h, bind, Except.bind]; rfl, Or.inl rfl⟩
  | some name =>
    exact ⟨.text name, by simp [effectiveCharset, Datum.isTruthy, h, bind, Except.bind]; rfl,
      Or.inr ⟨name, rfl⟩⟩

/-- A value is read under any charset that is settled on. -/
theorem readField_total (hd : d.Replace) {m : Option Message} (bs : Octets)
    {charset effective : Datum} (he : effectiveCharset m charset = .ok effective)
    (hc : IsCharsetName effective) :
    ∃ v, (readField m (.text (escapeText bs)) { charset }).result = .ok v := by
  obtain ⟨v, hv, -⟩ := Header.read_total hd hc bs
  refine ⟨v, ?_⟩
  simp only [readField, Datum.isNull, Bool.false_eq_true, if_false, Traced.result_bind,
    Traced.silent, octetsOf_escapeText, he]
  exact hv

/-- Values are read one after the other, each under a charset of its own. -/
theorem readEntries_total (hd : d.Replace) {charset : Datum} (hc : IsCharsetName charset)
    {values : List Datum} (hvalues : ∀ value ∈ values, ∃ bs, value = .text (escapeText bs)) :
    ∃ ts, (readEntries { charset } values).result = .ok ts := by
  induction values with
  | nil => exact ⟨[], rfl⟩
  | cons value values ih =>
    rw [List.forall_mem_cons] at hvalues
    obtain ⟨bs, rfl⟩ := hvalues.1
    obtain ⟨ts, hts⟩ := ih hvalues.2
    obtain ⟨effective, he, hc'⟩ : ∃ effective, effectiveCharset none charset = .ok effective ∧
        IsCharsetName effective := by
      rw [effectiveCharset]
      split
      · exact ⟨charset, rfl, hc⟩
      · exact ⟨.null, rfl, Or.inl rfl⟩
    obtain ⟨v, hv⟩ := readField_total hd bs he hc'
    refine ⟨v.entries ++ ts, ?_⟩
    simp only [readEntries, Traced.result_bind, hv, hts]
    rfl

theorem readList_total (hd : d.Replace) (raw : Octets) (name : Text) {declared : Option Text}
    (h : (ofOctets raw).declaredCharset = .ok declared) :
    ∃ v, (readList (some (ofOctets raw)) (.text name) .null {}).result = .ok v := by
  obtain ⟨charset, he, hc⟩ := effectiveCharset_total h
  simp only [readList, Datum.isNull, if_true, valuesNamed]
  cases hvalues : (ofOctets raw).valuesOf name.lower with
  | nil => exact ⟨.empty, rfl⟩
  | cons value values =>
    obtain ⟨bs, rfl⟩ := value_of_ofOctets (hvalues ▸ List.mem_cons_self)
    exact readField_total hd bs he hc

theorem readLists_total (hd : d.Replace) (raw : Octets) (name : Text) {declared : Option Text}
    (h : (ofOctets raw).declaredCharset = .ok declared) :
    ∃ v, (readLists (some (ofOctets raw)) (.text name) {}).result = .ok v := by
  obtain ⟨charset, he, hc⟩ := effectiveCharset_total h
  have hvalues : ∀ value ∈ (ofOctets raw).valuesOf name.lower, ∃ bs, value =
      .text (escapeText bs) :=
    fun value hv => value_of_ofOctets hv
  obtain ⟨ts, hts⟩ := readEntries_total hd hc hvalues
  refine ⟨.ofEntries ts, ?_⟩
  simp only [readLists, Traced.result_bind, Traced.silent, he, occurrences, valuesNamed]
  show ((readEntries { charset } ((ofOctets raw).valuesOf name.lower)).result >>= fun entries =>
    (pure (Value.ofEntries entries) : Traced Value).result) = _
  rw [hts]
  rfl

end Message

/-- With the default error policy and the default fallback, no data and no name of a
charset make reading fail: a header has a value, and so has a header of a message that
declares a charset or none. A word whose charset is not known, or refuses the octets, is
read as UTF-8 with U+FFFD for each flaw. -/
theorem reading_with_defaults (hd : d.Replace) :
    (∀ (bs : Octets) (charset : Datum), charset = .null ∨ (∃ name, charset = .text name) →
      ∃ v, (Header.read (.octets bs) { charset }).result = .ok v ∧
        Header.meaning { charset } bs = .ok v) ∧
    (∀ (raw : Octets) (name : Text) (declared : Option Text),
      (Message.ofOctets raw).declaredCharset = .ok declared →
      (∃ v, (Message.readList (some (Message.ofOctets raw)) (.text name) .null {}).result = .ok v) ∧
        ∃ v, (Message.readLists (some (Message.ofOctets raw)) (.text name) {}).result = .ok v) ∧
    (∀ (name : Text) (word : Octets),
      (∀ c, Charset.named? name = some c → word ≠ [] → ∀ t, c.decode "replace" word ≠ .ok t) →
      Settings.readsWord { charset := .text name } word = .ok (Utf8.form.lossy word)) ∧
    (∀ (w : EncodedWord) (bs : Octets), w.charsetName.isEmpty = false → w.octets = .ok bs →
      (∀ c, Charset.named? w.charsetName = some c → bs ≠ [] → ∀ t, c.decode "replace" bs ≠ .ok t) →
      w.decode? .null = .ok (some (Utf8.form.lossy bs))) := by
  refine ⟨fun bs charset hc => Header.read_total hd hc bs, fun raw name declared h => ?_,
    fun name word h => ?_, fun w bs hname hbs h => ?_⟩
  · exact ⟨Message.readList_total hd raw name h, Message.readLists_total hd raw name h⟩
  · rw [readsWord_default hd, Charset.readUnder_of_not_served h]
  · rw [EncodedWord.decode?_of_octets hd hname hbs, Charset.readUnder_of_not_served h]

omit d in
/-- Decoders that read ASCII, as those of most charsets do, and refuse everything else. -/
@[reducible] def Decoders.asciiOnly : Decoders where
  decode c _ bs :=
    if bs.all (· < 0x80) then .ok (Text.ofOctets bs)
    else .error (.unicode (.refused c.name .noDecoder))

omit d in
theorem Decoders.replace_asciiOnly : Decoders.asciiOnly.Replace := by
  intro c bs
  by_cases h : bs.all (· < 0x80) = true
  · exact Or.inl ⟨_, if_pos h⟩
  · exact Or.inr ⟨_, if_neg h⟩

omit d in
/-- A charset that is known by name only, handed in and declared in a message with two
headers of one name; a word of a charset that is not known; and an encoded word of a
charset that refuses its octets. -/
theorem defaults_of_named_charsets :
    let raw : Octets :=
      [0x43, 0x6F, 0x6E, 0x74, 0x65, 0x6E, 0x74, 0x2D, 0x54, 0x79, 0x70, 0x65, 0x3A, 0x3B, 0x63,
       0x68, 0x61, 0x72, 0x73, 0x65, 0x74, 0x3D, 0x62, 0x69, 0x67, 0x35, 0x0A, 0x58, 0x3A, 0x61,
       0x2C, 0x62, 0x0A, 0x78, 0x3A, 0x63, 0xFF, 0x0A]
    (∃ v, (@Header.read .asciiOnly (.octets [0x61, 0x2C, 0x62])
      { charset := .text "big5" }).result = .ok v ∧ v.entries = (["a", "b"] : List Text)) ∧
    (∃ v, (@Message.readList .asciiOnly (some (Message.ofOctets raw)) (.text "x") .null {}).result =
      .ok v ∧ v.entries = (["a", "b"] : List Text)) ∧
    (∃ v, (@Message.readLists .asciiOnly (some (Message.ofOctets raw)) (.text "x") {}).result =
      .ok v ∧
      v.entries = (["a", "b", "c\uFFFD"] : List Text)) ∧
    @Settings.readsWord .asciiOnly { charset := .text "x-none" } [0x61, 0xFF] =
      .ok (Utf8.form.lossy [0x61, 0xFF]) ∧
    @EncodedWord.decode? .asciiOnly ⟨[0x69, 0x64, 0x6E, 0x61], [0x71], [0x61]⟩ .null =
      .ok (some (Utf8.form.lossy [0x61])) := by
  intro raw
  have hunknown : Charset.named? "x-none" = none := by decide +kernel
  have hidna : (Charset.named? "idna").map Charset.scheme = some .idna := by decide +kernel
  have hdeclared : @Message.declaredCharset .asciiOnly (Message.ofOctets raw) =
      .ok (some "big5") := rfl
  obtain ⟨hread, hmessage, hword, hencoded⟩ :=
    @reading_with_defaults .asciiOnly Decoders.replace_asciiOnly
  obtain ⟨hlist, hlists⟩ := hmessage raw "x" _ hdeclared
  refine ⟨?_, ?_, ?_, hword "x-none" _ ?_, hencoded _ [0x61] rfl rfl ?_⟩
  · obtain ⟨v, hv, hmeaning⟩ := hread [0x61, 0x2C, 0x62] (.text "big5") (Or.inr ⟨_, rfl⟩)
    have hvalue : @Header.meaning .asciiOnly { charset := .text "big5" } [0x61, 0x2C, 0x62] =
        .ok (.list ["a", "b"]) := eq_ok_iff_toOption.2 (by decide +kernel)
    obtain rfl := Except.ok.inj (hmeaning.symm.trans hvalue)
    exact ⟨_, hv, rfl⟩
  · obtain ⟨v, hv⟩ := hlist
    have hvalue : (@Message.readList .asciiOnly (some (Message.ofOctets raw)) (.text "x") .null
        {}).result = .ok (.list ["a", "b"]) := eq_ok_iff_toOption.2 (by decide +kernel)
    obtain rfl := Except.ok.inj (hv.symm.trans hvalue)
    exact ⟨_, hv, rfl⟩
  · obtain ⟨v, hv⟩ := hlists
    have hvalue : (@Message.readLists .asciiOnly (some (Message.ofOctets raw)) (.text "x")
        {}).result = .ok (.list ["a", "b", "c\uFFFD"]) := eq_ok_iff_toOption.2 (by decide +kernel)
    obtain rfl := Except.ok.inj (hv.symm.trans hvalue)
    exact ⟨_, hv, rfl⟩
  · intro c hc
    rw [hunknown] at hc
    cases hc
  · intro c hc hne t
    have hname :
        (⟨[0x69, 0x64, 0x6E, 0x61], [0x71], [0x61]⟩ : EncodedWord).charsetName = "idna" := rfl
    rw [hname] at hc
    have hscheme : c.scheme = .idna := by simpa [hc] using hidna
    rw [@Charset.decode_replace_idna .asciiOnly c [0x61] hscheme hne]
    simp

end HeaderList
