import HeaderList.Proofs.Defaults

/-!
# `HeaderList/Proofs/LastResort.lean` — which charsets serve as the last resort

A fallback charset is looked up before anything is read, and a name that finds none is refused at
once. It is not asked whether the charset can take every word, though it is the last resort for
them. With the default error policy that is all there is to ask: no header fails, under any name
of a charset, if and only if the last resort reads every word there can be
(`reading_total_iff_last_resort`). The charsets that the library decodes itself do so but for two:
domain names, which are read strictly or not at all, and the charset that refuses everything.
These are found like any other, and a header then fails on its first word.
-/

set_option autoImplicit false

namespace HeaderList

variable [d : Decoders] {fallback : Datum} {last : Charset} {given : Settings} {name : Text}
  {b : UInt8} {rest : Octets} {v : Value}

/-! ## The first word of a header

A last resort that refuses a word is no fault as long as another charset reads the word. So a
header is needed whose charset is not known: then the last resort is asked at once. -/

theorem encodedAt_content (h : b ≠ Octet.equals ∨ ¬ EncodedWord.Begins rest) :
    encodedAt fallback (b :: Header.content rest) = .ok none := by
  rcases h with h | h
  · exact encodedAt_of_ne fallback h
  · exact encodedAt_of_not_begins fallback (mt (Header.begins_content rest).1 h)

/-- A header that begins with a plain word has a value only if the word has a text. -/
theorem readsWord_of_read (hb : Octet.StartsWord b)
    (hplain : b ≠ Octet.equals ∨ ¬ EncodedWord.Begins rest)
    (h : (Header.read (.octets (b :: rest)) given).result = .ok v) :
    ∃ t, given.readsWord
      (b :: ((Header.content rest).takeWhile Octet.isWord).filter (· != Octet.cr)) = .ok t := by
  have hread : (Header.readAt (.ofOctets (b :: rest)) given).1.result = .ok v := h
  have hmeaning := Header.meaning_of_readAt hread
  obtain ⟨is, hitems, -⟩ := map_eq_ok hmeaning
  rw [Cursor.rest_ofOctets, Header.content_cons_of_ne hb.ne_lf,
    items_word hb (encodedAt_content hplain)] at hitems
  obtain ⟨t, ht, -⟩ := bind_eq_ok hitems
  exact ⟨t, ht⟩

/-- Under a name that finds no charset, a word is read by the last resort. -/
theorem readsWord_of_unknown (hd : d.Replace)
    (hlast : Charset.lookup (Setting.fallbackCharset.value fallback) = .ok last)
    (hname : Charset.named? name = none) (word : Octets) :
    Settings.readsWord { charset := .text name, fallback } word = last.decode "replace" word := by
  rw [readsWord_replace hd hlast, Charset.readOr, hname]

/-! ## Every word

To ask the last resort for a given word, a header is made that begins with it. The word may
look like an encoded one, and then a carriage return is put in: it is dropped from a plain
word, and no encoded word has one. -/

omit d in
/-- A carriage return after the first octet of a word keeps the word from being an
encoded one, and is dropped. -/
theorem word_of_split (h : IsWord (b :: rest)) :
    b :: ((Header.content (Octet.cr :: rest)).takeWhile Octet.isWord).filter (· != Octet.cr) =
      b :: rest := by
  have hrest : ∀ x ∈ rest, Octet.StartsWord x :=
    fun x hx => h.startsWord x (List.mem_cons_of_mem b hx)
  have hline : Octet.lf ∉ Octet.cr :: rest := by
    intro hmem
    rcases List.mem_cons.1 hmem with hcr | hmem
    · exact absurd hcr (by decide)
    · exact (hrest _ hmem).ne_lf rfl
  have hcontent : Header.content (Octet.cr :: rest) = Octet.cr :: rest := by
    simpa [Header.content] using Header.content_append_of_no_lf hline []
  have hword : (Octet.cr :: rest).takeWhile Octet.isWord = Octet.cr :: rest := by
    have hall : ∀ x ∈ Octet.cr :: rest, Octet.isWord x = true :=
      List.forall_mem_cons.2 ⟨by decide, fun x hx => (hrest x hx).1⟩
    have happend : (Octet.cr :: rest ++ []).takeWhile Octet.isWord =
        Octet.cr :: rest ++ [].takeWhile Octet.isWord := List.takeWhile_append_of_pos hall
    simpa using happend
  have hfilter : rest.filter (· != Octet.cr) = rest :=
    List.filter_eq_self.2 fun x hx => by simpa using (hrest x hx).2
  rw [hcontent, hword, List.filter_cons_of_neg (by decide), hfilter]

/-- Where no header fails, the last resort reads every word. -/
theorem decode_of_read (hd : d.Replace)
    (hlast : Charset.lookup (Setting.fallbackCharset.value fallback) = .ok last)
    (hname : Charset.named? name = none)
    (h : ∀ bs, ∃ v, (Header.read (.octets bs) { charset := .text name, fallback }).result = .ok v)
    {word : Octets} (hword : IsWord word) : ∃ t, last.decode "replace" word = .ok t := by
  obtain ⟨b, rest, rfl⟩ := List.exists_cons_of_ne_nil hword.ne_nil
  obtain ⟨v, hv⟩ := h (b :: Octet.cr :: rest)
  obtain ⟨t, ht⟩ := readsWord_of_read (hword.startsWord b List.mem_cons_self)
    (Or.inr (EncodedWord.not_begins_of_ne (by decide))) hv
  rw [word_of_split hword, readsWord_of_unknown hd hlast hname] at ht
  exact ⟨t, ht⟩

/-! ## The last resort -/

/-- With the default error policy, what a fallback charset that has been found is worth comes down
to the words that it reads. All headers can be read under all names of charsets if it reads every
word, and only then. Every charset that the library decodes itself does, but for domain names and
the charset that refuses everything: under a name that finds no charset, these let no header be
read that begins with a plain word. An encoded word fails under no fallback charset. -/
theorem reading_total_iff_last_resort (hd : d.Replace)
    (hlast : Charset.lookup (Setting.fallbackCharset.value fallback) = .ok last) :
    ((∀ charset, IsCharsetName charset → ∀ bs,
        ∃ v, (Header.read (.octets bs) { charset, fallback }).result = .ok v) ↔
      ∀ word, IsWord word → ∃ t, last.decode "replace" word = .ok t) ∧
    (last.scheme.readsAnything = true → ∀ word, ∃ t, last.decode "replace" word = .ok t) ∧
    (last.scheme = .idna ∨ last.scheme = .undefinedEncoding →
      ∀ name b rest, Charset.named? name = none → Octet.StartsWord b →
        b ≠ Octet.equals ∨ ¬ EncodedWord.Begins rest →
        ∀ v,
          (Header.read (.octets (b :: rest)) { charset := .text name, fallback }).result ≠ .ok v) ∧
    ∀ w : EncodedWord, ∃ t, w.decode? fallback = .ok t := by
  refine ⟨⟨fun h word hword => ?_, fun h charset hc bs => ?_⟩, ?_, ?_,
    EncodedWord.decode?_total hd hlast⟩
  · have hname : Charset.named? "x-none" = none := by decide +kernel
    exact decode_of_read hd hlast hname (h (.text "x-none") (Or.inr ⟨_, rfl⟩)) hword
  · obtain ⟨v, hv, -⟩ := Header.read_total_of_words hd hlast hc h bs
    exact ⟨v, hv⟩
  · intro h word
    exact Charset.decode_of_readsAnything h word
  · intro h name b rest hname hb hplain v hv
    obtain ⟨t, ht⟩ := readsWord_of_read hb hplain hv
    rw [readsWord_of_unknown hd hlast hname] at ht
    obtain ⟨refuser, why, hrefused⟩ := Charset.decode_replace_refused h (List.cons_ne_nil _ _)
    rw [hrefused] at ht
    cases ht

omit d in
/-- Under the name of no charset, a word that Latin-1 can be the last resort
for, and domain names cannot. -/
theorem last_resort_of_one_word :
    let latin : Settings := { charset := .text "x-none", fallback := .text "latin1" }
    let domain : Settings := { charset := .text "x-none", fallback := .text "idna" }
    (∃ v, (@Header.read .asciiOnly (.octets [0x61]) latin).result = .ok v) ∧
    ∀ v, (@Header.read .asciiOnly (.octets [0x61]) domain).result ≠ .ok v := by
  have hlatin : (Charset.named? "latin1").map Charset.scheme = some .latin1 := by decide +kernel
  have hidna : (Charset.named? "idna").map Charset.scheme = some .idna := by decide +kernel
  obtain ⟨latin, hlatin, hscheme⟩ := Option.map_eq_some_iff.1 hlatin
  obtain ⟨idna, hidna, hscheme'⟩ := Option.map_eq_some_iff.1 hidna
  have hlookup : Charset.lookup (Setting.fallbackCharset.value (.text "latin1")) = .ok latin := by
    rw [Setting.value_of_given rfl, Charset.lookup, hlatin]
  have hlookup' : Charset.lookup (Setting.fallbackCharset.value (.text "idna")) = .ok idna := by
    rw [Setting.value_of_given rfl, Charset.lookup, hidna]
  have hd := Decoders.replace_asciiOnly
  obtain ⟨hall, hreads, -⟩ :=
    @reading_total_iff_last_resort .asciiOnly (.text "latin1") latin hd hlookup
  obtain ⟨-, -, hrefuses, -⟩ :=
    @reading_total_iff_last_resort .asciiOnly (.text "idna") idna hd hlookup'
  constructor
  · have hwords := hreads (by rw [hscheme]; rfl)
    exact hall.2 (fun word _ => hwords word) (.text "x-none") (Or.inr ⟨_, rfl⟩) [0x61]
  · exact hrefuses (Or.inl hscheme') "x-none" 0x61 [] (by decide +kernel) ⟨by decide, by decide⟩
      (Or.inl (by decide))

omit d in
/-- Two charsets that are found before anything is read, and then
refuse the only word of a header. -/
theorem found_but_no_resort :
    let failure (fallback : Text) : Option UnicodeFault :=
      match (@Header.read .none (.octets [0x61, 0x62, 0x63])
        { charset := .text "x-unknown", fallback := .text fallback }).result with
      | .error (.unicode fault) => some fault
      | _ => none
    (∃ s, Scanner.start (.ofOctets [0x61, 0x62, 0x63])
      { charset := .text "x-unknown", fallback := .text "idna" } = .ok s) ∧
    failure "idna" = some (.refused "idna" (.policy "replace")) ∧
    (∃ s, Scanner.start (.ofOctets [0x61, 0x62, 0x63])
      { charset := .text "x-unknown", fallback := .text "undefined" } = .ok s) ∧
    failure "undefined" = some (.refused "undefined" .undefinedEncoding) := by
  intro failure
  have hstart : ∀ fallback : Text, Charset.named? fallback ≠ none →
      ∃ s, Scanner.start (.ofOctets [0x61, 0x62, 0x63])
        { charset := .text "x-unknown", fallback := .text fallback } = .ok s := by
    intro fallback hfound
    obtain ⟨last, hlast⟩ := Option.ne_none_iff_exists'.1 hfound
    exact Scanner.start_of_lookup (by rw [Setting.value_of_given rfl, Charset.lookup, hlast]) _
  refine ⟨hstart "idna" ?_, ?_, hstart "undefined" ?_, ?_⟩ <;> decide +kernel

end HeaderList
