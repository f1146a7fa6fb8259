import HeaderList.Proofs.Defaults
import HeaderList.Proofs.Message.Written
import HeaderList.Proofs.Scanner.Agreement

/-!
# `HeaderList/Proofs/Message/InPlace.lean` — a header of a message, read where it stands

There are two ways to the list in a header. One takes the message apart first: the value loses the
blanks in front and the line break at the end, the octets of its upper half become surrogates, and
octets again. The other sets a cursor behind the colon and lets the scanner find the end. Both
give the same, value or fault (`readList_in_place`): the scanner passes over the blanks, ends
where the message ends the header, and a carriage return that is left there says nothing.
-/

set_option autoImplicit false

namespace HeaderList.Message

/-! ## The octets of a header in a message

To the scanner a header ends at a line feed that no blank follows, and to a message at a line that
begins with a name. On what is written in the way of `Message.IsMessage` both are one place. -/

theorem content_of_lineEnd {e : Octets} (he : e ∈ lineEnds) {b : UInt8}
    (hb : Octet.isBlank b = true) (rest : Octets) :
    Header.content (e ++ b :: rest) = e ++ Header.content (b :: rest) := by
  have hgoes : ¬ (Octet.lf = Octet.lf ∧ Header.endsBefore (b :: rest) = true) := by
    intro h
    have hends : (!Octet.isBlank b) = true := h.2
    rw [hb] at hends
    cases hends
  rcases mem_lineEnds.1 he with rfl | rfl
  · exact Header.content_cons hgoes
  · show Header.content (Octet.cr :: Octet.lf :: b :: rest) = _
    rw [Header.content_cons_of_ne (by decide), Header.content_cons hgoes]
    rfl

/-- A value over several lines belongs to its header as a whole. -/
theorem content_of_folded {value : Octets} (h : Folded value) (rest : Octets) :
    Header.content (value ++ rest) = value ++ Header.content rest := by
  induction h with
  | line ht => exact Header.content_append_of_no_lf ht.no_lf rest
  | @more text e more b ht he hb _ ih =>
    rw [List.append_assoc, Header.content_append_of_no_lf ht.no_lf, List.append_assoc,
      List.cons_append, content_of_lineEnd he hb, ← List.cons_append, ih, List.append_assoc,
      List.append_assoc]

/-- Behind a header comes nothing that would go on with it: neither a name nor an
empty line begins with a blank. -/
theorem endsBefore_of_isMessage {hs : List Written} {raw : Octets} (hm : IsMessage hs raw) :
    Header.endsBefore raw = true := by
  cases hm with
  | nil => rfl
  | body he octets =>
    rcases mem_lineEnds.1 he with rfl | rfl <;> rfl
  | header hh _ _ =>
    obtain ⟨b, l, hname⟩ := List.exists_cons_of_ne_nil hh.name_ne_nil
    have hb : isNameOctet b = true := hh.name b (by rw [hname]; exact List.mem_cons_self)
    rw [Written.octets, hname]
    show (!Octet.isBlank b) = true
    rw [(isNameOctet_spec hb).2.2]
    rfl

/-- Of the end of a line, a header keeps nothing but a carriage return. -/
theorem content_of_endsLine {e rest : Octets} (he : EndsLine e rest)
    (hrest : Header.endsBefore rest = true) : OnlyCr (Header.content (e ++ rest)) := by
  rcases he with he | ⟨rfl, rfl⟩
  · rcases mem_lineEnds.1 he with rfl | rfl
    · show OnlyCr (Header.content (Octet.lf :: rest))
      rw [Header.content_lf hrest]
      exact .nil
    · show OnlyCr (Header.content (Octet.cr :: Octet.lf :: rest))
      rw [Header.content_cons_of_ne (by decide), Header.content_lf hrest]
      intro b hb
      exact List.mem_singleton.1 hb
  · exact .nil

/-! ## One header

The value in the message has blanks in front and the end of a line behind. Neither makes a
difference to the scanner, by `Header.result_readAt_of_content`. -/

section Reading

variable [Decoders] {given : Settings}

/-- A value reads the same in a message and by itself, without the blanks in front. -/
theorem result_readAt_of_folded {c : Cursor} {value e rest : Octets}
    (hc : c.rest = value ++ (e ++ rest)) (hvalue : Folded value) (he : EndsLine e rest)
    (hrest : Header.endsBefore rest = true) :
    (Header.readAt c given).1.result =
      (Header.read (.octets (value.dropWhile Octet.isBlank)) given).result := by
  let blanks : Octets := value.takeWhile Octet.isBlank
  let text : Octets := value.dropWhile Octet.isBlank
  have hsplit : blanks ++ text = value := List.takeWhile_append_dropWhile
  have hblanks : ∀ b ∈ blanks, Octet.isBlank b = true := List.all_eq_true.1 List.all_takeWhile
  have hlf : Octet.lf ∉ blanks := by
    intro hmem
    exact absurd (hblanks _ hmem) (by decide)
  -- the blanks in front belong to the header as much as the rest of the
  -- value, so they can be taken off
  have htext : ∀ more, Header.content (text ++ more) = text ++ Header.content more := by
    intro more
    have h := content_of_folded hvalue more
    rw [← hsplit, List.append_assoc, Header.content_append_of_no_lf hlf, List.append_assoc] at h
    exact List.append_cancel_left h
  have halone : Header.content text = text := by
    have h := htext []
    rwa [List.append_nil, Header.content, List.append_nil] at h
  have hstand : c.rest = blanks ++ (text ++ (e ++ rest)) := by
    rw [hc, ← hsplit, List.append_assoc]
  have hcontent : Header.content (text ++ (e ++ rest)) =
      Header.content (Cursor.ofOctets text).rest ++ Header.content (e ++ rest) := by
    rw [Cursor.rest_ofOctets, halone, htext]
  exact Header.result_readAt_of_content hblanks (content_of_endsLine he hrest) hstand hcontent

end Reading

/-! ## Names

A name is found whatever its letters are, small or capital. On ASCII this is told by octets, and
so the first header with a name is the same in the octets and in the fields. -/

/-- Do two names differ in case at most? -/
def Written.isNamed (h : Written) (name : Octets) : Bool :=
  h.name.map Octet.toLower == name.map Octet.toLower

theorem filter_isNamed_eq_nil {hs : List Written} {name : Octets}
    (h : ∀ g ∈ hs, g.isNamed name = false) : hs.filter (·.isNamed name) = [] := by
  rw [List.filter_eq_nil_iff]
  intro g hmem
  rw [h g hmem]
  exact Bool.false_ne_true

theorem Written.lower_field {h : Written} (hh : h.WellFormed) {name : Octets}
    (hname : ∀ b ∈ name, b < 0x80) :
    (h.field.name.lower == (Text.ofOctets name).lower) = h.isNamed name := by
  rw [Written.field, Text.lower_ofOctets (ascii_of_name hh.name), Text.lower_ofOctets hname,
    isNamed, Bool.eq_iff_iff, beq_iff_eq, beq_iff_eq]
  constructor
  · intro heq
    exact Text.ofOctets_inj heq
  · intro heq
    rw [heq]

theorem wellFormed_of_isMessage {hs : List Written} {raw : Octets} (hm : IsMessage hs raw) :
    ∀ h ∈ hs, h.WellFormed := by
  induction hm with
  | nil => simp
  | body => simp
  | header hh _ _ ih =>
    rw [List.forall_mem_cons]
    exact ⟨hh, ih⟩

/-- The values of a name in a message are those that were written under it. -/
theorem valuesOf_of_isMessage {hs : List Written} {raw name : Octets} (hm : IsMessage hs raw)
    (hname : ∀ b ∈ name, b < 0x80) :
    (ofOctets raw).valuesOf (Text.ofOctets name).lower =
      (hs.filter (·.isNamed name)).map fun h => h.field.value := by
  have hfilter : hs.filter (fun h => h.field.name.lower == (Text.ofOctets name).lower) =
      hs.filter (·.isNamed name) := by
    apply List.filter_congr
    intro h hmem
    exact Written.lower_field (wellFormed_of_isMessage hm h hmem) hname
  rw [valuesOf, fields_of_isMessage hm, List.filter_map, List.map_map]
  show (hs.filter (fun h => h.field.name.lower == (Text.ofOctets name).lower)).map _ = _
  rw [hfilter]
  rfl

/-- What stands in a message before a header, and after it. -/
theorem split_of_isMessage {before after : List Written} {h : Written} {raw : Octets}
    (hm : IsMessage (before ++ h :: after) raw) :
    ∃ rest, raw = before.flatMap Written.octets ++ (h.octets ++ rest) ∧ h.WellFormed ∧
      EndsLine h.ending rest ∧ IsMessage after rest := by
  induction before generalizing raw with
  | nil =>
    cases hm with
    | @header _ _ rest hh he hrest => exact ⟨rest, rfl, hh, he, hrest⟩
  | cons g before ih =>
    cases hm with
    | @header _ _ more hg _ hmore =>
      obtain ⟨rest, rfl, hh, he, hrest⟩ := ih hmore
      refine ⟨rest, ?_, hh, he, hrest⟩
      rw [List.flatMap_cons, List.append_assoc]

/-! ## Messages -/

/-- The cursor behind the colon of a header sees its value. -/
theorem rest_of_header {c : Cursor} {front rest : Octets} {h : Written}
    (hc : c.data.toList = front ++ (h.octets ++ rest))
    (hpos : c.pos = front.length + h.name.length + 1) : c.rest = h.value ++ (h.ending ++ rest) := by
  have hdata :
      c.data.toList = (front ++ (h.name ++ [colon])) ++ (h.value ++ (h.ending ++ rest)) := by
    rw [hc, Written.octets]
    simp
  have hlen : c.pos = (front ++ (h.name ++ [colon])).length := by
    rw [hpos]
    simp [Nat.add_assoc]
  rw [Cursor.rest, hdata, hlen, List.drop_left]

variable [Decoders]

/-- The octets that a field carries are read as they are. -/
theorem result_readField_escapeText (m : Option Message) (bs : Octets) (given : Settings) :
    (readField m (.text (escapeText bs)) given).result =
      effectiveCharset m given.charset >>= fun charset =>
        (Header.read (.octets bs) { given with charset }).result := by
  rw [result_readField rfl, octetsOf_escapeText]
  rfl

/-- The list in a header of a message, found by an ASCII name, is the list that is read from
behind the colon of the first header with this name, under the charset that the caller names, or
else the message, or else the default. Without such a header there is no list. -/
theorem readList_in_place {hs : List Written} {raw name : Octets} (hm : IsMessage hs raw)
    (hname : ∀ b ∈ name, b < 0x80) (given : Settings) :
    ((∀ h ∈ hs, h.isNamed name = false) →
      (readList (some (ofOctets raw)) (.text (Text.ofOctets name)) .null given).result =
        .ok .empty) ∧
    ∀ before h after, hs = before ++ h :: after → (∀ g ∈ before, g.isNamed name = false) →
      h.isNamed name = true →
      ∀ c : Cursor, c.data.toList = raw →
        c.pos = (before.flatMap Written.octets).length + h.name.length + 1 →
        (readList (some (ofOctets raw)) (.text (Text.ofOctets name)) .null given).result =
          (if given.charset.isTruthy then .ok given.charset
            else (ofOctets raw).declaredCharset.map fun declared =>
              (declared.map Datum.text).getD .null) >>=
          fun charset => (Header.readAt c { given with charset }).1.result := by
  have hread : readList (some (ofOctets raw)) (.text (Text.ofOctets name)) .null given =
      readField (some (ofOctets raw))
        (((ofOctets raw).valuesOf (Text.ofOctets name).lower).head?.getD .null) given := rfl
  rw [hread, valuesOf_of_isMessage hm hname]
  constructor
  · intro hnone
    rw [filter_isNamed_eq_nil hnone]
    rfl
  · rintro before h after rfl hbefore hh c hdata hpos
    obtain ⟨rest, hraw, hwell, he, hrest⟩ := split_of_isMessage hm
    have hc : c.rest = h.value ++ (h.ending ++ rest) := rest_of_header (hdata.trans hraw) hpos
    have hvalue : (((before ++ h :: after).filter (·.isNamed name)).map
        fun h => h.field.value).head?.getD .null = h.field.value := by
      rw [List.filter_append, filter_isNamed_eq_nil hbefore, List.nil_append,
        List.filter_cons_of_pos (by exact hh)]
      rfl
    rw [hvalue, Written.field, result_readField_escapeText, effectiveCharset_some]
    apply bind_congr
    intro charset
    rw [result_readAt_of_folded hc hwell.value he (endsBefore_of_isMessage hrest)]

omit [Decoders] in
/-- `A: 1`, and `X` with a value over three lines of which the first is empty; a body follows. -/
theorem in_place_of_folded_header :
    let raw : Octets :=
      [0x41, 0x3A, 0x20, 0x31, 0x0D, 0x0A, 0x58, 0x3A, 0x0D, 0x0A, 0x20, 0x61, 0x2C, 0x0D, 0x0A,
      0x20, 0x62, 0x0A, 0x0A, 0x7A]
    (@readList .asciiOnly (some (ofOctets raw)) (.text (Text.ofOctets [0x79])) .null {}).result =
      .ok .empty ∧
    (@readList .asciiOnly (some (ofOctets raw)) (.text (Text.ofOctets [0x78])) .null {}).result =
      (@Header.readAt .asciiOnly ⟨raw.toArray, 8, 0⟩ {}).1.result ∧
    (@Header.readAt .asciiOnly ⟨raw.toArray, 8, 0⟩ {}).1.result = .ok (.list ["a", "b"]) := by
  intro raw
  let a : Written := ⟨[0x41], [0x20, 0x31], [0x0D, 0x0A]⟩
  let x : Written := ⟨[0x58], [0x0D, 0x0A, 0x20, 0x61, 0x2C, 0x0D, 0x0A, 0x20, 0x62], [0x0A]⟩
  have hcrlf : [0x0D, 0x0A] ∈ lineEnds := by decide
  have ha : a.WellFormed := ⟨by decide, List.all_eq_true.1 rfl, .line (by decide)⟩
  have hvalue : Folded x.value :=
    .more (by decide : Unbroken []) hcrlf rfl
      (.more (by decide : Unbroken [0x20, 0x61, 0x2C]) hcrlf rfl
        (.line (by decide : Unbroken [0x20, 0x62])))
  have hx : x.WellFormed := ⟨by decide, List.all_eq_true.1 rfl, hvalue⟩
  have hm : IsMessage [a, x] raw :=
    .header ha (.inl hcrlf)
    (.header hx (.inl (by decide)) (.body (by decide : [0x0A] ∈ lineEnds) [0x7A]))
  have hhere : (@Header.readAt .asciiOnly ⟨raw.toArray, 8, 0⟩ {}).1.result =
      .ok (.list ["a", "b"]) := by
    rw [eq_ok_iff_toOption]
    decide +kernel
  refine ⟨?_, ?_, hhere⟩
  · have hy : ∀ b ∈ ([0x79] : Octets), b < 0x80 := List.forall_mem_singleton.2 (by decide)
    exact (@readList_in_place .asciiOnly _ _ _ hm hy {}).1 (by decide)
  · have hx : ∀ b ∈ ([0x78] : Octets), b < 0x80 := List.forall_mem_singleton.2 (by decide)
    exact (@readList_in_place .asciiOnly _ _ _ hm hx {}).2 [a] x [] rfl (by decide)
      (by decide) _ rfl rfl

end HeaderList.Message
