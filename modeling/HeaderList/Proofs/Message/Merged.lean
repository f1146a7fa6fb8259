import HeaderList.Proofs.Defaults

/-!
# `HeaderList/Proofs/Message/Merged.lean` — all headers with a name, as one

A list may be spread over several headers with the same name. Taken together they are one list,
header after header (`readLists_concatenates`): which of them an entry came from cannot be told,
and one that has no entry leaves no trace. The charset is found once, and the headers are then
read as if a caller had named it; that makes no difference, because a charset that was found is
found again (`effectiveCharset_of_found`).
-/

set_option autoImplicit false

namespace HeaderList

/-- A datum that is read has a value of the shape that its entries ask for. -/
theorem Header.ofEntries_of_read [Decoders] {data : Datum} {given : Settings} {v : Value}
    (h : (read data given).result = .ok v) : Value.ofEntries v.entries = v := by
  rw [read] at h
  split at h
  · cases h
  · exact ofEntries_of_readAt h

namespace Message

variable [Decoders]

/-! ## The charset

The charset that is found first is handed on as if the caller had named it, and each occurrence
looks for a charset once more. That is the same charset: a declaration that is empty is not taken
for one, so what was found is never something that counts as not given. -/

theorem declaredCharset_ne_nil {m : Message} {name : Text}
    (h : m.declaredCharset = .ok (some name)) : name ≠ [] := by
  rw [declaredCharset] at h
  split at h
  · cases h
  · next value _ =>
    obtain ⟨text, -, h⟩ := bind_eq_ok h
    obtain ⟨found, -, h⟩ := bind_eq_ok h
    cases found with
    | none => cases h
    | some written =>
      change Except.ok (if written.isEmpty || written.any (fun c => 0x80 ≤ c.val) then none
        else some written.lower) = _ at h
      split at h
      · cases h
      · next hwritten =>
        cases h
        apply Text.lower_ne_nil
        rintro rfl
        exact hwritten rfl

/-- A charset that was found counts as given; where none was found, nothing is there. -/
theorem effectiveCharset_cases {m : Option Message} {charset found : Datum}
    (h : effectiveCharset m charset = .ok found) : found.isTruthy = true ∨ found = .null := by
  by_cases hgiven : charset.isTruthy = true
  · rw [effectiveCharset_of_given hgiven] at h
    cases h
    exact Or.inl hgiven
  · cases m with
    | none =>
      rw [effectiveCharset, if_neg hgiven] at h
      cases h
      exact Or.inr rfl
    | some m =>
      rw [effectiveCharset_some, if_neg hgiven] at h
      obtain ⟨declared, hdeclared, rfl⟩ := map_eq_ok h
      cases declared with
      | none => exact Or.inr rfl
      | some name =>
        left
        have hname : name ≠ [] := declaredCharset_ne_nil hdeclared
        simpa [Datum.isTruthy] using hname

/-- What was found for a message is found again where there is no message. -/
theorem effectiveCharset_of_found {m : Option Message} {charset found : Datum}
    (h : effectiveCharset m charset = .ok found) : effectiveCharset none found = .ok found := by
  rcases effectiveCharset_cases h with hfound | rfl
  · exact effectiveCharset_of_given hfound none
  · rfl

/-! ## The headers

The function is a recursion over the values with a charset for each. With the charset known to be
one and the same, it is a map over the values that are there. -/

/-- The list in the value of a field, read by itself. -/
def listIn (given : Settings) (value : Datum) : Except Fault Value :=
  octetsOf value >>= fun bs => (Header.read (.octets bs) given).result

/-- The values that are there. -/
def present (values : List Datum) : List Datum := values.filter (!·.isNull)

omit [Decoders] in
theorem present_of_null {value : Datum} (h : value.isNull = true) (values : List Datum) :
    present (value :: values) = present values :=
  List.filter_cons_of_neg (by rw [h]; exact Bool.false_ne_true)

omit [Decoders] in
theorem present_of_value {value : Datum} (h : value.isNull = false) (values : List Datum) :
    present (value :: values) = value :: present values :=
  List.filter_cons_of_pos (by rw [h]; rfl)

theorem result_readField_none {value : Datum} {given : Settings} (hvalue : value.isNull = false)
    (hcharset : effectiveCharset none given.charset = .ok given.charset) :
    (readField none value given).result = listIn given value := by
  rw [result_readField hvalue, hcharset]
  rfl

theorem result_readEntries {given : Settings}
    (hcharset : effectiveCharset none given.charset = .ok given.charset) (values : List Datum) :
    (readEntries given values).result =
      (fun vs => vs.flatMap Value.entries) <$> (present values).mapM (listIn given) := by
  induction values with
  | nil => rfl
  | cons value values ih =>
    rw [readEntries, Traced.result_bind]
    -- a value that is not there gives no entries, and is left out on the other side
    cases hvalue : value.isNull with
    | true =>
      have hnone : readField none value given = .value .empty := by
        rw [readField, if_pos hvalue]
      rw [hnone, present_of_null hvalue, ← ih]
      show ((readEntries given values >>= fun others => pure ([] ++ others)).result) = _
      rw [Traced.result_bind]
      cases (readEntries given values).result <;> rfl
    | false =>
      rw [result_readField_none hvalue hcharset, present_of_value hvalue, List.mapM_cons]
      cases listIn given value with
      | error fault => rfl
      | ok v =>
        show ((readEntries given values >>= fun others => pure (v.entries ++ others)).result) = _
        rw [Traced.result_bind, ih]
        cases (present values).mapM (listIn given) <;> rfl

/-- All headers with a name are one list: the charset is found once, and the lists in the values
are put one after the other. -/
theorem result_readLists (m : Message) (name : Text) (given : Settings) :
    (readLists (some m) (.text name) given).result =
      effectiveCharset (some m) given.charset >>= fun charset =>
        (fun vs => Value.ofEntries (vs.flatMap Value.entries)) <$>
          (present (m.valuesOf name.lower)).mapM (listIn { given with charset }) := by
  rw [readLists, Traced.result_bind]
  show effectiveCharset (some m) given.charset >>= _ = _
  cases hcharset : effectiveCharset (some m) given.charset with
  | error fault => rfl
  | ok charset =>
    show ((readEntries { given with charset } (m.valuesOf name.lower) >>= fun entries =>
      pure (Value.ofEntries entries)).result) = _
    rw [Traced.result_bind, result_readEntries (effectiveCharset_of_found hcharset)]
    show _ = Functor.map _ ((present (m.valuesOf name.lower)).mapM (listIn { given with charset }))
    cases (present (m.valuesOf name.lower)).mapM (listIn { given with charset }) <;> rfl

/-- What a value of all headers with a name says about the steps to it. -/
theorem steps_of_readLists {m : Message} {name : Text} {given : Settings} {v : Value}
    (h : (readLists (some m) (.text name) given).result = .ok v) :
    ∃ charset vs, effectiveCharset (some m) given.charset = .ok charset ∧
      (present (m.valuesOf name.lower)).mapM (listIn { given with charset }) = .ok vs ∧
      Value.ofEntries (vs.flatMap Value.entries) = v := by
  rw [result_readLists] at h
  obtain ⟨charset, hcharset, h⟩ := bind_eq_ok h
  obtain ⟨vs, hvs, hv⟩ := map_eq_ok h
  exact ⟨charset, vs, hcharset, hvs, hv⟩

theorem ofEntries_of_listIn {given : Settings} {value : Datum} {v : Value}
    (h : listIn given value = .ok v) : Value.ofEntries v.entries = v := by
  obtain ⟨bs, -, hread⟩ := bind_eq_ok h
  exact Header.ofEntries_of_read hread

/-- The list in the only header with a name is what all headers with the name have together. -/
theorem readList_of_only {m : Message} {name : Text} {given : Settings} {f : Field} {v : Value}
    (hf : m.fields.filter (fun f => f.name.lower == name.lower) = [f])
    (h : (readLists (some m) (.text name) given).result = .ok v) :
    (readList (some m) (.text name) .null given).result = .ok v := by
  have hvalues : m.valuesOf name.lower = [f.value] := by
    rw [valuesOf, hf]
    rfl
  have hfirst : readList (some m) (.text name) .null given = readField (some m) f.value given := by
    show readField (some m) ((m.valuesOf name.lower).head?.getD .null) given = _
    rw [hvalues]
    rfl
  obtain ⟨charset, vs, hcharset, hvs, rfl⟩ := steps_of_readLists h
  -- of the one value, either nothing is there or it is read as the first header is
  rw [hvalues] at hvs
  rw [hfirst]
  cases hvalue : f.value.isNull with
  | true =>
    rw [present_of_null hvalue] at hvs
    cases hvs
    rw [readField, if_pos hvalue]
    rfl
  | false =>
    have hnil : present [] = [] := rfl
    rw [present_of_value hvalue, hnil] at hvs
    obtain ⟨v, none, hlist, hnone, rfl⟩ := mapM_cons_eq_ok hvs
    rw [List.mapM_nil] at hnone
    cases hnone
    rw [result_readField hvalue, hcharset, List.flatMap_singleton, ofEntries_of_listIn hlist]
    exact hlist

/-- Merging headers is putting their lists one after the other, in the order of the
message: the charset is found once, values that are not there are passed over, and the
shape of the whole is that of so many entries. A list that stands in one header is read the
same from the first header alone. -/
theorem readLists_concatenates (m : Message) (name : Text) (given : Settings) :
    (readLists (some m) (.text name) given).result =
      (effectiveCharset (some m) given.charset >>= fun charset =>
        (fun vs => Value.ofEntries (vs.flatMap Value.entries)) <$>
          (((m.fields.filter fun f => f.name.lower == name.lower).map Field.value).filter
            (!·.isNull)).mapM
            fun value => octetsOf value >>= fun bs =>
              (Header.read (.octets bs) { given with charset }).result) ∧
    ∀ v, (readLists (some m) (.text name) given).result = .ok v →
      (v = .empty ↔ v.entries.length = 0) ∧ ((∃ t, v = .text t) ↔ v.entries.length = 1) ∧
      ((∃ ts, v = .list ts) ↔ 2 ≤ v.entries.length) ∧
      ∀ f, m.fields.filter (fun f => f.name.lower == name.lower) = [f] →
        (readList (some m) (.text name) .null given).result = .ok v := by
  refine ⟨result_readLists m name given, ?_⟩
  intro v h
  have hshape : ∃ ts, Value.ofEntries ts = v := by
    obtain ⟨charset, vs, -, -, hv⟩ := steps_of_readLists h
    exact ⟨_, hv⟩
  obtain ⟨ts, rfl⟩ := hshape
  rw [Value.entries_ofEntries]
  refine ⟨Value.ofEntries_eq_empty_iff, Value.ofEntries_eq_text_iff,
    Value.ofEntries_eq_list_iff, ?_⟩
  intro f hf
  exact readList_of_only hf h

omit [Decoders] in
/-- Three headers with one name, one of them without a value, and a header of its own, in a
message that declares a charset in which both carry an octet that is no UTF-8. -/
theorem merged_of_repeated_header :
    let m : Message := ⟨[⟨"Content-Type", .text "text/plain; charset=\"ISO-8859-1\""⟩,
      ⟨"K", .text "a, b"⟩, ⟨"L", .octets [0xE9]⟩, ⟨"k", .null⟩, ⟨"k", .octets [0x63, 0xE9]⟩]⟩
    @declaredCharset .asciiOnly m = .ok (some "iso-8859-1") ∧
    (@readLists .asciiOnly (some m) (.text "K") {}).result = .ok (.list ["a", "b", "cé"]) ∧
    (@readLists .asciiOnly (some m) (.text "l") {}).result = .ok (.text "é") ∧
    (@readList .asciiOnly (some m) (.text "l") .null {}).result = .ok (.text "é") := by
  intro m
  have hk : (@readLists .asciiOnly (some m) (.text "K") {}).result =
      .ok (.list ["a", "b", "cé"]) := by
    rw [eq_ok_iff_toOption]
    decide +kernel
  have hl : (@readLists .asciiOnly (some m) (.text "l") {}).result = .ok (.text "é") := by
    rw [eq_ok_iff_toOption]
    decide +kernel
  have honly : m.fields.filter (fun f => f.name.lower == ("l" : Text).lower) =
      [⟨"L", .octets [0xE9]⟩] := rfl
  obtain ⟨-, -, -, hsame⟩ := (@readLists_concatenates .asciiOnly m "l" {}).2 _ hl
  exact ⟨rfl, hk, hl, hsame _ honly⟩

end Message

end HeaderList
