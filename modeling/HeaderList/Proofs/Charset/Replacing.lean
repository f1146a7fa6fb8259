import HeaderList.Proofs.Charset.Fallback

/-!
# `HeaderList/Proofs/Charset/Replacing.lean` — decoding that puts up with everything

Under the policy `replace` a form has a text for any octets (`Form.lossy`), and a charset either
reads the octets or refuses them: it does not complain about the policy, and it has no other
fault. So what decoding under the name of a charset comes to depends on two charsets only, the one
with that name and the last resort (`Charset.result_decodeNamed_replace`). With UTF-8 to fall back
on, it cannot fail at all (`Charset.result_decodeNamed_default`), whatever the name is.
-/

set_option autoImplicit false

namespace HeaderList

namespace Form

/-- The text of octets, with U+FFFD in the place of each flaw. -/
def lossy (form : Form) : Octets → Text
  | [] => []
  | b :: rest =>
    match form.read b rest with
    | .char c more => c :: lossy form (rest.drop more)
    | .flaw _ more => .replacement :: lossy form (rest.drop more)
termination_by bs => bs.length
decreasing_by all_goals simp only [List.length_drop, List.length_cons]; omega

/-- Where a flaw is, U+FFFD is written and the reading goes on; so there is always an end. -/
theorem decodeFrom_replace (form : Form) (start : Nat) (bs : Octets) :
    form.decodeFrom (.ok .replace) start bs = .ok (form.lossy bs) := by
  fun_induction lossy form bs generalizing start with
  | case1 => rw [decodeFrom]
  | case2 b rest c more hread ih =>
    rw [decodeFrom, hread]
    simp only [ih]
    rfl
  | case3 b rest what more hread ih =>
    rw [decodeFrom, hread]
    simp only [bind, Except.bind, Policy.mend, Nat.add_sub_cancel, ih]
    rfl

end Form

/-- Decoders that are handed the policy `replace` read the octets, or refuse them. -/
def Decoders.Replace (d : Decoders) : Prop :=
  ∀ c bs, (∃ t, d.decode c "replace" bs = .ok t) ∨
    ∃ fault, d.decode c "replace" bs = .error (.unicode fault)

/-- Does a charset of this scheme read any octets under the policy `replace`? Of the charsets that
are known by name only this cannot be said. -/
def Scheme.readsAnything : Scheme → Bool
  | idna | undefinedEncoding | undecoded | transform => false
  | _ => true

namespace Charset

variable [d : Decoders] {c : Charset} {name : Text} {bs : Octets}

theorem decodeScheme_of_readsAnything (h : c.scheme.readsAnything = true) (bs : Octets) :
    ∃ t, c.decodeScheme "replace" bs = .ok t := by
  rw [decodeScheme]
  cases hscheme : c.scheme with
  | undecoded | undefinedEncoding | transform | idna =>
    rw [hscheme] at h
    cases h
  | utf16 order => cases order <;> exact ⟨_, Form.decodeFrom_replace ..⟩
  | utf32 order => cases order <;> exact ⟨_, Form.decodeFrom_replace ..⟩
  | ascii | latin1 | singleByte | utf8 | utf8Signed => exact ⟨_, Form.decodeFrom_replace ..⟩

/-- A charset answers with a text or refuses. No third thing happens under this policy, and this
is what lets the last resort come in. -/
theorem decodeScheme_replace (hd : d.Replace) (c : Charset) (bs : Octets) :
    (∃ t, c.decodeScheme "replace" bs = .ok t) ∨
      ∃ fault, c.decodeScheme "replace" bs = .error (.unicode fault) := by
  -- four schemes are left that may refuse, and none of them has another fault
  cases hall : c.scheme.readsAnything with
  | true => exact Or.inl (decodeScheme_of_readsAnything hall bs)
  | false =>
    rw [decodeScheme]
    cases hscheme : c.scheme with
    | undecoded => exact hd c bs
    | undefinedEncoding => exact Or.inr ⟨_, rfl⟩
    | transform => exact Or.inr ⟨_, rfl⟩
    | idna => exact Or.inr ⟨.refused "idna" (.policy "replace"), rfl⟩
    | _ =>
      rw [hscheme] at hall
      cases hall

theorem decode_replace (hd : d.Replace) (c : Charset) (bs : Octets) :
    (∃ t, c.decode "replace" bs = .ok t) ∨
    ∃ fault, c.decode "replace" bs = .error (.unicode fault) := by
  rw [decode]
  split
  · exact Or.inl ⟨[], rfl⟩
  · rcases decodeScheme_replace hd c bs with ⟨t, ht⟩ | ⟨fault, hf⟩
    · exact Or.inl ⟨t, by rw [ht]⟩
    · exact Or.inr ⟨fault, by rw [hf]⟩

theorem decode_of_readsAnything (h : c.scheme.readsAnything = true) (bs : Octets) :
    ∃ t, c.decode "replace" bs = .ok t := by
  rw [decode]
  split
  · exact ⟨[], rfl⟩
  · obtain ⟨t, ht⟩ := decodeScheme_of_readsAnything h bs
    exact ⟨t, by rw [ht]⟩

/-- UTF-8 is the one charset whose text is needed as well, since it is the default fallback. -/
theorem decode_replace_utf8 (hc : c.scheme = .utf8) (bs : Octets) :
    c.decode "replace" bs = .ok (Utf8.form.lossy bs) := by
  cases bs with
  | nil => simp [decode, Form.lossy]
  | cons b bs =>
    have hscheme : c.decodeScheme "replace" (b :: bs) = .ok (Utf8.form.lossy (b :: bs)) := by
      rw [decodeScheme, hc]
      exact Form.decodeFrom_replace ..
    rw [decode, if_neg (by simp), hscheme]

theorem decode_replace_idna (hc : c.scheme = .idna) (hne : bs ≠ []) :
    c.decode "replace" bs = .error (.unicode (.refused "idna" (.policy "replace"))) := by
  have hscheme :
      c.decodeScheme "replace" bs = .error (.unicode (.refused "idna" (.policy "replace"))) := by
    rw [decodeScheme, hc]
    rfl
  rw [decode, if_neg (by simpa using hne), hscheme]

theorem decode_replace_undefined (hc : c.scheme = .undefinedEncoding) (hne : bs ≠ []) :
    c.decode "replace" bs = .error (.unicode (.refused c.name .undefinedEncoding)) := by
  have hscheme :
      c.decodeScheme "replace" bs = .error (.unicode (.refused c.name .undefinedEncoding)) := by
    rw [decodeScheme, hc]
  rw [decode, if_neg (by simpa using hne), hscheme]

/-- Domain names and the charset that refuses everything read no word. -/
theorem decode_replace_refused (hc : c.scheme = .idna ∨ c.scheme = .undefinedEncoding)
    (hne : bs ≠ []) :
    ∃ name why, c.decode "replace" bs = .error (.unicode (.refused name why)) := by
  rcases hc with hc | hc
  · exact ⟨_, _, decode_replace_idna hc hne⟩
  · exact ⟨_, _, decode_replace_undefined hc hne⟩

/-! ## The last resort

A charset that refuses is followed by the last resort, unless it is the last resort itself: then
its refusal is the answer. The two are compared by name, so it has to be shown that a name is the
name of one charset only (`eq_of_name`). -/

omit d in
theorem mem_registry_of_find? {label : String} (h : find? label = some c) : c ∈ registry := by
  unfold find? at h
  split at h
  · rename_i c' hc
    cases h
    exact List.mem_of_find?_eq_some hc
  · exact List.mem_of_find?_eq_some h

omit d in
theorem mem_registry_of_named? (h : named? name = some c) : c ∈ registry := by
  unfold named? at h
  split at h
  · split at h
    · rename_i c' hc
      split at h
      · cases h
      · cases h
        exact mem_registry_of_find? hc
    · cases h
  · cases h

omit d in
theorem named?_of_lookup {datum : Datum} (h : lookup datum = .ok c) :
    ∃ name, named? name = some c := by
  unfold lookup at h
  split at h
  · next name =>
    refine ⟨name, ?_⟩
    split at h
    · next hc =>
      cases h
      exact hc
    · cases h
  · cases h

omit d in
/-- No two charsets have the same name. -/
theorem pairwise_name : registry.Pairwise fun c last => c.name ≠ last.name := by
  decide +kernel

omit d in
theorem eq_of_name {last : Charset} (hc : c ∈ registry) (hlast : last ∈ registry)
    (h : c.name = last.name) : c = last := by
  obtain ⟨i, hi, rfl⟩ := List.getElem_of_mem hc
  obtain ⟨j, hj, rfl⟩ := List.getElem_of_mem hlast
  have hapart := List.pairwise_iff_getElem.1 pairwise_name
  rcases Nat.lt_trichotomy i j with hlt | rfl | hlt
  · exact absurd h (hapart i j hi hj hlt)
  · rfl
  · exact absurd h.symm (hapart j i hj hi hlt)

/-- The text of octets under the name of a charset: the last resort takes the place of a charset
that is not known, or that refuses the octets. -/
def readOr (last : Charset) (name : Text) (bs : Octets) : Except Fault Text :=
  match named? name with
  | none => last.decode "replace" bs
  | some c =>
    match c.decode "replace" bs with
    | .ok t => .ok t
    | .error _ => last.decode "replace" bs

/-- Under the policy `replace`, decoding comes down to the charset that
was named and the last resort. -/
theorem result_decodeNamed_replace (hd : d.Replace) {fallback : Datum} {last : Charset}
    (hlast : lookup (Setting.fallbackCharset.value fallback) = .ok last) (name : Text)
    (bs : Octets) : (decodeNamed bs (.text name) fallback .null).result = readOr last name bs := by
  cases hc : named? name with
  | none =>
    have hlookup : lookup (.text name) = .error (.unknownCharset name) := by rw [lookup, hc]
    simp only [readOr, hc, decodeNamed, hlast, hlookup]
    exact decodeWith_default
  | some c =>
    have hlookup : lookup (.text name) = .ok c := by rw [lookup, hc]
    rcases decode_replace hd c bs with ⟨t, ht⟩ | ⟨fault, hf⟩
    · simp only [readOr, hc, ht]
      exact result_decodeNamed_of_ok hlast hlookup (decodeWith_default.trans ht)
    · have hrefused : c.decodeWith (Setting.decodeErrors.value .null) bs =
          .error (.unicode fault) :=
        decodeWith_default.trans hf
      simp only [readOr, hc, hf, decodeNamed, hlast, hlookup, hrefused]
      split
      · next heq =>
        -- the last resort is the charset that refused
        obtain ⟨name', hname'⟩ := named?_of_lookup hlast
        obtain rfl := eq_of_name (mem_registry_of_named? hc) (mem_registry_of_named? hname') heq
        exact hf.symm
      · exact decodeWith_default

/-- With a last resort that is known there is a text or a refusal. -/
theorem readOr_cases (hd : d.Replace) (last : Charset) (name : Text) (bs : Octets) :
    (∃ t, readOr last name bs = .ok t) ∨
    ∃ fault, readOr last name bs = .error (.unicode fault) := by
  rw [readOr]
  split
  · exact decode_replace hd last bs
  · split
    · exact Or.inl ⟨_, rfl⟩
    · exact decode_replace hd last bs

theorem readOr_total {last : Charset} (h : ∃ t, last.decode "replace" bs = .ok t) (name : Text) :
    ∃ t, readOr last name bs = .ok t := by
  rw [readOr]
  split
  · exact h
  · split
    · exact ⟨_, rfl⟩
    · exact h

/-! ## The default fallback

The default fallback is found and reads everything, so with it there is a text in the end
(`readUnder`). -/

omit d in
theorem lookup_default :
    ∃ last, lookup (Setting.fallbackCharset.value .null) = .ok last ∧ last.scheme = .utf8 := by
  have hdefault : (named? "utf-8").map Charset.scheme = some .utf8 := by decide +kernel
  obtain ⟨last, hlast, hscheme⟩ := Option.map_eq_some_iff.1 hdefault
  have hlookup : lookup (Setting.fallbackCharset.value .null) = .ok last := by
    have hnull : Setting.fallbackCharset.value .null = .text "utf-8" := rfl
    rw [hnull, lookup, hlast]
  exact ⟨last, hlookup, hscheme⟩

/-- The text of octets under the name of a charset: UTF-8 takes the place of a charset that is not
known, or that refuses the octets. -/
def readUnder (name : Text) (bs : Octets) : Text :=
  match named? name with
  | none => Utf8.form.lossy bs
  | some c =>
    match c.decode "replace" bs with
    | .ok t => t
    | .error _ => Utf8.form.lossy bs

/-- Where no charset reads the octets, they read as UTF-8. Without
octets every charset reads them. -/
theorem readUnder_of_not_served
    (h : ∀ c, named? name = some c → bs ≠ [] → ∀ t, c.decode "replace" bs ≠ .ok t) :
    readUnder name bs = Utf8.form.lossy bs := by
  rw [readUnder]
  cases hc : named? name with
  | none => rfl
  | some c =>
    dsimp only
    cases bs with
    | nil =>
      rw [decode_nil, Form.lossy]
    | cons b bs =>
      split
      · rename_i t ht
        exact absurd ht (h c hc (List.cons_ne_nil b bs) t)
      · rfl

/-- With the defaults, octets have a text under any name. -/
theorem result_decodeNamed_default (hd : d.Replace) (name : Text) (bs : Octets) :
    (decodeNamed bs (.text name) .null .null).result = .ok (readUnder name bs) := by
  obtain ⟨last, hlast, hscheme⟩ := lookup_default
  rw [result_decodeNamed_replace hd hlast, readOr, decode_replace_utf8 hscheme, readUnder]
  cases named? name with
  | none => rfl
  | some c =>
    dsimp only
    split <;> rfl

end Charset

end HeaderList
