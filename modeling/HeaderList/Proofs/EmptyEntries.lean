import HeaderList.Proofs.Charset.Replacing
import HeaderList.Proofs.Scanner.Meaning

/-!
# `HeaderList/Proofs/EmptyEntries.lean` — entries without text

An entry is made only where there is something to make it of, and an encoded word without text
counts for nothing. A plain word counts whatever it reads as, and it may read as nothing: its
octets may all be flaws that the error policy leaves out, or the mark that some charsets have at
the start. Such a word alone is an entry without text, and nothing else is
(`Header.empty_entries_of_readAt`). So a value that does not count as given need not be empty,
unless the settings let no octets be passed over (`Settings.KeepsAll`).
-/

set_option autoImplicit false

namespace HeaderList

/-! ## What octets leave

A text is not empty if its first piece is not. That is so under every error
policy that puts something in the place of a flaw, layer by layer: for a form, a
scheme, a charset and the settings. -/

/-- A policy that leaves no flaw out has something to put in its place. -/
theorem Policy.mend_ne_nil {policy : Policy} (hp : policy ≠ .ignore) {form : Form}
    {start count taken : Nat} {b : UInt8} {rest : Octets} {flaw : Flaw} {t : Text}
    (h : policy.mend form start (b :: rest) (count + 1) flaw = .ok (t, taken)) : t ≠ [] := by
  cases policy with
  | strict | xmlReplace | nameReplace => cases h
  | ignore => exact absurd rfl hp
  | replace =>
    cases h
    exact List.cons_ne_nil _ _
  | backslashReplace =>
    cases h
    have hnumbered : (CodePoint.ofOctet b).numbered ≠ [] := by
      unfold CodePoint.numbered
      split
      · exact List.cons_ne_nil _ _
      · split <;> exact List.cons_ne_nil _ _
    rw [List.take_succ_cons, List.flatMap_cons]
    exact List.append_ne_nil_of_left_ne_nil hnumbered _
  | surrogateEscape =>
    simp only [mend] at h
    split at h
    · cases h
    · next hupper =>
      cases h
      simpa using hupper
  | surrogatePass =>
    simp only [mend] at h
    split at h
    · cases h
      exact List.cons_ne_nil _ _
    · cases h

/-- Octets that are there leave characters, unless flaws are left out. -/
theorem Form.decodeFrom_ne_nil {policy : Except Fault Policy} (hp : policy ≠ .ok .ignore)
    {form : Form} {start : Nat} {bs : Octets} {t : Text} (hne : bs ≠ [])
    (h : form.decodeFrom policy start bs = .ok t) : t ≠ [] := by
  -- the first piece is enough, whether it is a character or a flaw
  obtain ⟨b, rest, rfl⟩ := List.exists_cons_of_ne_nil hne
  rw [decodeFrom] at h
  split at h
  · obtain ⟨others, -, rfl⟩ := map_eq_ok h
    exact List.cons_ne_nil _ _
  · split at h
    · cases h
    · next text taken hmend =>
      obtain ⟨others, -, rfl⟩ := map_eq_ok h
      obtain ⟨p, rfl, hmend⟩ := bind_eq_ok hmend
      have hignore : p ≠ .ignore := fun heq => hp (by rw [heq])
      exact List.append_ne_nil_of_left_ne_nil (Policy.mend_ne_nil hignore hmend) _

/-- Does a charset of this scheme pass over no octets? Three schemes pass over a mark at the
start; of the charsets that are known by name only this cannot be said. -/
def Scheme.keepsAll : Scheme → Bool
  | utf8Signed | utf16 none | utf32 none | undecoded => false
  | _ => true

namespace Charset

variable [Decoders] {c : Charset} {bs : Octets} {t : Text}

/-- A label that is there has characters: another spelling without any is refused. -/
theorem decodeLabel_ne_nil (hne : bs ≠ []) (h : c.decodeLabel bs = .ok t) : t ≠ [] := by
  unfold decodeLabel at h
  split at h
  · split at h
    · cases h
    · next hsome =>
      rintro rfl
      exact hsome h
  · exact Form.decodeFrom_ne_nil (by simp) hne h

/-- A domain name of several labels has a full stop, and one of a single label is that label. -/
theorem decodeDomain_ne_nil {errors : Text} (hne : bs ≠ []) (h : c.decodeDomain errors bs = .ok t) :
    t ≠ [] := by
  unfold decodeDomain at h
  split at h
  · obtain ⟨texts, htexts, rfl⟩ := map_eq_ok h
    have hlabels := @List.intercalate_splitOn _ bs _ _ 0x2E
    cases hsplit : bs.splitOn 0x2E with
    | nil => exact absurd hsplit (List.splitOn_ne_nil _ _)
    | cons label more =>
      rw [hsplit] at htexts hlabels
      obtain ⟨text, others, htext, hothers, rfl⟩ := mapM_cons_eq_ok htexts
      cases more with
      | nil =>
        rw [List.mapM_nil] at hothers
        cases hothers
        rw [List.intercalate_singleton] at hlabels ⊢
        exact decodeLabel_ne_nil (hlabels ▸ hne) htext
      | cons next more =>
        obtain ⟨text', others, -, -, rfl⟩ := mapM_cons_eq_ok hothers
        rw [List.intercalate_cons_cons]
        simp
  · cases h

/-- Each scheme that keeps all octets is a form or the spelling of domain names. -/
theorem decodeScheme_ne_nil (hc : c.scheme.keepsAll = true) {errors : Text}
    (hp : Policy.named errors ≠ .ok .ignore) (hne : bs ≠ [])
    (h : c.decodeScheme errors bs = .ok t) : t ≠ [] := by
  rw [decodeScheme] at h
  cases hscheme : c.scheme with
  | utf8Signed | undecoded =>
    rw [hscheme] at hc
    cases hc
  | utf16 order | utf32 order =>
    rw [hscheme] at hc h
    cases order with
    | none => cases hc
    | some order => exact Form.decodeFrom_ne_nil hp hne h
  | ascii | latin1 | singleByte | utf8 =>
    rw [hscheme] at h
    exact Form.decodeFrom_ne_nil hp hne h
  | idna =>
    rw [hscheme] at h
    exact decodeDomain_ne_nil hne h
  | undefinedEncoding | transform =>
    rw [hscheme] at h
    cases h

theorem decode_ne_nil (hc : c.scheme.keepsAll = true) {errors : Text}
    (hp : Policy.named errors ≠ .ok .ignore) (hne : bs ≠ []) (h : c.decode errors bs = .ok t) :
    t ≠ [] := by
  rw [decode, if_neg (by simpa using hne)] at h
  split at h
  · cases h
  · exact decodeScheme_ne_nil hc hp hne h

omit [Decoders] in
theorem nameOf_policyName {errors : Datum} {name : Text}
    (h : Policy.nameOf .decodingPolicy errors = .ok name) :
    Policy.nameOf .policyName errors = .ok name := by
  cases errors with
  | text => exact h
  | _ => cases h

theorem decodeWith_ne_nil (hc : c.scheme.keepsAll = true) {errors : Datum}
    (hp : Policy.lookup errors ≠ .ok .ignore) (hne : bs ≠ []) (h : c.decodeWith errors bs = .ok t) :
    t ≠ [] := by
  obtain ⟨name, hname, h⟩ := bind_eq_ok h
  have hlookup : Policy.lookup errors = Policy.named name := by
    rw [Policy.lookup, nameOf_policyName hname]
    rfl
  exact decode_ne_nil hc (hlookup ▸ hp) hne h

end Charset

/-- Settings under which no octets are passed over: flaws are not left out, neither charset
has a mark, and neither is known by name only. Some of the latter do pass over octets, so
nothing can be said of them. -/
structure Settings.KeepsAll (given : Settings) : Prop where
  errors : Policy.lookup (Setting.decodeErrors.value given.errors) ≠ .ok .ignore
  charset : ∀ c, Charset.lookup (Setting.charset.value given.charset) = .ok c →
    c.scheme.keepsAll = true
  fallback : ∀ c, Charset.lookup (Setting.fallbackCharset.value given.fallback) = .ok c →
    c.scheme.keepsAll = true

variable [Decoders]

/-- A word is read by one of the two charsets, and neither of them passes over its octets. -/
theorem Settings.KeepsAll.readsWord_ne_nil {given : Settings} (hg : given.KeepsAll) {word : Octets}
    {t : Text} (hne : word ≠ []) (h : given.readsWord word = .ok t) : t ≠ [] := by
  obtain ⟨c, hc, hdecode⟩ := Charset.decodeWith_of_decodeNamed h
  rw [Setting.value_value] at hdecode
  have hkeeps : c.scheme.keepsAll = true := hc.elim (hg.charset c) (hg.fallback c)
  exact Charset.decodeWith_ne_nil hkeeps hg.errors hne hdecode

/-! ## What entries are without text

An entry of two items or more has a space in it, or the texts of two encoded words. So only
a single item can make an entry without text, and it is no encoded word, since those
without text count for nothing. -/

namespace Item

omit [Decoders] in
/-- Two items have a text between them, or are encoded words and have texts themselves. -/
theorem joined_eq_nil_iff {g : List Item} (hg : InEntry g) (hne : g ≠ []) :
    joined g = [] ↔ g = [.word []] := by
  match g with
  | [] => exact absurd rfl hne
  | [i] =>
    cases i with
    | word t => simp [joined, text]
    | encoded t =>
      have ht : t ≠ [] := by simpa [Item.counts] using hg.counts (.encoded t) List.mem_cons_self
      simp [joined, text, ht]
    | comma => exact absurd List.mem_cons_self hg.no_comma
  | i :: j :: more =>
    have hcounts := hg.counts i List.mem_cons_self
    have hfirst : i.text ++ between i j ≠ [] := by
      cases i with
      | encoded t =>
        have ht : t ≠ [] := by simpa [Item.counts] using hcounts
        exact List.append_ne_nil_of_left_ne_nil ht _
      | word | comma => exact List.append_ne_nil_of_right_ne_nil _ (List.cons_ne_nil _ _)
    exact ⟨fun h => absurd (List.append_eq_nil_iff.1 h).1 hfirst, fun h => by cases h⟩

omit [Decoders] in
/-- Which entries are without text can be told from the items. -/
theorem entries_getElem?_eq_nil_iff {is : List Item} {k : Nat} :
    (entries is)[k]? = some [] ↔ (groups is)[k]? = some [Item.word []] := by
  rw [entries_eq_map_groups, List.getElem?_map]
  cases hg : (groups is)[k]? with
  | none => simp
  | some g =>
    obtain ⟨hentry, hne, -⟩ := inEntry_of_mem_groups (List.mem_of_getElem? hg)
    rw [Option.map_some, Option.some.injEq, Option.some.injEq, joined_eq_nil_iff hentry hne]

omit [Decoders] in
theorem entries_eq_singleton_iff {is : List Item} :
    entries is = [[]] ↔ groups is = [[.word []]] := by
  constructor
  · intro h
    rw [entries_eq_map_groups, List.map_eq_singleton_iff] at h
    obtain ⟨g, hgroups, hjoined⟩ := h
    have hmem : g ∈ groups is := by rw [hgroups]; exact List.mem_cons_self
    obtain ⟨hentry, hne, -⟩ := inEntry_of_mem_groups hmem
    rw [hgroups, (joined_eq_nil_iff hentry hne).1 hjoined]
  · intro h
    rw [entries_eq_map_groups, h]
    rfl

end Item

namespace Header

/-- An entry without text is a plain word that reads as nothing, with no other item
beside it. A header of which this is all has a value that does not count as given and is
not empty, and there is no other such value. Where the settings let no octets be passed
over, no entry is without text. -/
theorem empty_entries_of_readAt {c : Cursor} {given : Settings} {v : Value}
    (h : (readAt c given).1.result = .ok v) :
    ∃ is : List Item, items given.readsWord given.fallback (content c.rest) = .ok is ∧
      v.entries = Item.entries is ∧
      (∀ t, Item.word t ∈ is → ∃ word, IsWord word ∧ given.readsWord word = .ok t) ∧
      (∀ k : Nat, v.entries[k]? = some [] ↔ (Item.groups is)[k]? = some [Item.word []]) ∧
      ((v.isTruthy = false ↔ v.isEmpty = true) ↔ Item.groups is ≠ [[Item.word []]]) ∧
      (given.KeepsAll → [] ∉ v.entries ∧ (v.isTruthy = false ↔ v.isEmpty = true)) := by
  obtain ⟨is, hitems, rfl⟩ := map_eq_ok (meaning_of_readAt h)
  have hword : ∀ t, Item.word t ∈ is → ∃ word, IsWord word ∧ given.readsWord word = .ok t :=
    fun t ht => word_of_items hitems ht
  have hempty : ∀ k, (Item.entries is)[k]? = some [] ↔ (Item.groups is)[k]? = some [Item.word []] :=
    fun k => Item.entries_getElem?_eq_nil_iff
  have htruthy : ((Value.ofEntries (Item.entries is)).isTruthy = false ↔
      (Value.ofEntries (Item.entries is)).isEmpty = true) ↔ Item.groups is ≠ [[Item.word []]] := by
    rw [Value.isTruthy_iff_isEmpty_ofEntries, Ne, Ne, Item.entries_eq_singleton_iff]
  refine ⟨is, hitems, Value.entries_ofEntries _, hword, ?_, htruthy, ?_⟩
  · rwa [Value.entries_ofEntries]
  · intro hkeeps
    have hnone : ∀ k : Nat, (Item.groups is)[k]? ≠ some [Item.word []] := by
      intro k hk
      obtain ⟨-, -, hmem⟩ := Item.inEntry_of_mem_groups (List.mem_of_getElem? hk)
      obtain ⟨word, hw, hreads⟩ := hword [] (hmem _ List.mem_cons_self)
      exact hkeeps.readsWord_ne_nil hw.ne_nil hreads rfl
    refine ⟨?_, htruthy.2 ?_⟩
    · rw [Value.entries_ofEntries]
      intro hmem
      obtain ⟨k, hk⟩ := List.mem_iff_getElem?.1 hmem
      exact hnone k ((hempty k).1 hk)
    · intro hone
      exact hnone 0 (by rw [hone]; rfl)

omit [Decoders] in
theorem keepsAll_default : Settings.KeepsAll {} := by
  obtain ⟨last, hlast, hscheme⟩ := Charset.lookup_default
  have hpolicy : Policy.lookup (Setting.decodeErrors.value .null) = .ok .replace := rfl
  have hkeeps : ∀ c, Charset.lookup (Setting.fallbackCharset.value .null) = .ok c →
      c.scheme.keepsAll = true := by
    intro c hc
    rw [hlast] at hc
    cases hc
    rw [hscheme]
    rfl
  exact ⟨by rw [hpolicy]; nofun, hkeeps, hkeeps⟩

omit [Decoders] in
/-- An octet that is no UTF-8 is a word without text if flaws are left out, and has
U+FFFD for its text by default. -/
theorem empty_entry_of_flaw :
    let c : Cursor := .ofOctets [0x61, 0x2C, 0xFF]
    let ignoring : Settings := { errors := .text "ignore" }
    (@readAt .none c ignoring).1.result = .ok (.list ["a", ""]) ∧
    (∃ t, @Settings.readsWord .none ignoring t = .ok [] ∧ IsWord t) ∧
    ∃ v, (@readAt .none c {}).1.result = .ok v ∧ [] ∉ v.entries := by
  intro c ignoring
  have hignoring : (@readAt .none c ignoring).1.result = .ok (.list ["a", ""]) := by
    rw [eq_ok_iff_toOption]
    decide +kernel
  have hdefault : (@readAt .none c {}).1.result = .ok (.list ["a", [.replacement]]) := by
    rw [eq_ok_iff_toOption]
    decide +kernel
  obtain ⟨is, -, -, hwords, hempty, -⟩ := @empty_entries_of_readAt .none c ignoring _ hignoring
  obtain ⟨-, -, -, -, -, -, hkeeps⟩ := @empty_entries_of_readAt .none c {} _ hdefault
  obtain ⟨-, -, hmem⟩ := Item.inEntry_of_mem_groups (List.mem_of_getElem? ((hempty 1).1 rfl))
  obtain ⟨word, hword, hreads⟩ := hwords [] (hmem _ List.mem_cons_self)
  exact ⟨hignoring, ⟨word, hreads, hword⟩, _, hdefault, (hkeeps keepsAll_default).1⟩

omit [Decoders] in
/-- Two values that do not count as given and are not empty: of a flaw that
is left out, and of a mark. -/
theorem entry_without_text :
    (@read .none (.octets [0xFF]) { errors := .text "ignore" }).result = .ok (.text []) ∧
    (@read .none (.octets [0xEF, 0xBB, 0xBF]) { charset := .text "utf-8-sig" }).result =
      .ok (.text []) ∧
    [] ∈ (Value.text []).entries ∧ (Value.text []).isTruthy = false ∧
    (Value.text []).isEmpty = false := by
  refine ⟨?_, ?_, List.mem_cons_self, rfl, rfl⟩
  · rw [eq_ok_iff_toOption]
    decide +kernel
  · rw [eq_ok_iff_toOption]
    decide +kernel

end Header

end HeaderList
