import HeaderList.Proofs.Scanner.Moves

/-!
# `HeaderList/Proofs/Layout.lean` — what plain words have no say in

How many entries a header has, where it ends, and what is taken for an encoded word does not
depend on how the octets of its plain words read. A plain word may read as nothing, or as a
comma: it is one word all the same.

The items of a header say so at once. Without the texts of the plain words (`Item.unread`) they
are the same under all settings with one fallback charset, namely those that the octets are cut
into where plain words have no text at all (`Header.layout`). The scanner does not cut first
and decode later, so of its two runs something else is shown: they go through the same places
and make the same remarks on what is no encoded word (`InStep`), as long as neither fails. The
two together are `readAt_layout`.
-/

set_option autoImplicit false

namespace HeaderList

/-! ## Remarks on encoded words

A scanner remarks on decoding too, and those remarks depend on the settings. What is compared is
the remarks on attempts alone, by their places. -/

namespace Notice

/-- The place of what looked like an encoded word and is none. -/
def invalidAt? : Notice → Option Int
  | invalidWord offset => some offset
  | _ => none

/-- The places of all remarks on what is no encoded word, oldest first. -/
def invalidPlaces (ns : List Notice) : List Int := ns.filterMap invalidAt?

theorem invalidPlaces_append (ms ns : List Notice) :
    invalidPlaces (ms ++ ns) = invalidPlaces ms ++ invalidPlaces ns := List.filterMap_append

end Notice

/-- Decoding octets makes no remark on encoded words. -/
theorem Charset.invalidPlaces_decodeNamed [Decoders] (data : Octets)
    (charset fallback errors : Datum) :
    Notice.invalidPlaces (decodeNamed data charset fallback errors).notices = [] := by
  unfold decodeNamed
  dsimp only
  split
  · rfl
  · split
    · rfl
    · rfl
    · split
      · split <;> rfl
      · rfl

/-! ## Items without texts -/

namespace Item

/-- An item without what the text of a plain word is. -/
def unread : Item → Item
  | word _ => word []
  | i => i

theorem beq_comma_unread (i : Item) : (i.unread == comma) = (i == comma) := by
  cases i <;> rfl

theorem counts_unread (i : Item) : i.unread.counts = i.counts := by
  cases i <;> rfl

theorem eq_of_isEncoded_unread {i : Item} (h : i.unread.isEncoded = true) : i.unread = i := by
  cases i with
  | word => cases h
  | encoded => rfl
  | comma => rfl

theorem splitOn_map_unread (is : List Item) :
    (is.map unread).splitOn comma = (is.splitOn comma).map (List.map unread) :=
  splitOnP_map beq_comma_unread is

/-- Entries are made of the same items whatever the texts of the plain words are. -/
theorem groups_map_unread (is : List Item) :
    groups (is.map unread) = (groups is).map (List.map unread) := by
  have hcounts : counts ∘ unread = counts := funext counts_unread
  rw [groups, groups, List.filter_map, hcounts, splitOn_map_unread, filter_isEmpty_map]

theorem length_groups_map_unread (is : List Item) :
    (groups (is.map unread)).length = (entries is).length := by
  rw [groups_map_unread, entries_eq_map_groups, List.length_map, List.length_map]

/-- An entry of encoded words alone is known from the items without texts. -/
theorem entries_of_encoded {is g : List Item} {k : Nat} (hg : (groups (is.map unread))[k]? = some g)
    (hencoded : ∀ i ∈ g, i.isEncoded = true) : (entries is)[k]? = some (joined g) := by
  rw [groups_map_unread, List.getElem?_map, Option.map_eq_some_iff] at hg
  obtain ⟨g', hg', rfl⟩ := hg
  have hsame : g'.map unread = g' := by
    rw [List.map_congr_left fun i hi => eq_of_isEncoded_unread
      (hencoded _ (List.mem_map_of_mem hi)), List.map_id']
  rw [entries_eq_map_groups, List.getElem?_map, hg', hsame]
  rfl

end Item

section

variable [Decoders]

/-- The items of a header, where plain words have no text. -/
def Header.layout (fallback : Datum) (bs : Octets) : Except Fault (List Item) :=
  items (fun _ => .ok []) fallback (content bs)

/-- Octets are cut into the same items whatever the texts of the plain words are. -/
theorem items_unread {plain : Octets → Except Fault Text} {fallback : Datum} {bs : Octets}
    {is : List Item} (h : items plain fallback bs = .ok is) :
    items (fun _ => .ok []) fallback bs = .ok (is.map Item.unread) := by
  -- on the cutting: which case it is depends on the octets and on the encoded words
  fun_induction items plain fallback bs generalizing is with
  | case1 =>
    cases h
    rw [items_nil]
    rfl
  | case2 b rest hgap ih =>
    rw [items_gap hgap]
    exact ih h
  | case3 rest hgap ih =>
    obtain ⟨js, hjs, rfl⟩ := map_eq_ok h
    rw [items_comma, ih hjs]
    rfl
  | case4 => cases h
  | case5 b rest hgap hcomma text after hfound ih =>
    obtain ⟨js, hjs, rfl⟩ := map_eq_ok h
    rw [items_startsWord (Octet.startsWord_of_not hgap hcomma), hfound]
    dsimp only
    rw [ih hjs]
    rfl
  | case6 b rest hgap hcomma hnone ih =>
    obtain ⟨text, -, h⟩ := bind_eq_ok h
    obtain ⟨js, hjs, h⟩ := bind_eq_ok h
    cases h
    rw [items_startsWord (Octet.startsWord_of_not hgap hcomma), hnone]
    dsimp only
    rw [ih hjs]
    rfl

end

namespace Scanner

variable [Decoders] {s t u v : Scanner} {spaced : Bool}

/-! ## Two runs

Two readings with different settings meet the same octets and differ in the texts of plain
words. No step looks at such a text, so nothing that the next step depends on is different. One
thing may be: one of the two may fail at a word that the other one reads, and then there is
nothing to compare (`Abreast`). -/

/-- Do two scanners stand in the same place, in the same situation, and have they made the same
remarks? What they have collected does not matter. -/
structure InStep (s t : Scanner) : Prop where
  cursor : t.cursor = s.cursor
  fallback : t.fallback = s.fallback
  wordStart : t.wordStart = s.wordStart
  atWordStart : t.atWordStart = s.atWordStart
  places : Notice.invalidPlaces t.notices.toList = Notice.invalidPlaces s.notices.toList

theorem places_closed (s : Scanner) (spaced : Bool) (start : Nat) (text : Text) :
    Notice.invalidPlaces (s.closed spaced (s.reads (s.wordOctets start)) text).notices.toList =
      Notice.invalidPlaces s.notices.toList := by
  have hnone : Notice.invalidPlaces (s.reads (s.wordOctets start)).notices = [] :=
    Charset.invalidPlaces_decodeNamed ..
  simp only [closed, noting, Array.toList_append, Notice.invalidPlaces_append, hnone,
    List.append_nil]

omit [Decoders] in
theorem InStep.trans (h : InStep s t) (h' : InStep t u) : InStep s u :=
  ⟨h'.cursor.trans h.cursor, h'.fallback.trans h.fallback, h'.wordStart.trans h.wordStart,
    h'.atWordStart.trans h.atWordStart, h'.places.trans h.places⟩

/-- Closing a word is the same for both, whatever the word reads as. -/
theorem InStep.closes (h : InStep s t) (hs : Closes s spaced u) (ht : Closes t spaced v) :
    InStep u v := by
  cases hs with
  | nothing hnone =>
    cases ht with
    | nothing => exact h
    | word start _ hsome =>
      rw [h.wordStart, hnone] at hsome
      cases hsome
  | word start text hsome =>
    cases ht with
    | nothing hnone =>
      rw [h.wordStart, hsome] at hnone
      cases hnone
    | word =>
      refine ⟨h.cursor, h.fallback, rfl, rfl, ?_⟩
      rw [places_closed, places_closed, h.places]

/-- Do two results go on together? Either both have the same answer and leave scanners in
step, or one of them is a fault. -/
inductive Abreast {α : Type} : ScanResult α → ScanResult α → Prop
  | ok (a : α) (u v : Scanner) (h : InStep u v) : Abreast (.ok a u) (.ok a v)
  | left (fault : Fault) (u : Scanner) (q : ScanResult α) : Abreast (.error fault u) q
  | right (r : ScanResult α) (fault : Fault) (v : Scanner) : Abreast r (.error fault v)

/-- What is done to the scanner that a result leaves, unless it is a fault. -/
def followed {α : Type} (a : α) (f : Scanner → Scanner) : ScanResult Unit → ScanResult α
  | .ok () u => .ok a (f u)
  | .error fault u => .error fault u

omit [Decoders] in
theorem Abreast.followed {α : Type} {a : α} {f : Scanner → Scanner} {r q : ScanResult Unit}
    (h : Abreast r q) (hf : ∀ {u v}, InStep u v → InStep (f u) (f v)) :
    Abreast (Scanner.followed a f r) (Scanner.followed a f q) := by
  cases h with
  | ok _ u v hu => exact .ok a _ _ (hf hu)
  | left fault u q => exact .left fault u _
  | right r fault v => exact .right _ fault v

theorem InStep.closeWord (h : InStep s t) (spaced : Bool) :
    Abreast (closeWord spaced s) (closeWord spaced t) := by
  cases hs : Scanner.closeWord spaced s with
  | error fault u => exact .left fault u _
  | ok _ u =>
    cases ht : Scanner.closeWord spaced t with
    | error fault v => exact .right _ fault v
    | ok _ v => exact .ok () u v (h.closes (closes_of_closeWord hs) (closes_of_closeWord ht))

omit [Decoders] in
theorem InStep.closeEntry (h : InStep s t) : InStep s.closeEntry t.closeEntry := by
  have frame : ∀ x : Scanner, InStep x.closeEntry x ∧ InStep x x.closeEntry := by
    intro x
    unfold Scanner.closeEntry
    split <;> exact ⟨⟨rfl, rfl, rfl, rfl, rfl⟩, ⟨rfl, rfl, rfl, rfl, rfl⟩⟩
  exact ((frame s).1.trans h).trans (frame t).2

omit [Decoders] in
theorem InStep.moved (h : InStep s t) : InStep s.moved t.moved :=
  ⟨by rw [Scanner.moved, Scanner.moved, h.cursor], h.fallback, h.wordStart, h.atWordStart, h.places⟩

omit [Decoders] in
theorem InStep.opened (h : InStep s t) : InStep s.opened t.opened :=
  ⟨h.cursor, h.fallback, by rw [Scanner.opened, Scanner.opened, h.cursor], rfl, h.places⟩

omit [Decoders] in
theorem InStep.noting (h : InStep s t) (ns : List Notice) : InStep (s.noting ns) (t.noting ns) := by
  refine ⟨h.cursor, h.fallback, h.wordStart, h.atWordStart, ?_⟩
  simp only [Scanner.noting, Array.toList_append, Notice.invalidPlaces_append, h.places]

omit [Decoders] in
theorem InStep.refused (h : InStep s t) (ns : List Notice) :
    InStep (s.refused ns) (t.refused ns) := by
  have hnoted := h.noting ns
  refine ⟨?_, hnoted.fallback, hnoted.wordStart, hnoted.atWordStart, ?_⟩
  · rw [Scanner.refused, Scanner.refused, h.cursor]
  · simp only [Scanner.refused, Array.toList_push, Notice.invalidPlaces_append, hnoted.places,
      h.cursor]

/-- The text of an encoded word is the same in both, so both do the same with it. -/
theorem InStep.pushWord (h : InStep s t) (text : Text) :
    Abreast (pushWord s text) (pushWord t text) := by
  rw [Scanner.pushWord, Scanner.pushWord]
  split
  · exact .ok true s t h
  -- whether a word is open is the same in both, and its text does not matter
  · exact (h.closeWord true).followed fun hu =>
      ⟨hu.cursor, hu.fallback, hu.wordStart, hu.atWordStart, hu.places⟩

/-- An attempt sees the octets and the fallback charset only. -/
theorem InStep.tryWord (h : InStep s t) : Abreast (tryWord s) (tryWord t) := by
  rw [tryWord_eq, tryWord_eq, h.cursor, h.fallback]
  generalize EncodedWord.decodeAt s.fallback s.cursor.mark = found
  obtain ⟨text, cursor⟩ := found
  dsimp only
  split
  · exact .ok false _ _ (h.refused text.notices)
  · exact .left ..
  · next found _ =>
    have hnoted := h.noting text.notices
    have hplaced :
        InStep { s.noting text.notices with cursor } { t.noting text.notices with cursor } :=
      ⟨rfl, hnoted.fallback, hnoted.wordStart, hnoted.atWordStart, hnoted.places⟩
    exact hplaced.pushWord found

/-- Whether a word goes on or begins is a matter of where the scanner is. -/
theorem InStep.extend (h : InStep s t) : Abreast (extend s) (extend t) := by
  cases hw : s.atWordStart with
  | false =>
    rw [extend_of_inside hw, extend_of_inside (h.atWordStart.trans hw)]
    exact .ok true _ _ ⟨h.cursor, h.fallback, h.wordStart, h.atWordStart, h.places⟩
  | true =>
    rw [extend_of_atWordStart hw, extend_of_atWordStart (h.atWordStart.trans hw)]
    exact (h.closeWord false).followed InStep.opened

/-- Two scanners in step make the same step, unless one of them fails. -/
theorem InStep.step (h : InStep s t) : Abreast (step s) (step t) := by
  have hrest : t.cursor.rest = s.cursor.rest := by rw [h.cursor]
  cases s.meets with
  | nothing hs =>
    rw [step_of_nil hs, step_of_nil (hrest.trans hs)]
    exact .ok false s t h
  | lineEnd bs hs hb =>
    rw [step_of_break hs hb, step_of_break (hrest.trans hs) hb]
    exact .ok false _ _ h.moved
  | white b bs hs hb =>
    rw [step_of_white hs hb, step_of_white (hrest.trans hs) hb]
    exact .ok true _ _ ⟨h.moved.cursor, h.fallback, h.wordStart, rfl, h.places⟩
  | cr bs hs =>
    rw [step_of_cr hs, step_of_cr (hrest.trans hs)]
    exact .ok true _ _ h.moved
  | comma bs hs =>
    rw [step_of_comma hs, step_of_comma (hrest.trans hs)]
    exact (h.moved.closeWord false).followed InStep.closeEntry
  | attempt bs hs hw =>
    rw [step_of_attempt hs hw, step_of_attempt (hrest.trans hs) (h.atWordStart.trans hw)]
    have htried := h.moved.tryWord
    generalize Scanner.tryWord s.moved = r at htried ⊢
    generalize Scanner.tryWord t.moved = q at htried ⊢
    cases htried with
    | ok found u v hu =>
      cases found with
      | true => exact .ok true u v hu
      | false => exact hu.extend
    | left fault u q => exact .left fault u _
    | right r fault v => exact .right _ fault v
  | word b bs hs hb hno =>
    rw [step_of_word hs hb hno, step_of_word (hrest.trans hs) hb (by rwa [h.atWordStart])]
    exact h.moved.extend

/-! ## Whole headers

A run is a step and a run, so scanners in step stay in step to the end. There the entry
that is open is closed in both. -/

theorem InStep.answer (h : InStep s t) {x y : Value} (hs : answer s = .ok x u)
    (ht : answer t = .ok y v) : InStep u v := by
  have hclosed := h.closeWord false
  rw [Scanner.answer] at hs ht
  generalize Scanner.closeWord false s = r at hclosed hs
  generalize Scanner.closeWord false t = q at hclosed ht
  cases hclosed with
  | ok _ u' v' hu =>
    cases hs
    cases ht
    exact hu.closeEntry
  | left => cases hs
  | right => cases ht

/-- Two scanners in step are so to the end of the header, unless one of them fails. -/
theorem InStep.readValue (h : InStep s t) {x y : Value} (hs : readValue s = .ok x u)
    (ht : readValue t = .ok y v) : InStep u v := by
  -- along the run of the one, which the other goes along with
  induction s using run_induction generalizing t with
  | head s ih =>
    have hstep := h.step
    rw [readValue_eq] at hs ht
    generalize hmove : Scanner.step s = r at hstep hs
    generalize Scanner.step t = q at hstep ht
    cases hstep with
    | ok more u' v' hu =>
      cases more with
      | true => exact ih u' hmove hu hs ht
      | false => exact hu.answer hs ht
    | left => cases hs
    | right => cases ht

end Scanner

/-! ## Two settings

The two halves of the result come from different places: the number of entries and the encoded
ones from the items without texts, the place and the remarks from the two runs. -/

/-- Are two values of one shape: both nothing, both a text, or both a list? -/
structure Value.SameShape (v w : Value) : Prop where
  empty : v = .empty ↔ w = .empty
  text : (∃ t, v = .text t) ↔ ∃ t, w = .text t
  list : (∃ ts, v = .list ts) ↔ ∃ ts, w = .list ts

theorem Value.sameShape_ofEntries {ts us : List Text} (h : ts.length = us.length) :
    SameShape (ofEntries ts) (ofEntries us) where
  empty := by rw [ofEntries_eq_empty_iff, ofEntries_eq_empty_iff, h]
  text := by rw [ofEntries_eq_text_iff, ofEntries_eq_text_iff, h]
  list := by rw [ofEntries_eq_list_iff, ofEntries_eq_list_iff, h]

namespace Header

variable [Decoders] {c : Cursor} {given given' : Settings} {v w : Value}

/-- The scanners of two readings with one fallback charset, where both
have an answer, go in step. -/
theorem inStep_readAt (hfallback : given'.fallback = given.fallback)
    (hv : (readAt c given).1.result = .ok v) (hw : (readAt c given').1.result = .ok w) :
    (readAt c given').2 = (readAt c given).2 ∧
      Notice.invalidPlaces (readAt c given').1.notices =
        Notice.invalidPlaces (readAt c given).1.notices := by
  obtain ⟨s, s', hs, hread, heq⟩ := readAt_of_ok hv
  obtain ⟨t, t', ht, hread', heq'⟩ := readAt_of_ok hw
  have hstart : Scanner.InStep s t := by
    rw [start_eq_ok hs, start_eq_ok ht]
    exact ⟨rfl, hfallback, rfl, rfl, rfl⟩
  have hend := hstart.readValue hread hread'
  rw [heq, heq']
  exact ⟨hend.cursor, hend.places⟩

/-- The entries of a header are laid out as its octets are, whatever its plain words read as. -/
theorem layout_of_readAt (h : (readAt c given).1.result = .ok v) :
    ∃ layout : List Item, Header.layout given.fallback c.rest = .ok layout ∧
      v.entries.length = (Item.groups layout).length ∧
      ∀ (k : Nat) (g : List Item), (Item.groups layout)[k]? = some g →
        (∀ i ∈ g, i.isEncoded = true) →
        v.entries[k]? = some (Item.joined g) := by
  obtain ⟨is, hitems, rfl⟩ := map_eq_ok (meaning_of_readAt h)
  refine ⟨is.map Item.unread, items_unread hitems, ?_, ?_⟩
  · rw [Value.entries_ofEntries, Item.length_groups_map_unread]
  · intro k g hg hencoded
    rw [Value.entries_ofEntries]
    exact Item.entries_of_encoded hg hencoded

/-- What plain words read as changes nothing but their own texts. Two readings of a header with
one fallback charset, which both have a value, have the same number of entries and the same shape,
are over in the same place, and make the same remarks on what is no encoded word; and an entry of
encoded words alone is the same text in both. -/
theorem readAt_layout (hfallback : given'.fallback = given.fallback)
    (hv : (readAt c given).1.result = .ok v) (hw : (readAt c given').1.result = .ok w) :
    v.entries.length = w.entries.length ∧ v.SameShape w ∧ (readAt c given').2 = (readAt c given).2 ∧
    Notice.invalidPlaces (readAt c given').1.notices =
      Notice.invalidPlaces (readAt c given).1.notices ∧
    ∃ layout : List Item, Header.layout given.fallback c.rest = .ok layout ∧
      v.entries.length = (Item.groups layout).length ∧
      ∀ (k : Nat) (g : List Item), (Item.groups layout)[k]? = some g →
        (∀ i ∈ g, i.isEncoded = true) →
        v.entries[k]? = some (Item.joined g) ∧ w.entries[k]? = some (Item.joined g) := by
  obtain ⟨hcursor, hplaces⟩ := inStep_readAt hfallback hv hw
  obtain ⟨layout, hlayout, hlen, hencoded⟩ := layout_of_readAt hv
  obtain ⟨layout', hlayout', hlen', hencoded'⟩ := layout_of_readAt hw
  obtain rfl : layout = layout' := by
    rw [hfallback, hlayout] at hlayout'
    exact Except.ok.inj hlayout'
  have hsame : v.entries.length = w.entries.length := hlen.trans hlen'.symm
  refine ⟨hsame, ?_, hcursor, hplaces, layout, hlayout, hlen, fun k g hg he => ?_⟩
  · rw [← ofEntries_of_readAt hv, ← ofEntries_of_readAt hw]
    exact Value.sameShape_ofEntries hsame
  · exact ⟨hencoded k g hg he, hencoded' k g hg he⟩

omit [Decoders] in
/-- Octets that are no UTF-8, once left out and once read as Latin-1. They are a part of one entry
and all of another; the entry between the two is an encoded word. -/
theorem layout_of_ignored_octets :
    let c : Cursor :=
      .ofOctets [0x63, 0x61, 0x66, 0xE9, 0x20, 0x3D, 0x3F, 0x62, 0x61, 0x64, 0x2C, 0x20, 0x3D,
      0x3F, 0x75, 0x74, 0x66, 0x2D, 0x38, 0x3F, 0x71, 0x3F, 0x78, 0x3F, 0x3D, 0x2C, 0x20, 0xFF]
    let ignoring : Settings := { errors := .text "ignore" }
    let latin : Settings := { charset := .text "iso-8859-1" }
    (@readAt .none c ignoring).1.result = .ok (.list ["caf =?bad", "x", ""]) ∧
    (@readAt .none c latin).1.result = .ok (.list ["café =?bad", "x", "ÿ"]) ∧
    (@readAt .none c latin).2 = (@readAt .none c ignoring).2 ∧
    Notice.invalidPlaces (@readAt .none c latin).1.notices = [5] := by
  intro c ignoring latin
  have hignoring : (@readAt .none c ignoring).1.result = .ok (.list ["caf =?bad", "x", ""]) := by
    rw [eq_ok_iff_toOption]
    decide +kernel
  have hlatin : (@readAt .none c latin).1.result = .ok (.list ["café =?bad", "x", "ÿ"]) := by
    rw [eq_ok_iff_toOption]
    decide +kernel
  obtain ⟨-, -, hcursor, hplaces, -⟩ :=
    @readAt_layout .none c ignoring latin _ _ rfl hignoring hlatin
  refine ⟨hignoring, hlatin, hcursor, hplaces.trans ?_⟩
  decide +kernel

end Header

end HeaderList
