import HeaderList.Message.Raw
import HeaderList.Proofs.Items

/-!
# `HeaderList/Proofs/Message/Written.lean` — how a message writes its headers

A message writes a header as its name, a colon and a value, over one line or more: a line that
goes on with the value begins with a blank. A line ends in a line feed, maybe with a carriage
return in front of it, and neither of them stands anywhere else. After the headers comes nothing,
or an empty line and a body (`IsMessage`).

The reader of messages takes octets apart into lines and lines into fields. On what is written
this way it finds the headers that were written, each with its value as it stands, but without the
blanks in front (`fields_of_isMessage`).
-/

set_option autoImplicit false

namespace HeaderList.Message

/-! ## The form -/

/-- A header as it stands in a message: the name, what stands between the colon and the end of
the last line, and that end. -/
structure Written where
  name : Octets
  value : Octets
  ending : Octets

def Written.octets (h : Written) : Octets := h.name ++ colon :: (h.value ++ h.ending)

def lineEnds : List Octets := [[Octet.lf], [Octet.cr, Octet.lf]]

theorem mem_lineEnds {e : Octets} : e ∈ lineEnds ↔ e = [Octet.lf] ∨ e = [Octet.cr, Octet.lf] := by
  simp [lineEnds]

/-- Does no line end in the octets? -/
def Unbroken (text : Octets) : Prop := ∀ b ∈ text, Octet.isLineBreak b = false

instance (text : Octets) : Decidable (Unbroken text) :=
  decidable_of_iff ((text.all fun b => !Octet.isLineBreak b) = true) (by simp [Unbroken])

/-- Are the octets a value over one line or more, of which all but the first begin with a blank? -/
inductive Folded : Octets → Prop
  | line {text : Octets} (ht : Unbroken text) : Folded text
  | more {text e rest : Octets} {b : UInt8} (ht : Unbroken text) (he : e ∈ lineEnds)
      (hb : Octet.isBlank b = true) (hrest : Folded (b :: rest)) : Folded (text ++ (e ++ b :: rest))

/-- Do the octets end a line? Only where nothing comes after it can a line do without an end. -/
def EndsLine (e rest : Octets) : Prop := e ∈ lineEnds ∨ (e = [] ∧ rest = [])

structure Written.WellFormed (h : Written) : Prop where
  name_ne_nil : h.name ≠ []
  name : ∀ b ∈ h.name, isNameOctet b = true
  value : Folded h.value

/-- Are the octets a message with these headers? Behind the headers is nothing,
or an empty line and a body. -/
inductive IsMessage : List Written → Octets → Prop
  | nil : IsMessage [] []
  | body {e : Octets} (he : e ∈ lineEnds) (octets : Octets) : IsMessage [] (e ++ octets)
  | header {h : Written} {hs : List Written} {rest : Octets} (hh : h.WellFormed)
      (he : EndsLine h.ending rest) (hrest : IsMessage hs rest) :
      IsMessage (h :: hs) (h.octets ++ rest)

/-! ## Lines

The reader collects a line octet by octet and lets it end behind a line feed. The lines of a value
are found by induction on how it is folded; the first of them may have a name in front of it,
which is why `lines_of_folded` has octets `before` the value. -/

theorem Unbroken.nil : Unbroken [] := by
  intro b hb
  cases hb

theorem Unbroken.append {s t : Octets} (hs : Unbroken s) (ht : Unbroken t) : Unbroken (s ++ t) := by
  intro b hb
  rcases List.mem_append.1 hb with hb | hb
  · exact hs b hb
  · exact ht b hb

theorem Unbroken.no_lf {text : Octets} (ht : Unbroken text) : Octet.lf ∉ text := by
  intro hmem
  exact absurd (ht _ hmem) (by decide)

theorem linesFrom_unbroken {text : Octets} (ht : Unbroken text) (line rest : Octets) :
    linesFrom line (text ++ rest) = linesFrom (text.reverse ++ line) rest := by
  induction text generalizing line with
  | nil => rfl
  | cons b text ih =>
    rw [Unbroken, List.forall_mem_cons] at ht
    have hcr : b ≠ Octet.cr := by
      rintro rfl
      exact absurd ht.1 (by decide)
    have hstep : linesFrom line (b :: (text ++ rest)) = linesFrom (b :: line) (text ++ rest) := by
      rw [linesFrom, if_neg (by simp [ht.1])]
      intro more h
      exact absurd h hcr
    rw [List.cons_append, hstep, ih ht.2, List.reverse_cons, List.append_assoc,
      List.singleton_append]

/-- A line feed ends the line, and a carriage return in front of it is of the line too. -/
theorem lines_of_lineEnd {text e : Octets} (ht : Unbroken text) (he : e ∈ lineEnds)
    (rest : Octets) : lines (text ++ (e ++ rest)) = (text ++ e) :: lines rest := by
  rw [lines, linesFrom_unbroken ht, List.append_nil]
  rcases mem_lineEnds.1 he with rfl | rfl
  · show linesFrom text.reverse (Octet.lf :: rest) = _
    rw [linesFrom, if_pos (by decide)]
    · simp [lines]
    · intro more h
      exact absurd h (by decide)
  · show linesFrom text.reverse (Octet.cr :: Octet.lf :: rest) = _
    refine (linesFrom.eq_2 text.reverse rest).trans ?_
    simp [lines]

/-- A line and its end are one line. -/
theorem lines_of_endsLine {text e rest : Octets} (ht : Unbroken text) (hne : text ≠ [])
    (he : EndsLine e rest) : lines (text ++ (e ++ rest)) = (text ++ e) :: lines rest := by
  rcases he with he | ⟨rfl, rfl⟩
  · exact lines_of_lineEnd ht he rest
  · rw [lines, linesFrom_unbroken ht, List.append_nil, List.append_nil, linesFrom,
      if_neg (by simpa using hne), List.reverse_reverse, List.append_nil]
    rfl

/-- The end of a line is white space to a reader of lines, but no blank. -/
theorem isBlank_of_mem_lineEnds {e : Octets} (he : e ∈ lineEnds) :
    ∃ b ∈ e, Octet.isBlank b = false := by
  rcases mem_lineEnds.1 he with rfl | rfl
  · exact ⟨Octet.lf, by simp, rfl⟩
  · exact ⟨Octet.lf, by simp, rfl⟩

/-- No line is empty: it has at least what ends it. -/
theorem ne_nil_of_mem_linesFrom {line bs l : Octets} (h : l ∈ linesFrom line bs) : l ≠ [] := by
  fun_induction linesFrom line bs with
  | case1 line hline => cases h
  | case2 line hline =>
    rw [List.mem_singleton.1 h]
    simpa using hline
  | case3 line rest ih =>
    rcases List.mem_cons.1 h with rfl | h
    · simp
    · exact ih h
  | case4 line b rest _ _ ih =>
    rcases List.mem_cons.1 h with rfl | h
    · simp
    · exact ih h
  | case5 line b rest _ _ ih => exact ih h

/-- The lines of a value: the first, with what stands in front of it, and those that continue it. -/
theorem lines_of_folded {before value e rest : Octets} (hvalue : Folded value)
    (hbefore : Unbroken before) (hne : before ++ value ≠ []) (he : EndsLine e rest) :
    ∃ first continued, lines (before ++ (value ++ (e ++ rest))) =
        (before ++ first) :: (continued ++ lines rest) ∧
      (∀ l ∈ continued, isContinuation l = true) ∧
      (continued ≠ [] → ∃ b ∈ first, Octet.isBlank b = false) ∧
      first ++ continued.flatten = value ++ e := by
  induction hvalue generalizing before with
  | @line text ht =>
    refine ⟨text ++ e, [], ?_, by simp, by simp, by simp⟩
    rw [← List.append_assoc, lines_of_endsLine (hbefore.append ht) hne he, List.append_assoc]
    rfl
  | @more text e' more b ht he' hb _ ih =>
    obtain ⟨first, continued, hlines, hcontinued, -, hflatten⟩ :=
      ih .nil (List.cons_ne_nil _ _)
    rw [List.nil_append, List.nil_append] at hlines
    -- what comes behind the break begins with the blank, so its first line goes on with the value
    have hfirst : isContinuation first = true := by
      have hne' : first ≠ [] :=
        ne_nil_of_mem_linesFrom (by rw [← lines, hlines]; exact List.mem_cons_self)
      obtain ⟨x, l, rfl⟩ := List.exists_cons_of_ne_nil hne'
      rw [List.cons_append, List.cons_append] at hflatten
      rw [isContinuation, List.head?_cons, (List.cons.inj hflatten).1]
      exact hb
    refine ⟨text ++ e', first :: continued, ?_, ?_, fun _ => ?_, ?_⟩
    · have hsplit : before ++ ((text ++ (e' ++ b :: more)) ++ (e ++ rest)) =
          (before ++ text) ++ (e' ++ (b :: more ++ (e ++ rest))) := by simp
      rw [hsplit, lines_of_lineEnd (hbefore.append ht) he', hlines, List.append_assoc,
        List.cons_append]
    · rw [List.forall_mem_cons]
      exact ⟨hfirst, hcontinued⟩
    · obtain ⟨x, hx, hblank⟩ := isBlank_of_mem_lineEnds he'
      exact ⟨x, List.mem_append_right _ hx, hblank⟩
    · rw [List.flatten_cons, List.append_assoc, hflatten]
      simp

/-! ## Fields

A field is made from the line with the name and the lines that continue it. The
blanks in front of the value and the end of its last line are taken away, and what is
left is the value as it was written. -/

/-- The field that a header is read as. -/
def Written.field (h : Written) : Field :=
  ⟨Text.ofOctets h.name, .text (escapeText (h.value.dropWhile Octet.isBlank))⟩

/-- An octet of a name is printable ASCII, and not the colon. -/
theorem isNameOctet_spec {b : UInt8} (h : isNameOctet b = true) :
    b ≠ colon ∧ b < 0x80 ∧ Octet.isBlank b = false := by
  simp only [isNameOctet, Bool.and_eq_true, decide_eq_true_iff, bne_iff_ne] at h
  obtain ⟨⟨hlow, hhigh⟩, hcolon⟩ := h
  have hlow' : 0x21 ≤ b.toNat := by simpa [UInt8.le_iff_toNat_le] using hlow
  have hhigh' : b.toNat ≤ 0x7E := by simpa [UInt8.le_iff_toNat_le] using hhigh
  refine ⟨hcolon, ?_, ?_⟩
  · rw [UInt8.lt_iff_toNat_lt]
    show b.toNat < 0x80
    omega
  · simp only [Octet.isBlank, Bool.or_eq_false_iff, beq_eq_false_iff_ne, ne_eq, ← UInt8.toNat_inj]
    constructor
    · show ¬ b.toNat = 0x20
      omega
    · show ¬ b.toNat = 0x09
      omega

/-- A text of ASCII has nothing to escape. -/
theorem escapeText_of_ascii {bs : Octets} (h : ∀ b ∈ bs, b < 0x80) :
    escapeText bs = Text.ofOctets bs :=
  List.map_congr_left fun b hb => if_pos (h b hb)

theorem ascii_of_name {name : Octets} (hname : ∀ b ∈ name, isNameOctet b = true) :
    ∀ b ∈ name, b < 0x80 :=
  fun b hb => (isNameOctet_spec (hname b hb)).2.1

/-- What a field keeps of the octets between its colon and its end. -/
def stripped (bs : Octets) : Octets :=
  ((bs.dropWhile Octet.isBlank).reverse.dropWhile Octet.isLineBreak).reverse

section HeaderLine

variable {name : Octets} (hname : ∀ b ∈ name, isNameOctet b = true) (line : Octets)
include hname

theorem takeWhile_name : (name ++ colon :: line).takeWhile (· != colon) = name := by
  rw [List.takeWhile_append_of_pos (fun b hb => by simpa using (isNameOctet_spec (hname b hb)).1),
    List.takeWhile_cons_of_neg (by simp), List.append_nil]

theorem dropWhile_name : (name ++ colon :: line).dropWhile (· != colon) = colon :: line := by
  rw [List.dropWhile_append_of_pos (fun b hb => by simpa using (isNameOctet_spec (hname b hb)).1),
    List.dropWhile_cons_of_neg (by simp)]

theorem dropWhile_isNameOctet : (name ++ colon :: line).dropWhile isNameOctet = colon :: line := by
  rw [List.dropWhile_append_of_pos hname, List.dropWhile_cons_of_neg (by decide)]

/-- A name and a colon make the line of a header, whatever comes behind. -/
theorem isHeaderLine_header : isHeaderLine (name ++ colon :: line) = true := by
  rw [isHeaderLine, dropWhile_isNameOctet hname, List.head?_cons]
  simp

/-- The line of a header is taken for one: it continues nothing, says nothing of
the sender, and has a name. -/
theorem header_counts (hne : name ≠ []) :
    (isContinuation (name ++ colon :: line) || envelope.isPrefixOf (name ++ colon :: line) ||
      (name ++ colon :: line).head? == some colon) = false := by
  have henvelope : envelope.isPrefixOf (name ++ colon :: line) = false := by
    rw [Bool.eq_false_iff]
    intro h
    obtain ⟨more, hmore⟩ := List.isPrefixOf_iff_prefix.1 h
    -- the space of the envelope is no octet of a name, and it is not the colon
    have hdrop : (envelope ++ more).dropWhile isNameOctet = Octet.space :: more := rfl
    rw [hmore, dropWhile_isNameOctet hname] at hdrop
    exact absurd (List.cons.inj hdrop).1 (by decide)
  obtain ⟨b, l, rfl⟩ := List.exists_cons_of_ne_nil hne
  obtain ⟨hcolon, -, hblank⟩ := isNameOctet_spec (hname b List.mem_cons_self)
  have hcontinuation : isContinuation (b :: l ++ colon :: line) = false := hblank
  have hhead : ((b :: l ++ colon :: line).head? == some colon) = false := by simpa using hcolon
  rw [hcontinuation, henvelope, hhead]
  rfl

/-- A field has the name and what is left of its value when it is stripped. -/
theorem fieldOf_header (continued : List Octets)
    (hfirst : continued ≠ [] → ∃ b ∈ line, Octet.isBlank b = false) :
    fieldOf (name ++ colon :: line) continued =
      ⟨Text.ofOctets name, .text (escapeText (stripped (line ++ continued.flatten)))⟩ := by
  -- the blanks are taken off the first line alone; if it had nothing else, what continues it
  -- would have to lose them as well
  have hblanks : line.dropWhile Octet.isBlank ++ continued.flatten =
      (line ++ continued.flatten).dropWhile Octet.isBlank := by
    cases hc : continued with
    | nil => rw [List.flatten_nil, List.append_nil, List.append_nil]
    | cons l ls =>
      obtain ⟨b, hb, hblank⟩ := hfirst (by rw [hc]; exact List.cons_ne_nil _ _)
      have hne : line.dropWhile Octet.isBlank ≠ [] := by
        intro hnil
        have htake : line.takeWhile Octet.isBlank = line := by
          have h := List.takeWhile_append_dropWhile (p := Octet.isBlank) (l := line)
          rwa [hnil, List.append_nil] at h
        have hmem : b ∈ line.takeWhile Octet.isBlank := by rwa [htake]
        have hall := List.all_eq_true.1 List.all_takeWhile b hmem
        rw [hblank] at hall
        cases hall
      rw [List.dropWhile_append, if_neg (by simpa using hne)]
  rw [fieldOf, takeWhile_name hname, dropWhile_name hname,
    escapeText_of_ascii (ascii_of_name hname), List.drop_one, List.tail_cons, hblanks, stripped]

end HeaderLine

theorem fieldsFrom_continued {continued : List Octets}
    (h : ∀ l ∈ continued, isContinuation l = true) (ls : List Octets) :
    fieldsFrom (continued ++ ls) = fieldsFrom ls := by
  induction continued with
  | nil => rfl
  | cons l continued ih =>
    rw [List.forall_mem_cons] at h
    rw [List.cons_append, fieldsFrom, if_pos (by rw [h.1]; rfl)]
    exact ih h.2

/-- The last octet of a value ends no line. -/
theorem isLineBreak_getLast?_of_folded {value : Octets} (h : Folded value) {b : UInt8}
    (hb : value.getLast? = some b) : Octet.isLineBreak b = false := by
  induction h with
  | line ht => exact ht b (List.mem_of_getLast? hb)
  | more _ _ _ _ ih =>
    rw [List.getLast?_append, List.getLast?_append, List.getLast?_cons] at hb
    exact ih (by rw [List.getLast?_cons]; exact hb)

theorem EndsLine.isLineBreak {e rest : Octets} (h : EndsLine e rest) :
    ∀ b ∈ e, Octet.isLineBreak b = true := by
  rcases h with h | ⟨rfl, -⟩
  · intro b hb
    have hb' : b = Octet.cr ∨ b = Octet.lf := by
      rcases mem_lineEnds.1 h with rfl | rfl
      · exact Or.inr (List.mem_singleton.1 hb)
      · simpa using hb
    rcases hb' with rfl | rfl <;> rfl
  · intro b hb
    cases hb

/-- Of a value and its end, a field keeps the value without the blanks in front. -/
theorem stripped_of_folded {value e rest : Octets} (hvalue : Folded value) (he : EndsLine e rest) :
    stripped (value ++ e) = value.dropWhile Octet.isBlank := by
  have hend : e.dropWhile Octet.isBlank = e := by
    rcases he with he | ⟨rfl, -⟩
    · rcases mem_lineEnds.1 he with rfl | rfl <;> rfl
    · rfl
  have hsplit : (value ++ e).dropWhile Octet.isBlank = value.dropWhile Octet.isBlank ++ e := by
    rw [List.dropWhile_append]
    split
    · next h => rw [hend, List.isEmpty_iff.1 h, List.nil_append]
    · rfl
  -- nothing of the value itself is taken off its end
  have hlast : (value.dropWhile Octet.isBlank).reverse.dropWhile Octet.isLineBreak =
      (value.dropWhile Octet.isBlank).reverse := by
    cases hrev : (value.dropWhile Octet.isBlank).reverse with
    | nil => rfl
    | cons b l =>
      have hb : (value.dropWhile Octet.isBlank).getLast? = some b := by
        rw [← List.head?_reverse, hrev, List.head?_cons]
      have hb' : value.getLast? = some b := by
        rw [← List.takeWhile_append_dropWhile (p := Octet.isBlank) (l := value),
          List.getLast?_append, hb]
        rfl
      rw [List.dropWhile_cons_of_neg (by simp [isLineBreak_getLast?_of_folded hvalue hb'])]
  rw [stripped, hsplit, List.reverse_append,
    List.dropWhile_append_of_pos (fun b hb => he.isLineBreak b (List.mem_reverse.1 hb)), hlast,
    List.reverse_reverse]

/-- The lines of a header, and what they are read as. -/
theorem headerLines_header {h : Written} (hh : h.WellFormed) {rest : Octets}
    (he : EndsLine h.ending rest) :
    ∃ first continued, lines (h.octets ++ rest) =
        (h.name ++ colon :: first) :: (continued ++ lines rest) ∧
      (∀ l ∈ continued, isContinuation l = true) ∧
      fieldOf (h.name ++ colon :: first) continued = h.field := by
  have hunbroken : Unbroken (h.name ++ [colon]) := by
    refine Unbroken.append (fun b hb => ?_) (fun b hb => ?_)
    · have hascii := hh.name b hb
      rw [Bool.eq_false_iff]
      intro hbreak
      simp only [Octet.isLineBreak, Bool.or_eq_true, beq_iff_eq] at hbreak
      rcases hbreak with rfl | rfl <;> exact absurd hascii (by decide)
    · rw [List.mem_singleton.1 hb]
      rfl
  obtain ⟨first, continued, hlines, hcontinued, hfirst, hflatten⟩ :=
    lines_of_folded hh.value hunbroken (by simp) he
  refine ⟨first, continued, ?_, hcontinued, ?_⟩
  · simpa [Written.octets] using hlines
  · rw [fieldOf_header hh.name first continued hfirst, hflatten, stripped_of_folded hh.value he,
      Written.field]

/-- The header lines of a message begin with the line of a header, if there are any. -/
theorem fieldsFrom_of_isMessage {hs : List Written} {raw : Octets} (hm : IsMessage hs raw) :
    fieldsFrom ((lines raw).takeWhile isHeaderLine) = hs.map Written.field ∧
      ((lines raw).takeWhile isHeaderLine).takeWhile isContinuation = [] := by
  -- on the headers: the lines of the first are cut off, and the others are a message too
  induction hm with
  | nil => exact ⟨rfl, rfl⟩
  | @body e he octets =>
    have hlines : lines (e ++ octets) = e :: lines octets := lines_of_lineEnd .nil he octets
    have hno : isHeaderLine e = false := by
      rcases mem_lineEnds.1 he with rfl | rfl <;> rfl
    rw [hlines, List.takeWhile_cons_of_neg (by simp [hno])]
    exact ⟨rfl, rfl⟩
  | @header h hs rest hh he hrest ih =>
    obtain ⟨first, continued, hlines, hcontinued, hfield⟩ := headerLines_header hh he
    have hcounts := header_counts hh.name first hh.name_ne_nil
    have hlater : ∀ l ∈ continued, isHeaderLine l = true := by
      intro l hl
      rw [isHeaderLine, hcontinued l hl]
      rfl
    rw [hlines, List.takeWhile_cons_of_pos (isHeaderLine_header hh.name first),
      List.takeWhile_append_of_pos hlater]
    constructor
    · rw [fieldsFrom, if_neg (by rw [hcounts]; decide),
        List.takeWhile_append_of_pos hcontinued, ih.2, List.append_nil,
        fieldsFrom_continued hcontinued, ih.1, hfield, List.map_cons]
    · simp only [Bool.or_eq_false_iff] at hcounts
      rw [List.takeWhile_cons_of_neg (by simp [hcounts.1.1])]

/-- A message is read as the headers that were written. -/
theorem fields_of_isMessage {hs : List Written} {raw : Octets} (hm : IsMessage hs raw) :
    (ofOctets raw).fields = hs.map Written.field :=
  (fieldsFrom_of_isMessage hm).1

end HeaderList.Message
