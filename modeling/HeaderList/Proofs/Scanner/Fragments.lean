import HeaderList.Proofs.Scanner.Moves

/-!
# `HeaderList/Proofs/Scanner/Fragments.lean` — which fragments are spaces between words

The fragments of a scanner are texts, and one that is a space may be the space between two words
or a word that reads as a space, such as `=?utf-8?q?_?=`. The texts do not tell. So the scanner is
watched here: it runs as it does, and beside it an account is kept that has the origin of every
fragment (`Fragment`). That nothing else is different is one lemma for each operation
(`unwatched_step`, `unwatched_readValue` and those below them).

The account is there for the spaces. A space is pushed in front of a word before the word is
decoded, so it stays where the word fails, and the next attempt at the word pushes another one.
How many spaces come together is therefore a matter of how many failures there were before
(`Spaced`), and an operation that fails makes it one more (`leaves_step`, `leaves_readValue`).
-/

set_option autoImplicit false

namespace HeaderList

/-! ## Fragments with an origin -/

/-- A fragment: the text of a word, or the space that is put between two words. -/
inductive Fragment
  | read (text : Text)
  | space
deriving DecidableEq

/-- A fragment as the scanner has it, without its origin. -/
def Fragment.text : Fragment → Text
  | read text => text
  | space => Scanner.gap

example : (Fragment.read " ").text = Fragment.space.text := rfl

/-- Do at most `most` spaces come together in an account, at most `last` of them at its
end, and none at its front? -/
structure Spaced (most last : Nat) (fs : List Fragment) : Prop where
  front : fs.head? ≠ some .space
  within : ∀ n, List.replicate n .space <:+: fs → n ≤ most
  atEnd : ∀ n, List.replicate n .space <:+ fs → n ≤ last

namespace Spaced

variable {most last : Nat} {fs : List Fragment}

theorem nil (most last : Nat) : Spaced most last [] where
  front := by simp
  within n h := by
    have hn : n = 0 := by simpa using h
    omega
  atEnd n h := by
    have hn : n = 0 := by simpa using h
    omega

theorem mono {most' last' : Nat} (h : Spaced most last fs) (hmost : most ≤ most')
    (hlast : last ≤ last') : Spaced most' last' fs :=
  ⟨h.front, fun n hn => Nat.le_trans (h.within n hn) hmost,
    fun n hn => Nat.le_trans (h.atEnd n hn) hlast⟩

/-- Spaces at the end of an account to which a fragment was added are none, or
the fragment is one of them. -/
theorem eq_of_replicate_suffix {n : Nat} {f : Fragment}
    (h : List.replicate n .space <:+ fs ++ [f]) :
    n = 0 ∨ (f = .space ∧ List.replicate (n - 1) .space <:+ fs) := by
  rcases List.suffix_concat_iff.1 h with hnil | ⟨l, hl, hsuffix⟩
  · exact Or.inl (by simpa using hnil)
  · obtain ⟨hlen, hspaces, hf⟩ := List.append_eq_replicate_iff.1 hl.symm
    have hn : n - 1 = l.length := by
      rw [List.length_singleton] at hlen
      omega
    refine Or.inr ⟨by simpa using hf, ?_⟩
    rw [hn, ← hspaces]
    exact hsuffix

/-- Behind a word there is no space yet. -/
theorem read (h : Spaced most last fs) (text : Text) : Spaced most 0 (fs ++ [.read text]) where
  front := by
    cases fs with
    | nil => simp
    | cons f fs => exact h.front
  within n hn := by
    rcases List.infix_concat_iff.1 hn with hn | hn
    · rcases eq_of_replicate_suffix hn with rfl | ⟨hf, -⟩
      · exact Nat.zero_le _
      · cases hf
    · exact h.within n hn
  atEnd n hn := by
    rcases eq_of_replicate_suffix hn with rfl | ⟨hf, -⟩
    · exact Nat.le_refl _
    · cases hf

/-- One more space, behind a fragment. -/
theorem space (h : Spaced most last fs) (hne : fs ≠ []) (hlt : last < most) :
    Spaced most (last + 1) (fs ++ [.space]) := by
  have atEnd : ∀ n, List.replicate n .space <:+ fs ++ [.space] → n ≤ last + 1 := by
    intro n hn
    rcases eq_of_replicate_suffix hn with rfl | ⟨-, hrest⟩
    · exact Nat.zero_le _
    · have hle := h.atEnd _ hrest
      omega
  refine ⟨?_, fun n hn => ?_, atEnd⟩
  · obtain ⟨f, fs, rfl⟩ := List.exists_cons_of_ne_nil hne
    exact h.front
  · rcases List.infix_concat_iff.1 hn with hn | hn
    · exact Nat.le_trans (atEnd n hn) hlt
    · exact h.within n hn

end Spaced

/-! ## A scanner that is watched

The operations are those of the scanner once more, with the account beside it. They put nothing
into the scanner that was not there: every state of it is named by a definition of the scanner or
of `Scanner/Step`, and only the account is written out. -/

/-- A scanner, and an account of its fragments. -/
structure Watched where
  scanner : Scanner
  fragments : List Fragment

namespace Watched

/-- What an operation of a watched scanner leaves. -/
abbrev Result := EStateM.Result Fault Watched

/-- What the operation leaves of the scanner. -/
def unwatched {α : Type} : Result α → ScanResult α
  | .ok a w => .ok a w.scanner
  | .error fault w => .error fault w.scanner

variable [Decoders]

/-- The account when a word is about to become a fragment: a space stands in front
of it unless it is the first. -/
def beforeWord (w : Watched) : List Fragment :=
  if w.scanner.fragments.isEmpty then w.fragments else w.fragments ++ [.space]

/-- To close the open word. A word that fails leaves its space in the
account, as in the scanner. -/
def closeWord (spaced : Bool) (w : Watched) : Result Unit :=
  match w.scanner.wordStart with
  | none => .ok () w
  | some start =>
    let word := w.scanner.reads (w.scanner.wordOctets start)
    match word.result with
    | .error fault => .error fault ⟨w.scanner.stuck word, w.beforeWord⟩
    | .ok text => .ok () ⟨w.scanner.closed spaced word text,
        w.beforeWord ++ [.read text] ++ if spaced then [.space] else []⟩

def closeEntry (w : Watched) : Watched := ⟨w.scanner.closeEntry, []⟩

def pushWord (w : Watched) (text : Text) : Result Bool :=
  if text.isEmpty then .ok true w
  else match closeWord true w with
    | .ok () v => .ok true ⟨{ v.scanner with fragments := v.scanner.fragments.push text },
        v.fragments ++ [.read text]⟩
    | .error fault v => .error fault v

/-- An attempt that fails puts nothing into the account. -/
def tryWord (w : Watched) : Result Bool :=
  let (text, cursor) := EncodedWord.decodeAt w.scanner.fallback w.scanner.cursor.mark
  match text.result with
  | .error (.word _) => .ok false { w with scanner := w.scanner.refused text.notices }
  | .error fault => .error fault { w with scanner := { w.scanner.noting text.notices with cursor } }
  | .ok t => pushWord { w with scanner := { w.scanner.noting text.notices with cursor } } t

def extend (w : Watched) : Result Bool :=
  if w.scanner.atWordStart then
    match closeWord false w with
    | .ok () v => .ok true { v with scanner := v.scanner.opened }
    | .error fault v => .error fault v
  else .ok true { w with scanner := w.scanner.extended }

/-- What a step does where a comma is. -/
def endEntry (w : Watched) : Result Bool :=
  match closeWord false w with
  | .ok () v => .ok true v.closeEntry
  | .error fault v => .error fault v

/-- What a step does where an encoded word may be. -/
def attempt (w : Watched) : Result Bool :=
  match tryWord w with
  | .ok true v => .ok true v
  | .ok false v => extend v
  | .error fault v => .error fault v

def step (w : Watched) : Result Bool :=
  match w.scanner.cursor.next? with
  | none => .ok false w
  | some (b, cursor) =>
    let w := { w with scanner := { w.scanner with cursor } }
    if b = Octet.lf then
      if cursor.foldsHere then .ok true { w with scanner := { w.scanner with atWordStart := true } }
      else .ok false w
    else if Octet.isBlank b then
      .ok true { w with scanner := { w.scanner with atWordStart := true } }
    else if b = Octet.cr then .ok true w
    else if b = Octet.comma then endEntry w
    else if b = Octet.equals ∧ w.scanner.atWordStart = true ∧
        cursor.peekIs Octet.question = true then
      attempt w
    else extend w

def answer (w : Watched) : Result Value :=
  match closeWord false w with
  | .error fault v => .error fault v
  | .ok () v => .ok (.ofEntries v.scanner.closeEntry.entries.toList) v.closeEntry

/-! ## Nothing else is different

One lemma for each operation, each from the lemmas of those it calls. What the watched scanner is
proved to do is therefore what the scanner does. -/

variable (w : Watched)

theorem unwatched_closeWord (spaced : Bool) :
    unwatched (closeWord spaced w) = Scanner.closeWord spaced w.scanner := by
  rw [closeWord]
  split
  · next hnone => exact (Scanner.closeWord_of_none hnone spaced).symm
  · next start hstart =>
    rw [Scanner.closeWord_eq hstart]
    dsimp only
    cases (w.scanner.reads (w.scanner.wordOctets start)).result <;> rfl

theorem unwatched_pushWord (text : Text) :
    unwatched (pushWord w text) = w.scanner.pushWord text := by
  rw [pushWord, Scanner.pushWord]
  split
  · rfl
  · rw [← unwatched_closeWord]
    cases closeWord true w <;> rfl

theorem unwatched_tryWord : unwatched (tryWord w) = Scanner.tryWord w.scanner := by
  rw [tryWord, Scanner.tryWord_eq]
  dsimp only
  cases (EncodedWord.decodeAt w.scanner.fallback w.scanner.cursor.mark).1.result with
  | error fault => cases fault <;> rfl
  | ok text => exact unwatched_pushWord _ text

theorem unwatched_extend : unwatched (extend w) = w.scanner.extend := by
  rw [extend]
  split
  · next hstart =>
    rw [Scanner.extend_of_atWordStart hstart, ← unwatched_closeWord]
    cases closeWord false w <;> rfl
  · next hinside =>
    rw [Scanner.extend_of_inside (by simpa using hinside)]
    rfl

theorem unwatched_endEntry :
    unwatched (endEntry w) = match Scanner.closeWord false w.scanner with
      | .ok () s => .ok true s.closeEntry
      | .error fault s => .error fault s := by
  rw [endEntry, ← unwatched_closeWord]
  cases closeWord false w <;> rfl

theorem unwatched_attempt :
    unwatched (attempt w) = match Scanner.tryWord w.scanner with
      | .ok true s => .ok true s
      | .ok false s => s.extend
      | .error fault s => .error fault s := by
  rw [attempt, ← unwatched_tryWord]
  cases tryWord w with
  | error fault v => rfl
  | ok found v =>
    cases found with
    | true => rfl
    | false => exact unwatched_extend v

/-- A watched step is a step, whatever it meets and whether it fails. -/
theorem unwatched_step : unwatched (step w) = w.scanner.step := by
  rw [step, Scanner.step]
  cases w.scanner.cursor.next? with
  | none => rfl
  | some next =>
    obtain ⟨b, cursor⟩ := next
    dsimp only
    split
    · split <;> rfl
    · split
      · rfl
      · split
        · rfl
        · split
          · exact unwatched_endEntry _
          · split
            · exact unwatched_attempt _
            · exact unwatched_extend _

theorem unwatched_answer : unwatched (answer w) = w.scanner.answer := by
  rw [answer, Scanner.answer, ← unwatched_closeWord]
  cases closeWord false w <;> rfl

/-- The scanner's own step leaves what a watched step leaves. It has fewer octets in front of it,
which is why a watched run ends. -/
theorem step_of_watched {w v : Watched} {more : Bool} (h : step w = .ok more v) :
    w.scanner.step = .ok more v.scanner := by
  rw [← unwatched_step, h]
  rfl

def readValue (w : Watched) : Result Value :=
  match _step : step w with
  | .ok true v => readValue v
  | .ok false v => answer v
  | .error fault v => .error fault v
termination_by w.scanner.cursor.left
decreasing_by exact Scanner.left_step (step_of_watched _step)

theorem unwatched_readValue : unwatched (readValue w) = w.scanner.readValue := by
  -- on the run of the watched scanner, along which the other one goes
  fun_induction readValue w with
  | case1 w v hstep ih => rw [ih, Scanner.readValue_eq w.scanner, step_of_watched hstep]
  | case2 w v hstep =>
    rw [Scanner.readValue_eq, step_of_watched hstep]
    exact unwatched_answer v
  | case3 w fault v hstep =>
    rw [Scanner.readValue_eq, ← unwatched_step, hstep]
    rfl

/-! ## How many spaces come together

Between two calls the account has at most `k` spaces at its end if `k` calls have failed since the
last entry was closed. Within a call nothing adds to them but the space of a word that
fails, and so the bounds of every operation are the same pair: `k` at the end when it is
done, `k + 1` when it has failed. -/

/-- Does an account tell the fragments, and are the spaces in it as `Spaced` says? -/
structure Keeps (most last : Nat) (w : Watched) : Prop where
  told : w.scanner.fragments.toList = w.fragments.map Fragment.text
  spaced : Spaced most last w.fragments

/-- What holds of what an operation leaves, if it does not fail and if it does. -/
def Leaves {α : Type} (done failed : Watched → Prop) : Result α → Prop
  | .ok _ w => done w
  | .error _ w => failed w

section

omit [Decoders]

variable {w} {α : Type} {r : Result α} {done failed : Watched → Prop} {most last k : Nat}

theorem Leaves.of_ok {a : α} (h : Leaves done failed r) (hr : r = .ok a w) : done w := by
  rw [hr] at h
  exact h

theorem Leaves.of_error {fault : Fault} (h : Leaves done failed r) (hr : r = .error fault w) :
    failed w := by
  rw [hr] at h
  exact h

theorem Keeps.mono {most' last' : Nat} (h : Keeps most last w) (hmost : most ≤ most')
    (hlast : last ≤ last') : Keeps most' last' w :=
  ⟨h.told, h.spaced.mono hmost hlast⟩

theorem Keeps.isEmpty (h : Keeps most last w) :
    w.scanner.fragments.isEmpty = w.fragments.isEmpty := by
  rw [← Array.isEmpty_toList, h.told, List.isEmpty_map]

/-- With the space in front of a word there is one more than before. -/
theorem Keeps.beforeWord (h : Keeps (k + 1) k w) :
    (if w.scanner.fragments.isEmpty then w.scanner.fragments
      else w.scanner.fragments.push Scanner.gap).toList = w.beforeWord.map Fragment.text ∧
    Spaced (k + 1) (k + 1) w.beforeWord := by
  rw [Watched.beforeWord, h.isEmpty]
  split
  · exact ⟨h.told, h.spaced.mono (Nat.le_refl _) (Nat.le_succ k)⟩
  · next hne =>
    refine ⟨?_, h.spaced.space (by simpa using hne) (Nat.lt_succ_self k)⟩
    rw [Array.toList_push, h.told, List.map_append]
    rfl

/-- The fragments of a word are told by the account with the word in it. -/
theorem told_withWord {fragments : Array Text} {fs : List Fragment}
    (told : (if fragments.isEmpty then fragments else fragments.push Scanner.gap).toList =
      fs.map Fragment.text)
    (spaced : Bool) (text : Text) :
    (Scanner.withWord fragments spaced text).toList =
      (fs ++ [Fragment.read text] ++
        if spaced then [Fragment.space] else []).map Fragment.text := by
  have hread :
      ((if fragments.isEmpty then fragments else fragments.push Scanner.gap).push text).toList =
        (fs ++ [Fragment.read text]).map Fragment.text := by
    rw [Array.toList_push, told, List.map_append]
    rfl
  cases spaced with
  | false => simpa [Scanner.withWord] using hread
  | true =>
    rw [List.map_append, ← hread]
    exact Array.toList_push

/-- Where an entry ends there is no fragment, and so no space. -/
theorem keeps_closeEntry (w : Watched) : Keeps 0 0 w.closeEntry :=
  ⟨by rw [closeEntry, Scanner.fragments_closeEntry]; rfl, .nil 0 0⟩

end

section

variable {w} {k : Nat}

/-- An open word that fails leaves a space, and one that does not fail stands
behind those that are there. -/
theorem leaves_closeWord (h : Keeps (k + 1) k w) (spaced : Bool) :
    Leaves (Keeps (k + 1) (if spaced then k + 1 else k)) (Keeps (k + 1) (k + 1))
    (closeWord spaced w) := by
  obtain ⟨told, hspaces⟩ := h.beforeWord
  cases hstart : w.scanner.wordStart with
  | none =>
    have hk : k ≤ if spaced then k + 1 else k := by split <;> omega
    simp only [closeWord, hstart]
    exact h.mono (Nat.le_refl _) hk
  | some start =>
    cases hword : (w.scanner.reads (w.scanner.wordOctets start)).result with
    | error fault =>
      simp only [closeWord, hstart, hword]
      exact ⟨told, hspaces⟩
    | ok text =>
      simp only [closeWord, hstart, hword]
      refine ⟨told_withWord told spaced text, ?_⟩
      have hread := hspaces.read text
      cases spaced with
      | false => simpa using hread.mono (Nat.le_refl _) (Nat.zero_le k)
      | true =>
        exact (hread.space (by simp) (Nat.succ_pos k)).mono (Nat.le_refl _)
          (Nat.succ_le_succ (Nat.zero_le k))

/-- The space that is pushed behind the open word is followed by the encoded
word, so none is at the end. -/
theorem leaves_pushWord (h : Keeps (k + 1) k w) (text : Text) :
    Leaves (Keeps (k + 1) k) (Keeps (k + 1) (k + 1)) (pushWord w text) := by
  rw [pushWord]
  split
  · exact h
  · cases hclose : closeWord true w with
    | error fault v => exact (leaves_closeWord h true).of_error hclose
    | ok _ v =>
      have hclosed := (leaves_closeWord h true).of_ok hclose
      refine ⟨?_, (hclosed.spaced.read text).mono (Nat.le_refl _) (Nat.zero_le k)⟩
      rw [Array.toList_push, hclosed.told, List.map_append]
      rfl

/-- An attempt either fails before anything is pushed or pushes an encoded word. -/
theorem leaves_tryWord (h : Keeps (k + 1) k w) :
    Leaves (Keeps (k + 1) k) (Keeps (k + 1) (k + 1)) (tryWord w) := by
  have hfailed := h.mono (Nat.le_refl _) (Nat.le_succ k)
  rw [tryWord]
  dsimp only
  split
  · exact ⟨h.told, h.spaced⟩
  · exact ⟨hfailed.told, hfailed.spaced⟩
  · next text _ =>
    refine leaves_pushWord ?_ text
    exact ⟨h.told, h.spaced⟩

theorem leaves_extend (h : Keeps (k + 1) k w) :
    Leaves (Keeps (k + 1) k) (Keeps (k + 1) (k + 1)) (extend w) := by
  rw [extend]
  split
  · cases hclose : closeWord false w with
    | error fault v => exact (leaves_closeWord h false).of_error hclose
    | ok _ v =>
      have hclosed := (leaves_closeWord h false).of_ok hclose
      exact ⟨hclosed.told, hclosed.spaced⟩
  · exact ⟨h.told, h.spaced⟩

theorem leaves_endEntry (h : Keeps (k + 1) k w) :
    Leaves (Keeps (k + 1) k) (Keeps (k + 1) (k + 1)) (endEntry w) := by
  rw [endEntry]
  cases hclose : closeWord false w with
  | error fault v => exact (leaves_closeWord h false).of_error hclose
  | ok _ v => exact (keeps_closeEntry v).mono (Nat.zero_le _) (Nat.zero_le _)

theorem leaves_attempt (h : Keeps (k + 1) k w) :
    Leaves (Keeps (k + 1) k) (Keeps (k + 1) (k + 1)) (attempt w) := by
  rw [attempt]
  cases htry : tryWord w with
  | error fault v => exact (leaves_tryWord h).of_error htry
  | ok found v =>
    have htried := (leaves_tryWord h).of_ok htry
    cases found with
    | true => exact htried
    | false => exact leaves_extend htried

/-- A step keeps what there was, and one that fails leaves one more space at most. -/
theorem leaves_step (h : Keeps (k + 1) k w) :
    Leaves (Keeps (k + 1) k) (Keeps (k + 1) (k + 1)) (step w) := by
  rw [step]
  split
  · exact h
  · next b cursor _ =>
    have hmoved : Keeps (k + 1) k { w with scanner := { w.scanner with cursor } } :=
      ⟨h.told, h.spaced⟩
    dsimp only
    split
    · split
      · exact ⟨h.told, h.spaced⟩
      · exact hmoved
    · split
      · exact ⟨h.told, h.spaced⟩
      · split
        · exact hmoved
        · split
          · exact leaves_endEntry hmoved
          · split
            · exact leaves_attempt hmoved
            · exact leaves_extend hmoved

/-- An answer closes the entry, and with it the account. -/
theorem leaves_answer (h : Keeps (k + 1) k w) :
    Leaves (Keeps 0 0) (Keeps (k + 1) (k + 1)) (answer w) := by
  rw [answer]
  cases hclose : closeWord false w with
  | error fault v => exact (leaves_closeWord h false).of_error hclose
  | ok _ v => exact keeps_closeEntry v

/-- A header that was read leaves no space. One that failed leaves one space more than
there were failures before. -/
theorem leaves_readValue (h : Keeps (k + 1) k w) :
    Leaves (Keeps 0 0) (Keeps (k + 1) (k + 1)) (readValue w) := by
  -- on the run; the bounds are the same at every step, until one fails
  fun_induction readValue w with
  | case1 w v hstep ih => exact ih ((leaves_step h).of_ok hstep)
  | case2 w v hstep => exact leaves_answer ((leaves_step h).of_ok hstep)
  | case3 w fault v hstep => exact (leaves_step h).of_error hstep

end

end Watched

end HeaderList
