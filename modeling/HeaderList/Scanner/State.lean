import HeaderList.EncodedWord.Read

/-!
# `HeaderList/Scanner/State.lean` — what a scanner knows

A scanner goes once over the octets of a header. It collects fragments, which are plain words,
decoded words and the spaces between them, and joins them to an entry where a comma or the end
comes. A plain word is not decoded octet by octet: while it lasts, only its place is known
(`Scanner.wordStart`), and it becomes a fragment when the next word begins or the entry ends.
Until then it can still be followed by white space that belongs to nothing.

A step may fail, namely where a word does not decode, and it leaves the scanner as far as it came.
-/

set_option autoImplicit false

namespace HeaderList

/-- A scanner between two steps. -/
structure Scanner where
  cursor : Cursor
  charset : Datum
  /-- The name of the error policy of plain words. -/
  errors : Datum
  fallback : Datum
  /-- Where the plain word that is not a fragment yet begins. -/
  wordStart : Option Nat := none
  /-- Where the last plain word ended, so far. -/
  wordEnd : Option Nat := none
  /-- Does the next octet begin a word? -/
  atWordStart : Bool := true
  fragments : Array Text := #[]
  entries : Array Text := #[]
  notices : Array Notice := #[]

/-- What a step of a scanner leaves: an answer or a fault, and the scanner. -/
abbrev ScanResult := EStateM.Result Fault Scanner

namespace Scanner

variable [Decoders]

/-- A scanner at a cursor. The settings are looked at before any octet is: the error policy has to
exist, and then the fallback charset. -/
def start (cursor : Cursor) (given : Settings) : Except Fault Scanner := do
  let charset := Setting.charset.value given.charset
  let errors := Setting.decodeErrors.value given.errors
  let _ ← Policy.lookup errors
  let _ ← Charset.lookup (Setting.fallbackCharset.value given.fallback)
  return { cursor, charset, errors, fallback := given.fallback }

def gap : Text := [0x20]

/-- The octets of the plain word that is not a fragment yet, without its carriage returns. -/
def wordOctets (s : Scanner) (begin : Nat) : Octets :=
  (s.cursor.slice begin (s.wordEnd.getD s.cursor.data.size)).filter (· != Octet.cr)

def noting (s : Scanner) (ns : List Notice) : Scanner :=
  { s with notices := s.notices ++ ns.toArray }

/-- Makes the plain word a fragment, with a space in front of it if it is not the first, and one
after it if `spaced`. The space in front stays if the word does not decode. -/
def closeWord (spaced : Bool) (s : Scanner) : ScanResult Unit :=
  match s.wordStart with
  | none => .ok () s
  | some begin =>
    let s := if s.fragments.isEmpty then s else { s with fragments := s.fragments.push gap }
    let text := Charset.decodeNamed (s.wordOctets begin) s.charset s.fallback s.errors
    let s := s.noting text.notices
    match text.result with
    | .error fault => .error fault s
    | .ok word =>
      let fragments := s.fragments.push word
      .ok () { s with
        fragments := if spaced then fragments.push gap else fragments
        wordStart := none
        atWordStart := true }

/-- Joins the fragments, if there are any, to an entry. -/
def closeEntry (s : Scanner) : Scanner :=
  if s.fragments.isEmpty then s
  else { s with entries := s.entries.push s.fragments.toList.flatten, fragments := #[] }

/-- Tries to read an encoded word past its first equals sign, and says whether there
was one. What is none is left to be read as plain text, and a notice is made. A word
without text leaves no trace. -/
def tryWord (s : Scanner) : ScanResult Bool :=
  let marked := s.cursor.mark
  let (text, cursor) := EncodedWord.decodeAt s.fallback marked
  let s := s.noting text.notices
  match text.result with
  | .error (.word _) =>
    .ok false { s with
      cursor := marked
      notices := s.notices.push (.invalidWord ((marked.pos : Int) - 1)) }
  | .error fault => .error fault { s with cursor }
  | .ok text =>
    if text.isEmpty then .ok true { s with cursor }
    else match closeWord true { s with cursor } with
      | .ok () s => .ok true { s with fragments := s.fragments.push text }
      | .error fault s => .error fault s

/-- Takes the octet in front of the cursor as part of a plain word, which begins there if a word
may begin there; then the word before it becomes a fragment. -/
def extendWord (s : Scanner) : ScanResult Unit :=
  if s.atWordStart then
    match closeWord false s with
    | .ok () s => .ok () { s with
        wordStart := some (s.cursor.pos - 1), wordEnd := some s.cursor.pos, atWordStart := false }
    | .error fault s => .error fault s
  else .ok () { s with wordEnd := some s.cursor.pos }

end Scanner

end HeaderList
