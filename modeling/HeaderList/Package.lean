import HeaderList.Charset.Decode

/-!
# `HeaderList/Package.lean` — what the package says about itself

The version and the blurb of the package stand in a source text, between quotation marks in
assignments that begin a line. They are searched for as they are written and not evaluated: a
backslash in them is a backslash. Everything else about the package is fixed.

The package needs nothing else to be installed, so it has no decoders of its own. A program that is
made of it alone runs without any; no statement about the library looks at this file.
-/

set_option autoImplicit false

namespace HeaderList

structure Package where
  name : String
  version : Text
  description : String
  longDescription : Text
  longDescriptionType : String
  license : String
  requires : String
  installs : List String
  extras : List (String × List String)

namespace Package

def quotation : CodePoint := 0x22

def versionOpening : Text := "APPVER = \""

def blurbOpening : Text := "ABOUT = \"\"\"\\\n"

/-- What a text begins with up to a closing mark, if there is one. -/
def upTo? (closing : Text) : Text → Option Text
  | [] => if closing.isEmpty then some [] else none
  | c :: rest =>
    if closing.isPrefixOf (c :: rest) then some [] else (c :: ·) <$> upTo? closing rest

/-- The version, where a text begins with its assignment; it has at least one character. -/
def versionHere? (t : Text) : Option Text :=
  match versionOpening.isPrefixOf? t with
  | none => none
  | some rest => match upTo? [quotation] rest with
    | some [] | none => none
    | some version => some version

/-- The blurb, where a text begins with its assignment. -/
def blurbHere? (t : Text) : Option Text :=
  match blurbOpening.isPrefixOf? t with
  | none => none
  | some rest => upTo? [quotation, quotation, quotation] rest

/-- The first line from which on `read` finds something; `fresh` says
whether the text begins a line. -/
def atLine? (read : Text → Option Text) (fresh : Bool) : Text → Option Text
  | [] => if fresh then read [] else none
  | c :: rest =>
    match if fresh then read (c :: rest) else none with
    | some found => some found
    | none => atLine? read (c == 0x0A) rest

def describe (version blurb : Text) : Package where
  name := "mailheaders"
  version := version
  description := "Tokenizer for comma separated e-mail header values"
  longDescription := blurb
  longDescriptionType := "text/plain"
  license := "AGPL-3.0-or-later"
  requires := ">=3.6"
  installs := []
  extras := [("test", ["pytest", "pynose", "mock"])]

/-- The package that a source text describes. -/
def ofSource (source : Text) : Except Fault Package :=
  match atLine? versionHere? true source, atLine? blurbHere? true source with
  | some version, some blurb => .ok (describe version blurb)
  | _, _ => .error (.lacks .null "group")

def ownVersion : Text := "0.1.0"

def ownBlurb : Text :=
  "mailheaders          a tokenizer for comma separated e-mail header values,\n" ++
  "                     with line folding and RFC 2047 encoded-word support.\n"

def own : Package := describe ownVersion ownBlurb

instance decoders : Decoders := .none

end Package

end HeaderList
