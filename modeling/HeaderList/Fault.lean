import HeaderList.Datum

/-!
# `HeaderList/Fault.lean` — why an operation fails, and what it says on the way

Every failure is a cause, and its wording is in one place. The causes are nested as the operations
react to them: a `UnicodeFault` sends a decoder to its fallback charset, a `WordFault` leaves an
encoded word standing as plain text, any other `Fault` ends the operation.

A `Notice` is a remark on a step that did not fail. A notice names the unit that makes it
(`Notice.source`) and has a wording (`Notice.message`).
-/

set_option autoImplicit false

namespace HeaderList

/-! ## Octets and texts that do not convert -/

/-- What is wrong with octets that are no character. -/
inductive Flaw
  | badStart
  | badContinuation
  | cutShort
  | notAscii
  | unmapped
  | truncated
  | strayLowSurrogate
  | unpairedHighSurrogate
  | surrogate
  | outOfRange
deriving DecidableEq, Repr

def Flaw.message : Flaw → String
  | .badStart => "invalid start byte"
  | .badContinuation => "invalid continuation byte"
  | .cutShort => "unexpected end of data"
  | .notAscii => "ordinal not in range(128)"
  | .unmapped => "character maps to <undefined>"
  | .truncated => "truncated data"
  | .strayLowSurrogate => "illegal encoding"
  | .unpairedHighSurrogate => "illegal UTF-16 surrogate"
  | .surrogate => "code point in surrogate code point range(0xd800, 0xe000)"
  | .outOfRange => "code point not in range(0x110000)"

/-- Why a charset does not decode at all. -/
inductive Refusal
  | policy (name : Text)
  | undefinedEncoding
  | emptyLabel
  | noDecoder
deriving DecidableEq

def Refusal.message : Refusal → Text
  | .policy name => ("Unsupported error handling " : Text) ++ name
  | .undefinedEncoding => "undefined encoding"
  | .emptyLabel => "label empty or too long"
  | .noDecoder => "no decoder"

inductive Target
  | utf8
  | ascii
deriving DecidableEq, Repr

def Target.name : Target → String
  | .utf8 => "utf-8"
  | .ascii => "ascii"

/-- What is wrong with the code points that a target has no octets for. -/
def Target.limit : Target → String
  | .utf8 => "surrogates not allowed"
  | .ascii => Flaw.notAscii.message

/-- A conversion between octets and text that fails. -/
inductive UnicodeFault
  /-- Octets from `start` on that are no character of the charset. -/
  | undecodable (charset : String) (start : Nat) (span : Octets) (flaw : Flaw)
  /-- Code points from `start` on that the target does not write. -/
  | unwritable (target : Target) (start : Nat) (span : Text)
  | refused (charset : String) (why : Refusal)
deriving DecidableEq

def decoderReport (charset kind : String) (message : Text) : Text :=
  ("decoding with '" : Text) ++ charset ++ ("' codec failed (" : Text) ++ kind ++ (": " : Text) ++
    message ++ (")" : Text)

namespace UnicodeFault

/-- A place, or the first and last of several. -/
def places (start count : Nat) : Text :=
  if count ≤ 1 then Text.decimal start
  else Text.decimal start ++ ("-" : Text) ++ Text.decimal (start + count - 1)

def message : UnicodeFault → Text
  | undecodable charset start span flaw =>
    let octets : Text := match span with
      | [b] => ("byte 0x" : Text) ++ Text.hex 2 b.toNat
      | _ => "bytes"
    ("'" : Text) ++ charset ++ ("' codec can't decode " : Text) ++ octets ++
    (" in position " : Text) ++
      places start span.length ++ (": " : Text) ++ flaw.message
  | unwritable target start span =>
    let characters : Text := match span with
      | [c] => ("character '" : Text) ++ c.numbered ++ ("'" : Text)
      | _ => "characters"
    ("'" : Text) ++ target.name ++ ("' codec can't encode " : Text) ++ characters ++
      (" in position " : Text) ++ places start span.length ++ (": " : Text) ++ target.limit
  | refused charset why => decoderReport charset "UnicodeError" why.message

end UnicodeFault

/-! ## Encoded words that are none -/

inductive WordFault
  | notOpened
  | notClosed
  | unterminated (field : Text)
  | whitespace (field : Text)
  | missingCharset
  | unknownEncoding (encoding : Octets)
  | base64
  | charset (fault : UnicodeFault)
  | notAWord (text : Text)
deriving DecidableEq

def WordFault.message : WordFault → Text
  | .notOpened => "Expected =?"
  | .notClosed => "Expected ?="
  | .unterminated field => ("Unterminated " : Text) ++ field
  | .whitespace field => ("Whitespace in " : Text) ++ field
  | .missingCharset => "Missing charset"
  | .unknownEncoding encoding => ("Unexpected encoding: " : Text) ++ encoding.quoted
  | .base64 => "Base64 decoding error"
  | .charset fault => ("Charset decoding error: " : Text) ++ fault.message
  | .notAWord text => ("Not an encoded word: " : Text) ++ text.quoted

/-! ## Error policies that do not serve -/

inductive PolicyFault
  | unknown (name : Text)
  /-- The policy is for writing only. -/
  | unfit
deriving DecidableEq

def PolicyFault.message : PolicyFault → Text
  | .unknown name => ("unknown error handler name '" : Text) ++ name ++ ("'" : Text)
  | .unfit => "don't know how to handle UnicodeDecodeError in error callback"

/-- The kind of a policy fault, where a message quotes it. -/
def PolicyFault.kind : PolicyFault → String
  | .unknown _ => "LookupError"
  | .unfit => "TypeError"

/-! ## Failures of an operation -/

/-- A place where only a text will do. -/
inductive TextRole
  | charsetName
  | policyName
  | decodingPolicy
deriving DecidableEq, Repr

def TextRole.message : TextRole → String
  | .charsetName => "lookup() argument"
  | .policyName => "lookup_error() argument"
  | .decodingPolicy => "decode() argument 'errors'"

inductive Fault
  | unicode (fault : UnicodeFault)
  | word (fault : WordFault)
  | unknownCharset (name : Text)
  /-- An error policy, with the charset whose decoder asked for it if that decoder reports it. -/
  | policy (fault : PolicyFault) (reporter : Option String)
  | nulInName
  | notText (role : TextRole) (kind : Kind)
  | notOctets (kind : Kind)
  | lacks (kind : Kind) (operation : String)
  | unknownSetting (name : Datum)
  /-- A datum that can change is no name of anything. -/
  | changeable (kind : Kind)
  /-- Two data of kinds that are not ordered with each other. -/
  | unordered (left right : Kind)
  | shapeless

def Fault.message : Fault → Text
  | .unicode fault => fault.message
  | .word fault => fault.message
  | .unknownCharset name => ("Unknown charset: " : Text) ++ name
  | .policy fault none => fault.message
  | .policy fault (some charset) => decoderReport charset fault.kind fault.message
  | .nulInName => "embedded null character"
  | .notText role kind =>
    (role.message : Text) ++ (" must be str, not " : Text) ++
      (if kind = .null then "None" else kind.name : String)
  | .notOctets kind => ("Cannot stream " : Text) ++ kind.name
  | .lacks kind operation =>
    ("'" : Text) ++ kind.name ++ ("' object has no attribute '" : Text) ++ operation ++ ("'" : Text)
  | .unknownSetting name => name.inspect
  | .changeable kind => ("unhashable type: '" : Text) ++ kind.name ++ ("'" : Text)
  | .unordered left right =>
    ("'<' not supported between instances of '" : Text) ++ left.name ++ ("' and '" : Text) ++
      right.name ++ ("'" : Text)
  | .shapeless => []

/-! ## Notices -/

/-- A remark on a step that did not fail. -/
inductive Notice
  | unknownCharset (name : Text) (instead : String)
  /-- A charset did not decode the octets; another is taken. -/
  | fallback (charset : String) (fault : UnicodeFault) (instead : String)
  /-- What looked like an encoded word is none. -/
  | invalidWord (offset : Int)
deriving DecidableEq

namespace Notice

def source : Notice → String
  | unknownCharset .. | fallback .. => "mailheaders.mailutils.header"
  | invalidWord _ => "mailheaders.mailutils.lists"

def message : Notice → Text
  | unknownCharset name instead =>
    (Fault.unknownCharset name).message ++ (", using " : Text) ++ instead ++ (" instead" : Text)
  | fallback charset fault instead =>
    ("Decoding with " : Text) ++ charset ++ (" failed (" : Text) ++ fault.message ++
      ("), using " : Text) ++ instead ++ (" instead" : Text)
  | invalidWord offset =>
    ("Invalid encoded word at offset " : Text) ++ Text.integer offset ++ (", kept as text" : Text)

end Notice

end HeaderList
