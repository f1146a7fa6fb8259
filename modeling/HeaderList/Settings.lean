import HeaderList.Fault

/-!
# `HeaderList/Settings.lean` — settings and their defaults

Three settings steer how a header is read, and each has a default. A caller leaves a setting
out by handing in nothing; whatever else is handed in stands, of whatever kind it is, and is
checked only where it is used.
-/

set_option autoImplicit false

namespace HeaderList

inductive Setting
  | charset
  | decodeErrors
  | fallbackCharset
deriving DecidableEq, Repr

namespace Setting

/-- Every setting, in the order in which they are listed. -/
def all : List Setting := [charset, decodeErrors, fallbackCharset]

def name : Setting → String
  | charset => "charset"
  | decodeErrors => "decode_errors"
  | fallbackCharset => "fallback_charset"

def description : Setting → String
  | charset => "Charset of raw header bytes"
  | decodeErrors => "Codec error handler for bad bytes"
  | fallbackCharset => "Charset used when an encoded word names an unknown charset"

def kind : Setting → Kind := fun _ => .text

def default : Setting → String
  | charset => "utf-8"
  | decodeErrors => "replace"
  | fallbackCharset => "utf-8"

/-- A setting that a caller may have left out. -/
def value (s : Setting) (given : Datum) : Datum := given.orElse (.text (Text.ofString s.default))

def named? : Datum → Option Setting
  | .text t => all.find? fun s => Text.ofString s.name == t
  | _ => none

/-- The datum that is handed in for the setting of a name, or else the default. The name has to be
that of a setting only where the default is needed. -/
def getDefault (name given : Datum) : Except Fault Datum :=
  if given.isNull then
    match named? name with
    | some s => .ok (.text (Text.ofString s.default))
    | none => .error (if name.isChangeable then .changeable name.kind else .unknownSetting name)
  else .ok given

theorem value_of_given {s : Setting} {given : Datum} (h : given.isNull = false) :
    s.value given = given := by
  simp [value, Datum.orElse, h]

/-- A default is a value, and stands like any other. -/
theorem value_value (s : Setting) (given : Datum) : s.value (s.value given) = s.value given := by
  cases hnull : given.isNull with
  | true =>
    have hdefault : s.value given = .text (Text.ofString s.default) := by
      simp [value, Datum.orElse, hnull]
    rw [hdefault, value_of_given rfl]
  | false => rw [value_of_given hnull, value_of_given hnull]

end Setting

/-- The settings of one call, as they were handed in. -/
structure Settings where
  charset : Datum := .null
  errors : Datum := .null
  fallback : Datum := .null

end HeaderList
