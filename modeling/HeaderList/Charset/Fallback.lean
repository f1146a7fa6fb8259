import HeaderList.Charset.Decode
import HeaderList.Settings
import HeaderList.Traced

/-!
# `HeaderList/Charset/Fallback.lean` — decoding that has somewhere to fall

Octets of a header are decoded under the charset that was named for them. If there is no such
charset, or if it does not decode these octets, a fallback charset takes its place and a notice
says so. The fallback itself has to be known, and it is asked for first. It is the last resort: a
fallback that does not decode the octets is a fault.
-/

set_option autoImplicit false

namespace HeaderList.Charset

variable [Decoders]

/-- The text of octets under the charset of a name. `fallback` and `errors` may be left out. -/
def decodeNamed (data : Octets) (charset fallback errors : Datum) : Traced Text :=
  let errors := Setting.decodeErrors.value errors
  match lookup (Setting.fallbackCharset.value fallback) with
  | .error fault => .fail fault
  | .ok last =>
    match lookup charset with
    | .error (.unknownCharset name) =>
      .noting (.unknownCharset name last.name) (.silent (last.decodeWith errors data))
    | .error fault => .fail fault
    | .ok c =>
      match c.decodeWith errors data with
      | .error (.unicode fault) =>
        if c.name = last.name then .fail (.unicode fault)
        else .noting (.fallback c.name fault last.name) (.silent (last.decodeWith errors data))
      | result => .silent result

end HeaderList.Charset
