import HeaderList.Charset.Fallback
import HeaderList.Proofs.Charset.Utf8

/-!
# `HeaderList/Proofs/Charset/Fallback.lean` — which charset reads the octets

Decoding under the name of a charset comes down to one of two charsets, the one that was named or
the fallback. The lemmas here say when it is which.
-/

set_option autoImplicit false

namespace HeaderList.Charset

variable [Decoders] {data : Octets} {charset fallback errors : Datum} {last c : Charset} {t : Text}

omit [Decoders] in
theorem nameOf_default :
    Policy.nameOf .decodingPolicy (Setting.decodeErrors.value .null) =
      .ok (Text.ofString "replace") := rfl

theorem decodeWith_default :
    c.decodeWith (Setting.decodeErrors.value .null) data = c.decode "replace" data := by
  rw [decodeWith, nameOf_default]
  rfl

/-- A charset that decodes the octets needs no fallback, though the fallback has to be known. -/
theorem result_decodeNamed_of_ok
    (hlast : lookup (Setting.fallbackCharset.value fallback) = .ok last)
    (hc : lookup charset = .ok c)
    (hd : c.decodeWith (Setting.decodeErrors.value errors) data = .ok t) :
    (decodeNamed data charset fallback errors).result = .ok t := by
  simp only [decodeNamed, hlast, hc, hd]
  rfl

/-- What has a text was decoded under the charset that was named or under the fallback. -/
theorem decodeWith_of_decodeNamed (h : (decodeNamed data charset fallback errors).result = .ok t) :
    ∃ c, (lookup charset = .ok c ∨ lookup (Setting.fallbackCharset.value fallback) = .ok c) ∧
      c.decodeWith (Setting.decodeErrors.value errors) data = .ok t := by
  unfold decodeNamed at h
  dsimp only at h
  split at h
  · cases h
  · next last hlast =>
    split at h
    · exact ⟨last, Or.inr hlast, h⟩
    · cases h
    · next c hc =>
      split at h
      · split at h
        · cases h
        · exact ⟨last, Or.inr hlast, h⟩
      · exact ⟨c, Or.inl hc, h⟩

/-- UTF-8 reads what was written in it. -/
theorem decode_write {bs : Octets} (hc : c.scheme = .utf8) (h : Utf8.write t = .ok bs)
    (errors : Text) : c.decode errors bs = .ok t := by
  rw [decode]
  split
  · rename_i hempty
    rw [List.isEmpty_iff] at hempty
    subst hempty
    have hread := Utf8.decodeFrom_write h (.ok .strict) 0
    rwa [Form.decodeFrom] at hread
  · simp only [decodeScheme, hc, Utf8.decodeFrom_write h]

end HeaderList.Charset
