import Lakehouse.PyJson
import Lakehouse.Storage.Uri
/-!
# Field checks

The checks shared by the arguments of a command and the fields of an
event.
-/

namespace Lakehouse

namespace Ingest

variable {F : Type} (L : Library)

/-- **`require_canonical_text`.** -/
def requireCanonicalText (value : Doc F) (fieldName : Text) (limit : ℕ) : Except PyError Text :=
  let refused := PyError.valueError (fieldName ++
    lit " must be canonical non-control text of at most " ++ Text.ofNat limit ++
    lit " UTF-8 bytes")
  match value with
  | .str t =>
    if t = [] ∨ t ≠ t.strip then .error refused
    else do
      let encoded ← encodeUtf8 t
      if limit < encoded.length ∨ Uri.hasControlCharacters L t then .error refused else .ok t
  | _ => .error refused

theorem requireCanonicalText_eq_ok {value : Doc F} {fieldName : Text} {limit : ℕ} {t : Text}
    (h : requireCanonicalText L value fieldName limit = .ok t) :
    value = .str t ∧ t ≠ [] ∧ t.IsScalar := by
  unfold requireCanonicalText at h
  cases value with
  | str u =>
    simp only at h
    split_ifs at h with hu
    obtain ⟨b, hb, h⟩ := bind_eq_ok.1 h
    split_ifs at h
    cases h
    exact ⟨rfl, fun h => hu (Or.inl h), (Text.utf8_eq_some.1 (encodeUtf8_eq_ok.1 hb)).1⟩
  | null | bool _ | num _ | arr _ | obj _ => cases h

end Ingest

end Lakehouse
