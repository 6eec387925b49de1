/-
# FleetSearch.Proofs.Failure -- the bytes of a file as text

Bytes are those of a text or not, and at most of one text.
-/

import FleetSearch.Failure

namespace FleetSearch

theorem fromUTF8?_eq_some_iff {bytes : ByteArray} {text : String} :
    String.fromUTF8? bytes = some text ↔ bytes = text.toUTF8 := by
  unfold String.fromUTF8?
  constructor
  · intro h
    split at h
    · rw [← Option.some.inj h]
      rfl
    · cases h
  · rintro rfl
    exact dif_pos text.isValidUTF8

theorem textOf_eq_ok_iff {bytes : ByteArray} {text : String} :
    textOf bytes = .ok text ↔ bytes = text.toUTF8 := by
  rw [← fromUTF8?_eq_some_iff]
  unfold textOf
  cases String.fromUTF8? bytes with
  | none => simp
  | some read => simp

theorem textOf_eq_error_iff {bytes : ByteArray} {fault : FileFault} :
    textOf bytes = .error fault ↔ (∀ text : String, bytes ≠ text.toUTF8) ∧ fault = .notText := by
  simp only [ne_eq, ← fromUTF8?_eq_some_iff]
  unfold textOf
  cases String.fromUTF8? bytes with
  | none => simp [eq_comm]
  | some read => simp

end FleetSearch
