import DumpRouter.Proofs.Text.Utf8
import Mathlib.Data.String.Basic

/-!
# DumpRouter.Proofs.Text.ByteOrder

UTF-8 keeps the order of texts: comparing two texts character by character and comparing what they
are written in byte by byte come to the same.
-/

namespace DumpRouter
namespace Text

theorem utf8EncodeChar_append_lt {c d : Char} (h : c < d) (s t : Bytes) :
    String.utf8EncodeChar c ++ s < String.utf8EncodeChar d ++ t := by
  have hv : c.val.toNat < d.val.toNat := h
  have hd : d.val.toNat < 0x110000 := by
    have hvalid := d.valid
    unfold UInt32.isValidChar Nat.isValidChar at hvalid
    omega
  -- the bits above the last twelve, as the digits above the last two
  have h₂ : ∀ n, n / 4096 = n / 64 / 64 := fun n => by omega
  have h₃ : ∀ n, n / 262144 = n / 64 / 64 / 64 := fun n => by omega
  unfold String.utf8EncodeChar
  dsimp only
  generalize c.val.toNat = v at hv
  generalize d.val.toNat = w at hv hd
  -- one case for each pair of lengths
  split_ifs <;>
    simp (disch := omega) only [List.cons_append, List.nil_append, List.cons_lt_cons_iff,
      UInt8.lt_iff_toNat_lt, ← UInt8.toNat_inj, Utf8.toNat_ofNat, h₂, h₃] <;>
    omega

theorem encode_lt_of_lt {s t : String} (h : s < t) : encode s < encode t := by
  have h : s.toList < t.toList := String.lt_iff.1 h
  unfold encode
  generalize s.toList = l, t.toList = m at h
  induction h with
  | @nil c m =>
    obtain ⟨b, bs, hb, -⟩ := Utf8.headUnit_encode c []
    rw [List.flatMap_cons, hb]
    exact List.nil_lt_cons ..
  | rel h => exact utf8EncodeChar_append_lt h ..
  | cons _ ih => exact List.append_left_lt ih

/-- Texts are in the order of their bytes. -/
theorem encode_le_encode_iff {s t : String} : encode s ≤ encode t ↔ s ≤ t := by
  constructor
  · intro h
    exact String.not_lt.1 fun hlt => h (encode_lt_of_lt hlt)
  · intro h hlt
    rcases lt_or_eq_of_le h with hst | rfl
    · exact List.lt_irrefl _ (List.lt_trans hlt (encode_lt_of_lt hst))
    · exact List.lt_irrefl _ hlt

end Text
end DumpRouter
