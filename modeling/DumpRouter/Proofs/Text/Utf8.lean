import DumpRouter.Text.Utf8

/-!
# DumpRouter.Proofs.Text.Utf8

A text that is encoded is decoded again.

* `followers_two`, `followers_three`, `followers_four`: the leading bytes of longer characters.
* `headUnit_one`, `headUnit_two`, `headUnit_three`, `headUnit_four`: characters by their lengths.
* `headUnit_encode`: the bytes of a character are one unit, whatever stands behind them.
* `decode?_encode`, `decodeLossy_encode`: the bytes of a text are that text.
-/

namespace DumpRouter
namespace Text
namespace Utf8

theorem unitsOnto_drop (k : Nat) (s : Bytes) : unitsOnto [] k s = units (s.drop k) := by
  induction s generalizing k with
  | nil => cases k <;> rfl
  | cons b s ih =>
    cases k with
    | zero => rfl
    | succ k => exact ih k

/-- A leading byte of the shortest form begins at least at 80, and there are no surrogates. -/
theorem followers_two : ∀ k < 32, 2 ≤ k →
    followers (UInt8.ofNat (k + 0xC0)) = some (0x80, 0xBF, 1) := by
  decide

theorem followers_three : ∀ k < 16,
    followers (UInt8.ofNat (k + 0xE0)) =
      some (if k = 0 then 0xA0 else 0x80, if k = 13 then 0x9F else 0xBF, 2) := by
  decide

theorem followers_four : ∀ k < 5,
    followers (UInt8.ofNat (k + 0xF0)) =
      some (if k = 0 then 0x90 else 0x80, if k = 4 then 0x8F else 0xBF, 3) := by
  decide

theorem toNat_ofNat {k : Nat} (hk : k < 0x100) : (UInt8.ofNat k).toNat = k := by
  rw [UInt8.toNat_ofNat']
  exact Nat.mod_eq_of_lt hk

theorem toNat_tail (v : Nat) : (UInt8.ofNat (v % 64 + 0x80)).toNat = v % 64 + 0x80 :=
  toNat_ofNat (by omega)

theorem continuation_tail (v accepted n w : Nat) (s : Bytes) :
    continuation v accepted (n + 1) (UInt8.ofNat (w % 64 + 0x80) :: s) =
      continuation (v * 64 + w % 64) (accepted + 1) n s := by
  have hlow : (0x80 : UInt8) ≤ UInt8.ofNat (w % 64 + 0x80) := by
    rw [UInt8.le_iff_toNat_le, toNat_tail]
    exact Nat.le_add_left _ _
  have hhigh : UInt8.ofNat (w % 64 + 0x80) ≤ (0xBF : UInt8) := by
    rw [UInt8.le_iff_toNat_le, toNat_tail]
    show w % 64 + 128 ≤ 191
    omega
  rw [continuation, decide_eq_true hlow, decide_eq_true hhigh, Bool.and_self, if_pos rfl,
    toNat_tail, Nat.add_sub_cancel]

/-- The unit at a leading byte that is followed as it has to be. The bits of the character in the
leading byte are those below `bound`. -/
theorem headUnit_lead {b : UInt8} {lo hi : UInt8} {n w : Nat} (bound : Nat)
    (hbound : bound = Nat.pow 2 (5 - n)) (hb : 0x80 ≤ b.toNat)
    (hf : followers b = some (lo, hi, n + 1)) (hlo : lo.toNat ≤ w % 64 + 0x80)
    (hhi : w % 64 + 0x80 ≤ hi.toNat) (s : Bytes) :
    headUnit b (UInt8.ofNat (w % 64 + 0x80) :: s) =
      continuation (b.toNat % bound * 64 + w % 64) 1 n s := by
  have hlow : lo ≤ UInt8.ofNat (w % 64 + 0x80) := by
    rw [UInt8.le_iff_toNat_le, toNat_tail]
    exact hlo
  have hhigh : UInt8.ofNat (w % 64 + 0x80) ≤ hi := by
    rw [UInt8.le_iff_toNat_le, toNat_tail]
    exact hhi
  have hnot : ¬ b < 0x80 := by
    rw [UInt8.not_lt, UInt8.le_iff_toNat_le]
    exact hb
  unfold headUnit
  rw [if_neg hnot, hf]
  dsimp only
  rw [decide_eq_true hlow, decide_eq_true hhigh, Bool.and_self, if_pos rfl, toNat_tail,
    Nat.add_sub_cancel, Nat.add_sub_cancel, hbound]
  congr 3
  simp

/-- What has been read is a character when its value is. -/
theorem continuation_done {c : Char} {v : Nat} (h : v = c.toNat) (accepted : Nat) (s : Bytes) :
    continuation v accepted 0 s = (.char c, accepted) := by
  rw [continuation, h, Char.ofNat_toNat]

section Lengths

/-! A character in one byte, in two, in three and in four. -/

variable {c : Char} (s : Bytes)

theorem headUnit_one (h : c.toNat ≤ 0x7F) :
    headUnit (UInt8.ofNat c.toNat) s = (.char c, 0) := by
  have hb : (UInt8.ofNat c.toNat).toNat = c.toNat := toNat_ofNat (by omega)
  have hlow : UInt8.ofNat c.toNat < 0x80 := by
    rw [UInt8.lt_iff_toNat_lt, hb]
    exact Nat.lt_succ_of_le h
  rw [headUnit, if_pos hlow, hb, Char.ofNat_toNat]

theorem headUnit_two (h : 0x7F < c.toNat) (h' : c.toNat ≤ 0x7FF) :
    headUnit (UInt8.ofNat (c.toNat / 64 + 0xC0)) (UInt8.ofNat (c.toNat % 64 + 0x80) :: s) =
      (.char c, 1) := by
  have hb := toNat_ofNat (k := c.toNat / 64 + 0xC0) (by omega)
  have hf := followers_two (c.toNat / 64) (by omega) (by omega)
  have hhi : c.toNat % 64 + 0x80 ≤ (0xBF : UInt8).toNat := by
    change c.toNat % 64 + 0x80 ≤ 0xBF
    omega
  rw [headUnit_lead 32 rfl (by omega) hf (Nat.le_add_left _ _) hhi]
  refine continuation_done ?_ 1 s
  omega

theorem headUnit_three (h : 0x7FF < c.toNat) (h' : c.toNat ≤ 0xFFFF) :
    headUnit (UInt8.ofNat (c.toNat / 4096 + 0xE0)) (UInt8.ofNat (c.toNat / 64 % 64 + 0x80) ::
      UInt8.ofNat (c.toNat % 64 + 0x80) :: s) = (.char c, 2) := by
  have hvalid : c.toNat < 0xD800 ∨ 0xDFFF < c.toNat ∧ c.toNat < 0x110000 := c.valid
  have hb := toNat_ofNat (k := c.toNat / 4096 + 0xE0) (by omega)
  have hf := followers_three (c.toNat / 4096) (by omega)
  have hlo : (if c.toNat / 4096 = 0 then 0xA0 else 0x80 : UInt8).toNat ≤
      c.toNat / 64 % 64 + 0x80 := by
    split
    · change 0xA0 ≤ c.toNat / 64 % 64 + 0x80
      omega
    · exact Nat.le_add_left _ _
  have hhi : c.toNat / 64 % 64 + 0x80 ≤
      (if c.toNat / 4096 = 13 then 0x9F else 0xBF : UInt8).toNat := by
    split
    · change c.toNat / 64 % 64 + 0x80 ≤ 0x9F
      omega
    · change c.toNat / 64 % 64 + 0x80 ≤ 0xBF
      omega
  rw [headUnit_lead 16 rfl (by omega) hf hlo hhi, continuation_tail]
  refine continuation_done ?_ 2 s
  omega

theorem headUnit_four (h : 0xFFFF < c.toNat) :
    headUnit (UInt8.ofNat (c.toNat / 262144 + 0xF0)) (UInt8.ofNat (c.toNat / 4096 % 64 + 0x80) ::
      UInt8.ofNat (c.toNat / 64 % 64 + 0x80) :: UInt8.ofNat (c.toNat % 64 + 0x80) :: s) =
        (.char c, 3) := by
  have hvalid : c.toNat < 0xD800 ∨ 0xDFFF < c.toNat ∧ c.toNat < 0x110000 := c.valid
  have hb := toNat_ofNat (k := c.toNat / 262144 + 0xF0) (by omega)
  have hf := followers_four (c.toNat / 262144) (by omega)
  have hlo : (if c.toNat / 262144 = 0 then 0x90 else 0x80 : UInt8).toNat ≤
      c.toNat / 4096 % 64 + 0x80 := by
    split
    · change 0x90 ≤ c.toNat / 4096 % 64 + 0x80
      omega
    · exact Nat.le_add_left _ _
  have hhi : c.toNat / 4096 % 64 + 0x80 ≤
      (if c.toNat / 262144 = 4 then 0x8F else 0xBF : UInt8).toNat := by
    split
    · change c.toNat / 4096 % 64 + 0x80 ≤ 0x8F
      omega
    · change c.toNat / 4096 % 64 + 0x80 ≤ 0xBF
      omega
  rw [headUnit_lead 8 rfl (by omega) hf hlo hhi, continuation_tail, continuation_tail]
  refine continuation_done ?_ 3 s
  omega

end Lengths

/-- The bytes of a character are one unit, whatever stands behind them. -/
theorem headUnit_encode (c : Char) (s : Bytes) :
    ∃ b t, String.utf8EncodeChar c = b :: t ∧ headUnit b (t ++ s) = (.char c, t.length) := by
  have hvalid : c.toNat < 0xD800 ∨ 0xDFFF < c.toNat ∧ c.toNat < 0x110000 := c.valid
  have hval : c.val.toNat = c.toNat := rfl
  unfold String.utf8EncodeChar
  dsimp only
  rw [hval]
  by_cases hone : c.toNat ≤ 0x7F
  · rw [if_pos hone]
    exact ⟨_, _, rfl, headUnit_one s hone⟩
  rw [if_neg hone]
  by_cases htwo : c.toNat ≤ 0x7FF
  · have hlead : c.toNat / 64 % 0x20 = c.toNat / 64 := by omega
    rw [if_pos htwo, hlead]
    exact ⟨_, _, rfl, headUnit_two s (by omega) htwo⟩
  rw [if_neg htwo]
  by_cases hthree : c.toNat ≤ 0xFFFF
  · have hlead : c.toNat / 4096 % 0x10 = c.toNat / 4096 := by omega
    rw [if_pos hthree, hlead]
    exact ⟨_, _, rfl, headUnit_three s (by omega) hthree⟩
  · have hlead : c.toNat / 262144 % 0x08 = c.toNat / 262144 := by omega
    rw [if_neg hthree, hlead]
    exact ⟨_, _, rfl, headUnit_four s (by omega)⟩

theorem units_encode (cs : List Char) :
    units (cs.flatMap String.utf8EncodeChar) = cs.map .char := by
  induction cs with
  | nil => rfl
  | cons c cs ih =>
    obtain ⟨b, t, hbytes, hunit⟩ := headUnit_encode c (cs.flatMap String.utf8EncodeChar)
    rw [List.flatMap_cons, hbytes, List.cons_append, units_cons, hunit, unitsOnto_drop,
      List.drop_left, ih, List.map_cons]

end Utf8

theorem decode?_encode (s : String) : decode? (encode s) = some s := by
  have hchars : (s.toList.map Utf8.TextUnit.char).mapM Utf8.TextUnit.char? = some s.toList := by
    induction s.toList with
    | nil => rfl
    | cons c cs ih => simp [ih, Utf8.TextUnit.char?]
  rw [decode?, encode, Utf8.units_encode, hchars, Option.map_some, String.ofList_toList]

theorem decodeLossy_encode (s : String) : decodeLossy (encode s) = s := by
  rw [decodeLossy, encode, Utf8.units_encode, List.map_map]
  exact (congrArg String.ofList (List.map_id _)).trans String.ofList_toList

theorem encode_append (s t : String) : encode (s ++ t) = encode s ++ encode t := by
  unfold encode
  rw [String.toList_append, List.flatMap_append]

end Text
end DumpRouter
