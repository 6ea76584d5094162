import ConvexCollision.Proofs.Order
import ConvexCollision.Proofs.Single.Value

/-!
# ConvexCollision.Proofs.Single.Sign -- changing the sign twice

A number of single precision is written in 32 bits, and all that is done with it is done with what the
bits stand for. Nothing is lost on the way back and forth: what is in the format is read as it was
written (`unpack_pack`), and the bits are those of what they stand for (`ofParts_parts`). Changing the
sign changes nothing but the sign, and so doing it twice gives the same number, undefined ones included.
-/

namespace ConvexCollision

namespace Single

open Float.Model Float.Model.UnpackedFloat

/-! ## §A Reading what was written -/

/-- What is in the format comes back as it was. -/
theorem unpack_pack {f : UnpackedFloat} (h : Held f) :
    unpack Format.binary32 (pack Format.binary32 f) = f := by
  cases f with
  | notANumber => rfl
  | infinity s => cases s <;> rfl
  | zero s => cases s <;> rfl
  | finite s m e hm => exact unpack_pack_finite h.1 h.2

theorem parts_ofParts {f : UnpackedFloat} (h : Held f) : parts (ofParts f) = f := unpack_pack h

/-! ## §B Writing what was read -/

theorem toBitVec_ofBitVec (b : BitVec 1) : (Sign.ofBitVec b).toBitVec = b := by
  have hcases : b = 0#1 ∨ b = 1#1 := by
    have hlt := b.isLt
    rcases Nat.lt_or_ge b.toNat 1 with h | h
    · exact .inl (BitVec.eq_of_toNat_eq (by simp only [BitVec.toNat_ofNat]; omega))
    · exact .inr (BitVec.eq_of_toNat_eq (by simp only [BitVec.toNat_ofNat]; omega))
  rcases hcases with rfl | rfl <;> rfl

/-- Sign, exponent and mantissa are all of the bits. -/
theorem packComponents_unpack (b : BitVec Format.binary32.numBits) :
    packComponents Format.binary32 (Sign.ofBitVec (unpackSign b)) (unpackExponent b)
      (unpackMantissa b) = b := by
  unfold packComponents
  rw [toBitVec_ofBitVec]
  ext i hi
  simp only [unpackSign, unpackExponent, unpackMantissa, BitVec.getElem_append]
  split
  · simp [BitVec.getLsbD_eq_getElem hi]
  split
  · next hlow hhigh =>
    have hplace : 23 + (i - 23) = i := by omega
    simp [hplace, BitVec.getLsbD_eq_getElem hi]
  · next hlow hhigh =>
    have hlast : i = 31 := by
      have : i < 32 := hi
      omega
    subst hlast
    simp [BitVec.getLsbD_eq_getElem hi]

/-- What three fields stand for is written in these fields again. -/
theorem pack_fields (s : Sign) (e : BitVec 8) (m : BitVec 23) (h : e = -1#8 → m = 0#23) :
    pack Format.binary32 (fields s e m) = packComponents Format.binary32 s e m := by
  have hm : m.toNat < 2 ^ 23 := m.isLt
  unfold fields
  split
  · next hlast =>
    rw [if_pos (h hlast), hlast, h hlast]
    rfl
  next hlast =>
  split
  · next hfirst =>
    split
    · next hpos =>
      -- below the leading bit: the exponent is written as zero
      have hlog : m.toNat.log2 < 23 := (Nat.log2_lt (by omega)).mpr hm
      have hnormal : ¬ m.toNat.log2 + 1 = Format.binary32.mantissaBits := by
        show ¬ m.toNat.log2 + 1 = 24
        omega
      unfold UnpackedFloat.pack
      dsimp only
      rw [if_neg (by decide), if_neg hnormal, BitVec.ofNat_toNat, BitVec.setWidth_eq, hfirst]
    · next hzero =>
      have hnil : m = 0#23 := BitVec.eq_of_toNat_eq (by simp only [BitVec.toNat_ofNat]; omega)
      rw [hfirst, hnil]
      rfl
  · next hfirst =>
    have he : e.toNat < 2 ^ 8 := e.isLt
    have hlast : e.toNat ≠ 255 := fun h => hlast (BitVec.eq_of_toNat_eq h)
    have hbiased : ((e.toNat : Int) - 150 + Format.binary32.exponentBias + (23 : Nat)).toNat =
        e.toNat := by
      show ((e.toNat : Int) - 150 + (127 : Nat) + (23 : Nat)).toNat = _
      omega
    have hlog : (2 ^ 23 + m.toNat).log2 + 1 = Format.binary32.mantissaBits := by
      have hge : 23 ≤ (2 ^ 23 + m.toNat).log2 := (Nat.le_log2 (by omega)).mpr (by omega)
      have hlt : (2 ^ 23 + m.toNat).log2 < 24 := (Nat.log2_lt (by omega)).mpr (by omega)
      show _ = 24
      omega
    have hmantissa : BitVec.ofNat 23 (2 ^ 23 + m.toNat) = m := by
      refine BitVec.eq_of_toNat_eq ?_
      rw [BitVec.toNat_ofNat]
      omega
    unfold UnpackedFloat.pack
    dsimp only
    rw [hbiased, if_neg (by omega), if_pos hlog]
    show packComponents Format.binary32 s (BitVec.ofNat 8 e.toNat) (BitVec.ofNat 23 _) = _
    rw [hmantissa, BitVec.ofNat_toNat, BitVec.setWidth_eq]

/-- The bits of a number are those of what they stand for. -/
theorem pack_unpack {b : BitVec Format.binary32.numBits} (h : Format.binary32.Valid b) :
    pack Format.binary32 (unpack Format.binary32 b) = b := by
  by_cases hnumber : unpackExponent b = -1#8 → unpackMantissa b = 0#23
  · rw [unpack_eq_fields, pack_fields _ _ _ hnumber, packComponents_unpack]
  · -- the undefined number is written in one way only
    obtain ⟨hlast, hmantissa⟩ := Classical.not_imp.mp hnumber
    rw [unpack_eq_fields, fields, if_pos hlast, if_neg hmantissa]
    exact (h.eq_packedNaN hlast hmantissa).symm

theorem ofParts_parts (x : Float32) : ofParts (parts x) = x := by
  obtain ⟨⟨bits, hvalid⟩⟩ := x
  unfold ofParts parts Float32.Model.pack Float32.Model.unpack
  simp only [pack_unpack hvalid]

/-! ## §C Changing the sign -/

theorem held_neg {f : UnpackedFloat} (h : Held f) : Held f.neg := by
  cases f with
  | finite s m e hm => exact h
  | _ => trivial

theorem neg_neg_parts (f : UnpackedFloat) : f.neg.neg = f := by
  cases f with
  | notANumber => rfl
  | infinity s => cases s <;> rfl
  | zero s => cases s <;> rfl
  | finite s m e hm => cases s <;> rfl

theorem parts_neg (x : Float32) : parts (-x) = (parts x).neg := parts_ofParts (held_neg (held_parts x))

end Single

/-- Changing the sign of a number twice gives the number. -/
class Scalar.Negatable (α : Type) [Scalar α] : Prop where
  /-- Twice the sign changed is the same number. -/
  neg_neg : ∀ a : α, - -a = a

instance : Scalar.Negatable Float32 where
  neg_neg x := by
    rw [← Single.ofParts_parts (- -x), Single.parts_neg, Single.parts_neg, Single.neg_neg_parts,
      Single.ofParts_parts]

end ConvexCollision
