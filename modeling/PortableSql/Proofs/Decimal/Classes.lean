import Mathlib.Algebra.Group.Nat.Defs
import Mathlib.Tactic.SplitIfs
import PortableSql.Decimal.Binary64

/-!
# The classes of doubles

`Binary64.ofFloat` reads the fields of a double with divisions. The numbers, the infinities and the
rest that it tells apart are the ones of the standard library.

* `toNat_unpackExponent`, `toNat_unpackMantissa`, `toNat_unpackSign`: the fields, as numbers.
* `unpack_infinity`, `unpack_notANumber`, `unpack_number`: the class that the fields give.
* **`Binary64.ofFloat_cases`**: each double is in the class in which it is read.
-/

namespace PortableSql.Decimal

open Float.Model Float.Model.UnpackedFloat

/-! ## Fields -/

section Fields

variable (b : BitVec Format.binary64.numBits)

theorem toNat_unpackExponent : (unpackExponent b).toNat = b.toNat / 2 ^ 52 % 2 ^ 11 := by
  change (BitVec.cast _ (b.extractLsb 62 52)).toNat = _
  rw [BitVec.toNat_cast, BitVec.extractLsb_toNat, Nat.shiftRight_eq_div_pow]

theorem toNat_unpackMantissa : (unpackMantissa b).toNat = b.toNat % 2 ^ 52 := by
  change (BitVec.cast _ (b.extractLsb 51 0)).toNat = _
  rw [BitVec.toNat_cast, BitVec.extractLsb_toNat, Nat.shiftRight_zero]

theorem toNat_unpackSign : (unpackSign b).toNat = b.toNat / 2 ^ 63 := by
  have hb : b.toNat < 2 ^ 64 := b.isLt
  have hs : b.toNat / 2 ^ 63 < 2 := by omega
  change (BitVec.cast _ (b.extractLsb 63 63)).toNat = _
  rw [BitVec.toNat_cast, BitVec.extractLsb_toNat, Nat.shiftRight_eq_div_pow]
  exact Nat.mod_eq_of_lt hs

theorem unpackExponent_eq_neg_one : unpackExponent b = -1#_ ↔ b.toNat / 2 ^ 52 % 2 ^ 11 = 2047 := by
  rw [← toNat_unpackExponent, ← BitVec.toNat_inj]
  rfl

theorem unpackMantissa_eq_zero : unpackMantissa b = 0#_ ↔ b.toNat % 2 ^ 52 = 0 := by
  rw [← toNat_unpackMantissa, ← BitVec.toNat_inj]
  rfl

theorem sign_eq_negative : Sign.ofBitVec (unpackSign b) = .negative ↔ b.toNat / 2 ^ 63 = 1 := by
  have hb : b.toNat < 2 ^ 64 := b.isLt
  have h0 : unpackSign b = 0#1 ↔ b.toNat / 2 ^ 63 = 0 := by
    rw [← toNat_unpackSign, ← BitVec.toNat_inj]
    rfl
  unfold Sign.ofBitVec
  split
  case isTrue h =>
    rw [h0.mp h]
    exact ⟨fun hs => (nomatch hs), fun hs => (nomatch hs)⟩
  case isFalse h =>
    rw [h0] at h
    have hone : b.toNat / 2 ^ 63 = 1 := by omega
    exact ⟨fun _ => hone, fun _ => rfl⟩

/-! ## The class of the fields -/

variable {b}

theorem unpack_infinity (he : b.toNat / 2 ^ 52 % 2 ^ 11 = 2047) (hm : b.toNat % 2 ^ 52 = 0) :
    UnpackedFloat.unpack _ b = .infinity (Sign.ofBitVec (unpackSign b)) :=
  (if_pos ((unpackExponent_eq_neg_one b).mpr he)).trans
    (if_pos ((unpackMantissa_eq_zero b).mpr hm))

theorem unpack_notANumber (he : b.toNat / 2 ^ 52 % 2 ^ 11 = 2047) (hm : b.toNat % 2 ^ 52 ≠ 0) :
    UnpackedFloat.unpack _ b = .notANumber :=
  (if_pos ((unpackExponent_eq_neg_one b).mpr he)).trans
    (if_neg (mt (unpackMantissa_eq_zero b).mp hm))

theorem unpack_number (he : b.toNat / 2 ^ 52 % 2 ^ 11 ≠ 2047) :
    (UnpackedFloat.unpack _ b).isNaN = false ∧ (UnpackedFloat.unpack _ b).isInf = false := by
  have hE := mt (unpackExponent_eq_neg_one b).mp he
  by_cases h0 : unpackExponent b = 0#_
  · by_cases hm : unpackMantissa b = 0#_
    · have hu : UnpackedFloat.unpack _ b = .zero _ :=
        (if_neg hE).trans ((if_pos h0).trans (dif_pos hm))
      rw [hu]
      exact ⟨rfl, rfl⟩
    · have hu : UnpackedFloat.unpack _ b = .finite _ _ _ _ :=
        (if_neg hE).trans ((if_pos h0).trans (dif_neg hm))
      rw [hu]
      exact ⟨rfl, rfl⟩
  · have hu : UnpackedFloat.unpack _ b = .finite _ _ _ _ := (if_neg hE).trans (if_neg h0)
    rw [hu]
    exact ⟨rfl, rfl⟩

end Fields

/-! ## Doubles -/

theorem lt_zero_of_infinity {x : Float} {s : Sign} (h : x.toModel.unpack = .infinity s) :
    x < 0 ↔ s = .negative := by
  have h0 : (0 : Float).toModel.unpack = .zero .positive := by rfl
  change decide (x.toModel < (0 : Float).toModel) = true ↔ _
  rw [decide_eq_true_iff]
  change Float.Model.lt _ _ = true ↔ _
  rw [Float.Model.lt, h, h0]
  cases s with
  | positive => exact ⟨fun hx => (Bool.false_ne_true hx).elim, fun hx => (nomatch hx)⟩
  | negative => exact ⟨fun _ => rfl, fun _ => rfl⟩

/-- **The three classes of doubles**: what is not a number, the infinities, and the rest. -/
theorem Binary64.ofFloat_cases (x : Float) :
    (x.isNaN = true ∧ ofFloat x = .nan) ∨
      (x.isNaN = false ∧ x.isInf = true ∧ ofFloat x = .infinite (decide (x < 0))) ∨
      x.isNaN = false ∧ x.isInf = false ∧ ∃ negative m e, ofFloat x = .finite negative m e := by
  by_cases he : x.toBits.toNat / 2 ^ 52 % 2 ^ 11 = 2047
  · by_cases hm : x.toBits.toNat % 2 ^ 52 = 0
    · have hu : x.toModel.unpack = .infinity _ := unpack_infinity he hm
      have hs : x < 0 ↔ x.toBits.toNat / Nat.pow 2 63 = 1 :=
        (lt_zero_of_infinity hu).trans (sign_eq_negative _)
      have hread : ofFloat x = .infinite (x.toBits.toNat / Nat.pow 2 63 == 1) :=
        (if_pos he).trans (if_pos hm)
      refine .inr (.inl ⟨?_, ?_, ?_⟩)
      · rw [Float.isNaN, Float.Model.isNaN, hu]
        rfl
      · rw [Float.isInf, Float.Model.isInf, hu]
        rfl
      · rw [hread, decide_eq_decide.mpr hs]
        rfl
    · have hu : x.toModel.unpack = .notANumber := unpack_notANumber he hm
      refine .inl ⟨?_, (if_pos he).trans (if_neg hm)⟩
      rw [Float.isNaN, Float.Model.isNaN, hu]
      rfl
  · obtain ⟨hnan, hinf⟩ := unpack_number (b := x.toModel.toBits.toBitVec) he
    refine .inr (.inr ⟨hnan, hinf, ?_⟩)
    have hread : ofFloat x = if x.toBits.toNat / Nat.pow 2 52 % Nat.pow 2 11 = 0 then _ else _ :=
      if_neg he
    rw [hread]
    split_ifs
    · exact ⟨_, _, _, rfl⟩
    · exact ⟨_, _, _, rfl⟩

end PortableSql.Decimal
