import Mathlib.Algebra.Group.Nat.Defs
import TableGrid.Decimal.Reading

/-!
# Decimals are read as finite numbers

Reading a decimal never gives an infinity or NaN.  Floats are unpacked into a significand and a
power of two, and packed into bits again after each operation; `Within` bounds the power of two, and
a number within the largest bound is finite.

## Key results

- `exists_roundWithAccuracy`: what rounding does to a significand
- `exponentLe_roundWithAccuracy`: rounding keeps the exponent bounded
- `isFinite_ofNat`, `isFinite_ofInt`: whole numbers of 64 bits are finite
- `atLeastTwo_powerOfTen`: powers of ten are finite, and no division by one overflows
- `isFinite_scale`: what scaling gives is finite
-/

namespace TableGrid.Decimal

open Float.Model
open Float.Model.UnpackedFloat

variable {x y : Float} {f g : UnpackedFloat} {s : Sign} {m n k : Nat} {e b : Int} {acc : Accuracy}

/-! ## Packing -/

/-- Whether an unpacked number is finite and its exponent is at most a bound. -/
def ExponentLe (b : Int) : UnpackedFloat → Prop
  | .finite _ _ e _ => e ≤ b
  | .zero _ => True
  | .infinity _ | .notANumber => False

/-- Whether an unpacked number is finite and its significand and exponent are bounded. -/
def Within (b : Int) : UnpackedFloat → Prop
  | .finite _ m e _ => m < 2 ^ 53 ∧ e ≤ b
  | .zero _ => True
  | .infinity _ | .notANumber => False

theorem isFinite_of_within (h : Within b f) : f.isFinite = true := by
  cases f with
  | finite _ _ _ _ => rfl
  | zero _ => rfl
  | infinity _ => cases h
  | notANumber => cases h

/-- Where the exponent of packed bits is not the largest one, the number is finite. -/
theorem within_unpack {bits : BitVec Format.binary64.numBits}
    (hexp : ((unpackExponent bits).toNat : Int) ≤ b + 1075) (hmin : -1074 ≤ b) (hmax : b ≤ 971) :
    Within b (UnpackedFloat.unpack Format.binary64 bits) := by
  have hlast : unpackExponent bits ≠ -1#11 := by
    intro heq
    have htoNat : (unpackExponent bits).toNat = 2047 := congrArg BitVec.toNat heq
    omega
  unfold UnpackedFloat.unpack
  change Within b (if unpackExponent bits = -1#11 then _ else if unpackExponent bits = 0#11 then _
    else _)
  rw [if_neg hlast]
  by_cases hzero : unpackExponent bits = 0#11
  · rw [if_pos hzero]
    have htoNat : (unpackExponent bits).toNat = 0 := congrArg BitVec.toNat hzero
    -- Subnormal numbers have the exponent of the smallest normal ones.
    by_cases hmantissa : unpackMantissa bits = 0#52
    · rw [dif_pos hmantissa]
      trivial
    · rw [dif_neg hmantissa]
      refine ⟨Nat.lt_trans (unpackMantissa bits).isLt (by decide), ?_⟩
      change ((unpackExponent bits).toNat : Int) - 1075 + 1 ≤ b
      omega
  · rw [if_neg hzero]
    refine ⟨(1#1 ++ unpackMantissa bits).isLt, ?_⟩
    change ((unpackExponent bits).toNat : Int) - 1075 ≤ b
    omega

theorem within_of_isFinite_unpack {bits : BitVec Format.binary64.numBits}
    (h : (UnpackedFloat.unpack Format.binary64 bits).isFinite = true) :
    Within 971 (UnpackedFloat.unpack Format.binary64 bits) := by
  refine within_unpack ?_ (by decide) (by decide)
  have hlast : unpackExponent bits ≠ -1#11 := by
    intro heq
    unfold UnpackedFloat.unpack at h
    dsimp only at h
    rw [if_pos heq] at h
    split at h <;> cases h
  have hlt : (unpackExponent bits).toNat < 2048 := (unpackExponent bits).isLt
  have hne : (unpackExponent bits).toNat ≠ 2047 := fun heq => hlast (BitVec.eq_of_toNat_eq heq)
  omega

/-- A finite number is within the largest exponent. -/
theorem within_of_isFinite (h : x.isFinite = true) : Within 971 x.toModel.unpack :=
  within_of_isFinite_unpack h

/-- The bits of a finite number: an infinity where its exponent is too large, and a significand
    without its first bit where it has all bits. -/
theorem pack_finite (hm : 0 < m) :
    UnpackedFloat.pack Format.binary64 (.finite s m e hm) =
      if 2048 ≤ (e + 1023 + 52).toNat + 1 then packedInfinity Format.binary64 s
      else if m.log2 + 1 = 53 then
        packComponents Format.binary64 s (BitVec.ofNat 11 (e + 1023 + 52).toNat) (BitVec.ofNat 52 m)
      else packComponents Format.binary64 s 0#11 (BitVec.ofNat 52 m) := rfl

/-- Packing keeps the exponent bounded. -/
theorem within_unpack_pack (h : ExponentLe b f) (hmin : -1074 ≤ b) (hmax : b ≤ 971) :
    Within b (UnpackedFloat.unpack Format.binary64 (UnpackedFloat.pack Format.binary64 f)) := by
  refine within_unpack ?_ hmin hmax
  cases f with
  | infinity _ => cases h
  | notANumber => cases h
  | zero s =>
    show ((unpackExponent (packComponents Format.binary64 s 0 0)).toNat : Int) ≤ b + 1075
    rw [unpackExponent_packComponents]
    change (0 : Int) ≤ b + 1075
    omega
  | finite s m e hm =>
    have hle : e ≤ b := h
    rw [pack_finite, if_neg (by omega)]
    split
    · rw [unpackExponent_packComponents]
      change (((e + 1023 + 52).toNat % 2 ^ 11 : Nat) : Int) ≤ b + 1075
      omega
    · rw [unpackExponent_packComponents]
      change (0 : Int) ≤ b + 1075
      omega

/-- Packing a finite number gives an infinity where its exponent is too large. -/
theorem isInf_unpack_pack {hm : 0 < m} (h : 971 < e) :
    (UnpackedFloat.unpack Format.binary64
      (UnpackedFloat.pack Format.binary64 (.finite s m e hm))).isInf = true := by
  rw [pack_finite, if_pos (by omega)]
  cases s <;> decide

/-! ## Rounding -/

theorem mantissa_shiftRight (em : ExtendedMantissa) (k : Nat) :
    (em >>> k).mantissa = em.mantissa / 2 ^ k := by
  induction k with
  | zero => exact (Nat.div_one _).symm
  | succ k ih =>
    show (ExtendedMantissa.shiftRightOne (em >>> k)).mantissa = _
    rw [ExtendedMantissa.shiftRightOne, ih, Nat.div_div_eq_div_mul, ← Nat.pow_succ]

theorem mantissa_ofMantissaAndAccuracy :
    (ExtendedMantissa.ofMantissaAndAccuracy m acc).mantissa = m := by
  unfold ExtendedMantissa.ofMantissaAndAccuracy
  split <;> rfl

theorem roundedMantissa_bounds (em : ExtendedMantissa) :
    em.mantissa ≤ em.roundedMantissa ∧ em.roundedMantissa ≤ em.mantissa + 1 := by
  unfold ExtendedMantissa.roundedMantissa Accuracy.roundToNearestEven
  split <;> omega

theorem targetExponent_binary64 (t : Int) :
    Format.binary64.targetExponent t = max (t - 53) (-1074) := rfl

/-- How many places are cut off so that a significand has at most 53 bits. -/
def cut (m : Nat) (e : Int) : Nat := (max (totalExponent m e - 53) (-1074) - e).toNat

/-- Rounding cuts places off, rounds, and cuts another place off if there is one bit more then. -/
theorem exists_roundWithAccuracy (s : Sign) (m : Nat) (e : Int) (acc : Accuracy) :
    ∃ r, m / 2 ^ cut m e ≤ r ∧ r ≤ m / 2 ^ cut m e + 1 ∧
      (r / 2 ^ cut r (e + cut m e) = 0 ∧
          roundWithAccuracy Format.binary64 s m e acc = .zero s ∨
        ∃ hm, roundWithAccuracy Format.binary64 s m e acc =
          .finite s (r / 2 ^ cut r (e + cut m e)) (e + cut m e + cut r (e + cut m e)) hm) := by
  have hbounds := roundedMantissa_bounds (ExtendedMantissa.ofMantissaAndAccuracy m acc >>> cut m e)
  rw [mantissa_shiftRight, mantissa_ofMantissaAndAccuracy] at hbounds
  refine ⟨_, hbounds.1, hbounds.2, ?_⟩
  generalize hr :
    (ExtendedMantissa.ofMantissaAndAccuracy m acc >>> cut m e).roundedMantissa = r
  have hround : roundWithAccuracy Format.binary64 s m e acc =
      if h : (ExtendedMantissa.ofMantissaAndAccuracy r .exact >>> cut r (e + cut m e)).mantissa = 0
      then .zero s
      else .finite s _ (e + cut m e + cut r (e + cut m e)) (Nat.pos_of_ne_zero h) := by
    rw [← hr]
    rfl
  have hcut : (ExtendedMantissa.ofMantissaAndAccuracy r .exact >>> cut r (e + cut m e)).mantissa =
      r / 2 ^ cut r (e + cut m e) := by
    rw [mantissa_shiftRight, mantissa_ofMantissaAndAccuracy]
  rw [hround]
  generalize
    (ExtendedMantissa.ofMantissaAndAccuracy r .exact >>> cut r (e + cut m e)).mantissa = m' at hcut
  subst hcut
  by_cases hzero : r / 2 ^ cut r (e + cut m e) = 0
  · exact .inl ⟨hzero, dif_pos hzero⟩
  · exact .inr ⟨Nat.pos_of_ne_zero hzero, dif_neg hzero⟩

/-- Rounding keeps the exponent bounded: the significand may grow to one more bit, which moves the
    exponent by one. -/
theorem exponentLe_roundWithAccuracy (htotal : totalExponent m e ≤ b + 52) (he : e < b)
    (hmin : -1074 < b) : ExponentLe b (roundWithAccuracy Format.binary64 s m e acc) := by
  obtain ⟨r, -, hr, ⟨-, hzero⟩ | ⟨hm, hfinite⟩⟩ := exists_roundWithAccuracy s m e acc
  · rw [hzero]
    trivial
  rw [hfinite]
  -- At most 53 bits are left, and rounding up reaches at most the next power of two.
  have hrounded : r ≤ 2 ^ 53 := by
    have hlt : m < 2 ^ (cut m e + 53) := by
      refine Nat.lt_of_lt_of_le Nat.lt_log2_self (Nat.pow_le_pow_right (by decide) ?_)
      unfold cut totalExponent
      omega
    have hdiv : m / 2 ^ cut m e < 2 ^ 53 := by
      rw [Nat.div_lt_iff_lt_mul (Nat.two_pow_pos _), ← Nat.pow_add, Nat.add_comm]
      exact hlt
    omega
  have hlog : r.log2 ≤ 53 := by
    refine Nat.le_of_lt_succ ?_
    by_cases hzero : r = 0
    · subst hzero
      decide
    · rw [Nat.log2_lt hzero]
      omega
  show e + cut m e + cut r (e + cut m e) ≤ b
  unfold cut
  unfold totalExponent at htotal ⊢
  omega

/-- A number of at least 53 bits is rounded to 53 bits, and gets no smaller exponent. -/
theorem exists_normal (s : Sign) (acc : Accuracy) (hbits : 52 ≤ m.log2) (he : -1074 ≤ e) :
    ∃ m' e' hm, roundWithAccuracy Format.binary64 s m e acc = .finite s m' e' hm ∧
      m'.log2 = 52 ∧ m.log2 + e ≤ e' + 52 := by
  obtain ⟨r, hlow, hhigh, hround⟩ := exists_roundWithAccuracy s m e acc
  have hcut : cut m e = m.log2 - 52 := by
    unfold cut totalExponent
    omega
  have hne : m ≠ 0 := by
    rintro rfl
    rw [Nat.log2_zero] at hbits
    omega
  have hbounds : 2 ^ 52 ≤ r ∧ r ≤ 2 ^ 53 := by
    rw [hcut] at hlow hhigh
    have hle : 2 ^ 52 ≤ m / 2 ^ (m.log2 - 52) := by
      rw [Nat.le_div_iff_mul_le (Nat.two_pow_pos _), ← Nat.pow_add, Nat.add_sub_cancel' hbits]
      exact Nat.log2_self_le hne
    have hlt : m / 2 ^ (m.log2 - 52) < 2 ^ 53 := by
      rw [Nat.div_lt_iff_lt_mul (Nat.two_pow_pos _), ← Nat.pow_add,
        show 53 + (m.log2 - 52) = m.log2 + 1 by omega]
      exact Nat.lt_log2_self
    omega
  -- Only a significand of all ones that is rounded up has one bit more.
  have hlast : (r / 2 ^ cut r (e + cut m e)).log2 = 52 := by
    rcases Nat.lt_or_eq_of_le hbounds.2 with hlt | rfl
    · have hlog : r.log2 = 52 := (Nat.log2_eq_iff (by omega)).2 ⟨hbounds.1, hlt⟩
      have hzero : cut r (e + cut m e) = 0 := by
        unfold cut totalExponent
        omega
      rw [hzero, Nat.pow_zero, Nat.div_one, hlog]
    · have hone : cut (2 ^ 53) (e + cut m e) = 1 := by
        unfold cut totalExponent
        rw [Nat.log2_two_pow]
        omega
      rw [hone]
      decide
  rcases hround with ⟨hzero, -⟩ | ⟨hm, hfinite⟩
  · rw [hzero] at hlast
    cases hlast
  · exact ⟨_, _, hm, hfinite, hlast, by omega⟩

/-! ## Operations -/

theorem totalExponent_le (hm : m < 2 ^ 53) (he : e ≤ b) : totalExponent m e ≤ b + 53 := by
  have hlog : m.log2 ≤ 52 := by
    refine Nat.le_of_lt_succ ?_
    by_cases hzero : m = 0
    · subst hzero
      decide
    · rwa [Nat.log2_lt hzero]
  unfold totalExponent
  omega

theorem totalExponent_mul (hm : 0 < m) (hn : 0 < n) (e e' : Int) :
    totalExponent (m * n) (e + e') ≤ totalExponent m e + totalExponent n e' := by
  have hlog : (m * n).log2 < m.log2 + 1 + (n.log2 + 1) := by
    rw [Nat.log2_lt (Nat.mul_ne_zero (by omega) (by omega)), Nat.pow_add]
    exact Nat.mul_lt_mul'' Nat.lt_log2_self Nat.lt_log2_self
  unfold totalExponent
  omega

/-- A quotient to enough places has at most one digit more than the exponents say. -/
theorem totalExponent_div (hn : 0 < n) (hk : (k : Int) = e - b) :
    totalExponent ((m <<< k) / n) b ≤ max (totalExponent m e - n.log2) (b + 1) := by
  by_cases hzero : (m <<< k) / n = 0
  · rw [hzero]
    unfold totalExponent
    rw [Nat.log2_zero]
    omega
  · -- The quotient times the divisor is at most the dividend, and so are their leading bits.
    have hlog : ((m <<< k) / n).log2 + n.log2 < m.log2 + 1 + k := by
      rw [← Nat.pow_lt_pow_iff_right (show 1 < 2 by decide)]
      calc 2 ^ (((m <<< k) / n).log2 + n.log2)
          = 2 ^ ((m <<< k) / n).log2 * 2 ^ n.log2 := Nat.pow_add _ _ _
        _ ≤ (m <<< k) / n * n :=
          Nat.mul_le_mul (Nat.log2_self_le hzero) (Nat.log2_self_le (by omega))
        _ ≤ m <<< k := Nat.div_mul_le_self _ _
        _ = m * 2 ^ k := Nat.shiftLeft_eq _ _
        _ < 2 ^ (m.log2 + 1) * 2 ^ k :=
          Nat.mul_lt_mul_of_pos_right Nat.lt_log2_self (Nat.two_pow_pos k)
        _ = 2 ^ (m.log2 + 1 + k) := (Nat.pow_add _ _ _).symm
    unfold totalExponent
    omega

theorem totalExponent_shiftLeft (m k : Nat) (e : Int) :
    totalExponent (m <<< k) (e - k) ≤ totalExponent m e := by
  have hlog : (m <<< k).log2 ≤ m.log2 + k := by
    refine Nat.le_of_lt_succ ?_
    by_cases hzero : m = 0
    · subst hzero
      rw [Nat.zero_shiftLeft, Nat.log2_zero]
      omega
    · rw [Nat.shiftLeft_eq, Nat.log2_lt (Nat.mul_ne_zero hzero (Nat.ne_of_gt (Nat.two_pow_pos k))),
        Nat.succ_eq_add_one, Nat.add_right_comm, Nat.pow_add]
      exact Nat.mul_lt_mul_of_pos_right Nat.lt_log2_self (Nat.two_pow_pos k)
  unfold totalExponent
  omega

theorem exponentLe_round (htotal : totalExponent m e ≤ b + 52) (he : e < b) (hmin : -1074 < b) :
    ExponentLe b (UnpackedFloat.round Format.binary64 s m e) := by
  unfold UnpackedFloat.round decreaseExponent
  refine exponentLe_roundWithAccuracy (Int.le_trans (totalExponent_shiftLeft m _ e) htotal) ?_ hmin
  omega

theorem totalExponent_word (h : n < 2 ^ 64) : totalExponent n 0 ≤ 65 := by
  have hlog : n.log2 < 65 := by
    by_cases hzero : n = 0
    · subst hzero
      decide
    · rw [Nat.log2_lt hzero]
      omega
  unfold totalExponent
  omega

theorem exponentLe_ofNat (h : n < 2 ^ 64) :
    ExponentLe 13 (UnpackedFloat.ofNat Format.binary64 n) := by
  unfold UnpackedFloat.ofNat UnpackedFloat.ofInt UnpackedFloat.normalize
  split
  · rename_i hlt
    rw [Int.compare_eq_lt] at hlt
    omega
  · trivial
  · exact exponentLe_round (totalExponent_word h) (by decide) (by decide)

theorem exponentLe_mul_finite {s' : Sign} {e' : Int} (hm : 0 < m) (hn : 0 < n)
    (htotal : totalExponent m e + totalExponent n e' ≤ b + 52) (he : e + e' < b)
    (hmin : -1074 < b) :
    ExponentLe b (mul Format.binary64 (.finite s m e hm) (.finite s' n e' hn)) :=
  exponentLe_roundWithAccuracy (Int.le_trans (totalExponent_mul hm hn e e') htotal) he hmin

theorem exponentLe_mul {b' : Int} (hf : Within b f) (hg : Within b' g) (hmin : -1128 < b + b') :
    ExponentLe (b + b' + 54) (mul Format.binary64 f g) := by
  cases f with
  | infinity _ => cases hf
  | notANumber => cases hf
  | zero _ =>
    cases g with
    | infinity _ => cases hg
    | notANumber => cases hg
    | zero _ => trivial
    | finite _ _ _ _ => trivial
  | finite s m e hm =>
    cases g with
    | infinity _ => cases hg
    | notANumber => cases hg
    | zero _ => trivial
    | finite s' n e' hn =>
      have htotal := totalExponent_le hf.1 hf.2
      have htotal' := totalExponent_le hg.1 hg.2
      have he := hf.2
      have he' := hg.2
      exact exponentLe_mul_finite hm hn (by omega) (by omega) (by omega)

theorem exponentLe_ofScientific (h : n < 2 ^ 64) :
    ExponentLe 20 (UnpackedFloat.ofScientific Format.binary64 n 0) := by
  unfold UnpackedFloat.ofScientific
  by_cases hzero : n = 0
  · rw [dif_pos hzero]
    trivial
  · rw [dif_neg hzero]
    have hsmall : ¬ (0 : Int) < -((2 ^ 11 : Int) + n.log2) := by omega
    rw [if_neg (by decide), if_neg hsmall, if_pos (Int.le_refl 0)]
    have hword := totalExponent_word h
    have hshift : totalExponent (n <<< 53) (-53) ≤ totalExponent n 0 :=
      totalExponent_shiftLeft n 53 0
    have hone : totalExponent 1 0 = 1 := rfl
    refine exponentLe_mul_finite (b := 20) _ _ ?_ ?_ ?_
    · show totalExponent (n <<< 53) (-53) + totalExponent 1 0 ≤ 20 + 52
      omega
    · show (-53 : Int) + 0 < 20
      decide
    · decide

/-- Whether an unpacked number, its sign apart, is finite and at least two. -/
def atLeastTwo : UnpackedFloat → Bool
  | .finite _ m e _ => 1 ≤ m.log2 + e
  | _ => false

/-- A quotient by a number of at least two has no larger exponent. -/
theorem exponentLe_div (hf : Within 971 f) (hg : atLeastTwo g = true) :
    ExponentLe 971 (div Format.binary64 f g) := by
  cases g with
  | infinity _ | notANumber | zero _ => cases hg
  | finite s' n e' hn =>
  cases f with
  | infinity _ => cases hf
  | notANumber => cases hf
  | zero _ => trivial
  | finite s' m e hm =>
    have hlog : 1 ≤ n.log2 + e' := of_decide_eq_true hg
    have htotal := totalExponent_le hf.1 hf.2
    refine exponentLe_roundWithAccuracy ?_ ?_ (by decide)
    · refine Int.le_trans (totalExponent_div (e := e - e') hn ?_) ?_
      · omega
      · rw [targetExponent_binary64]
        unfold totalExponent at htotal ⊢
        omega
    · rw [targetExponent_binary64]
      unfold totalExponent at htotal ⊢
      omega

/-! ## Numbers -/

theorem isFinite_ofModel_pack (h : ExponentLe b f) (hmin : -1074 ≤ b) (hmax : b ≤ 971) :
    (Float.ofModel (Float.Model.pack f)).isFinite = true :=
  isFinite_of_within (within_unpack_pack h hmin hmax)

theorem isFinite_ofNat (h : n < 2 ^ 64) : (Float.ofNat n).isFinite = true := by
  unfold Float.ofNat
  show (Float.ofScientific n false 0).isFinite = true
  unfold Float.ofScientific
  split
  · have hone : Within (-52)
        (getElem Float.exactlyRepresentablePowersOfTen 0 (by decide)).toModel.unpack := by
      show Within (-52) (.finite .positive (2 ^ 52) (-52) (by decide))
      exact ⟨by decide, by decide⟩
    have hword := exponentLe_ofNat (n.toUInt64.toNat_lt)
    exact isFinite_ofModel_pack
      (exponentLe_mul (within_unpack_pack hword (by decide) (by decide)) hone (by decide))
      (by decide) (by decide)
  · exact isFinite_ofModel_pack (exponentLe_ofScientific h) (by decide) (by decide)

theorem isFinite_neg (h : x.isFinite = true) : (-x).isFinite = true := by
  have hx := within_of_isFinite h
  refine isFinite_ofModel_pack (b := 971) ?_ (by decide) (by decide)
  show ExponentLe 971 x.toModel.unpack.neg
  cases hf : x.toModel.unpack with
  | infinity _ => rw [hf] at hx; cases hx
  | notANumber => rw [hf] at hx; cases hx
  | zero _ => trivial
  | finite s m e hm =>
    rw [hf] at hx
    exact hx.2

theorem isFinite_ofInt {i : Int} (h : i.natAbs < 2 ^ 64) : (Float.ofInt i).isFinite = true := by
  cases i with
  | ofNat n => exact isFinite_ofNat h
  | negSucc n => exact isFinite_neg (isFinite_ofNat h)

/-! ## Scaling -/

/-- Packing keeps a significand of 53 bits, and an exponent that is neither small nor too large. -/
theorem atLeastTwo_unpack_pack {hm : 0 < m} (hlog : m.log2 = 52) (hmin : 1 ≤ e) (hmax : e ≤ 970) :
    atLeastTwo (UnpackedFloat.unpack Format.binary64
      (UnpackedFloat.pack Format.binary64 (.finite s m e hm))) = true := by
  have hexp : (BitVec.ofNat 11 (e + 1023 + 52).toNat).toNat = (e + 1023 + 52).toNat := by
    rw [BitVec.toNat_ofNat]
    omega
  have hlast : BitVec.ofNat 11 (e + 1023 + 52).toNat ≠ -1#11 := by
    intro heq
    have htoNat : (e + 1023 + 52).toNat = 2047 := hexp ▸ congrArg BitVec.toNat heq
    omega
  have hzero : BitVec.ofNat 11 (e + 1023 + 52).toNat ≠ 0#11 := by
    intro heq
    have htoNat : (e + 1023 + 52).toNat = 0 := hexp ▸ congrArg BitVec.toNat heq
    omega
  rw [pack_finite, if_neg (by omega), if_pos (by omega)]
  unfold UnpackedFloat.unpack
  dsimp only
  rw [unpackExponent_packComponents, if_neg hlast, if_neg hzero]
  refine decide_eq_true ?_
  change (1 : Int) ≤ _ + (((BitVec.ofNat 11 (e + 1023 + 52).toNat).toNat : Int) - 1075)
  omega

theorem ofScientific_one (hk : k ≤ 308) :
    UnpackedFloat.ofScientific Format.binary64 1 k =
      roundWithAccuracy Format.binary64 .positive ((1 <<< 53) * 10 ^ k) (-53) .exact := by
  have hlarge : ¬ (k : Int) > 2 ^ 11 := by omega
  have hsmall : ¬ (k : Int) < -((2 ^ 11 : Int) + Nat.log2 1) := by omega
  unfold UnpackedFloat.ofScientific
  rw [dif_neg Nat.one_ne_zero, if_neg hlarge, if_neg hsmall, if_pos (Int.natCast_nonneg k)]
  rfl

theorem log2_powerOfTen (hmin : 23 ≤ k) (hmax : k ≤ 307) :
    129 ≤ ((1 <<< 53) * 10 ^ k).log2 ∧ ((1 <<< 53) * 10 ^ k).log2 < 1073 := by
  have hne : (1 <<< 53) * 10 ^ k ≠ 0 :=
    Nat.mul_ne_zero (by decide) (Nat.ne_of_gt (Nat.pow_pos (by decide)))
  have hle {i j : Nat} (h : i ≤ j) : (1 <<< 53) * 10 ^ i ≤ (1 <<< 53) * 10 ^ j :=
    Nat.mul_le_mul_left _ (Nat.pow_le_pow_right (by decide) h)
  rw [Nat.le_log2 hne, Nat.log2_lt hne]
  exact ⟨Nat.le_trans (by decide) (hle hmin), Nat.lt_of_le_of_lt (hle hmax) (by decide +kernel)⟩

/-- All powers of ten that numbers are scaled by are at least two, but for one itself. -/
theorem atLeastTwo_powerOfTen (hpos : 0 < k) (hk : k ≤ 308) :
    atLeastTwo (powerOfTen k).toModel.unpack = true := by
  by_cases hsmall : k ≤ 22
  · have hcheck : ∀ k ∈ List.range 22, atLeastTwo (powerOfTen (k + 1)).toModel.unpack = true := by
      decide +kernel
    have h := hcheck (k - 1) (List.mem_range.2 (by omega))
    rwa [Nat.sub_add_cancel hpos] at h
  by_cases hlarge : k = 308
  · -- Rounding might have made this one too large.
    subst hlarge
    decide +kernel
  obtain ⟨hbits, hlog⟩ := log2_powerOfTen (k := k) (by omega) (by omega)
  have hle : ExponentLe 970
      (roundWithAccuracy Format.binary64 .positive ((1 <<< 53) * 10 ^ k) (-53) .exact) := by
    refine exponentLe_roundWithAccuracy ?_ (by decide) (by decide)
    unfold totalExponent
    omega
  obtain ⟨m, e, hm, hround, hm', he⟩ := exists_normal .positive .exact
    (Nat.le_trans (by decide) hbits) (show -1074 ≤ (-53 : Int) by decide)
  unfold powerOfTen Float.ofScientific
  rw [dif_neg fun h => hsmall h.2]
  show atLeastTwo (UnpackedFloat.unpack Format.binary64 (UnpackedFloat.pack Format.binary64
    (UnpackedFloat.ofScientific Format.binary64 1 k))) = true
  rw [hround] at hle
  rw [ofScientific_one hk, hround]
  exact atLeastTwo_unpack_pack hm' (by omega) hle

theorem isFinite_powerOfTen (hk : k ≤ 308) : (powerOfTen k).isFinite = true := by
  cases k with
  | zero => decide +kernel
  | succ k =>
    have h := atLeastTwo_powerOfTen (Nat.succ_pos k) hk
    show (powerOfTen (k + 1)).toModel.unpack.isFinite = true
    cases hf : (powerOfTen (k + 1)).toModel.unpack with
    | finite _ _ _ _ => rfl
    | infinity _ | notANumber | zero _ =>
      rw [hf] at h
      cases h

theorem isFinite_div (hx : x.isFinite = true) (hk : 0 < k) (hle : k ≤ 308) :
    (x / powerOfTen k).isFinite = true :=
  isFinite_ofModel_pack
    (exponentLe_div (within_of_isFinite hx) (atLeastTwo_powerOfTen hk hle)) (by decide) (by decide)

theorem isFinite_divide (hx : x.isFinite = true) (hk : 0 < k) : (divide x k).isFinite = true := by
  fun_induction divide x k with
  | case1 x k hle => exact isFinite_div hx hk hle
  | case2 x k hlt hzero => exact hx
  | case3 x k hlt hzero ih =>
    exact ih (isFinite_div hx (by decide) (by decide)) (by omega)

/-- A product of finite numbers is finite unless it is an infinity. -/
theorem isFinite_mul (hx : x.isFinite = true) (hy : y.isFinite = true)
    (hinf : (x * y).isInf = false) : (x * y).isFinite = true := by
  have hmul := exponentLe_mul (within_of_isFinite hx) (within_of_isFinite hy) (by decide)
  refine isFinite_ofModel_pack (b := 971) ?_ (by decide) (by decide)
  change (UnpackedFloat.unpack Format.binary64 (UnpackedFloat.pack Format.binary64
    (mul Format.binary64 x.toModel.unpack y.toModel.unpack))).isInf = false at hinf
  generalize mul Format.binary64 x.toModel.unpack y.toModel.unpack = f at hmul hinf
  cases f with
  | infinity _ => cases hmul
  | notANumber => cases hmul
  | zero _ => trivial
  | finite s m e hm =>
    refine Int.not_lt.1 fun hlt => ?_
    rw [isInf_unpack_pack hlt] at hinf
    cases hinf

theorem isFinite_scale (hx : x.isFinite = true) (h : scale x e = some y) : y.isFinite = true := by
  unfold scale at h
  split at h
  · obtain rfl := Option.some.inj h
    exact isFinite_divide hx (by omega)
  · split at h
    · dsimp only at h
      split at h
      · cases h
      · rename_i hinf
        obtain rfl := Option.some.inj h
        exact isFinite_mul hx (isFinite_powerOfTen (by omega)) (Bool.eq_false_iff.2 hinf)
    · split at h
      · obtain rfl := Option.some.inj h
        exact hx
      · cases h

end TableGrid.Decimal
