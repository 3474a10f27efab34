import Lightpath.Proofs.Numeric.Bits
import Mathlib.Algebra.Order.Ring.Nat

/-!
# Sums of doubles

Rounding never takes a sum of two doubles that are not negative below either of them: what is
rounded is at least the significand of the first one at its exponent, which is representable
(`IsScaled.round_ge`). So the bits of a double do not go down when a weight is added (`toBits_add`).
-/

namespace Lightpath

open Float.Model (Format UnpackedFloat totalExponent)
open Float.Model.UnpackedFloat

/-! ## Shifting -/

/-- A significand with nothing behind its last digit. -/
def exactly (m : Nat) : ExtendedMantissa := ⟨m, false, false⟩

@[simp]
theorem mantissa_exactly (m : Nat) : (exactly m).mantissa = m := rfl

theorem mantissa_shiftRight (em : ExtendedMantissa) (n : Nat) :
    (em >>> n).mantissa = em.mantissa / 2 ^ n := by
  show (n.repeat ExtendedMantissa.shiftRightOne em).mantissa = _
  induction n with
  | zero => exact (Nat.div_one _).symm
  | succ n ih =>
    show (n.repeat ExtendedMantissa.shiftRightOne em).mantissa / 2 = _
    rw [ih, Nat.div_div_eq_div_mul, Nat.pow_succ]

/-- Rounding gives a significand or the next one. -/
theorem roundedMantissa_mem (em : ExtendedMantissa) :
    em.mantissa ≤ em.roundedMantissa ∧ em.roundedMantissa ≤ em.mantissa + 1 := by
  obtain ⟨m, roundBit, stickyBit⟩ := em
  cases roundBit with
  | false => cases stickyBit <;> exact ⟨le_rfl, Nat.le_succ m⟩
  | true =>
    cases stickyBit with
    | false =>
      show m ≤ m + m % 2 ∧ m + m % 2 ≤ m + 1
      omega
    | true => exact ⟨Nat.le_succ m, le_rfl⟩

/-- The exponent that a rounded significand gets. -/
theorem targetExponent_eq (m : Nat) (e : Int) :
    Format.binary64.targetExponent (totalExponent m e) = max ((m.log2 : Int) + e - 52) (-1074) := by
  show max ((m.log2 : Int) + 1 + e - 53) (-1074) = _
  congr 1
  omega

theorem shiftToTargetExponent_eq (m : Nat) (e : Int) {n : Nat}
    (hn : (max ((m.log2 : Int) + e - 52) (-1074) - e).toNat = n) :
    shiftToTargetExponent Format.binary64 m e .exact = (exactly m >>> n, e + n) := by
  unfold shiftToTargetExponent shiftToExponent
  simp only [targetExponent_eq, hn]
  rfl

/-! ## Rounding -/

section Rounding

variable {sum : Nat} {k : Int}

/-- What is shifted to the exponent of the sum has at most 53 digits. -/
theorem div_lt_of_log2_le {n : Nat} (h : sum.log2 ≤ 52 + n) : sum / 2 ^ n < 2 ^ 53 := by
  rw [Nat.div_lt_iff_lt_mul (Nat.two_pow_pos n), ← Nat.pow_add]
  calc sum < 2 ^ (sum.log2 + 1) := Nat.lt_log2_self
    _ ≤ 2 ^ (53 + n) := Nat.pow_le_pow_right Nat.two_pos (by omega)

/-- The leading digit is among them if the exponent is not the least one. -/
theorem le_div_of_log2_eq {n : Nat} (hne : sum ≠ 0) (h : sum.log2 = 52 + n) :
    2 ^ 52 ≤ sum / 2 ^ n := by
  rw [Nat.le_div_iff_mul_le (Nat.two_pow_pos n), ← Nat.pow_add, ← h]
  exact Nat.log2_self_le hne

/-- A significand that rounding carried to 54 digits is shifted once more; its bits are as if it
was not. -/
theorem exists_isScaled_of_rounded {r : Nat} {e : Int} (hpos : 0 < r) (hle : r ≤ 2 ^ 53)
    (hleast : -1074 ≤ e) (hlead : 2 ^ 52 ≤ r ∨ e = -1074) :
    ∃ m' e', IsScaled m' e' ∧
      shiftToTargetExponent Format.binary64 r e .exact = (exactly m', e') ∧
      wordOf m' e' = wordOf r e := by
  by_cases hlt : r < 2 ^ 53
  · have hlog : r.log2 < 53 := (Nat.log2_lt hpos.ne').2 hlt
    refine ⟨r, e, ⟨hpos, hlt, hleast, hlead⟩, ?_, rfl⟩
    rw [shiftToTargetExponent_eq r e (n := 0) (by omega)]
    exact Prod.ext rfl (Int.add_zero e)
  · obtain rfl : r = 2 ^ 53 := by omega
    refine ⟨2 ^ 52, e + 1, ⟨by decide, by decide, by omega, .inl le_rfl⟩, ?_, ?_⟩
    · rw [shiftToTargetExponent_eq (2 ^ 53) e (n := 1) (by rw [Nat.log2_two_pow]; omega)]
      rfl
    · unfold wordOf
      omega

/-- Rounding shifts to the exponent of the result, rounds, and shifts once more after a carry. -/
theorem roundWithAccuracy_eq {m r m' : Nat} {e e₁ e' : Int} {em : ExtendedMantissa}
    (hfirst : shiftToTargetExponent Format.binary64 m e .exact = (em, e₁))
    (hr : em.roundedMantissa = r)
    (hcarry : shiftToTargetExponent Format.binary64 r e₁ .exact = (exactly m', e'))
    (hpos : 0 < m') :
    roundWithAccuracy Format.binary64 .positive m e .exact = .finite .positive m' e' hpos := by
  unfold roundWithAccuracy
  rw [hfirst]
  show (match shiftToTargetExponent Format.binary64 em.roundedMantissa e₁ .exact with
    | (final, exponent) =>
      if h : final.mantissa = 0 then UnpackedFloat.zero .positive
      else .finite .positive final.mantissa exponent (Nat.pos_of_ne_zero h)) = _
  rw [hr, hcarry]
  exact dif_neg hpos.ne'

/-- The significand and exponent of a rounded sum. -/
theorem round_eq (hne : sum ≠ 0) (hk : -1074 ≤ k)
    (hshift : k ≤ max ((sum.log2 : Int) + k - 52) (-1074)) :
    ∃ m' e', ∃ h' : IsScaled m' e',
      UnpackedFloat.round Format.binary64 .positive sum k = .finite .positive m' e' h'.pos ∧
        wordOf (sum / 2 ^ (max ((sum.log2 : Int) + k - 52) (-1074) - k).toNat)
          (max ((sum.log2 : Int) + k - 52) (-1074)) ≤ wordOf m' e' := by
  generalize hn : (max ((sum.log2 : Int) + k - 52) (-1074) - k).toNat = n
  have he : max ((sum.log2 : Int) + k - 52) (-1074) = k + n := by omega
  rw [he]
  have hlt : sum / 2 ^ n < 2 ^ 53 := div_lt_of_log2_le (by omega)
  obtain ⟨hlow, hhigh⟩ := roundedMantissa_mem (exactly sum >>> n)
  rw [mantissa_shiftRight, mantissa_exactly] at hlow hhigh
  generalize hr : (exactly sum >>> n).roundedMantissa = r at hlow hhigh
  have hlead : 2 ^ 52 ≤ sum / 2 ^ n ∨ k + (n : Int) = -1074 := by
    by_cases hleast : k + (n : Int) = -1074
    · exact .inr hleast
    · exact .inl (le_div_of_log2_eq hne (by omega))
  have hpos : 0 < r := by
    rcases hlead with hlead | hleast
    · omega
    · -- nothing is shifted out at the least exponent
      obtain rfl : n = 0 := by omega
      rw [Nat.pow_zero, Nat.div_one] at hlow
      omega
  obtain ⟨m', e', h', hcarry, hword⟩ := exists_isScaled_of_rounded (e := k + n) hpos (by omega)
    (by omega) (hlead.imp_left fun h => h.trans hlow)
  refine ⟨m', e', h', ?_, ?_⟩
  · have hdecrease : decreaseExponent sum k (k + n) = (sum, k) := by
      unfold decreaseExponent
      have hzero : (k - (k + n)).toNat = 0 := by omega
      rw [hzero]
      exact Prod.ext rfl (Int.sub_zero k)
    show (match decreaseExponent sum k (Format.binary64.targetExponent (totalExponent sum k)) with
      | (m, e) => roundWithAccuracy Format.binary64 .positive m e .exact) = _
    rw [targetExponent_eq, he, hdecrease]
    exact roundWithAccuracy_eq (shiftToTargetExponent_eq sum k hn) hr hcarry h'.pos
  · rw [hword]
    exact Nat.add_le_add_left hlow _

end Rounding

/-- The rounded sum of doubles does not fall below a double that the exact sum reaches. -/
theorem IsScaled.round_ge {m : Nat} {e : Int} (h : IsScaled m e) {sum : Nat} {k : Int}
    (hk : -1074 ≤ k) (hke : k ≤ e) (hsum : m * 2 ^ (e - k).toNat ≤ sum) :
    ∃ m' e', ∃ h' : IsScaled m' e',
      UnpackedFloat.round Format.binary64 .positive sum k = .finite .positive m' e' h'.pos ∧
        wordOf m e ≤ wordOf m' e' := by
  have hne : sum ≠ 0 := by
    have hpos := Nat.mul_pos h.pos (Nat.two_pow_pos (e - k).toNat)
    omega
  -- the sum has at least as many digits as the double, so its exponent is not below
  have hreach : e ≤ max ((sum.log2 : Int) + k - 52) (-1074) := by
    rcases h.leading with hlead | rfl
    · have hlog : 52 + (e - k).toNat ≤ sum.log2 := by
        rw [Nat.le_log2 hne, Nat.pow_add]
        exact (Nat.mul_le_mul_right _ hlead).trans hsum
      omega
    · exact le_max_right _ _
  obtain ⟨m', e', h', hround, hword⟩ := round_eq hne hk (hke.trans hreach)
  refine ⟨m', e', h', hround, le_trans ?_ hword⟩
  generalize ht : max ((sum.log2 : Int) + k - 52) (-1074) = t at hreach
  -- a larger exponent outweighs every significand; the same one leaves the digits of the sum
  rcases hreach.lt_or_eq with hlt | rfl
  · have hlead : 2 ^ 52 ≤ sum / 2 ^ (t - k).toNat := le_div_of_log2_eq hne (by omega)
    have hm := h.lt
    have hleast := h.least
    unfold wordOf
    omega
  · have hm : m ≤ sum / 2 ^ (e - k).toNat :=
      (Nat.le_div_iff_mul_le (Nat.two_pow_pos _)).2 hsum
    exact Nat.add_le_add_left hm _

/-! ## Adding -/

/-- The bits of a packed result that is at least some other double. -/
theorem IsScaled.toNat_pack_ge {m n : Nat} {e : Int} (h : IsScaled m e) (hn : n ≤ infiniteWord)
    (hle : n ≤ wordOf m e) :
    n ≤ (pack Format.binary64 (.finite .positive m e h.pos)).toNat ∧
      (pack Format.binary64 (.finite .positive m e h.pos)).toNat ≤ infiniteWord := by
  rw [h.toNat_pack]
  split
  next he => exact ⟨hle, (h.wordOf_lt_infiniteWord he).le⟩
  next => exact ⟨hn, le_rfl⟩

/-- The sum of two finite doubles is at least the first one. -/
theorem IsScaled.add_ge {m m' : Nat} {e e' : Int} (h : IsScaled m e) (h' : IsScaled m' e')
    (he : e < 972) :
    wordOf m e ≤ (pack Format.binary64 (add Format.binary64 (.finite .positive m e h.pos)
        (.finite .positive m' e' h'.pos))).toNat ∧
      (pack Format.binary64 (add Format.binary64 (.finite .positive m e h.pos)
        (.finite .positive m' e' h'.pos))).toNat ≤ infiniteWord := by
  have hleast := h.least
  have hleast' := h'.least
  have hpow := Nat.mul_pos h.pos (Nat.two_pow_pos (e - min e e').toNat)
  have hsum : m * 2 ^ (e - min e e').toNat ≤
      m * 2 ^ (e - min e e').toNat + m' * 2 ^ (e' - min e e').toNat := Nat.le_add_right _ _
  obtain ⟨m₁, e₁, h₁, hround, hword⟩ := h.round_ge (by omega) (by omega) hsum
  have hadd : add Format.binary64 (.finite .positive m e h.pos) (.finite .positive m' e' h'.pos) =
      .finite .positive m₁ e₁ h₁.pos := by
    rw [← hround]
    unfold add decreaseExponent UnpackedFloat.normalize
    simp only [Nat.shiftLeft_eq, Sign.apply]
    generalize m * 2 ^ (e - min e e').toNat = x at hpow
    generalize m' * 2 ^ (e' - min e e').toNat = y
    have hgt : compare ((x : Int) + y) 0 = .gt := Int.compare_eq_gt.2 (by omega)
    simp only [hgt]
    rfl
  rw [hadd]
  exact h₁.toNat_pack_ge (h.wordOf_lt_infiniteWord he).le hword

/-- Adding a double that is not negative does not make the bits go down. -/
theorem Reads.add_ge {u v : UnpackedFloat} {n n' : Nat} (h : Reads u n) (hv : Reads v n') :
    n ≤ (pack Format.binary64 (add Format.binary64 u v)).toNat ∧
      (pack Format.binary64 (add Format.binary64 u v)).toNat ≤ infiniteWord := by
  have hinf : (pack Format.binary64 (.infinity .positive)).toNat = infiniteWord :=
    toNat_packedInfinity
  have hn := h.le_infiniteWord
  have hn' := hv.le_infiniteWord
  have hpack := h.toNat_pack
  have hpack' := hv.toNat_pack
  cases h with
  | zero =>
    refine ⟨Nat.zero_le _, ?_⟩
    cases hv with
    | zero => exact hpack'.trans_le hn'
    | finite => exact hpack'.trans_le hn'
    | infinity => exact hpack'.trans_le hn'
  | finite h he =>
    cases hv with
    | zero => exact ⟨hpack.ge, hpack.trans_le hn⟩
    | finite h' => exact h.add_ge h' he
    | infinity => exact ⟨hn.trans hinf.ge, hinf.le⟩
  | infinity =>
    cases hv with
    | zero => exact ⟨hinf.ge, hinf.le⟩
    | finite => exact ⟨hinf.ge, hinf.le⟩
    | infinity => exact ⟨hinf.ge, hinf.le⟩

/-- Adding minus zero changes no double that is not negative. -/
theorem Reads.add_negativeZero {u : UnpackedFloat} {n : Nat} (h : Reads u n) :
    add Format.binary64 u (.zero .negative) = u := by
  cases h <;> rfl

/-! ## Doubles that are not negative -/

theorem toNat_toBits_add (x y : Float) :
    (x + y).toBits.toNat =
      (pack Format.binary64 (add Format.binary64 x.toModel.unpack y.toModel.unpack)).toNat := rfl

/-- The bits of a sum that is not negative do not go down when a weight that is not negative is
added. -/
theorem toBits_add {sum weight : Float} (hsum : sum.toBits.toNat ≤ infiniteWord)
    (hweight : 0.0 ≤ weight) :
    sum.toBits.toNat ≤ (sum + weight).toBits.toNat ∧
      (sum + weight).toBits.toNat ≤ infiniteWord := by
  have hreads : Reads sum.toModel.unpack sum.toBits.toNat := reads_unpack hsum
  have hle : UnpackedFloat.le (.zero .positive) weight.toModel.unpack = true :=
    of_decide_eq_true hweight
  rw [toNat_toBits_add]
  by_cases hbits : weight.toBits.toNat ≤ infiniteWord
  · exact hreads.add_ge (reads_unpack hbits)
  · have hzero : weight.toModel.unpack = .zero .negative :=
      eq_negativeZero_of_le (not_le.1 hbits) hle
    rw [hzero, hreads.add_negativeZero, hreads.toNat_pack]
    exact ⟨le_rfl, hsum⟩

/-- Doubles that are not negative are ordered by their bits. -/
theorem lt_iff_toBits {x y : Float} (hx : x.toBits.toNat ≤ infiniteWord)
    (hy : y.toBits.toNat ≤ infiniteWord) : x < y ↔ x.toBits.toNat < y.toBits.toNat := by
  have hcompare : x.toModel.unpack.compare y.toModel.unpack =
      some (compare x.toBits.toNat y.toBits.toNat) := (reads_unpack hx).compare_eq (reads_unpack hy)
  rw [float_lt_iff, hcompare, Option.some.injEq, Nat.compare_eq_lt]

/-- A number that is not at most zero is beyond zero. -/
theorem zero_lt_of_not_le {x : Float} (hnumber : x.isNaN = false) (h : ¬ x ≤ 0.0) : 0.0 < x := by
  have hle : x ≤ 0.0 ↔ UnpackedFloat.le x.toModel.unpack (.zero .positive) = true :=
    decide_eq_true_iff
  have hlt : 0.0 < x ↔ UnpackedFloat.lt (.zero .positive) x.toModel.unpack = true :=
    decide_eq_true_iff
  change x.toModel.unpack.isNaN = false at hnumber
  rw [hle] at h
  rw [hlt]
  cases hunpack : x.toModel.unpack with
  | notANumber =>
    rw [hunpack] at hnumber
    exact nomatch hnumber
  | infinity sign =>
    rw [hunpack] at h
    cases sign with
    | negative => exact absurd rfl h
    | positive => rfl
  | zero sign =>
    rw [hunpack] at h
    exact absurd rfl h
  | finite sign m e hpos =>
    rw [hunpack] at h
    cases sign with
    | negative => exact absurd rfl h
    | positive => rfl

theorem totalKey_eq {x : Float} (hx : x.toBits.toNat ≤ infiniteWord) :
    totalKey x = x.toBits.toNat := by
  have hlt : x.toBits.toNat < twoPow 63 := hx.trans_lt (by decide)
  unfold totalKey
  simp only
  rw [if_pos hlt]

end Lightpath
