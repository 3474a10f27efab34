import Lightpath.Numeric.Double
import Mathlib.Tactic.NormNum

/-!
# Bits of doubles

A finite positive double is a significand times a power of two. Its bits, read as a number, are
`wordOf`: they ascend with the double, so the doubles that are not negative can be compared and
bounded by their bits. `Reads` ties the unpacked form of such a double to its bits.
-/

namespace Lightpath

open Float.Model (Format UnpackedFloat)
open Float.Model.UnpackedFloat

/-- The bits of the infinite double. -/
def infiniteWord : Nat := 2047 * 2 ^ 52

/-- A significand and an exponent as finite doubles have them: the leading digit is set unless the
exponent is the least one. -/
structure IsScaled (m : Nat) (e : Int) : Prop where
  pos : 0 < m
  lt : m < 2 ^ 53
  least : -1074 ≤ e
  leading : 2 ^ 52 ≤ m ∨ e = -1074

/-- The bits of the positive double with a significand and an exponent. -/
def wordOf (m : Nat) (e : Int) : Nat := (e + 1074).toNat * 2 ^ 52 + m

/-- The unpacked form of the double with these bits, which is not negative. -/
inductive Reads : UnpackedFloat → Nat → Prop
  | zero : Reads (.zero .positive) 0
  | finite {m : Nat} {e : Int} (h : IsScaled m e) (he : e < 972) :
      Reads (.finite .positive m e h.pos) (wordOf m e)
  | infinity : Reads (.infinity .positive) infiniteWord

theorem Reads.of_wordOf {m n : Nat} {e : Int} (hpos : 0 < m) (h : IsScaled m e) (he : e < 972)
    (hn : wordOf m e = n) : Reads (.finite .positive m e hpos) n :=
  hn ▸ .finite h he

/-! ## Packing -/

theorem toNat_packComponents (exponent : BitVec 11) (mantissa : BitVec 52) :
    (packComponents Format.binary64 .positive exponent mantissa).toNat =
      exponent.toNat * 2 ^ 52 + mantissa.toNat := by
  show (((0#1 ++ exponent) ++ mantissa : BitVec 64)).toNat = _
  rw [BitVec.toNat_append, BitVec.toNat_append, ← Nat.shiftLeft_add_eq_or_of_lt mantissa.isLt,
    ← Nat.shiftLeft_add_eq_or_of_lt exponent.isLt]
  simp only [BitVec.toNat_zero, Nat.shiftLeft_eq]
  omega

theorem toNat_packedInfinity :
    (packedInfinity Format.binary64 .positive).toNat = infiniteWord := by decide

theorem IsScaled.log2_eq_iff {m : Nat} {e : Int} (h : IsScaled m e) :
    m.log2 + 1 = Format.binary64.mantissaBits ↔ 2 ^ 52 ≤ m := by
  have hne : m ≠ 0 := h.pos.ne'
  have hlow : 52 ≤ m.log2 ↔ 2 ^ 52 ≤ m := Nat.le_log2 hne
  have hhigh : m.log2 < 53 := (Nat.log2_lt hne).2 h.lt
  show m.log2 + 1 = 53 ↔ 2 ^ 52 ≤ m
  omega

/-- The bits of a packed significand and exponent; an exponent that is too large gives infinity. -/
theorem IsScaled.toNat_pack {m : Nat} {e : Int} (h : IsScaled m e) :
    (pack Format.binary64 (.finite .positive m e h.pos)).toNat =
      if e < 972 then wordOf m e else infiniteWord := by
  have hleast := h.least
  have hlt := h.lt
  unfold pack
  simp only [h.log2_eq_iff]
  show (if 2 ^ 11 ≤ (e + 1023 + 52).toNat + 1 then _ else _ : BitVec 64).toNat = _
  split
  next hover =>
    have he : ¬ e < 972 := by omega
    rw [if_neg he, toNat_packedInfinity]
  next hfits =>
    have he : e < 972 := by omega
    rw [if_pos he, wordOf]
    split
    next hlead =>
      rw [toNat_packComponents, BitVec.toNat_ofNat, BitVec.toNat_ofNat]
      show (e + 1023 + 52).toNat % 2 ^ 11 * 2 ^ 52 + m % 2 ^ 52 = _
      omega
    next hlead =>
      obtain rfl := h.leading.resolve_left hlead
      rw [toNat_packComponents, BitVec.toNat_ofNat]
      show 0 * 2 ^ 52 + m % 2 ^ 52 = 0 * 2 ^ 52 + m
      omega

theorem Reads.toNat_pack {u : UnpackedFloat} {n : Nat} (h : Reads u n) :
    (pack Format.binary64 u).toNat = n := by
  cases h with
  | zero => decide
  | finite h he => rw [h.toNat_pack, if_pos he]
  | infinity => exact toNat_packedInfinity

/-! ## Unpacking -/

section Unpack

variable (b : BitVec 64)

theorem toNat_unpackMantissa :
    (@unpackMantissa Format.binary64 b).toNat = b.toNat % 2 ^ 52 := by
  unfold unpackMantissa
  rw [BitVec.toNat_cast, BitVec.extractLsb_toNat]
  show b.toNat >>> 0 % 2 ^ 52 = b.toNat % 2 ^ 52
  rw [Nat.shiftRight_zero]

theorem toNat_unpackExponent :
    (@unpackExponent Format.binary64 b).toNat = b.toNat / 2 ^ 52 % 2 ^ 11 := by
  unfold unpackExponent
  rw [BitVec.toNat_cast, BitVec.extractLsb_toNat, Nat.shiftRight_eq_div_pow]
  rfl

theorem toNat_unpackSign : (@unpackSign Format.binary64 b).toNat = b.toNat / 2 ^ 63 := by
  have hlt := b.isLt
  unfold unpackSign
  rw [BitVec.toNat_cast, BitVec.extractLsb_toNat, Nat.shiftRight_eq_div_pow]
  show b.toNat / 2 ^ 63 % 2 ^ 1 = b.toNat / 2 ^ 63
  omega

variable {b}

theorem sign_of_toNat_lt (h : b.toNat < 2 ^ 63) :
    Sign.ofBitVec (@unpackSign Format.binary64 b) = .positive := by
  have hsign : @unpackSign Format.binary64 b = 0#1 := by
    apply BitVec.eq_of_toNat_eq
    rw [toNat_unpackSign, BitVec.toNat_zero]
    omega
  rw [hsign]
  rfl

theorem unpackExponent_eq_iff (x : BitVec 11) :
    @unpackExponent Format.binary64 b = x ↔ b.toNat / 2 ^ 52 % 2 ^ 11 = x.toNat := by
  rw [← toNat_unpackExponent, BitVec.toNat_inj]

theorem unpackMantissa_eq_zero_iff :
    @unpackMantissa Format.binary64 b = 0#52 ↔ b.toNat % 2 ^ 52 = 0 := by
  rw [← toNat_unpackMantissa, ← BitVec.toNat_inj, BitVec.toNat_zero]

/-- Bits up to those of infinity are the bits of a double that is not negative. -/
theorem reads_unpack (h : b.toNat ≤ infiniteWord) : Reads (unpack Format.binary64 b) b.toNat := by
  unfold infiniteWord at h
  have hsign := sign_of_toNat_lt (b := b) (by omega)
  unfold unpack
  dsimp only
  generalize Sign.ofBitVec (@unpackSign Format.binary64 b) = sign at hsign ⊢
  subst hsign
  -- the exponent bits tell infinity, the least exponent and the others apart
  by_cases hexp : @unpackExponent Format.binary64 b = -1#11
  · have hword : b.toNat / 2 ^ 52 % 2 ^ 11 = 2047 := (unpackExponent_eq_iff _).1 hexp
    have hbits : b.toNat = infiniteWord := by
      unfold infiniteWord
      omega
    rw [if_pos hexp, if_pos (unpackMantissa_eq_zero_iff.2 (by omega)), hbits]
    exact .infinity
  have hfinite : ¬ b.toNat / 2 ^ 52 % 2 ^ 11 = 2047 := fun h => hexp ((unpackExponent_eq_iff _).2 h)
  rw [if_neg hexp]
  by_cases hleast : @unpackExponent Format.binary64 b = 0#11
  · have hword : b.toNat / 2 ^ 52 % 2 ^ 11 = 0 := (unpackExponent_eq_iff _).1 hleast
    rw [if_pos hleast]
    by_cases hmant : @unpackMantissa Format.binary64 b = 0#52
    · have hdigits := unpackMantissa_eq_zero_iff.1 hmant
      have hbits : b.toNat = 0 := by omega
      rw [dif_pos hmant, hbits]
      exact .zero
    · have hdigits := toNat_unpackMantissa b
      have hexponent : ((@unpackExponent Format.binary64 b).toNat : Int) -
          (Format.binary64.exponentBias + (52 : Nat)) + 1 = -1074 := by
        rw [toNat_unpackExponent, hword]
        decide
      rw [dif_neg hmant]
      rw [unpackMantissa_eq_zero_iff] at hmant
      refine .of_wordOf _ ⟨?_, ?_, ?_, .inr hexponent⟩ ?_ ?_
      · omega
      · omega
      · exact hexponent.ge
      · exact hexponent.trans_lt (by decide)
      · rw [wordOf, hexponent, hdigits]
        omega
  · -- the leading digit of the significand is not among the bits
    have hword : ¬ b.toNat / 2 ^ 52 % 2 ^ 11 = 0 :=
      fun h => hleast ((unpackExponent_eq_iff _).2 h)
    have hdigits : (1#1 ++ @unpackMantissa Format.binary64 b).toNat =
        2 ^ 52 + b.toNat % 2 ^ 52 := by
      rw [BitVec.toNat_append, ← Nat.shiftLeft_add_eq_or_of_lt (BitVec.isLt _),
        toNat_unpackMantissa]
      rfl
    have hexponent : ((@unpackExponent Format.binary64 b).toNat : Int) -
        (Format.binary64.exponentBias + (52 : Nat)) = (b.toNat / 2 ^ 52 % 2 ^ 11 : Nat) - 1075 := by
      rw [toNat_unpackExponent]
      rfl
    rw [if_neg hleast]
    refine .of_wordOf _ ⟨?_, ?_, ?_, .inl ?_⟩ ?_ ?_
    · omega
    · omega
    · omega
    · omega
    · omega
    · rw [wordOf, hexponent, hdigits]
      omega

/-- Bits beyond those of infinity are the bits of a double with a sign or of no number; the only one
of these that zero does not exceed is minus zero. -/
theorem eq_negativeZero_of_le (h : infiniteWord < b.toNat)
    (hle : UnpackedFloat.le (.zero .positive) (unpack Format.binary64 b) = true) :
    unpack Format.binary64 b = .zero .negative := by
  unfold infiniteWord at h
  by_cases hlt : b.toNat < 2 ^ 63
  · have hexp : @unpackExponent Format.binary64 b = -1#11 := by
      rw [unpackExponent_eq_iff]
      show b.toNat / 2 ^ 52 % 2 ^ 11 = 2047
      omega
    have hmant : ¬ @unpackMantissa Format.binary64 b = 0#52 := by
      rw [unpackMantissa_eq_zero_iff]
      omega
    unfold unpack at hle
    dsimp only at hle
    rw [if_pos hexp, if_neg hmant] at hle
    exact absurd hle Bool.false_ne_true
  · have hsign : Sign.ofBitVec (@unpackSign Format.binary64 b) = .negative := by
      have hne : @unpackSign Format.binary64 b ≠ 0#1 := by
        intro heq
        have hzero := toNat_unpackSign b
        rw [heq, BitVec.toNat_zero] at hzero
        omega
      unfold Sign.ofBitVec
      rw [if_neg hne]
    unfold unpack at hle ⊢
    dsimp only at hle ⊢
    generalize Sign.ofBitVec (@unpackSign Format.binary64 b) = sign at hle hsign ⊢
    subst hsign
    by_cases hexp : @unpackExponent Format.binary64 b = -1#11
    · rw [if_pos hexp] at hle
      by_cases hmant : @unpackMantissa Format.binary64 b = 0#52
      · rw [if_pos hmant] at hle
        exact absurd hle Bool.false_ne_true
      · rw [if_neg hmant] at hle
        exact absurd hle Bool.false_ne_true
    rw [if_neg hexp] at hle ⊢
    by_cases hleast : @unpackExponent Format.binary64 b = 0#11
    · rw [if_pos hleast] at hle ⊢
      by_cases hmant : @unpackMantissa Format.binary64 b = 0#52
      · rw [dif_pos hmant]
      · rw [dif_neg hmant] at hle
        exact absurd hle Bool.false_ne_true
    · rw [if_neg hleast] at hle
      exact absurd hle Bool.false_ne_true

end Unpack

/-! ## Comparing -/

theorem IsScaled.wordOf_lt {m m' : Nat} {e e' : Int} (h : IsScaled m e) (h' : IsScaled m' e')
    (he : e < e') : wordOf m e < wordOf m' e' := by
  have hlt := h.lt
  have hleast := h.least
  have hlead := h'.leading.resolve_right (by omega)
  unfold wordOf
  omega

theorem IsScaled.wordOf_pos {m : Nat} {e : Int} (h : IsScaled m e) : 0 < wordOf m e :=
  Nat.add_pos_right _ h.pos

theorem IsScaled.wordOf_lt_infiniteWord {m : Nat} {e : Int} (h : IsScaled m e) (he : e < 972) :
    wordOf m e < infiniteWord := by
  have hlt := h.lt
  have hleast := h.least
  unfold wordOf infiniteWord
  omega

theorem Reads.le_infiniteWord {u : UnpackedFloat} {n : Nat} (h : Reads u n) : n ≤ infiniteWord := by
  cases h with
  | zero => exact Nat.zero_le _
  | finite h he => exact (h.wordOf_lt_infiniteWord he).le
  | infinity => exact le_rfl

/-- Doubles that are not negative compare like their bits. -/
theorem Reads.compare_eq {u u' : UnpackedFloat} {n n' : Nat} (h : Reads u n) (h' : Reads u' n') :
    u.compare u' = some (compare n n') := by
  cases h with
  | zero =>
    cases h' with
    | zero => rfl
    | finite h' he' => exact congrArg some (Nat.compare_eq_lt.2 h'.wordOf_pos).symm
    | infinity => exact congrArg some (Nat.compare_eq_lt.2 (by decide)).symm
  | infinity =>
    cases h' with
    | zero => exact congrArg some (Nat.compare_eq_gt.2 (by decide)).symm
    | finite h' he' =>
      exact congrArg some (Nat.compare_eq_gt.2 (h'.wordOf_lt_infiniteWord he')).symm
    | infinity => exact congrArg some (Nat.compare_eq_eq.2 rfl).symm
  | @finite m e h he =>
    cases h' with
    | zero => exact congrArg some (Nat.compare_eq_gt.2 h.wordOf_pos).symm
    | infinity => exact congrArg some (Nat.compare_eq_lt.2 (h.wordOf_lt_infiniteWord he)).symm
    | @finite m' e' h' he' =>
      refine congrArg some ?_
      show (compare e e').then (compare m m') = _
      -- the larger exponent decides, and between equal ones the significand
      rcases lt_trichotomy e e' with hlt | rfl | hgt
      · rw [Int.compare_eq_lt.2 hlt, Nat.compare_eq_lt.2 (h.wordOf_lt h' hlt)]
        rfl
      · rw [Int.compare_eq_eq.2 rfl]
        show compare m m' = compare (wordOf m e) (wordOf m' e)
        unfold wordOf
        rw [Nat.compare_eq_ite_lt, Nat.compare_eq_ite_lt]
        simp only [Nat.add_lt_add_iff_left]
      · rw [Int.compare_eq_gt.2 hgt, Nat.compare_eq_gt.2 (h'.wordOf_lt h hgt)]
        rfl

/-! ## Numbers in order -/

/-- Two doubles compare the other way round when they change places. -/
theorem compare_swap (u v : UnpackedFloat) : v.compare u = (u.compare v).map Ordering.swap := by
  have hfinite (e e' : Int) (m m' : Nat) : (compare e' e).then (compare m' m) =
      ((compare e e').then (compare m m')).swap := by
    rw [Ordering.swap_then, ← Std.OrientedCmp.eq_swap, ← Std.OrientedCmp.eq_swap]
  cases u with
  | notANumber => cases v <;> rfl
  | infinity s =>
    cases v with
    | infinity s' => cases s <;> cases s' <;> rfl
    | _ => cases s <;> rfl
  | zero s =>
    cases v with
    | infinity s' => cases s' <;> rfl
    | finite s' m' e' h' => cases s' <;> rfl
    | _ => rfl
  | finite s m e h =>
    cases v with
    | infinity s' => cases s <;> cases s' <;> rfl
    | notANumber => cases s <;> rfl
    | zero s' => cases s <;> rfl
    | finite s' m' e' h' =>
      -- only doubles of one sign are told apart by exponent and significand
      cases s with
      | negative =>
        cases s' with
        | negative => exact congrArg (fun x => some x.swap) (hfinite e e' m m')
        | positive => rfl
      | positive =>
        cases s' with
        | negative => rfl
        | positive => exact congrArg some (hfinite e e' m m')

/-- Two numbers can be compared. -/
theorem exists_compare_eq_some {u v : UnpackedFloat} (hu : u.isNaN = false) (hv : v.isNaN = false) :
    ∃ c, u.compare v = some c := by
  cases hcompare : u.compare v with
  | some c => exact ⟨c, rfl⟩
  | none =>
    -- only what is not a number compares with nothing
    unfold UnpackedFloat.compare at hcompare
    split at hcompare
    next => cases hu
    next => cases hv
    all_goals cases hcompare

theorem float_le_iff {x y : Float} :
    x ≤ y ↔ (x.toModel.unpack.compare y.toModel.unpack).any Ordering.isLE = true :=
  decide_eq_true_iff

theorem float_lt_iff {x y : Float} :
    x < y ↔ x.toModel.unpack.compare y.toModel.unpack = some .lt :=
  decide_eq_true_iff.trans beq_iff_eq

/-- What is at least something is a number. -/
theorem isNaN_eq_false_of_le {x y : Float} (h : x ≤ y) : y.isNaN = false := by
  have hnone (u : UnpackedFloat) : u.compare .notANumber = none := by cases u <;> rfl
  rw [float_le_iff] at h
  show y.toModel.unpack.isNaN = false
  cases hy : y.toModel.unpack with
  | notANumber =>
    rw [hy, hnone] at h
    exact absurd h Bool.false_ne_true
  | _ => rfl

/-- Of two numbers the first one is at most the second one, unless the second one is less. -/
theorem float_le_of_not_lt {x y : Float} (hx : x.isNaN = false) (hy : y.isNaN = false)
    (h : ¬ y < x) : x ≤ y := by
  obtain ⟨c, hc⟩ := exists_compare_eq_some (u := x.toModel.unpack) (v := y.toModel.unpack) hx hy
  rw [float_lt_iff, compare_swap x.toModel.unpack, hc] at h
  rw [float_le_iff, hc]
  cases c with
  | gt => exact absurd rfl h
  | _ => rfl

theorem float_le_self {x : Float} (hx : x.isNaN = false) : x ≤ x := by
  obtain ⟨c, hc⟩ := exists_compare_eq_some (u := x.toModel.unpack) (v := x.toModel.unpack) hx hx
  have hswap := compare_swap x.toModel.unpack x.toModel.unpack
  rw [hc] at hswap
  rw [float_le_iff, hc]
  cases c with
  | gt => cases hswap
  | _ => rfl

theorem float_le_of_lt {x y : Float} (h : x < y) : x ≤ y := by
  rw [float_le_iff, float_lt_iff.1 h]
  rfl

end Lightpath
