import Lightpath.Numeric.Power

/-!
# Words — whole numbers in 32 bits

Sums and products of signed words of 32 bits wrap around: `word` is the word that a whole number comes
to, and it is the number itself where this fits (`word_of_isWord`). Two numbers come to the same word
exactly if their distance is a multiple of 2 ^ 32 (`word_eq_word_iff`).
-/

namespace Lightpath

/-- A whole number that fits a signed word of 32 bits. -/
def IsWord (x : Int) : Prop := -2147483648 ≤ x ∧ x < 2147483648

instance : DecidablePred IsWord := fun x => inferInstanceAs (Decidable (_ ≤ x ∧ x < _))

/-- The signed word of 32 bits that a whole number wraps around to. -/
def word (x : Int) : Int := Int.bmod x (twoPow 32)

theorem isWord_word (x : Int) : IsWord (word x) :=
  ⟨Int.le_bmod (by decide), Int.bmod_lt (by decide)⟩

theorem word_of_isWord {x : Int} (h : IsWord x) : word x = x := by
  unfold IsWord at h
  exact Int.bmod_eq_of_le_mul_two (show -(4294967296 : Int) ≤ x * 2 by omega)
    (show x * 2 < (4294967296 : Int) by omega)

@[simp]
theorem word_word (x : Int) : word (word x) = word x := word_of_isWord (isWord_word x)

/-- A number and its word are a multiple of 2 ^ 32 apart. -/
theorem dvd_word_sub (x : Int) : 4294967296 ∣ word x - x := by
  have hmod : word x % 4294967296 = x % 4294967296 := Int.bmod_emod
  omega

theorem word_eq_word_iff {x y : Int} : word x = word y ↔ 4294967296 ∣ x - y := by
  have hx := dvd_word_sub x
  have hy := dvd_word_sub y
  have hxword := isWord_word x
  have hyword := isWord_word y
  unfold IsWord at hxword hyword
  omega

/-- Wrapping around a summand does not change the word of the sum. -/
theorem word_add_word (x y : Int) : word (x + word y) = word (x + y) := by
  have hy := dvd_word_sub y
  rw [word_eq_word_iff]
  omega

end Lightpath
