/-!
# Repeated items — the first item of a list that occurred before

`firstRepeat?` finds the item at which a list first repeats itself. There is none exactly if the
list has no repetition (`firstRepeat?_eq_none_iff`).
-/

namespace Lightpath

variable {α : Type} [DecidableEq α]

/-- The first item that occurred before, `seen` being the items already met. -/
def firstRepeatAfter? (seen : List α) : List α → Option α
  | [] => none
  | a :: rest => if a ∈ seen then some a else firstRepeatAfter? (a :: seen) rest

/-- The first item of a list that occurred before in it. -/
def firstRepeat? (l : List α) : Option α := firstRepeatAfter? [] l

theorem nodup_of_firstRepeatAfter? {seen l : List α} (h : firstRepeatAfter? seen l = none) :
    l.Nodup ∧ ∀ a ∈ l, a ∉ seen := by
  induction l generalizing seen with
  | nil => simp
  | cons a rest ih =>
    by_cases ha : a ∈ seen
    · simp [firstRepeatAfter?, ha] at h
    · rw [firstRepeatAfter?, if_neg ha] at h
      obtain ⟨hnodup, hseen⟩ := ih h
      refine ⟨List.nodup_cons.2 ⟨fun hmem => hseen a hmem (by simp), hnodup⟩, fun b hb => ?_⟩
      rcases List.mem_cons.1 hb with rfl | hb
      · exact ha
      · exact fun hs => hseen b hb (List.mem_cons_of_mem _ hs)

theorem firstRepeatAfter?_of_nodup {seen l : List α} (hl : l.Nodup) (hs : ∀ a ∈ l, a ∉ seen) :
    firstRepeatAfter? seen l = none := by
  induction l generalizing seen with
  | nil => rfl
  | cons a rest ih =>
    obtain ⟨ha, hrest⟩ := List.nodup_cons.1 hl
    rw [firstRepeatAfter?, if_neg (hs a (by simp))]
    refine ih hrest fun b hb hmem => ?_
    rcases List.mem_cons.1 hmem with rfl | hmem
    · exact ha hb
    · exact hs b (List.mem_cons_of_mem _ hb) hmem

/-- A list without repetition is one without a first repeated item. -/
theorem firstRepeat?_eq_none_iff {l : List α} : firstRepeat? l = none ↔ l.Nodup :=
  ⟨fun h => (nodup_of_firstRepeatAfter? h).1, fun h => firstRepeatAfter?_of_nodup h (by simp)⟩

end Lightpath
