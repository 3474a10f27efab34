import Lightpath.Network.ConnectPoint

/-!
# Written numbers and connect points — the written forms read back

The digits that a number is written with are the digits that are read, so `naturalBelow?` recovers
every number below its bound. No digit is a slash: what follows the last slash of a written connect
point is its port, whatever slashes the device id holds.
-/

namespace Lightpath

namespace Text

/-! ## Digits -/

theorem digit?_digitChar : ∀ d < 10, digit? d.digitChar = some d := by decide

theorem digitsFrom_append {acc n : Nat} {cs : List Char} (h : digitsFrom acc cs = some n)
    (rest : List Char) : digitsFrom acc (cs ++ rest) = digitsFrom n rest := by
  induction cs generalizing acc with
  | nil => cases h; rfl
  | cons c cs ih =>
    rw [digitsFrom] at h
    rw [List.cons_append, digitsFrom]
    cases hc : digit? c with
    | none => rw [hc] at h; cases h
    | some d => rw [hc] at h; exact ih h

/-- Only digits are read as part of a number. -/
theorem isSome_digit?_of_digitsFrom {acc n : Nat} {cs : List Char} (h : digitsFrom acc cs = some n) :
    ∀ c ∈ cs, (digit? c).isSome := by
  induction cs generalizing acc with
  | nil => exact fun c hc => absurd hc List.not_mem_nil
  | cons c cs ih =>
    rw [digitsFrom] at h
    cases hc : digit? c with
    | none => rw [hc] at h; cases h
    | some d =>
      rw [hc] at h
      exact List.forall_mem_cons.2 ⟨by rw [hc]; rfl, ih h⟩

theorem digitsFrom_toDigits (n : Nat) : digitsFrom 0 (Nat.toDigits 10 n) = some n := by
  induction n using Nat.strongRecOn with
  | ind n ih =>
    have hlast : digit? (n % 10).digitChar = some (n % 10) :=
      digit?_digitChar _ (Nat.mod_lt n (by decide))
    by_cases hn : n < 10
    · rw [Nat.toDigits_of_lt_base hn, digitsFrom, digit?_digitChar n hn]
      simp [digitsFrom]
    · -- the last digit continues the number that the digits before it make
      have hinit := ih (n / 10) (by omega)
      rw [Nat.toDigits_of_base_le (by decide) (Nat.le_of_not_lt hn), digitsFrom_append hinit,
        digitsFrom, hlast]
      simp only [digitsFrom, Option.some.injEq]
      omega

theorem toList_toString (n : Nat) : (toString n).toList = Nat.toDigits 10 n := by
  rw [Nat.toString_eq_repr, Nat.toList_repr]

theorem isSome_digit?_of_mem_toString {n : Nat} {c : Char} (hc : c ∈ (toString n).toList) :
    (digit? c).isSome :=
  isSome_digit?_of_digitsFrom (digitsFrom_toDigits n) c (toList_toString n ▸ hc)

theorem digits?_toString (n : Nat) : digits? (toString n).toList = some n := by
  rw [toList_toString]
  have hread := digitsFrom_toDigits n
  cases hd : Nat.toDigits 10 n with
  | nil => exact absurd hd (Nat.toDigits_ne_nil)
  | cons c cs => rwa [hd] at hread

/-- A written number reads back exactly if it is below the bound. -/
theorem naturalBelow?_toString (bound n : Nat) :
    naturalBelow? bound (toString n).toList = if n < bound then some n else none := by
  -- no written number starts with a sign
  have hsign : ∀ rest, (toString n).toList ≠ '+' :: rest := by
    intro rest h
    have hplus : (digit? '+').isSome := isSome_digit?_of_mem_toString (h ▸ List.mem_cons_self)
    exact absurd hplus (by decide)
  rw [naturalBelow?, digits?_toString, Option.filter_some]
  · simp only [decide_eq_true_eq]
  · exact hsign

end Text

namespace ConnectPoint

/-! ## The last slash -/

theorem splitAtLastSlash?_eq_none {cs : List Char} (h : '/' ∉ cs) : splitAtLastSlash? cs = none := by
  induction cs with
  | nil => rfl
  | cons c cs ih =>
    obtain ⟨hc, hcs⟩ := not_or.1 (fun hm => h (List.mem_cons.2 hm))
    rw [splitAtLastSlash?, ih hcs, if_neg (fun he => hc he.symm)]

theorem splitAtLastSlash?_append {after : List Char} (h : '/' ∉ after) (before : List Char) :
    splitAtLastSlash? (before ++ '/' :: after) = some (before, after) := by
  induction before with
  | nil => rw [List.nil_append, splitAtLastSlash?, splitAtLastSlash?_eq_none h, if_pos rfl]
  | cons c before ih => rw [List.cons_append, splitAtLastSlash?, ih]

/-! ## Connect points -/

/-- The connect points whose written form is one: the device has an id, and the port is a number of
64 bits. -/
def Writable (cp : ConnectPoint) : Prop := cp.device ≠ "" ∧ cp.port < Text.wordBound

theorem split_display (cp : ConnectPoint) :
    splitAtLastSlash? cp.display.toList = some (cp.device.toList, (toString cp.port).toList) := by
  have hport : '/' ∉ (toString cp.port).toList := fun h =>
    absurd (Text.isSome_digit?_of_mem_toString h) (by decide)
  have hlist : cp.display.toList = cp.device.toList ++ '/' :: (toString cp.port).toList := by
    rw [display, String.toList_append, String.toList_append, List.append_assoc]
    rfl
  rw [hlist, splitAtLastSlash?_append hport]

/-- What the written form of a connect point reads as. -/
theorem read_display (cp : ConnectPoint) :
    read cp.display =
      if cp.device = "" then .error .noDevice
      else if cp.port < Text.wordBound then .ok cp
      else .error .badPort := by
  have hempty : cp.device.toList.isEmpty = true ↔ cp.device = "" := by simp
  rw [read, split_display]
  simp only [hempty, Text.naturalBelow?_toString, String.ofList_toList]
  by_cases hdevice : cp.device = ""
  · rw [if_pos hdevice, if_pos hdevice]
  · rw [if_neg hdevice, if_neg hdevice]
    by_cases hport : cp.port < Text.wordBound
    · rw [if_pos hport, if_pos hport]
    · rw [if_neg hport, if_neg hport]

/-- The written form of a connect point reads as that connect point if it is writable, and as nothing
otherwise. -/
theorem read?_display_iff {cp cp' : ConnectPoint} :
    read? cp.display = some cp' ↔ cp.Writable ∧ cp = cp' := by
  rw [read?, read_display, Writable]
  by_cases hdevice : cp.device = ""
  · simp [hdevice, Except.toOption]
  · by_cases hport : cp.port < Text.wordBound <;> simp [hdevice, hport, Except.toOption]

end ConnectPoint

end Lightpath
