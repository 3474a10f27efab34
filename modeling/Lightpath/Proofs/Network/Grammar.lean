import Lightpath.Proofs.Text.Numeral
import Mathlib.Data.Nat.Digits.Defs

/-!
# Grammar — the texts that name connect points

A text names a connect point if it is a device id that is not empty, a slash, and a port number without
a slash: an optional plus sign before one or more ASCII digits whose value has 64 bits
(`ConnectPoint.IsWritten`). The value is the one of the decimal system (`Text.decimalValue`), said apart
from the reader, which goes through the digits from the left.

`read` accepts exactly these texts and answers what they name, so leading zeros and a plus sign give one
more text for the same connect point. Of the three faults each is told for the texts that lack one part of
the form, the first part that is missing. The written form is one of the texts, and no other connect point
has it (`reads_written_points`).
-/

namespace Lightpath

namespace Text

/-! ## Numbers -/

/-- The value of a list of digits in the decimal system, the first one having the greatest weight. -/
def decimalValue (digits : List Char) : Nat :=
  Nat.ofDigits 10 (digits.reverse.map fun c => c.toNat - '0'.toNat)

/-- A number below a bound is written so: one or more ASCII digits after an optional plus sign. -/
def IsNatural (bound : Nat) (cs : List Char) (n : Nat) : Prop :=
  ∃ sign digits, cs = sign ++ digits ∧ (sign = [] ∨ sign = ['+']) ∧ digits ≠ [] ∧
    (∀ c ∈ digits, c.isDigit = true) ∧ decimalValue digits = n ∧ n < bound

theorem isDigit_iff {c : Char} : c.isDigit = true ↔ '0' ≤ c ∧ c ≤ '9' := by
  rw [Char.isDigit, Bool.and_eq_true, decide_eq_true_eq, decide_eq_true_eq]
  rfl

theorem digit?_eq_some_iff {c : Char} {d : Nat} :
    digit? c = some d ↔ c.isDigit = true ∧ c.toNat - '0'.toNat = d := by
  rw [digit?, isDigit_iff]
  split
  next h => simp [h]
  next h => simp [h]

theorem decimalValue_cons (c : Char) (cs : List Char) :
    decimalValue (c :: cs) = (c.toNat - '0'.toNat) * 10 ^ cs.length + decimalValue cs := by
  rw [decimalValue, List.reverse_cons, List.map_append, Nat.ofDigits_append, List.length_map,
    List.length_reverse, List.map_singleton, Nat.ofDigits_singleton, decimalValue]
  ring

/-- Digits that continue a number move it up by as many places. -/
theorem digitsFrom_eq_some_iff {acc n : Nat} {cs : List Char} :
    digitsFrom acc cs = some n ↔
      (∀ c ∈ cs, c.isDigit = true) ∧ acc * 10 ^ cs.length + decimalValue cs = n := by
  induction cs generalizing acc with
  | nil => simp [digitsFrom, decimalValue]
  | cons c cs ih =>
    rw [digitsFrom, List.forall_mem_cons, decimalValue_cons, List.length_cons]
    cases hc : digit? c with
    | none =>
      have hnot : ¬ c.isDigit = true := fun h => by
        rw [digit?_eq_some_iff.2 ⟨h, rfl⟩] at hc
        cases hc
      simp [hnot]
    | some d =>
      obtain ⟨hdigit, rfl⟩ := digit?_eq_some_iff.1 hc
      have hplaces : (acc * 10 + (c.toNat - '0'.toNat)) * 10 ^ cs.length + decimalValue cs =
          acc * 10 ^ (cs.length + 1) + ((c.toNat - '0'.toNat) * 10 ^ cs.length + decimalValue cs) := by
        ring
      simp only [ih, hdigit, hplaces, true_and]

theorem digits?_eq_some_iff {n : Nat} {cs : List Char} :
    digits? cs = some n ↔ cs ≠ [] ∧ (∀ c ∈ cs, c.isDigit = true) ∧ decimalValue cs = n := by
  cases cs with
  | nil => simp [digits?]
  | cons c cs =>
    rw [digits?, digitsFrom_eq_some_iff, Nat.zero_mul, Nat.zero_add]
    · simp
    · simp

theorem filter_digits?_eq_some_iff {bound n : Nat} {cs : List Char} :
    (digits? cs).filter (· < bound) = some n ↔
      (cs ≠ [] ∧ (∀ c ∈ cs, c.isDigit = true) ∧ decimalValue cs = n) ∧ n < bound := by
  rw [Option.filter_eq_some_iff, decide_eq_true_eq, digits?_eq_some_iff]

/-- The number that is read is the one that the text writes. -/
theorem naturalBelow?_eq_some_iff {bound n : Nat} {cs : List Char} :
    naturalBelow? bound cs = some n ↔ IsNatural bound cs n := by
  -- no digit is a plus sign, so the sign is there exactly if the text starts with one
  have hplus : ¬ Char.isDigit '+' = true := by decide
  by_cases hsign : ∃ rest, cs = '+' :: rest
  · obtain ⟨rest, rfl⟩ := hsign
    have hread : naturalBelow? bound ('+' :: rest) = (digits? rest).filter (· < bound) := rfl
    rw [hread, filter_digits?_eq_some_iff]
    constructor
    · rintro ⟨⟨hne, hdigits, hvalue⟩, hbound⟩
      exact ⟨['+'], rest, rfl, .inr rfl, hne, hdigits, hvalue, hbound⟩
    · rintro ⟨sign, digits, hcs, rfl | rfl, hne, hdigits, hvalue, hbound⟩
      · rw [List.nil_append] at hcs
        exact absurd (hdigits '+' (hcs ▸ List.mem_cons_self)) hplus
      · obtain rfl : rest = digits := (List.cons.inj hcs).2
        exact ⟨⟨hne, hdigits, hvalue⟩, hbound⟩
  · have hread : naturalBelow? bound cs = (digits? cs).filter (· < bound) := by
      unfold naturalBelow?
      split
      next rest => exact absurd ⟨rest, rfl⟩ hsign
      next => rfl
    rw [hread, filter_digits?_eq_some_iff]
    constructor
    · rintro ⟨⟨hne, hdigits, hvalue⟩, hbound⟩
      exact ⟨[], cs, rfl, .inl rfl, hne, hdigits, hvalue, hbound⟩
    · rintro ⟨sign, digits, hcs, rfl | rfl, hne, hdigits, hvalue, hbound⟩
      · obtain rfl : cs = digits := hcs
        exact ⟨⟨hne, hdigits, hvalue⟩, hbound⟩
      · exact absurd ⟨digits, hcs⟩ hsign

end Text

namespace ConnectPoint

/-! ## Texts in two parts -/

theorem splitAtLastSlash?_eq_none_iff {cs : List Char} :
    splitAtLastSlash? cs = none ↔ '/' ∉ cs := by
  refine ⟨fun h => ?_, splitAtLastSlash?_eq_none⟩
  induction cs with
  | nil => exact List.not_mem_nil
  | cons c cs ih =>
    rw [splitAtLastSlash?] at h
    split at h
    next => cases h
    next hrest =>
      split at h
      next => cases h
      next hc =>
        rw [List.mem_cons, not_or]
        exact ⟨fun he => hc he.symm, ih hrest⟩

/-- A text is cut at the slash behind which there is no other one. -/
theorem splitAtLastSlash?_eq_some_iff {cs before after : List Char} :
    splitAtLastSlash? cs = some (before, after) ↔ cs = before ++ '/' :: after ∧ '/' ∉ after := by
  constructor
  · intro h
    induction cs generalizing before with
    | nil => cases h
    | cons c cs ih =>
      rw [splitAtLastSlash?] at h
      split at h
      next before' after' hrest =>
        cases h
        obtain ⟨rfl, hafter⟩ := ih hrest
        exact ⟨rfl, hafter⟩
      next hrest =>
        split at h
        next hc =>
          cases h
          exact ⟨hc ▸ rfl, splitAtLastSlash?_eq_none_iff.1 hrest⟩
        next => cases h
  · rintro ⟨rfl, hafter⟩
    exact splitAtLastSlash?_append hafter before

/-! ## What is read -/

/-- A text names a connect point: it has the device id, which is not empty, a slash, and the port
number. -/
def IsWritten (s : String) (cp : ConnectPoint) : Prop :=
  ∃ port, s.toList = cp.device.toList ++ '/' :: port ∧ '/' ∉ port ∧ cp.device ≠ "" ∧
    Text.IsNatural Text.wordBound port cp.port

section Read

variable {s : String} {device port : List Char} {cp : ConnectPoint}

/-- How a text with a slash is read: by what stands before the last slash and behind it. -/
theorem read_of_append (hlist : s.toList = device ++ '/' :: port) (hslash : '/' ∉ port) :
    read s = if device = [] then .error .noDevice
      else (Text.naturalBelow? Text.wordBound port).elim (.error .badPort)
        fun n => .ok ⟨String.ofList device, n⟩ := by
  have hsplit : splitAtLastSlash? s.toList = some (device, port) :=
    splitAtLastSlash?_eq_some_iff.2 ⟨hlist, hslash⟩
  rw [read, hsplit]
  cases device with
  | nil => rfl
  | cons c cs =>
    rw [if_neg (List.cons_ne_nil c cs)]
    cases hport : Text.naturalBelow? Text.wordBound port <;> simp [hport]

theorem IsWritten.read_eq (h : IsWritten s cp) : read s = .ok cp := by
  obtain ⟨port, hlist, hslash, hdevice, hport⟩ := h
  have hne : cp.device.toList ≠ [] := by simpa using hdevice
  rw [read_of_append hlist hslash, if_neg hne, Text.naturalBelow?_eq_some_iff.2 hport,
    Option.elim_some, String.ofList_toList]

theorem read_of_slash_notMem (h : '/' ∉ s.toList) : read s = .error .noSlash := by
  rw [read, splitAtLastSlash?_eq_none_iff.2 h]

theorem read_of_slash_first (hlist : s.toList = '/' :: port) (hslash : '/' ∉ port) :
    read s = .error .noDevice := by
  have hread := read_of_append (show s.toList = [] ++ '/' :: port from hlist) hslash
  rwa [if_pos rfl] at hread

theorem read_of_not_isNatural (hlist : s.toList = device ++ '/' :: port) (hslash : '/' ∉ port)
    (hdevice : device ≠ []) (hport : ∀ n, ¬ Text.IsNatural Text.wordBound port n) :
    read s = .error .badPort := by
  have hnone : Text.naturalBelow? Text.wordBound port = none :=
    Option.eq_none_iff_forall_ne_some.2 fun n hn => hport n (Text.naturalBelow?_eq_some_iff.1 hn)
  rw [read_of_append hlist hslash, if_neg hdevice, hnone, Option.elim_none]

end Read

/-- Every text names a connect point or lacks a part of the form, and the answer is the one for it. -/
theorem read_cases (s : String) : (∃ cp, IsWritten s cp ∧ read s = .ok cp) ∨
    ('/' ∉ s.toList ∧ read s = .error .noSlash) ∨
    ((∃ port, s.toList = '/' :: port ∧ '/' ∉ port) ∧ read s = .error .noDevice) ∨
    ((∃ device port, s.toList = device ++ '/' :: port ∧ '/' ∉ port ∧ device ≠ [] ∧
      ∀ n, ¬ Text.IsNatural Text.wordBound port n) ∧ read s = .error .badPort) := by
  cases hsplit : splitAtLastSlash? s.toList with
  | none =>
    have hno := splitAtLastSlash?_eq_none_iff.1 hsplit
    exact .inr (.inl ⟨hno, read_of_slash_notMem hno⟩)
  | some parts =>
    obtain ⟨device, port⟩ := parts
    obtain ⟨hlist, hslash⟩ := splitAtLastSlash?_eq_some_iff.1 hsplit
    by_cases hdevice : device = []
    · subst hdevice
      exact .inr (.inr (.inl ⟨⟨port, hlist, hslash⟩, read_of_slash_first hlist hslash⟩))
    by_cases hport : ∃ n, Text.IsNatural Text.wordBound port n
    · obtain ⟨n, hn⟩ := hport
      have hwritten : IsWritten s ⟨String.ofList device, n⟩ := by
        refine ⟨port, ?_, hslash, fun hempty => hdevice (String.ofList_eq_empty_iff.1 hempty), hn⟩
        rw [String.toList_ofList]
        exact hlist
      exact .inl ⟨_, hwritten, hwritten.read_eq⟩
    · have hnone := not_exists.1 hport
      exact .inr (.inr (.inr ⟨⟨device, port, hlist, hslash, hdevice, hnone⟩,
        read_of_not_isNatural hlist hslash hdevice hnone⟩))

/-- What reading a text answers: the connect point that it names, or the first part of the form that it
lacks. -/
structure ReadExactly (s : String) : Prop where
  ok_iff : ∀ cp, read s = .ok cp ↔ IsWritten s cp
  noSlash_iff : read s = .error .noSlash ↔ '/' ∉ s.toList
  noDevice_iff : read s = .error .noDevice ↔ ∃ port, s.toList = '/' :: port ∧ '/' ∉ port
  badPort_iff : read s = .error .badPort ↔ ∃ device port, s.toList = device ++ '/' :: port ∧
    '/' ∉ port ∧ device ≠ [] ∧ ∀ n, ¬ Text.IsNatural Text.wordBound port n

theorem readExactly (s : String) : ReadExactly s := by
  -- each form has an answer of its own, so the answer tells the form
  constructor
  case ok_iff =>
    refine fun cp => ⟨fun h => ?_, IsWritten.read_eq⟩
    obtain ⟨cp', hform, hread⟩ | ⟨-, hread⟩ | ⟨-, hread⟩ | ⟨-, hread⟩ := read_cases s <;>
      cases hread.symm.trans h
    exact hform
  case noSlash_iff =>
    refine ⟨fun h => ?_, read_of_slash_notMem⟩
    obtain ⟨cp, -, hread⟩ | ⟨hform, hread⟩ | ⟨-, hread⟩ | ⟨-, hread⟩ := read_cases s <;>
      cases hread.symm.trans h
    exact hform
  case noDevice_iff =>
    refine ⟨fun h => ?_, fun ⟨port, hlist, hslash⟩ => read_of_slash_first hlist hslash⟩
    obtain ⟨cp, -, hread⟩ | ⟨-, hread⟩ | ⟨hform, hread⟩ | ⟨-, hread⟩ := read_cases s <;>
      cases hread.symm.trans h
    exact hform
  case badPort_iff =>
    refine ⟨fun h => ?_, fun ⟨device, port, hlist, hslash, hdevice, hport⟩ =>
      read_of_not_isNatural hlist hslash hdevice hport⟩
    obtain ⟨cp, -, hread⟩ | ⟨-, hread⟩ | ⟨-, hread⟩ | ⟨hform, hread⟩ := read_cases s <;>
      cases hread.symm.trans h
    exact hform

/-! ## The written form -/

/-- No two connect points have the same written form. -/
theorem display_injective : Function.Injective display := by
  intro cp cp' h
  have hsplit : some (cp.device.toList, (toString cp.port).toList) =
      some (cp'.device.toList, (toString cp'.port).toList) := by
    rw [← split_display, ← split_display, h]
  obtain ⟨hdevice, hport⟩ := Prod.mk.inj (Option.some.inj hsplit)
  have hnumber : some cp.port = some cp'.port := by
    rw [← Text.digits?_toString, ← Text.digits?_toString, hport]
  obtain ⟨device, port⟩ := cp
  obtain ⟨device', port'⟩ := cp'
  obtain rfl : device = device' := String.toList_injective hdevice
  obtain rfl : port = port' := Option.some.inj hnumber
  rfl

/-- Every text is read as what it names, if it names a connect point. A connect point whose device has an
id, whatever characters it holds, and whose port has 64 bits is read from its written form again, and no
two connect points have the same written form. -/
theorem reads_written_points :
    (∀ s, ReadExactly s) ∧ (∀ cp : ConnectPoint, cp.Writable → read cp.display = .ok cp) ∧
      Function.Injective display := by
  refine ⟨readExactly, fun cp hcp => ?_, display_injective⟩
  rw [read_display, if_neg hcp.1, if_pos hcp.2]

/-- The last number of 64 bits behind a device id with slashes, a digit and a blank; with a plus sign and
a zero before it the text names the same port, and one more is no port. -/
theorem reads_written_points_at_bound :
    let cp : ConnectPoint := ⟨"of:1/ 7/", 18446744073709551615⟩
    cp.Writable ∧ read cp.display = .ok cp ∧
      IsWritten "of:1/ 7//+018446744073709551615" cp ∧
      read "of:1/ 7//18446744073709551616" = .error .badPort := by
  intro cp
  have hcp : cp.Writable := ⟨by decide, by decide⟩
  obtain ⟨hread, hround, -⟩ := reads_written_points
  refine ⟨hcp, hround cp hcp, ((hread _).ok_iff cp).1 ?_, ?_⟩
  · decide +kernel
  · decide +kernel

end ConnectPoint

end Lightpath
