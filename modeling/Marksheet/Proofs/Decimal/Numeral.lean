import Mathlib
import Marksheet.Decimal.Numeral

/-!
# Natural numbers by their digits

The digits of a natural number are decimal digits and write that number, and
only zero begins with the digit zero. A run of digits ends where something else
follows. In any radix, one more digit moves those before it up by one place.
-/

namespace Marksheet.Decimal

open Source.Alphabet (isDigit)

/-- The digits of a natural number. -/
def digits (n : Nat) : List Char := Nat.toDigits 10 n

theorem toList_toString (n : Nat) : (toString n).toList = digits n := by
  rw [Nat.toString_eq_repr, Nat.toList_repr, digits]

theorem isDigit_of_mem_digits {n : Nat} {c : Char} (h : c ∈ digits n) : isDigit c = true :=
  Nat.isDigit_of_mem_toDigits (by decide) (by decide) h

theorem digits_ne_nil (n : Nat) : digits n ≠ [] :=
  List.ne_nil_of_length_pos Nat.length_toDigits_pos

/-- A decimal digit counts what it shows. -/
theorem digitValue_of_isDigit {c : Char} (h : isDigit c = true) :
    digitValue c = c.toNat - '0'.toNat := if_pos h

/-- Only a decimal digit counts less than ten. -/
theorem isDigit_of_digitValue_lt {c : Char} (h : digitValue c < 10) : isDigit c = true := by
  unfold digitValue at h
  split_ifs at h with hdigit <;> first | exact hdigit | omega

/-- One more digit moves those before it up by one place. -/
theorem digitsValue_concat (radix : Nat) (text : List Char) (c : Char) :
    digitsValue radix (text ++ [c]) = digitsValue radix text * radix + digitValue c := by
  rw [digitsValue, List.foldl_append, List.foldl_cons, List.foldl_nil, ← digitsValue]

/-- The digits of a number write it. -/
theorem digitsValue_digits (n : Nat) : digitsValue 10 (digits n) = n := by
  have hfold : ∀ (text : List Char) (start : Nat), (∀ c ∈ text, isDigit c = true) →
      text.foldl (fun value c => value * 10 + digitValue c) start =
        Nat.ofDigitChars 10 text start := by
    intro text
    induction text with
    | nil => intro start _; rfl
    | cons c rest ih =>
      intro start hdigits
      have hc := digitValue_of_isDigit (hdigits c List.mem_cons_self)
      rw [List.foldl_cons, Nat.ofDigitChars_cons, hc, Nat.mul_comm]
      exact ih _ fun d hd => hdigits d (List.mem_cons_of_mem c hd)
  rw [digitsValue, hfold _ _ fun c hc => isDigit_of_mem_digits hc]
  exact Nat.ofDigitChars_ten_toDigits

/-- Only zero begins with the digit zero. -/
theorem eq_zero_of_digits {n : Nat} {rest : List Char} (h : digits n = '0' :: rest) :
    n = 0 ∧ rest = [] := by
  induction n using Nat.strong_induction_on generalizing rest with
  | h n ih =>
    rw [digits, Nat.toDigits_eq_if (by decide)] at h
    split at h
    · rename_i hsmall
      obtain ⟨hdigit, hrest⟩ := List.cons.inj h
      refine ⟨?_, hrest.symm⟩
      interval_cases n <;> first | rfl | cases hdigit
    · rename_i hlarge
      obtain ⟨c, tail, htail⟩ := List.exists_cons_of_ne_nil (digits_ne_nil (n / 10))
      rw [digits] at htail
      rw [htail, List.cons_append] at h
      obtain ⟨rfl, -⟩ := List.cons.inj h
      have hzero := (ih (n / 10) (by omega) htail).1
      omega

/-- A run of digits ends where no digit follows. -/
theorem spanDigits_append {text rest : List Char} (htext : ∀ c ∈ text, isDigit c = true)
    (hrest : ∀ c ∈ rest.head?, isDigit c = false) : spanDigits (text ++ rest) = (text, rest) := by
  have htake : rest.takeWhile isDigit = [] := by
    cases rest with
    | nil => rfl
    | cons c tail => simp [hrest c rfl]
  have hdrop : rest.dropWhile isDigit = rest := by
    cases rest with
    | nil => rfl
    | cons c tail => simp [hrest c rfl]
  unfold spanDigits
  rw [List.takeWhile_append_of_pos htext, List.dropWhile_append_of_pos htext, htake, hdrop,
    List.append_nil]

end Marksheet.Decimal
