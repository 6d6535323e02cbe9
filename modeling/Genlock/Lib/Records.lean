import Genlock.Lib.Text
import Mathlib.Tactic.IntervalCases

/-! # Printed records

Integers in decimal, and lines of fields. What is printed is read back by `strtol` and by
splitting at the separators.
-/

namespace Genlock.Text

/-! ## Decimal text -/

def printNat (n : ℕ) : List Char := Nat.toDigits 10 n

def printInt (z : ℤ) : List Char :=
  if z < 0 then '-' :: printNat z.natAbs else printNat z.natAbs

theorem valueIn_append (base : ℕ) (ds : List Char) (c : Char) :
    valueIn base (ds ++ [c]) = valueIn base ds * base + (digitOf c).getD 0 := by
  rw [valueIn, List.foldl_append, ← valueIn]
  rfl

theorem digitOf_digitChar {d : ℕ} (h : d < 10) : digitOf d.digitChar = some d := by
  interval_cases d <;> rfl

theorem printNat_cases (n : ℕ) :
    printNat n = if n < 10 then [n.digitChar] else printNat (n / 10) ++ [(n % 10).digitChar] :=
  Nat.toDigits_eq_if (by decide)

theorem printNat_ne_nil (n : ℕ) : printNat n ≠ [] := Nat.toDigits_ne_nil

theorem valueIn_printNat (n : ℕ) : valueIn 10 (printNat n) = n := by
  induction n using Nat.strong_induction_on with
  | _ n ih =>
      rw [printNat_cases]
      by_cases h : n < 10
      · rw [if_pos h, ← List.nil_append [n.digitChar], valueIn_append, digitOf_digitChar h]
        exact Nat.zero_add n
      · have hmod : n % 10 < 10 := Nat.mod_lt n (by decide)
        rw [if_neg h, valueIn_append, ih (n / 10) (by omega), digitOf_digitChar hmod]
        exact Nat.div_add_mod' n 10

theorem isDigitIn_printNat {n : ℕ} {c : Char} (h : c ∈ printNat n) : isDigitIn 10 c = true := by
  have hdigit := Nat.isDigit_of_mem_toDigits (by decide) (by decide) h
  rw [isDigitIn_ten]
  simpa [Char.isDigit, UInt32.le_iff_toNat_le] using hdigit

/-- A printed integer is a numeral with its sign. -/
theorem numeral_printInt (z : ℤ) : Numeral 10 (printInt z) (decide (z < 0)) z.natAbs := by
  have hdigits : ∀ c ∈ printNat z.natAbs, isDigitIn 10 c = true := fun c hc =>
    isDigitIn_printNat hc
  rw [printInt]
  by_cases hz : z < 0
  · rw [if_pos hz]
    exact ⟨[], ['-'], [], _, rfl, by simp, Or.inl ⟨rfl, decide_eq_true hz⟩, Or.inl rfl,
      printNat_ne_nil _, hdigits, valueIn_printNat _⟩
  · rw [if_neg hz]
    exact ⟨[], [], [], _, rfl, by simp, Or.inr ⟨Or.inr rfl, decide_eq_false hz⟩, Or.inl rfl,
      printNat_ne_nil _, hdigits, valueIn_printNat _⟩

theorem numeral_printNat (n : ℕ) : Numeral 10 (printNat n) false n := by
  have h := numeral_digits (printNat_ne_nil n) fun c hc => isDigitIn_printNat hc
  rwa [valueIn_printNat] at h

/-- Printed 64 bit integers are read back. -/
theorem strtol_printInt {z : ℤ} (hlow : -2 ^ 63 ≤ z) (hhigh : z < 2 ^ 63) :
    strtol 10 (printInt z) = (z, []) := by
  have hscan : scanNumeral 10 (printInt z ++ []) = some (decide (z < 0), z.natAbs, []) :=
    scanNumeral_append (numeral_printInt z) (by simp)
  rw [List.append_nil] at hscan
  rw [strtol, hscan]
  simp only [signedValue, decide_eq_true_eq, Prod.mk.injEq, and_true]
  split <;> omega

theorem strtoul_printNat {n : ℕ} (h : n < 2 ^ 64) : strtoul 10 (printNat n) = (n, []) := by
  have hscan : scanNumeral 10 (printNat n ++ []) = some (false, n, []) :=
    scanNumeral_append (numeral_printNat n) (by simp)
  rw [List.append_nil] at hscan
  rw [strtoul, hscan]
  simp only [unsignedValue, if_neg (Nat.not_le.mpr h), Bool.false_eq_true, if_false]

/-! ## Separated fields -/

theorem not_mem_printNat {n : ℕ} {c : Char} (h : digitOf c = none) : c ∉ printNat n := by
  intro hc
  obtain ⟨d, hd, -⟩ := digitOf_of_isDigitIn (isDigitIn_printNat hc)
  rw [h] at hd
  cases hd

theorem not_mem_printInt {z : ℤ} {c : Char} (h : digitOf c = none) (hminus : c ≠ '-') :
    c ∉ printInt z := by
  rw [printInt]
  split
  · rw [List.mem_cons, not_or]
    exact ⟨hminus, not_mem_printNat h⟩
  · exact not_mem_printNat h

def unlines (sep : Char) (lines : List (List Char)) : List Char :=
  lines.flatMap (· ++ [sep])

theorem unlines_append (sep : Char) (xs ys : List (List Char)) :
    unlines sep (xs ++ ys) = unlines sep xs ++ unlines sep ys :=
  List.flatMap_append

/-- The lines of a text; a part with no separator behind it is not a line. -/
def lines (sep : Char) (text : List Char) : List (List Char) :=
  (text.splitOn sep).dropLast

theorem splitOn_cons_field {sep : Char} {x : List Char} (hx : sep ∉ x) (rest : List Char) :
    (x ++ sep :: rest).splitOn sep = x :: rest.splitOn sep := by
  rw [List.splitOn_append_cons_self, List.splitOn_eq_singleton hx]
  rfl

theorem lines_unlines {sep : Char} {xs : List (List Char)} (h : ∀ x ∈ xs, sep ∉ x) :
    lines sep (unlines sep xs) = xs := by
  induction xs with
  | nil => rfl
  | cons x xs ih =>
      have hx : sep ∉ x := h x List.mem_cons_self
      have hxs := ih fun y hy => h y (List.mem_cons_of_mem x hy)
      have hsplit : unlines sep (x :: xs) = x ++ sep :: unlines sep xs := by
        simp [unlines]
      rw [lines, hsplit, splitOn_cons_field hx,
        List.dropLast_cons_of_ne_nil (List.splitOn_ne_nil _ _)]
      exact congrArg (x :: ·) hxs

end Genlock.Text
