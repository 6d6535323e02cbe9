import Mathlib.Algebra.Order.Ring.Int
import Mathlib.Computability.RegularExpressions
import Mathlib.Data.List.TakeWhile

/-!
# Patterns, digits and numerals

Regular patterns over character classes, and the numeral that `strtol` and `strtoul` read at the
head of a string: blanks, a sign, a prefix, and then as many digits as there are.
-/

namespace Genlock.Text

open RegularExpression

/-! ## Patterns -/

def charRange (lo hi : Char) : List Char :=
  (List.range' lo.toNat (hi.toNat + 1 - lo.toNat)).map Char.ofNat

/-- `[...]`: one character of the class. -/
def oneOf : List Char → RegularExpression Char
  | [] => 0
  | c :: cs => RegularExpression.char c + oneOf cs

def literal : List Char → RegularExpression Char
  | [] => 1
  | c :: cs => RegularExpression.char c * literal cs

def optional (P : RegularExpression Char) : RegularExpression Char :=
  P + 1

theorem mem_charRange {lo hi c : Char} (hhi : hi.toNat < 0xd800) :
    c ∈ charRange lo hi ↔ lo.toNat ≤ c.toNat ∧ c.toNat ≤ hi.toNat := by
  rw [charRange, List.mem_map]
  constructor
  · intro h
    obtain ⟨n, hn, rfl⟩ := h
    have hn := List.mem_range'_1.1 hn
    have hvalue : (Char.ofNat n).toNat = n := by
      unfold Char.ofNat
      rw [dif_pos (Or.inl (by omega))]
      rfl
    omega
  · intro h
    exact ⟨c.toNat, List.mem_range'_1.2 (by omega), Char.ofNat_toNat c⟩

theorem mem_oneOf {cs x : List Char} : x ∈ (oneOf cs).matches' ↔ ∃ c ∈ cs, x = [c] := by
  induction cs with
  | nil =>
      simp [oneOf]
  | cons c cs ih =>
      rw [oneOf, matches'_add, Language.mem_add, ih, matches'_char, List.exists_mem_cons_iff]
      rfl

theorem mem_optional {P : RegularExpression Char} {x : List Char} :
    x ∈ (optional P).matches' ↔ x ∈ P.matches' ∨ x = [] := by
  rw [optional, matches'_add, Language.mem_add, matches'_epsilon, Language.mem_one]

theorem mem_comp {P Q : RegularExpression Char} {x : List Char} :
    x ∈ (P * Q).matches' ↔ ∃ y ∈ P.matches', ∃ z ∈ Q.matches', y ++ z = x := by
  rw [matches'_mul, Language.mem_mul]

theorem mem_oneOf_comp {cs : List Char} {P : RegularExpression Char} {x : List Char} :
    x ∈ (oneOf cs * P).matches' ↔ ∃ c ∈ cs, ∃ y ∈ P.matches', c :: y = x := by
  rw [mem_comp]
  constructor
  · intro h
    obtain ⟨y, hy, z, hz, hx⟩ := h
    obtain ⟨c, hc, rfl⟩ := mem_oneOf.1 hy
    exact ⟨c, hc, z, hz, hx⟩
  · intro h
    obtain ⟨c, hc, z, hz, hx⟩ := h
    exact ⟨[c], mem_oneOf.2 ⟨c, hc, rfl⟩, z, hz, hx⟩

theorem mem_literal {s x : List Char} : x ∈ (literal s).matches' ↔ x = s := by
  induction s generalizing x with
  | nil =>
      exact Language.mem_one x
  | cons c s ih =>
      rw [literal, mem_comp]
      constructor
      · intro h
        obtain ⟨y, hy, z, hz, rfl⟩ := h
        rw [ih.1 hz, show y = [c] from hy]
        rfl
      · intro h
        exact ⟨[c], rfl, s, ih.2 rfl, h.symm⟩

/-- The first separator splits a string in one way only. -/
theorem append_cons_inj {c : Char} {x x' y y' : List Char} (hx : c ∉ x) (hx' : c ∉ x')
    (h : x ++ c :: y = x' ++ c :: y') : x = x' ∧ y = y' := by
  induction x generalizing x' with
  | nil =>
      cases x' with
      | nil => exact ⟨rfl, (List.cons.inj h).2⟩
      | cons d x' => exact absurd ((List.cons.inj h).1 ▸ List.mem_cons_self) hx'
  | cons d x ih =>
      cases x' with
      | nil =>
          exact absurd ((List.cons.inj h).1 ▸ List.mem_cons_self) hx
      | cons d' x' =>
          have hcons := List.cons.inj h
          have htail := ih (fun hmem => hx (List.mem_cons_of_mem d hmem))
            (fun hmem => hx' (List.mem_cons_of_mem d' hmem)) hcons.2
          exact ⟨by rw [hcons.1, htail.1], htail.2⟩

/-! ## Character classes -/

/-- `isspace` of the C locale -/
def isSpace (c : Char) : Bool :=
  c = ' ' ∨ ('\t'.toNat ≤ c.toNat ∧ c.toNat ≤ '\r'.toNat)

def digitOf (c : Char) : Option ℕ :=
  if '0'.toNat ≤ c.toNat ∧ c.toNat ≤ '9'.toNat then some (c.toNat - '0'.toNat)
  else if 'a'.toNat ≤ c.toNat ∧ c.toNat ≤ 'z'.toNat then some (c.toNat - 'a'.toNat + 10)
  else if 'A'.toNat ≤ c.toNat ∧ c.toNat ≤ 'Z'.toNat then some (c.toNat - 'A'.toNat + 10)
  else none

/-- `ispunct` of the C locale: what prints and is no letter, digit or blank -/
def isPunct (c : Char) : Bool :=
  ('!'.toNat ≤ c.toNat ∧ c.toNat ≤ '~'.toNat) ∧ digitOf c = none

def isDigitIn (base : ℕ) (c : Char) : Bool :=
  (digitOf c).any (· < base)

/-- The number that digits of the base write. -/
def valueIn (base : ℕ) (ds : List Char) : ℕ :=
  ds.foldl (fun v c => v * base + (digitOf c).getD 0) 0

theorem isDigitIn_ten {c : Char} :
    isDigitIn 10 c = true ↔ '0'.toNat ≤ c.toNat ∧ c.toNat ≤ '9'.toNat := by
  have h0 : '0'.toNat = 48 := rfl
  have h9 : '9'.toNat = 57 := rfl
  unfold isDigitIn digitOf
  split
  · next h =>
    simp only [Option.any_some, decide_eq_true_eq]
    omega
  · next h =>
    split
    · simp only [Option.any_some, decide_eq_true_eq]
      omega
    · split
      · simp only [Option.any_some, decide_eq_true_eq]
        omega
      · simp only [Option.any_none, Bool.false_eq_true, h]

theorem digitOf_of_isDigitIn {base : ℕ} {c : Char} (h : isDigitIn base c = true) :
    ∃ d, digitOf c = some d ∧ d < base := by
  simpa [isDigitIn, Option.any_eq_true] using h

theorem digitOf_of_isPunct {c : Char} (h : isPunct c = true) : digitOf c = none := by
  simp only [isPunct, decide_eq_true_eq] at h
  exact h.2

theorem not_isSpace_of_isDigitIn {base : ℕ} {c : Char} (h : isDigitIn base c = true) :
    isSpace c = false := by
  obtain ⟨d, hd, -⟩ := digitOf_of_isDigitIn h
  rw [← Bool.not_eq_true]
  intro hc
  have hle : c.toNat ≤ ' '.toNat := by
    simp only [isSpace, decide_eq_true_eq] at hc
    cases hc with
    | inl hc => exact hc ▸ le_rfl
    | inr hc => exact hc.2.trans (by decide)
  have h0 : '0'.toNat = 48 := rfl
  have ha : 'a'.toNat = 97 := rfl
  have hA : 'A'.toNat = 65 := rfl
  have hs : ' '.toNat = 32 := rfl
  rw [digitOf, if_neg (by omega), if_neg (by omega), if_neg (by omega)] at hd
  cases hd

/-! ## Numerals -/

/-- Whether a minus sign stands in front, and what follows the sign. -/
def takeSign : List Char → Bool × List Char
  | [] => (false, [])
  | c :: s => if c = '-' then (true, s) else if c = '+' then (false, s) else (false, c :: s)

/-- What follows the prefix `0x` of base 16, which is one only in front of a digit. -/
def dropPrefix (base : ℕ) : List Char → List Char
  | z :: x :: d :: s =>
      if base = 16 ∧ z = '0' ∧ (x = 'x' ∨ x = 'X') ∧ isDigitIn base d then d :: s
      else z :: x :: d :: s
  | s => s

/-- The numeral at the head of a string: its sign, its number and what is left. -/
def scanNumeral (base : ℕ) (s : List Char) : Option (Bool × ℕ × List Char) :=
  let signed := takeSign (s.dropWhile isSpace)
  let ds := dropPrefix base signed.2
  if ds.takeWhile (isDigitIn base) = [] then none
  else some (signed.1, valueIn base (ds.takeWhile (isDigitIn base)),
    ds.dropWhile (isDigitIn base))

/-- The 64 bit value of a numeral: a negative one wraps, one too large is the largest value. -/
def unsignedValue (neg : Bool) (n : ℕ) : ℕ :=
  if 2 ^ 64 ≤ n then 2 ^ 64 - 1 else if neg then (2 ^ 64 - n) % 2 ^ 64 else n

def strtoul (base : ℕ) (s : List Char) : ℕ × List Char :=
  match scanNumeral base s with
  | none => (0, s)
  | some (neg, n, rest) => (unsignedValue neg n, rest)

def signedValue (neg : Bool) (n : ℕ) : ℤ :=
  if neg then max (-2 ^ 63) (-(n : ℤ)) else min (2 ^ 63 - 1) (n : ℤ)

def strtol (base : ℕ) (s : List Char) : ℤ × List Char :=
  match scanNumeral base s with
  | none => (0, s)
  | some (neg, n, rest) => (signedValue neg n, rest)

def SignText (sign : List Char) (neg : Bool) : Prop :=
  sign = ['-'] ∧ neg = true ∨ (sign = ['+'] ∨ sign = []) ∧ neg = false

def PrefixText (base : ℕ) (pre : List Char) : Prop :=
  pre = [] ∨ base = 16 ∧ (pre = ['0', 'x'] ∨ pre = ['0', 'X'])

/-- The text of a whole numeral: blanks, a sign, a prefix and at least one digit. -/
def Numeral (base : ℕ) (w : List Char) (neg : Bool) (n : ℕ) : Prop :=
  ∃ blanks sign pre ds, w = blanks ++ (sign ++ (pre ++ ds)) ∧ (∀ c ∈ blanks, isSpace c = true) ∧
    SignText sign neg ∧ PrefixText base pre ∧ ds ≠ [] ∧ (∀ c ∈ ds, isDigitIn base c = true) ∧
    valueIn base ds = n

theorem takeSign_digit {base : ℕ} {c : Char} {s : List Char} (h : isDigitIn base c = true) :
    takeSign (c :: s) = (false, c :: s) := by
  obtain ⟨d, hd, -⟩ := digitOf_of_isDigitIn h
  have hminus : c ≠ '-' := by
    rintro rfl
    cases hd
  have hplus : c ≠ '+' := by
    rintro rfl
    cases hd
  rw [takeSign, if_neg hminus, if_neg hplus]

/-- What a numeral looks like once its blanks and its sign are taken off. -/
theorem takeSign_numeral {base : ℕ} {blanks sign pre ds rest : List Char} {neg : Bool}
    (hblanks : ∀ c ∈ blanks, isSpace c = true) (hsign : SignText sign neg)
    (hpre : PrefixText base pre) (hds : ds ≠ []) (hdigits : ∀ c ∈ ds, isDigitIn base c = true) :
    takeSign ((blanks ++ (sign ++ (pre ++ (ds ++ rest)))).dropWhile isSpace) =
      (neg, pre ++ (ds ++ rest)) := by
  have hhead : ∃ c s, pre ++ (ds ++ rest) = c :: s ∧ isDigitIn base c = true := by
    cases hpre with
    | inl hpre =>
        cases ds with
        | nil => exact absurd rfl hds
        | cons c ds => exact ⟨c, ds ++ rest, by simp [hpre], hdigits c List.mem_cons_self⟩
    | inr hpre =>
        obtain ⟨rfl, hpre⟩ := hpre
        cases hpre with
        | inl hpre => exact ⟨'0', 'x' :: (ds ++ rest), by simp [hpre], rfl⟩
        | inr hpre => exact ⟨'0', 'X' :: (ds ++ rest), by simp [hpre], rfl⟩
  obtain ⟨c, s, hs, hc⟩ := hhead
  rw [hs, List.dropWhile_append_of_pos hblanks]
  cases hsign with
  | inl hsign =>
      rw [hsign.1, hsign.2]
      rfl
  | inr hsign =>
      rw [hsign.2]
      cases hsign.1 with
      | inl hplus =>
          rw [hplus]
          rfl
      | inr hnone =>
          rw [hnone, List.nil_append, List.dropWhile_cons_of_neg
            (by simp [not_isSpace_of_isDigitIn hc]), takeSign_digit hc]

theorem dropPrefix_prefix {base : ℕ} {pre ds : List Char} (rest : List Char) (hbase : base = 16)
    (hpre : pre = ['0', 'x'] ∨ pre = ['0', 'X']) (hds : ds ≠ [])
    (hdigits : ∀ c ∈ ds, isDigitIn base c = true) :
    dropPrefix base (pre ++ (ds ++ rest)) = ds ++ rest := by
  cases ds with
  | nil =>
      exact absurd rfl hds
  | cons d ds =>
      have hd := hdigits d List.mem_cons_self
      cases hpre with
      | inl hpre => simp [hpre, dropPrefix, hbase ▸ hd, hbase]
      | inr hpre => simp [hpre, dropPrefix, hbase ▸ hd, hbase]

theorem ne_x_of_digitOf {c : Char} (h : ∀ d, digitOf c = some d → d < 16) : c ≠ 'x' ∧ c ≠ 'X' := by
  constructor
  · rintro rfl
    exact absurd (h 33 rfl) (by decide)
  · rintro rfl
    exact absurd (h 33 rfl) (by decide)

/-- Digits that nothing extends are no prefix. -/
theorem dropPrefix_digits {base : ℕ} {ds rest : List Char} (hds : ds ≠ [])
    (hdigits : ∀ c ∈ ds, isDigitIn base c = true) (hrest : ∀ c ∈ rest.head?, digitOf c = none) :
    dropPrefix base (ds ++ rest) = ds ++ rest := by
  have hsecond : ∀ z x s, ds ++ rest = z :: x :: s → base = 16 → x ≠ 'x' ∧ x ≠ 'X' := by
    intro z x s hs hbase
    apply ne_x_of_digitOf
    intro d hd
    cases ds with
    | nil => exact absurd rfl hds
    | cons y ds =>
        have htail := (List.cons.inj hs).2
        cases ds with
        | nil =>
            have htail : rest = x :: s := htail
            rw [hrest x (by simp [htail])] at hd
            cases hd
        | cons x' ds =>
            obtain ⟨d', hd', hlt⟩ := digitOf_of_isDigitIn (hdigits x' (by simp))
            rw [(List.cons.inj htail).1, hd] at hd'
            cases hd'
            exact hbase ▸ hlt
  unfold dropPrefix
  split
  · next z x d s heq =>
    rw [if_neg, heq]
    intro h
    have hx := hsecond z x _ heq h.1
    exact h.2.2.1.elim hx.1 hx.2
  · rfl

theorem dropPrefix_head {base : ℕ} {c : Char} {s : List Char} (hc : isDigitIn base c = true) :
    ∃ d t, dropPrefix base (c :: s) = d :: t ∧ isDigitIn base d = true := by
  unfold dropPrefix
  split
  · next z x d t heq =>
    split
    · next h => exact ⟨d, t, rfl, h.2.2.2⟩
    · exact ⟨z, x :: d :: t, rfl, (List.cons.inj heq).1 ▸ hc⟩
  · exact ⟨c, s, rfl, hc⟩

/-- A numeral that nothing extends is read whole. -/
theorem scanNumeral_append {base : ℕ} {w rest : List Char} {neg : Bool} {n : ℕ}
    (h : Numeral base w neg n) (hrest : ∀ c ∈ rest.head?, digitOf c = none) :
    scanNumeral base (w ++ rest) = some (neg, n, rest) := by
  obtain ⟨blanks, sign, pre, ds, rfl, hblanks, hsign, hpre, hds, hdigits, rfl⟩ := h
  have hdrop : dropPrefix base (pre ++ (ds ++ rest)) = ds ++ rest := by
    cases hpre with
    | inl hpre => rw [hpre, List.nil_append, dropPrefix_digits hds hdigits hrest]
    | inr hpre => exact dropPrefix_prefix rest hpre.1 hpre.2 hds hdigits
  have hnot : ∀ c ∈ rest.head?, ¬ isDigitIn base c = true := by
    intro c hc
    simp [isDigitIn, hrest c hc]
  have htake : (ds ++ rest).takeWhile (isDigitIn base) = ds := by
    rw [List.takeWhile_append_of_pos hdigits]
    cases rest with
    | nil => simp
    | cons c rest => simp [hnot c rfl]
  have hleft : (ds ++ rest).dropWhile (isDigitIn base) = rest := by
    rw [List.dropWhile_append_of_pos hdigits]
    cases rest with
    | nil => rfl
    | cons c rest => simp [hnot c rfl]
  simp only [scanNumeral, List.append_assoc]
  rw [takeSign_numeral hblanks hsign hpre hds hdigits, hdrop, htake, hleft, if_neg hds]

/-- Where a numeral stands at the head, some number is read. -/
theorem scanNumeral_ne_none {base : ℕ} {w rest : List Char} {neg : Bool} {n : ℕ}
    (h : Numeral base w neg n) : scanNumeral base (w ++ rest) ≠ none := by
  obtain ⟨blanks, sign, pre, ds, rfl, hblanks, hsign, hpre, hds, hdigits, rfl⟩ := h
  have hhead : ∃ d t, dropPrefix base (pre ++ (ds ++ rest)) = d :: t ∧ isDigitIn base d = true := by
    cases ds with
    | nil => exact absurd rfl hds
    | cons d ds =>
        have hd := hdigits d List.mem_cons_self
        cases hpre with
        | inl hpre =>
            rw [hpre]
            exact dropPrefix_head hd
        | inr hpre => exact ⟨d, ds ++ rest, dropPrefix_prefix rest hpre.1 hpre.2 hds hdigits, hd⟩
  obtain ⟨d, t, ht, hd⟩ := hhead
  simp only [scanNumeral, List.append_assoc]
  rw [takeSign_numeral hblanks hsign hpre hds hdigits, ht, if_neg (by simp [hd])]
  exact Option.some_ne_none _

theorem takeSign_text (s : List Char) :
    ∃ sign, s = sign ++ (takeSign s).2 ∧ SignText sign (takeSign s).1 := by
  cases s with
  | nil =>
      exact ⟨[], rfl, Or.inr ⟨Or.inr rfl, rfl⟩⟩
  | cons c s =>
      rw [takeSign]
      split
      · next h => exact ⟨['-'], by rw [h]; rfl, Or.inl ⟨rfl, rfl⟩⟩
      · split
        · next h => exact ⟨['+'], by rw [h]; rfl, Or.inr ⟨Or.inl rfl, rfl⟩⟩
        · exact ⟨[], rfl, Or.inr ⟨Or.inr rfl, rfl⟩⟩

theorem dropPrefix_text (base : ℕ) (s : List Char) :
    ∃ pre, s = pre ++ dropPrefix base s ∧ PrefixText base pre := by
  unfold dropPrefix
  split
  · next z x d t =>
    split
    · next h =>
      obtain ⟨hbase, hz, hx, -⟩ := h
      subst hz
      cases hx with
      | inl hx => exact ⟨['0', 'x'], by rw [hx]; rfl, Or.inr ⟨hbase, Or.inl rfl⟩⟩
      | inr hx => exact ⟨['0', 'X'], by rw [hx]; rfl, Or.inr ⟨hbase, Or.inr rfl⟩⟩
    · exact ⟨[], rfl, Or.inl rfl⟩
  · exact ⟨[], rfl, Or.inl rfl⟩

/-- What is read is a numeral at the head of the string. -/
theorem numeral_of_scanNumeral {base : ℕ} {s rest : List Char} {neg : Bool} {n : ℕ}
    (h : scanNumeral base s = some (neg, n, rest)) : ∃ w, w ++ rest = s ∧ Numeral base w neg n := by
  obtain ⟨sign, hsigned, hsign⟩ := takeSign_text (s.dropWhile isSpace)
  obtain ⟨pre, hprefixed, hpre⟩ := dropPrefix_text base (takeSign (s.dropWhile isSpace)).2
  simp only [scanNumeral] at h
  generalize hds : dropPrefix base (takeSign (s.dropWhile isSpace)).2 = ds at h hprefixed
  split at h
  · cases h
  · next hdigits =>
    injection h with h
    injection h with hneg h
    injection h with hn hrest
    refine ⟨s.takeWhile isSpace ++ (sign ++ (pre ++ ds.takeWhile (isDigitIn base))), ?_,
      s.takeWhile isSpace, sign, pre, ds.takeWhile (isDigitIn base), rfl, ?_, hneg ▸ hsign, hpre,
      hdigits, ?_, hn⟩
    · calc
        _ = s.takeWhile isSpace ++ (sign ++ (pre ++ (ds.takeWhile (isDigitIn base) ++ rest))) := by
          simp only [List.append_assoc]
        _ = s.takeWhile isSpace ++ s.dropWhile isSpace := by
          rw [← hrest, List.takeWhile_append_dropWhile, ← hprefixed, ← hsigned]
        _ = s := List.takeWhile_append_dropWhile
    · intro c hc
      exact List.mem_takeWhile_imp hc
    · intro c hc
      exact List.mem_takeWhile_imp hc

theorem numeral_ne_nil {base : ℕ} {w : List Char} {neg : Bool} {n : ℕ}
    (h : Numeral base w neg n) : w ≠ [] := by
  obtain ⟨blanks, sign, pre, ds, rfl, -, -, -, hds, -, -⟩ := h
  simp [hds]

theorem numeral_digits {base : ℕ} {ds : List Char} (hds : ds ≠ [])
    (hdigits : ∀ c ∈ ds, isDigitIn base c = true) : Numeral base ds false (valueIn base ds) :=
  ⟨[], [], [], ds, rfl, by simp, Or.inr ⟨Or.inr rfl, rfl⟩, Or.inl rfl, hds, hdigits, rfl⟩

end Genlock.Text
