import Genlock.Vsyncalter.RoundTrip

/-! # Requests at the ends of the quotient

The quotient of a C10 or C20 PHY has 16 bits and neither carries into the
multiplier nor borrows from it. A request that needs another quotient is cut to
16 bits without an error.
-/

namespace Genlock.Vsyncalter

open CArith

/-- Read the registers and compute the dividers for a clock. -/
def PhyClass.prepare {Φ Dev : Type} {DA : Dev → Type} (cls : PhyClass Φ Dev DA) (t : ℚ) :
    PhyProg Φ Dev DA ℤ := do
  cls.readRegisters
  cls.calculateFeedbackDividers t

/-! ## C10 -/

def C10PhyReg.modClock (r : C10PhyReg) : Option ℚ :=
  c10PllClock (c10Fields r.pllStateMod) (c10Quot r.pllStateMod)

def C10Fields.unit (f : C10Fields) : ℚ := 38400 / f.denominator

theorem C10Fields.unit_pos (f : C10Fields) : 0 < f.unit :=
  div_pos (by norm_num) f.denominator_pos

theorem C10Fields.numenator_div (f : C10Fields) (q : ℤ) :
    (f.numenator q : ℚ) / f.denominator = (f.numenator 0 : ℚ) / f.denominator + q * f.unit := by
  unfold C10Fields.numenator C10Fields.unit
  push_cast
  ring

/-- The quotient needed for `t`, in units from the clock of quotient zero. -/
theorem C10Fields.quotFor_bounds (f : C10Fields) (t : ℚ) :
    (f.numenator 0 : ℚ) / f.denominator + f.quotFor t * f.unit ≤ t ∧
      t < (f.numenator 0 : ℚ) / f.denominator + (f.quotFor t + 1) * f.unit := by
  have h1 := (f.le_quotFor_iff (f.quotFor t) t).mp le_rfl
  have h2 := mt (f.le_quotFor_iff (f.quotFor t + 1) t).mpr (by omega)
  rw [f.numenator_div] at h1 h2
  push_cast at h2
  exact ⟨h1, not_le.mp h2⟩

/-- The setting chosen is within two units of the request exactly if the
quotient needed fits its field. -/
theorem c10_accurate_iff (f : C10Fields) (t : ℚ) :
    |(c10Synth f).clock ((c10Synth f).tune t) - t| ≤ 2 * f.unit ↔ t ∈ (c10Synth f).range := by
  have hunit := f.unit_pos
  obtain ⟨hlow, hhigh⟩ := f.quotFor_bounds t
  have hclock : ∀ q : U16, (c10Synth f).clock q =
      (f.numenator 0 : ℚ) / f.denominator + ((q.toNat : ℤ) : ℚ) * f.unit :=
    fun q => f.numenator_div q.toNat
  have hrange : t ∈ (c10Synth f).range ↔ 0 ≤ f.quotFor t ∧ f.quotFor t < 65536 := by
    rw [f.le_quotFor_iff, ← not_le (a := (65536 : ℤ)), f.le_quotFor_iff, not_le]
    rfl
  rw [hclock, hrange, abs_le]
  have hmod : (((c10Synth f).tune t).toNat : ℤ) = f.quotFor t % 65536 := by
    simp only [c10Synth, BitVec.toNat_ofInt]
    omega
  rw [hmod]
  generalize f.quotFor t = Q at hlow hhigh
  constructor
  · rintro ⟨h1, h2⟩
    have hlt1 : ((Q % 65536 : ℤ) : ℚ) < Q + 4 := by
      by_contra hge
      nlinarith
    have hlt2 : (Q : ℚ) < (Q % 65536 : ℤ) + 4 := by
      by_contra hge
      nlinarith
    have hlt1' : Q % 65536 < Q + 4 := by exact_mod_cast hlt1
    have hlt2' : Q < Q % 65536 + 4 := by exact_mod_cast hlt2
    omega
  · rintro ⟨h1, h2⟩
    rw [Int.emod_eq_of_lt h1 h2]
    constructor <;> nlinarith

section C10Run

variable {port : ℕ} {w : World C10PhyReg Hw}

theorem c10_near_bounds {s : ℕ → U8} {c t : ℚ} {quot : U16} (hc : c = (c10Synth (c10Fields s)).clock quot)
    (hnear : |t - c| ≤ c / 100) : ((c10Fields s).remTerm : ℤ) ≤ ⌊t * (c10Fields s).denominator⌋ ∧
      ⌊t * (c10Fields s).denominator⌋ < 2 ^ 64 := by
  obtain ⟨hm, hr⟩ := c10Fields_bounds s
  have hm' : 16 ≤ (c10Fields s).multiplier := Nat.le_add_left _ _
  have hquot := quot.isLt
  have hD := (c10Fields s).denominator_pos
  have hcD : c * (c10Fields s).denominator = (c10Fields s).numenator quot.toNat := by
    rw [hc]
    exact div_mul_cancel₀ _ hD.ne'
  obtain ⟨hlow, hhigh⟩ := abs_le.mp hnear
  have hnum : (c10Fields s).numenator quot.toNat =
      38400 * ((c10Fields s).multiplier * 65536 + quot.toNat) + (c10Fields s).remTerm := rfl
  have h1 : 99 / 100 * (((c10Fields s).numenator quot.toNat : ℤ) : ℚ) ≤ t * (c10Fields s).denominator := by
    rw [← hcD]
    nlinarith
  have h2 : t * (c10Fields s).denominator ≤ 101 / 100 * (((c10Fields s).numenator quot.toNat : ℤ) : ℚ) := by
    rw [← hcD]
    nlinarith
  generalize (c10Fields s).numenator quot.toNat = N at hnum h1 h2
  have hN0 : 2 * ((c10Fields s).remTerm : ℤ) ≤ N := by omega
  have hN1 : N < 2 ^ 60 := by omega
  have hN0' : 2 * ((c10Fields s).remTerm : ℚ) ≤ N := by exact_mod_cast hN0
  have hN1' : (N : ℚ) < 2 ^ 60 := by exact_mod_cast hN1
  have hr0 : (0 : ℚ) ≤ (c10Fields s).remTerm := Nat.cast_nonneg _
  constructor
  · exact Int.le_floor.mpr (by push_cast; linarith)
  · exact Int.floor_lt.mpr (by push_cast; linarith)

theorem c10_request_run {c t : ℚ} (hden : (c10Fields (c10State port w.hw)).den ≠ 0)
    (hlive : liveClock (c10 port) w = some c) (hnear : |t - c| ≤ c / 100) : ∃ w',
      runHandler hwDevice ((c10 port).prepare t) w = some (0, w') ∧
        w'.obj.reg.modClock = some ((c10Synth (c10Fields (c10State port w.hw))).clock
          ((c10Synth (c10Fields (c10State port w.hw))).tune t)) := by
  have hclock : c = (c10Synth (c10Fields (c10State port w.hw))).clock (c10Quot (c10State port w.hw)) :=
    Option.some.inj (hlive.symm.trans ((c10Tunes port).liveClock_of_admits hden))
  obtain ⟨h0, h1⟩ := c10_near_bounds hclock hnear
  have hdiv := c10FeedbackDividers_eq hden h0 h1
  generalize hq : (c10Synth (c10Fields (c10State port w.hw))).tune t = quot at hdiv
  set reg := c10Loaded port w.hw w.obj.reg c10PllRegCount
  have horig : c10Fields reg.pllStateOrig = c10Fields (c10State port w.hw) :=
    c10Fields_congr fun i hi _ _ => if_pos hi
  refine ⟨w.put w.hw ⟨reg.pllStateOrig, Function.update (Function.update reg.pllStateMod
    c10PllRegQuotLow (lowByte quot)) c10PllRegQuotHigh (highByte quot)⟩, ?_, ?_⟩
  · unfold runHandler PhyClass.prepare
    rw [show (c10 port).readRegisters = C10.readRegisters port from rfl,
      Prog.run_bind_of c10_readRegisters_run]
    show (C10.calculateFeedbackDividers t).run (regExec _) _ = _
    unfold C10.calculateFeedbackDividers
    rw [Prog.run_bind_of run_getObj, World.put_reg, horig, hdiv]
    rfl
  · have hfields : c10Fields (Function.update (Function.update reg.pllStateMod c10PllRegQuotLow
        (lowByte quot)) c10PllRegQuotHigh (highByte quot)) = c10Fields (c10State port w.hw) :=
      c10Fields_congr fun i hi hl hh => by
        rw [Function.update_of_ne hh, Function.update_of_ne hl]
        exact if_pos hi
    have hquot : c10Quot (Function.update (Function.update reg.pllStateMod c10PllRegQuotLow
        (lowByte quot)) c10PllRegQuotHigh (highByte quot)) = quot := by
      unfold c10Quot
      rw [Function.update_self, Function.update_of_ne (by decide), Function.update_self]
      exact word_highByte_lowByte quot
    show c10PllClock _ _ = _
    rw [World.put_reg, hfields, hquot, c10PllClock_eq hden]

end C10Run

/-! ## C20 -/

def C20PhyReg.modClock (r : C20PhyReg) : ℚ :=
  c20PllClock (r.fields.withDividers (r.pllStateMod 8).toNat (r.pllStateMod 9).toNat
    (c20Mpll (r.tx 0)))

/-- The dividers for the quotient `X`, with its fraction, come within two units
of it: the quotient fits its field, and so does the remainder or its largest
value is small. With denominator 1 that value happens to make up for one carry. -/
def QuotientHolds (X : ℚ) (den : ℕ) : Prop :=
  (-(1 / 2) < X ∧ X < 65535 + 1 / 2 ∧
      (RemainderFits X den ∨ 65535 / den + (1 - Int.fract X) ≤ 2)) ∨
    (den = 1 ∧ Int.fract X = 1 / 2 ∧ 65535 + 1 / 2 ≤ X ∧ X < 131071 + 1 / 2)

theorem cround_lt_iff {X : ℚ} {n : ℤ} (hX : -(1 / 2) < X) : cround X < n ↔ X < n - 1 / 2 := by
  rcases le_or_gt 0 X with h | h
  · rw [cround_of_nonneg h, Int.floor_lt]
    constructor <;> intro h <;> linarith
  · have h0 : cround X = 0 := by
      rw [cround_of_neg h, Int.ceil_eq_iff]
      constructor <;> push_cast <;> linarith
    rw [h0]
    constructor
    · intro hn
      have : (1 : ℚ) ≤ n := by exact_mod_cast hn
      linarith
    · intro hn
      by_contra hle
      have : (n : ℚ) ≤ 0 := by exact_mod_cast not_lt.mp hle
      linarith

/-- The quotient and remainder that are stored, for a quotient `X` beyond the field. -/
theorem remainderFor_bounds {X : ℚ} {den : ℕ} (hden0 : 0 < den) :
    (0 ≤ cround ((X - cround X) * den) →
      0 ≤ remainderFor X den ∧ |X - cround X - remainderFor X den / den| ≤ 1 / 2) ∧
    (¬0 ≤ cround ((X - cround X) * den) → remainderFor X den = 65535) := by
  have hd : (0 : ℚ) < den := by exact_mod_cast hden0
  constructor
  · intro h
    have hround := abs_le.mp (abs_sub_cround_le ((X - cround X) * den))
    rw [remainderFor, if_pos h]
    refine ⟨h, ?_⟩
    have h1 : (1 : ℚ) ≤ den := by exact_mod_cast hden0
    have hdiv : X - cround X - (cround ((X - cround X) * den) : ℚ) / den =
        ((X - cround X) * den - cround ((X - cround X) * den)) / den := by
      field_simp
    rw [hdiv, abs_div, abs_of_pos hd, div_le_iff₀ hd]
    exact (abs_le.mpr hround).trans (by linarith)
  · intro h
    rw [remainderFor, if_neg h]

theorem quotientHolds_iff {X : ℚ} {den : ℕ} (hden0 : 0 < den) (hden : den ≤ 65535)
    (hX : |X| ≤ 2 ^ 31 - 1) :
    |((c20DividersOf X den).1.toNat + (c20DividersOf X den).2.toNat / den : ℚ) - X| ≤ 2 ↔
      QuotientHolds X den := by
  have hd : (0 : ℚ) < den := by exact_mod_cast hden0
  obtain ⟨hX0, hX1⟩ := abs_le.mp hX
  have hfst := c20DividersOf_fst X den
  have hround := abs_le.mp (abs_sub_cround_le X)
  by_cases hhalf : -(1 / 2) < X
  · have hq0 : 0 ≤ cround X := by
      by_contra h
      exact absurd ((cround_neg_iff X).mp (not_le.mp h)) (not_le.mpr hhalf)
    have hq1 : cround X < 2 ^ 32 := (cround_lt_iff hhalf).mpr (by push_cast; linarith)
    have hsnd := c20DividersOf_snd hq0 hq1 hden
    obtain ⟨hfits, hclamp⟩ := remainderFor_bounds (X := X) hden0
    have hfitsIff := remainderFits_iff hhalf den
    have hfield : cround X < 65536 ↔ X < 65535 + 1 / 2 := by
      rw [cround_lt_iff hhalf]
      constructor <;> intro h <;> push_cast at h ⊢ <;> linarith
    have hsecond : cround X < 131072 ↔ X < 131071 + 1 / 2 := by
      rw [cround_lt_iff hhalf]
      constructor <;> intro h <;> push_cast at h ⊢ <;> linarith
    have hquot : (((c20DividersOf X den).1.toNat : ℕ) : ℚ) = ((cround X % 65536 : ℤ) : ℚ) := by
      exact_mod_cast hfst
    have hrem : (((c20DividersOf X den).2.toNat : ℕ) : ℚ) = (remainderFor X den : ℚ) := by
      exact_mod_cast hsnd
    rw [hquot, hrem]
    unfold QuotientHolds
    rw [← hfield, ← hsecond, hfitsIff]
    by_cases hrest : 0 ≤ cround ((X - cround X) * den)
    · -- the remainder fits: the setting is right up to what the cut removes
      obtain ⟨-, hclose⟩ := hfits hrest
      obtain ⟨h1, h2⟩ := abs_le.mp hclose
      rcases lt_or_ge (cround X) 65536 with hlt | hge
      · refine iff_of_true ?_ (Or.inl ⟨hhalf, hlt, Or.inl hrest⟩)
        rw [Int.emod_eq_of_lt hq0 hlt, abs_le]
        constructor <;> linarith
      · refine iff_of_false ?_ ?_
        · intro h
          obtain ⟨h, -⟩ := abs_le.mp h
          have : ((cround X % 65536 : ℤ) : ℚ) ≤ cround X - 65536 := by
            have : cround X % 65536 ≤ cround X - 65536 := by omega
            exact_mod_cast this
          linarith
        · rintro (⟨-, hlt, -⟩ | ⟨rfl, hfract, -, -⟩)
          · omega
          · rcases hfitsIff.mpr hrest with h | h
            · linarith
            · push_cast at h
              linarith
    · -- the remainder does not fit: its largest value stands in for it
      have hnot : ¬RemainderFits X den := fun h => hrest (hfitsIff.mp h)
      unfold RemainderFits at hnot
      push Not at hnot
      obtain ⟨hfract, hdelta⟩ := hnot
      have hk : (cround X : ℚ) = X + (1 - Int.fract X) := by
        have := Int.self_sub_floor X
        rw [cround_of_le_fract hhalf hfract]
        push_cast
        linarith
      have hpos : (0 : ℚ) ≤ 65535 / den := by positivity
      rw [hclamp hrest]
      push_cast
      rcases lt_or_ge (cround X) 65536 with hlt | hge
      · rw [Int.emod_eq_of_lt hq0 hlt,
          show (cround X : ℚ) + 65535 / den - X = 65535 / den + (1 - Int.fract X) by linarith,
          abs_of_nonneg (by linarith [Int.fract_lt_one X])]
        constructor
        · intro h
          exact Or.inl ⟨hhalf, hlt, Or.inr h⟩
        · rintro (⟨-, -, h | h⟩ | ⟨-, -, h, -⟩)
          · exact absurd h hrest
          · exact h
          · exact absurd (hfield.mp hlt) (not_lt.mpr h)
      · -- beyond the field only the largest remainder can make up for the cut
        have hfield' : 65535 + 1 / 2 ≤ X := not_lt.mp (mt hfield.mpr (not_lt.mpr hge))
        rcases Nat.lt_or_ge 1 den with hden2 | hden1
        · refine iff_of_false ?_ ?_
          · intro h
            obtain ⟨h, -⟩ := abs_le.mp h
            have hcut : ((cround X % 65536 : ℤ) : ℚ) ≤ cround X - 65536 := by
              have : cround X % 65536 ≤ cround X - 65536 := by omega
              exact_mod_cast this
            have hsmall : (65535 : ℚ) / den ≤ 65535 / 2 :=
              div_le_div_of_nonneg_left (by norm_num) (by norm_num) (by exact_mod_cast hden2)
            linarith
          · rintro (⟨-, hlt, -⟩ | ⟨rfl, -⟩)
            · omega
            · omega
        · obtain rfl : den = 1 := by omega
          have hhalf' : Int.fract X = 1 / 2 := le_antisymm (by push_cast at hdelta; linarith) hfract
          push_cast
          rw [show ((cround X % 65536 : ℤ) : ℚ) + 65535 / 1 - X =
              ((cround X % 65536 + 65536 - cround X : ℤ) : ℚ) - 1 / 2 by push_cast; linarith, abs_le]
          constructor
          · rintro ⟨h, -⟩
            refine Or.inr ⟨trivial, hhalf', hfield', ?_⟩
            have : (-2 : ℤ) < cround X % 65536 + 65536 - cround X := by
              have : (-2 : ℚ) < ((cround X % 65536 + 65536 - cround X : ℤ) : ℚ) := by linarith
              exact_mod_cast this
            omega
          · rintro (⟨-, hlt, -⟩ | ⟨-, -, -, hlt⟩)
            · omega
            · have : cround X % 65536 + 65536 - cround X = 0 := by omega
              rw [this]
              norm_num
  · -- a quotient below zero wraps to the upper end of its field
    rw [not_lt] at hhalf
    have hneg := (cround_neg_iff X).mpr hhalf
    refine iff_of_false ?_ ?_
    · intro h
      obtain ⟨-, h⟩ := abs_le.mp h
      have hwrap : cround X + 65536 ≤ cround X % 65536 := by omega
      have hwrap' : (cround X : ℚ) + 65536 ≤ (c20DividersOf X den).1.toNat := by
        have : cround X + 65536 ≤ ((c20DividersOf X den).1.toNat : ℤ) := by omega
        exact_mod_cast this
      have : (0 : ℚ) ≤ (c20DividersOf X den).2.toNat / den := by positivity
      linarith
    · rintro (⟨h, -⟩ | ⟨-, -, h, -⟩) <;> linarith

section C20Run

variable {port : ℕ} {isBMG : Bool} {w : World C20PhyReg Hw}

/-- The setting chosen is within two units of the request exactly if the stored
dividers come within two of the quotient needed. -/
theorem c20_accurate_iff {φ : C20Frame} (h : φ.Fractional) (hden : φ.fields.fracDen ≤ 65535) {t : ℚ}
    (hX : |c20FracScaled φ.fields t| ≤ 2 ^ 31 - 1) :
    |(c20Synth φ).clock ((c20Synth φ).tune t) - t| ≤ 2 * φ.fields.unit ↔
      QuotientHolds (c20FracScaled φ.fields t) φ.fields.fracDen := by
  have hunit := φ.fields.unit_pos
  have ht : t = φ.fields.unit * (φ.fields.multiplier * 2 ^ 15 + c20FracScaled φ.fields t) := by
    rw [c20FracScaled_eq, add_sub_cancel, mul_div_cancel₀ _ hunit.ne']
  have hdiff : (c20Synth φ).clock ((c20Synth φ).tune t) - t =
      φ.fields.unit * (φ.fraction ((c20Synth φ).tune t) - c20FracScaled φ.fields t) := by
    rw [c20Synth_clock h]
    linear_combination -ht
  rw [hdiff, abs_mul, abs_of_pos hunit, mul_comm 2, mul_le_mul_iff_right₀ hunit,
    ← quotientHolds_iff (Nat.pos_of_ne_zero h.2.2) hden hX]
  rfl

theorem c20_near_bound {φ : C20Frame} {d : U16 × U16} {t : ℚ} (h : φ.Fractional)
    (hmult : φ.fields.multiplier < 4096)
    (hnear : |t - (c20Synth φ).clock d| ≤ (c20Synth φ).clock d / 100) :
    |c20FracScaled φ.fields t| ≤ 2 ^ 31 - 1 := by
  have hunit := φ.fields.unit_pos
  have hden : (1 : ℚ) ≤ φ.fields.fracDen := by exact_mod_cast Nat.one_le_iff_ne_zero.mpr h.2.2
  have hquot : (d.1.toNat : ℚ) ≤ 65535 := by exact_mod_cast Nat.le_of_lt_succ d.1.isLt
  have hrem : (d.2.toNat : ℚ) ≤ 65535 := by exact_mod_cast Nat.le_of_lt_succ d.2.isLt
  have hm : (φ.fields.multiplier : ℚ) ≤ 4095 := by exact_mod_cast Nat.le_of_lt_succ hmult
  have hm0 : (0 : ℚ) ≤ φ.fields.multiplier := Nat.cast_nonneg _
  have hfraction : φ.fraction d ≤ 131070 := by
    have : (d.2.toNat : ℚ) / φ.fields.fracDen ≤ 65535 :=
      (div_le_self (Nat.cast_nonneg _) hden).trans hrem
    unfold C20Frame.fraction
    linarith
  have hfraction0 : 0 ≤ φ.fraction d := by
    unfold C20Frame.fraction
    positivity
  rw [c20Synth_clock h] at hnear
  obtain ⟨hlow, hhigh⟩ := abs_le.mp hnear
  have h0 : 0 ≤ t / φ.fields.unit := by
    refine div_nonneg ?_ hunit.le
    have : 0 ≤ φ.fields.unit * (φ.fields.multiplier * 2 ^ 15 + φ.fraction d) := by positivity
    linarith
  have h1 : t / φ.fields.unit ≤ 101 / 100 * (φ.fields.multiplier * 2 ^ 15 + φ.fraction d) := by
    rw [div_le_iff₀ hunit]
    linarith
  rw [c20FracScaled_eq, abs_le]
  constructor <;> linarith

variable (port isBMG) in
theorem c20_request_run (t : ℚ) : ∃ w',
    runHandler hwDevice ((c20 port isBMG).prepare t) w = some (0, w') ∧
      w'.obj.reg.modClock = (c20Synth (c20FrameOf port isBMG w.hw w.obj.reg.fields)).clock
        ((c20Synth (c20FrameOf port isBMG w.hw w.obj.reg.fields)).tune t) := by
  obtain ⟨hw, reg, hrun, -, htx, -, hfields⟩ :=
    c20_readRegisters_run port isBMG (v := fun _ => none) (w := w)
  have hdividers : c20FeedbackDividers reg.fields t =
      (c20Synth (c20FrameOf port isBMG w.hw w.obj.reg.fields)).tune t := by
    rw [hfields]
    exact (c20FeedbackDividers_withDividers _ 0 0 _ t).symm
  generalize (c20Synth (c20FrameOf port isBMG w.hw w.obj.reg.fields)).tune t = d at hdividers
  refine ⟨(w.put hw reg).put hw { reg with
    pllStateMod := Function.update (Function.update reg.pllStateMod 8 d.1) 9 d.2 }, ?_, ?_⟩
  · unfold runHandler PhyClass.prepare
    rw [show (c20 port isBMG).readRegisters = C20.readRegisters port isBMG from rfl,
      Prog.run_bind_of hrun]
    show (C20.calculateFeedbackDividers t).run (regExec _) _ = _
    unfold C20.calculateFeedbackDividers
    rw [Prog.run_bind_of run_getObj, World.put_reg, hdividers]
    rfl
  · unfold C20PhyReg.modClock
    simp only [World.put_reg, htx, hfields]
    rw [Function.update_self, Function.update_of_ne (by decide), Function.update_self]
    simp only [c20Synth, c20FrameOf, C20Fields.withDividers_withDividers]
    rfl

end C20Run

/-- What a C20 PHY does with a request. MPLLA does not decode its dividers, so
that its clock stays where it was. -/
def C20Frame.RequestHolds (φ : C20Frame) (c t : ℚ) : Prop :=
  match φ.mpll with
  | .a => |c - t| ≤ 2 * φ.fields.unit
  | .b => QuotientHolds (c20FracScaled φ.fields t) φ.fields.fracDen

/-! ## Requests within one percent -/

/-- A C10 PHY at the lower end of its quotient. -/
def c10World : World C10PhyReg Hw where
  hw := ⟨fun _ => 0, fun _ _ _ => 0, fun _ _ addr => if addr = 0xC09 then 1 else 0, fun _ _ => 0⟩
  obj := ⟨⟨true, 0, 0, 0, 0⟩, ⟨fun _ => 0, fun _ => 0⟩⟩
  clientDone := false
  timer := none

theorem c10World_fields : c10Fields (c10State 0 c10World.hw) = ⟨0, 16, 1, 0⟩ := by
  with_unfolding_all decide

theorem c10World_live : liveClock (c10 0) c10World = some 61440 := by
  have hden : (c10Fields (c10State 0 c10World.hw)).den ≠ 0 := by
    rw [c10World_fields]
    decide
  rw [(c10Tunes 0).liveClock_of_admits hden]
  show some ((c10Synth (c10Fields (c10State 0 c10World.hw))).clock (c10Quot (c10State 0 c10World.hw))) = _
  rw [c10World_fields]
  with_unfolding_all decide

/-- A request 0.1 percent below this clock gives one 6 percent above it. -/
theorem c10_request_wraps : ∃ w' c',
    runHandler hwDevice ((c10 0).prepare (61440 * 999 / 1000)) c10World = some (0, w') ∧
      liveClock (c10 0) c10World = some 61440 ∧
      w'.obj.reg.modClock = some c' ∧
      c' - 61440 * 999 / 1000 > 2 * (c10Fields (c10State 0 c10World.hw)).unit := by
  obtain ⟨w', hrun, hmod⟩ := c10_request_run (t := 61440 * 999 / 1000)
    (by rw [c10World_fields]; decide) c10World_live (by rw [abs_le]; constructor <;> norm_num)
  refine ⟨w', _, hrun, c10World_live, hmod, ?_⟩
  rw [c10World_fields]
  with_unfolding_all decide

/-- When a C10 or C20 PHY with a fraction reports an error or comes within two
units of the quotient. -/
theorem request_accuracy_iff (port : ℕ) (c t : ℚ) (hnear : |t - c| ≤ c / 100) :
    (∀ w : World C10PhyReg Hw, (c10Fields (c10State port w.hw)).den ≠ 0 →
      liveClock (c10 port) w = some c → ∃ w' status c',
        runHandler hwDevice ((c10 port).prepare t) w = some (status, w') ∧
        w'.obj.reg.modClock = some c' ∧
        ((status ≠ 0 ∨ |c' - t| ≤ 2 * (c10Fields (c10State port w.hw)).unit) ↔
          t ∈ (c10Synth (c10Fields (c10State port w.hw))).range)) ∧
    (∀ (isBMG : Bool) (w : World C20PhyReg Hw),
      (c20FrameOf port isBMG w.hw w.obj.reg.fields).fields.fracEn ≠ 0 →
      (c20FrameOf port isBMG w.hw w.obj.reg.fields).fields.fracDen ≠ 0 →
      liveClock (c20 port isBMG) w = some c → ∃ w' status,
        runHandler hwDevice ((c20 port isBMG).prepare t) w = some (status, w') ∧
        ((status ≠ 0 ∨ |w'.obj.reg.modClock - t| ≤
            2 * (c20FrameOf port isBMG w.hw w.obj.reg.fields).fields.unit) ↔
          (c20FrameOf port isBMG w.hw w.obj.reg.fields).RequestHolds c t)) := by
  constructor
  · intro w hden hlive
    obtain ⟨w', hrun, hmod⟩ := c10_request_run hden hlive hnear
    refine ⟨w', 0, _, hrun, hmod, ?_⟩
    rw [← c10_accurate_iff]
    simp
  · intro isBMG w hen hden0 hlive
    obtain ⟨w', hrun, hmod⟩ := c20_request_run port isBMG (w := w) t
    have hclock : c = (c20Synth (c20FrameOf port isBMG w.hw w.obj.reg.fields)).clock
        (c20Div port isBMG w.hw) :=
      Option.some.inj (hlive.symm.trans ((c20Tunes port isBMG).liveClock_of_admits trivial))
    refine ⟨w', 0, hrun, ?_⟩
    rw [hmod]
    simp only [ne_eq, not_true_eq_false, false_or]
    have hbound := c20FrameOf_fracDen_le port isBMG w.hw w.obj.reg.fields
    have hmult := c20FrameOf_multiplier_lt port isBMG w.hw w.obj.reg.fields
    generalize c20FrameOf port isBMG w.hw w.obj.reg.fields = φ at *
    unfold C20Frame.RequestHolds
    cases hm : φ.mpll with
    | a =>
        have hoff : ¬φ.Fractional := fun h => by simp [h.1] at hm
        rw [c20Synth_clock_of_not_fractional hoff _ (c20Div port isBMG w.hw), ← hclock]
    | b =>
        have hfrac : φ.Fractional := ⟨hm, hen, hden0⟩
        subst hclock
        exact c20_accurate_iff hfrac (hbound hfrac) (c20_near_bound hfrac hmult hnear)

theorem request_accuracy_iff_c10 : ∃ w' status c',
    runHandler hwDevice ((c10 0).prepare (61440 * 999 / 1000)) c10World = some (status, w') ∧
      w'.obj.reg.modClock = some c' ∧
      ((status ≠ 0 ∨ |c' - 61440 * 999 / 1000| ≤ 2 * (c10Fields (c10State 0 c10World.hw)).unit) ↔
        61440 * 999 / 1000 ∈ (c10Synth (c10Fields (c10State 0 c10World.hw))).range) :=
  (request_accuracy_iff 0 61440 (61440 * 999 / 1000) (by rw [abs_le]; constructor <;> norm_num)).1
    c10World (by rw [c10World_fields]; decide) c10World_live

end Genlock.Vsyncalter
