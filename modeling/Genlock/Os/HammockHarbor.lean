import Genlock.Lib.CArith
import Genlock.Lib.Clocks
import Genlock.Lib.Prog
import Genlock.Lib.Rounded
import Genlock.Os.Vblank

/-! # Hammock Harbor timestamps

With hardware timestamps `vblank_handler` reads the counter that the pipe's
registers latched at the vblank and the running counter, each in two halves, and
takes the difference from the clock of the system. The operands of `|` are
evaluated from left to right, and `long double` has 64 significant bits.
-/

namespace Genlock.Os

open CArith Halves Rounded

/-! ## The reads of the handler -/

structure Timespec where
  tvSec : U64
  tvNsec : U64
deriving DecidableEq, Repr

inductive HhOp where
  | readDword (addr : ℕ)
  | clockGettime
deriving DecidableEq

@[reducible] def HhOp.Ans : HhOp → Type
  | .readDword _ => U32
  | .clockGettime => Timespec

abbrev HhProg := Prog HhOp HhOp.Ans

def readOffsetDword (addr : ℕ) : HhProg U32 := Prog.perform (HhOp.readDword addr)

def clockRealtime : HhProg Timespec := Prog.perform HhOp.clockGettime

def hhLiveTsRegHigh : ℕ := 0x462f8
def hhLiveTsRegLow : ℕ := 0x462f4

/-- `(long double) x` -/
def longDouble (x : ℚ) : ℚ := nearest 63 x

/-- `38.4L` -/
def hhClockFrequencyLocal : ℚ := longDouble 38.4

structure HhTimestampRegs where
  low : ℕ
  high : ℕ
deriving DecidableEq, Repr

def pipeTimestampRegs : Fin 4 → HhTimestampRegs :=
  ![⟨0x46300, 0x46304⟩, ⟨0x46308, 0x4630C⟩, ⟨0x46310, 0x46314⟩, ⟨0x46318, 0x4631C⟩]

/-- `((uint64_t)high << 32) | low` -/
def joinHalves (high low : U32) : U64 := high.setWidth 64 <<< 32 ||| low.setWidth 64

def readHalves (high low : ℕ) : HhProg U64 := do
  let high ← readOffsetDword high
  let low ← readOffsetDword low
  return joinHalves high low

def readStamps (pipe : Fin 4) : HhProg (U64 × U64) := do
  let timestamp ← readHalves (pipeTimestampRegs pipe).high (pipeTimestampRegs pipe).low
  let timestampLive ← readHalves hhLiveTsRegHigh hhLiveTsRegLow
  return (timestamp, timestampLive)

def realtimeUs (ts : Timespec) : U64 := ts.tvSec * 1000000 + ts.tvNsec / 1000

/-- Ticks in whole microseconds: the quotient is rounded, then cut. -/
def microseconds (ticks : ℕ) : ℤ :=
  trunc (longDouble (longDouble ticks / hhClockFrequencyLocal))

/-- The constant is a little above 38.4, and 15 microseconds come out as 14. -/
example : microseconds 192 = 5 ∧ microseconds 576 = 14 := by decide +kernel

def hardwareTimestamp (pipe : Fin 4) : HhProg U64 := do
  let stamps ← readStamps pipe
  let tsRealtime ← clockRealtime
  let timestampDiff := stamps.2 - stamps.1
  return realtimeUs tsRealtime - BitVec.ofInt 64 (microseconds timestampDiff.toNat)

def vblankHandlerReads (pipe : Fin 4) (info : VblInfo) (sec usec : U32) : HhProg VblInfo := do
  if info.counter < info.size then
    if info.hardwareTs then
      let timestamp ← hardwareTimestamp pipe
      return vblankHandler info ⟨sec, usec, timestamp⟩
    -- only the time of the event is looked at
    else return vblankHandler info ⟨sec, usec, 0⟩
  else return info

/-! ## The counter -/

def highHalf (x : U64) : U32 := x.extractLsb' 32 32
def lowHalf (x : U64) : U32 := x.setWidth 32

/-- The running counter, what the registers of the pipes have latched of it and the
clock of the system, at each access of the handler. -/
structure HhClock where
  live : ℕ → U64
  latched : Fin 4 → ℕ → U64
  realtime : ℕ → Timespec
  live_mono : ∀ i, live i ≤ live (i + 1)
  latched_mono : ∀ pipe i, latched pipe i ≤ latched pipe (i + 1)
  latched_le : ∀ pipe i, latched pipe i ≤ live i

namespace HhClock

variable (clock : HhClock)

def pipeAt (reg : HhTimestampRegs → ℕ) (addr : ℕ) : Option (Fin 4) :=
  (List.finRange 4).find? fun pipe => reg (pipeTimestampRegs pipe) = addr

def register (addr i : ℕ) : U32 :=
  if addr = hhLiveTsRegHigh then highHalf (clock.live i)
  else if addr = hhLiveTsRegLow then lowHalf (clock.live i)
  else match pipeAt HhTimestampRegs.high addr with
    | some pipe => highHalf (clock.latched pipe i)
    | none => match pipeAt HhTimestampRegs.low addr with
      | some pipe => lowHalf (clock.latched pipe i)
      | none => 0

def exec : (o : HhOp) → ℕ → Option (o.Ans × ℕ)
  | .readDword addr, i => some (clock.register addr i, i + 1)
  | .clockGettime, i => some (clock.realtime i, i + 1)

theorem register_high (pipe : Fin 4) (i : ℕ) :
    clock.register (pipeTimestampRegs pipe).high i = highHalf (clock.latched pipe i) := by
  fin_cases pipe <;> rfl

theorem register_low (pipe : Fin 4) (i : ℕ) :
    clock.register (pipeTimestampRegs pipe).low i = lowHalf (clock.latched pipe i) := by
  fin_cases pipe <;> rfl

theorem run_readHalves (high low i : ℕ) : (readHalves high low).run clock.exec i =
    some (joinHalves (clock.register high i) (clock.register low (i + 1)), i + 2) := rfl

theorem run_readStamps (pipe : Fin 4) : (readStamps pipe).run clock.exec 0 = some
    ((joinHalves (highHalf (clock.latched pipe 0)) (lowHalf (clock.latched pipe 1)),
      joinHalves (highHalf (clock.live 2)) (lowHalf (clock.live 3))), 4) := by
  unfold readStamps
  rw [Prog.run_bind_of (clock.run_readHalves _ _ _), Prog.run_bind_of (clock.run_readHalves _ _ _),
    register_high, register_low]
  rfl

theorem run_hardwareTimestamp (pipe : Fin 4) : (hardwareTimestamp pipe).run clock.exec 0 = some
    (realtimeUs (clock.realtime 4) - BitVec.ofInt 64 (microseconds
      (joinHalves (highHalf (clock.live 2)) (lowHalf (clock.live 3)) -
        joinHalves (highHalf (clock.latched pipe 0)) (lowHalf (clock.latched pipe 1))).toNat), 5) := by
  unfold hardwareTimestamp
  rw [Prog.run_bind_of (clock.run_readStamps pipe)]
  rfl

end HhClock

theorem toNat_joinHalves (x y : U64) :
    (joinHalves (highHalf x) (lowHalf y)).toNat = torn (2 ^ 32) x.toNat y.toNat := by
  have hx := x.isLt
  have hhigh : (highHalf x).toNat = x.toNat / 2 ^ 32 := by
    unfold highHalf
    rw [BitVec.extractLsb'_toNat, Nat.shiftRight_eq_div_pow]
    omega
  have hlow : (lowHalf y).toNat = y.toNat % 2 ^ 32 := BitVec.toNat_setWidth _ _
  have hx' : x.toNat / 2 ^ 32 % 2 ^ 64 = x.toNat / 2 ^ 32 := Nat.mod_eq_of_lt (by omega)
  have hy' : y.toNat % 2 ^ 32 % 2 ^ 64 = y.toNat % 2 ^ 32 := Nat.mod_eq_of_lt (by omega)
  have hshift : x.toNat / 2 ^ 32 * 2 ^ 32 % 2 ^ 64 = x.toNat / 2 ^ 32 * 2 ^ 32 :=
    Nat.mod_eq_of_lt (by omega)
  unfold joinHalves torn
  rw [BitVec.toNat_or, BitVec.toNat_shiftLeft, BitVec.toNat_setWidth, BitVec.toNat_setWidth, hhigh,
    hlow, hx', hy', Nat.shiftLeft_eq, hshift, ← Nat.shiftLeft_eq,
    ← Nat.shiftLeft_add_eq_or_of_lt (by omega)]

/-! ## Microseconds -/

theorem hhClockFrequencyLocal_eq : hhClockFrequencyLocal = 5534023222112865485 / 2 ^ 57 := by
  decide +kernel

theorem longDouble_nonneg {x : ℚ} (h : 0 ≤ x) : 0 ≤ longDouble x :=
  (nearestEven 63).round_nonneg h

theorem longDouble_natCast {n : ℕ} (h : n ≤ 2 ^ 64) : longDouble n = n :=
  (nearestEven 63).round_natCast h

theorem quotient_nonneg (ticks : ℕ) : 0 ≤ longDouble ticks / hhClockFrequencyLocal := by
  have hticks := longDouble_nonneg (Nat.cast_nonneg (α := ℚ) ticks)
  rw [hhClockFrequencyLocal_eq]
  positivity

theorem microseconds_eq (ticks : ℕ) :
    microseconds ticks = ⌊longDouble (longDouble ticks / hhClockFrequencyLocal)⌋ :=
  trunc_of_nonneg (longDouble_nonneg (quotient_nonneg ticks))

theorem microseconds_nonneg (ticks : ℕ) : 0 ≤ microseconds ticks := by
  rw [microseconds_eq]
  exact Int.floor_nonneg.mpr (longDouble_nonneg (quotient_nonneg ticks))

theorem microseconds_mono {m n : ℕ} (h : m ≤ n) : microseconds m ≤ microseconds n := by
  rw [microseconds_eq, microseconds_eq]
  apply Int.floor_mono
  apply nearest_mono
  apply div_le_div_of_nonneg_right (nearest_mono 63 (by exact_mod_cast h))
  rw [hhClockFrequencyLocal_eq]
  norm_num

/-- The quotient is not rounded up to a whole number that the exact one does not reach: beyond
`2 ^ 57` the neighbours are far apart, but there the constant is far enough above 38.4. -/
theorem longDouble_quotient_lt {n : ℕ} (hn : n < 2 ^ 64) {k : ℤ} (h : 5 * (n : ℤ) + 1 ≤ 192 * k) :
    longDouble (n / hhClockFrequencyLocal) < k := by
  obtain ⟨x, hx⟩ : ∃ x, x = (n : ℚ) / hhClockFrequencyLocal := ⟨_, rfl⟩
  have hx0 : 0 ≤ x := by
    rw [hx, hhClockFrequencyLocal_eq]
    positivity
  have hticks : 5 * (n : ℚ) = 192 * x + x / 2 ^ 57 := by
    rw [hx, hhClockFrequencyLocal_eq]
    ring
  have hk : 192 * x + x / 2 ^ 57 + 1 ≤ 192 * k := by
    rw [← hticks]
    exact_mod_cast h
  have hsmall : x < 2 ^ 59 := by
    have hn' : (n : ℚ) < 2 ^ 64 := by exact_mod_cast hn
    have hx' : x / 2 ^ 57 ≥ 0 := by positivity
    linarith
  rw [← hx]
  by_cases hzero : x = 0
  · rw [hzero, longDouble, nearest_eq 0 (by simp)]
    have hk0 : (0 : ℤ) < k := by omega
    exact_mod_cast hk0
  · have hpos : 0 < x := lt_of_le_of_ne hx0 (Ne.symm hzero)
    have habs : |x| = x := abs_of_pos hpos
    have hlow : (2 : ℚ) ^ Int.log 2 x ≤ x := Int.zpow_log_le_self (by norm_num) hpos
    have hlog : Int.log 2 x < 59 := by
      rw [← Int.lt_zpow_iff_log_lt (by norm_num) hpos]
      exact_mod_cast hsmall
    apply nearest_lt_intCast (by rw [habs]; omega)
    rw [ulp, habs]
    by_cases h56 : Int.log 2 x ≤ 56
    · have hulp : (2 : ℚ) ^ (Int.log 2 x - 63) ≤ 2 ^ (-7 : ℤ) :=
        zpow_le_zpow_right₀ (by norm_num) (by omega)
      have hx' : 0 < x / 2 ^ 57 := by positivity
      norm_num at hulp hx' hk ⊢
      linarith
    · by_cases h57 : Int.log 2 x = 57
      · rw [h57] at hlow ⊢
        norm_num at hlow hk ⊢
        linarith
      · have h58 : Int.log 2 x = 58 := by omega
        rw [h58] at hlow ⊢
        norm_num at hlow hk ⊢
        by_cases hpow : x = 2 ^ 58
        · have hint : (2 ^ 58 : ℤ) < k := by
            rw [hpow] at hk
            have hlt : ((2 ^ 58 : ℤ) : ℚ) < k := by
              norm_num at hk ⊢
              linarith
            exact_mod_cast hlt
          have hnext : ((2 ^ 58 + 1 : ℤ) : ℚ) ≤ k := by exact_mod_cast hint
          norm_num at hpow hnext
          linarith
        · have hlt : 2 ^ 58 < x := lt_of_le_of_ne (by linarith) (Ne.symm hpow)
          norm_num at hlt
          linarith

/-- No more than the exact number of microseconds. -/
theorem microseconds_le_floor {n : ℕ} (hn : n < 2 ^ 64) :
    microseconds n ≤ ⌊(n : ℚ) / 38.4⌋ := by
  have hexact : (n : ℚ) / 38.4 < (⌊(n : ℚ) / 38.4⌋ + 1 : ℤ) := by
    rw [Int.cast_add, Int.cast_one]
    exact Int.lt_floor_add_one _
  have hticks : 5 * (n : ℤ) < 192 * (⌊(n : ℚ) / 38.4⌋ + 1) := by
    have hcast : ((5 * n : ℤ) : ℚ) < ((192 * (⌊(n : ℚ) / 38.4⌋ + 1) : ℤ) : ℚ) := by
      rw [div_lt_iff₀ (by norm_num)] at hexact
      rw [Int.cast_mul, Int.cast_mul, Int.cast_natCast]
      norm_num at hexact ⊢
      linarith
    exact_mod_cast hcast
  rw [← Int.lt_add_one_iff, microseconds_eq, longDouble_natCast hn.le, Int.floor_lt]
  exact longDouble_quotient_lt hn (by omega)

/-- Fewer ticks take no longer than the exact time of more. -/
theorem microseconds_le {m n : ℕ} (h : m ≤ n) (hn : n < 2 ^ 64) :
    (microseconds m : ℚ) ≤ (n : ℚ) / 38.4 :=
  Int.le_floor.mp ((microseconds_mono h).trans (microseconds_le_floor hn))

/-- The conversion to `uint64_t` keeps the value. -/
theorem toNat_microseconds (x : U64) :
    ((BitVec.ofInt 64 (microseconds x.toNat)).toNat : ℤ) = microseconds x.toNat := by
  have hx := x.isLt
  have h0 := microseconds_nonneg x.toNat
  have hle : microseconds x.toNat ≤ x.toNat := by
    apply (microseconds_le_floor hx).trans
    have hdiv : (x.toNat : ℚ) / 38.4 ≤ x.toNat := div_le_self (by positivity) (by norm_num)
    exact_mod_cast (Int.floor_le _).trans hdiv
  rw [BitVec.toNat_ofInt]
  omega

/-! ## The timestamp -/

def low (x : U64) : ℕ := x.toNat % 2 ^ 32

def high (x : U64) : ℕ := x.toNat / 2 ^ 32

/-- What the two values and the timestamp should satisfy: the running counter is
read right, the latched one does not pass it, and the timestamp is in the past by
no more than went by from the first to the last read. -/
structure SoundStamp (clock : HhClock) (pipe : Fin 4) (timestamp timestampLive result : U64) :
    Prop where
  between : clock.live 2 ≤ timestampLive ∧ timestampLive ≤ clock.live 3
  ordered : timestamp ≤ timestampLive
  notAfter : result ≤ realtimeUs (clock.realtime 4)
  notBefore : ((realtimeUs (clock.realtime 4)).toNat : ℚ) - result.toNat ≤
    ((clock.live 3).toNat - (clock.latched pipe 0).toNat) / 38.4

/-- The low half of the running counter does not wrap between its reads; a wrap of
the latched one between its reads adds no whole microsecond to the time that went by; and the
clock of the system is not less than that time. -/
structure Untorn (clock : HhClock) (pipe : Fin 4) : Prop where
  live : low (clock.live 2) ≤ low (clock.live 3)
  latched : low (clock.latched pipe 0) ≤ low (clock.latched pipe 1) ∨
    high (clock.live 2) < high (clock.live 3) ∨
    (microseconds ((clock.live 3).toNat - (clock.latched pipe 0).toNat +
        (low (clock.latched pipe 0) - low (clock.latched pipe 1))) : ℚ) ≤
      ((clock.live 3).toNat - (clock.latched pipe 0).toNat) / 38.4
  realtime : microseconds ((clock.live 2).toNat + low (clock.live 3) - low (clock.live 2) -
      ((clock.latched pipe 0).toNat + low (clock.latched pipe 1) - low (clock.latched pipe 0))) ≤
    (realtimeUs (clock.realtime 4)).toNat

section Offset

variable {a a' b b' : ℕ} (haa : a ≤ a') (hab : a' ≤ b) (hbb : b ≤ b')

include haa hab hbb

/-- The offset is no longer than the reads took, or the halves of the latched value
belong together, or the running counter lost a carry as well. -/
theorem offset_le_iff (hb' : b' < 2 ^ 64) (hlow : b % 2 ^ 32 ≤ b' % 2 ^ 32) :
    (microseconds (torn (2 ^ 32) b b' - torn (2 ^ 32) a a') : ℚ) ≤ ((b' - a : ℕ) : ℚ) / 38.4 ↔
      a % 2 ^ 32 ≤ a' % 2 ^ 32 ∨ b / 2 ^ 32 < b' / 2 ^ 32 ∨
        (microseconds (b' - a + (a % 2 ^ 32 - a' % 2 ^ 32)) : ℚ) ≤ ((b' - a : ℕ) : ℚ) / 38.4 := by
  have hlive := torn_le (B := 2 ^ 32) hbb
  have hlatched := torn_add_mod (2 ^ 32) a a'
  by_cases hlatch : a % 2 ^ 32 ≤ a' % 2 ^ 32
  · exact iff_of_true (microseconds_le (by omega) (by omega)) (Or.inl hlatch)
  · by_cases hcarry : b / 2 ^ 32 < b' / 2 ^ 32
    · have hlost := torn_add_le hcarry
      have hstart := lt_torn_add (B := 2 ^ 32) (x := a) (y := a') (by decide)
      exact iff_of_true (microseconds_le (by omega) (by omega)) (Or.inr (Or.inl hcarry))
    · have hsame : b / 2 ^ 32 = b' / 2 ^ 32 := by
        have hhigh := Nat.div_le_div_right (c := 2 ^ 32) hbb
        omega
      have hdiff : torn (2 ^ 32) b b' - torn (2 ^ 32) a a' =
          b' - a + (a % 2 ^ 32 - a' % 2 ^ 32) := by
        rw [torn_eq_of_div_eq hsame]
        omega
      rw [hdiff, or_iff_right hlatch, or_iff_right hcarry]

end Offset

/-- The subtraction from the clock of the system stays above zero exactly if the
offset is not larger. -/
theorem sub_le_self_iff (x y : U64) : x - y ≤ x ↔ y.toNat ≤ x.toNat := by
  rw [BitVec.le_def, BitVec.toNat_sub]
  have hx := x.isLt
  have hy := y.isLt
  omega

theorem soundStamp_iff (clock : HhClock) (pipe : Fin 4) {timestamp timestampLive : U64}
    (hstamp : timestamp.toNat =
      torn (2 ^ 32) (clock.latched pipe 0).toNat (clock.latched pipe 1).toNat)
    (hlive : timestampLive.toNat = torn (2 ^ 32) (clock.live 2).toNat (clock.live 3).toNat) :
    SoundStamp clock pipe timestamp timestampLive (realtimeUs (clock.realtime 4) -
        BitVec.ofInt 64 (microseconds (timestampLive - timestamp).toNat)) ↔ Untorn clock pipe := by
  have haa : (clock.latched pipe 0).toNat ≤ (clock.latched pipe 1).toNat :=
    BitVec.le_def.mp (clock.latched_mono pipe 0)
  have hab : (clock.latched pipe 1).toNat ≤ (clock.live 2).toNat :=
    (BitVec.le_def.mp (clock.latched_le pipe 1)).trans (BitVec.le_def.mp (clock.live_mono 1))
  have hbb : (clock.live 2).toNat ≤ (clock.live 3).toNat := BitVec.le_def.mp (clock.live_mono 2)
  by_cases hlow : low (clock.live 2) ≤ low (clock.live 3)
  · have hstart : (clock.live 2).toNat ≤ timestampLive.toNat := by
      rw [hlive]
      exact le_torn_iff.mpr hlow
    have hordered : timestamp.toNat ≤ timestampLive.toNat := by
      have hpast := torn_le (B := 2 ^ 32) haa
      omega
    have hoffset := toNat_microseconds (timestampLive - timestamp)
    rw [BitVec.toNat_sub_of_le (BitVec.le_def.mpr hordered)] at hoffset ⊢
    have helapsed : timestampLive.toNat - timestamp.toNat =
        (clock.live 2).toNat + low (clock.live 3) - low (clock.live 2) -
          ((clock.latched pipe 0).toNat + low (clock.latched pipe 1) - low (clock.latched pipe 0)) := by
      have hlatched := torn_add_mod (2 ^ 32) (clock.latched pipe 0).toNat (clock.latched pipe 1).toNat
      have hrunning := torn_add_mod (2 ^ 32) (clock.live 2).toNat (clock.live 3).toNat
      unfold low
      omega
    have hlength := offset_le_iff haa hab hbb (clock.live 3).isLt hlow
    rw [← hlive, ← hstamp, ← hoffset, Nat.cast_sub (by omega)] at hlength
    have hafter := sub_le_self_iff (realtimeUs (clock.realtime 4))
      (BitVec.ofInt 64 (microseconds (timestampLive.toNat - timestamp.toNat)))
    constructor
    · intro h
      have hbefore := h.notBefore
      have hpast := hafter.mp h.notAfter
      rw [BitVec.toNat_sub_of_le (BitVec.le_def.mpr hpast), Nat.cast_sub hpast,
        sub_sub_cancel] at hbefore
      refine ⟨hlow, hlength.mp (by exact_mod_cast hbefore), ?_⟩
      rw [← helapsed, ← hoffset]
      exact_mod_cast hpast
    · intro h
      have hpast := h.realtime
      rw [← helapsed, ← hoffset] at hpast
      have hpast' : (BitVec.ofInt 64 (microseconds (timestampLive.toNat - timestamp.toNat))).toNat ≤
          (realtimeUs (clock.realtime 4)).toNat := by exact_mod_cast hpast
      refine ⟨⟨BitVec.le_def.mpr hstart, ?_⟩, BitVec.le_def.mpr hordered, hafter.mpr hpast', ?_⟩
      · rw [BitVec.le_def, hlive]
        exact torn_le hbb
      · rw [BitVec.toNat_sub_of_le (BitVec.le_def.mpr hpast'), Nat.cast_sub hpast', sub_sub_cancel]
        exact_mod_cast hlength.mpr h.latched
  · exact iff_of_false (fun h => hlow (le_torn_iff.mp (hlive ▸ BitVec.le_def.mp h.between.1)))
      fun h => hlow h.live

/-- The stamps and the timestamp of the handler are sound exactly if the halves it
reads belong together. -/
theorem timestamp_sound_iff (clock : HhClock) (pipe : Fin 4) : ∃ timestamp timestampLive result,
    (readStamps pipe).run clock.exec 0 = some ((timestamp, timestampLive), 4) ∧
      (hardwareTimestamp pipe).run clock.exec 0 = some (result, 5) ∧
      (SoundStamp clock pipe timestamp timestampLive result ↔ Untorn clock pipe) :=
  ⟨_, _, _, clock.run_readStamps pipe, clock.run_hardwareTimestamp pipe,
    soundStamp_iff clock pipe (toNat_joinHalves _ _) (toNat_joinHalves _ _)⟩

/-- The handler writes the timestamp of its reads, or the time of the event. -/
theorem run_vblankHandlerReads (clock : HhClock) (pipe : Fin 4) (info : VblInfo) (sec usec : U32) :
    ∃ result n, (hardwareTimestamp pipe).run clock.exec 0 = some (result, 5) ∧
      (vblankHandlerReads pipe info sec usec).run clock.exec 0 =
        some (vblankHandler info ⟨sec, usec, result⟩, n) := by
  obtain ⟨result, hrun⟩ : ∃ result, (hardwareTimestamp pipe).run clock.exec 0 = some (result, 5) :=
    ⟨_, clock.run_hardwareTimestamp pipe⟩
  refine ⟨result, if info.counter < info.size then if info.hardwareTs then 5 else 0 else 0, hrun, ?_⟩
  unfold vblankHandlerReads
  by_cases hroom : info.counter < info.size
  · rw [if_pos hroom, if_pos hroom]
    cases hts : info.hardwareTs with
    | true =>
        rw [if_pos rfl, if_pos rfl, Prog.run_bind_of hrun]
        rfl
    | false =>
        rw [if_neg Bool.false_ne_true, if_neg Bool.false_ne_true]
        unfold vblankHandler VblankEvent.timestamp
        rw [hts]
        rfl
  · rw [if_neg hroom, if_neg hroom]
    unfold vblankHandler
    rw [if_neg hroom]
    rfl

/-- The low half of the running counter wraps between its two reads. -/
def carryClock : HhClock where
  live i := if i ≤ 2 then 0x1FFFFFFFF else 0x200000000
  latched _ _ := 0x1FFF00000
  realtime _ := ⟨1700000000, 0⟩
  live_mono i := by split_ifs <;> first | decide | omega
  latched_mono _ _ := BitVec.le_refl _
  latched_le _ i := by split_ifs <;> decide

/-- The live value lacks the carry: it lies before the latched one, and the
timestamp far after the clock of the system. -/
theorem carry_between_reads : ∃ result,
    (readStamps 0).run carryClock.exec 0 = some ((0x1FFF00000, 0x100000000), 4) ∧
      (hardwareTimestamp 0).run carryClock.exec 0 = some (result, 5) ∧
      carryClock.live 2 = 0x1FFFFFFFF ∧ carryClock.live 3 = 0x200000000 ∧
      ¬SoundStamp carryClock 0 0x1FFF00000 0x100000000 result := by
  refine ⟨_, (carryClock.run_readStamps 0).trans (by decide), carryClock.run_hardwareTimestamp 0,
    rfl, rfl, fun h => ?_⟩
  exact absurd h.ordered (by decide)

end Genlock.Os
