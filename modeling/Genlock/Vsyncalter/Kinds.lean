import Genlock.Vsyncalter.Api
import Genlock.Vsyncalter.Combo
import Genlock.Vsyncalter.DpMN
import Genlock.Vsyncalter.Dkl
import Genlock.Vsyncalter.C20

/-! # The PHY kinds

One type for the five PHY classes and what selects their registers, so that a
statement can range over all of them.
-/

namespace Genlock.Vsyncalter

open CArith

inductive PhyKind where
  | combo (dpllNum : Fin 4)
  | dkl (phy : Fin 6)
  | c10 (port : ℕ)
  | c20 (port : ℕ) (isBMG : Bool)
  | dpMN (pipe : Fin 4)
deriving DecidableEq, Repr

namespace PhyKind

@[reducible] def Reg : PhyKind → Type
  | combo _ => ComboPhyReg
  | dkl _ => DklPhyReg
  | c10 _ => C10PhyReg
  | c20 _ _ => C20PhyReg
  | dpMN _ => DpMNPhyReg

def cls : (k : PhyKind) → PhyClass k.Reg RegOp RegOp.Ans
  | combo n => Vsyncalter.combo n
  | dkl phy => Vsyncalter.dkl phy
  | c10 port => Vsyncalter.c10 port
  | c20 port isBMG => Vsyncalter.c20 port isBMG
  | dpMN pipe => Vsyncalter.dpMN pipe

@[reducible] def Frame : PhyKind → Type
  | combo _ => Unit
  | dkl _ => ℕ
  | c10 _ => C10Fields
  | c20 _ _ => C20Frame
  | dpMN _ => U32

@[reducible] def Div : PhyKind → Type
  | combo _ | dkl _ => ℕ × ℕ
  | c10 _ => U16
  | c20 _ _ => U16 × U16
  | dpMN _ => U32 × U32

def tunes : (k : PhyKind) → Tunes k.cls k.Frame k.Div
  | combo n => comboTunes n
  | dkl phy => dklTunes phy
  | c10 port => c10Tunes port
  | c20 port isBMG => c20Tunes port isBMG
  | dpMN pipe => dpMNTunes pipe

variable (k : PhyKind) (w : World k.Reg Hw)

def pll : Synthesizer ℚ k.Div := k.tunes.pll w

def div : k.Div := k.tunes.div w.hw

def QuotFits : (k : PhyKind) → World k.Reg Hw → ℚ → Prop
  | c20 port isBMG, w, x =>
      let quot := cround (c20FracScaled (c20FrameOf port isBMG w.hw w.obj.reg.fields).fields x)
      0 ≤ quot ∧ quot ≤ 65535
  | _, _, _ => True

def InRange (x : ℚ) : Prop := x ∈ (k.pll w).range ∧ k.QuotFits w x

end PhyKind

end Genlock.Vsyncalter
