import Genlock.Lib.Ownership
import Genlock.Lib.Steps
import Genlock.Vsyncalter.Registers

/-! # PHY objects and their table entries

Constructors and destructors of the five PHY classes, on `combo_table`, `dkl_table`
and `dp_m_n_table` and on the `ddi_sel` entries, whose `dpll_num` the objects share.
`find_enabled_phys` and `cleanup_phy_list` are programs over constructions and
deletions.
-/

namespace Genlock.Vsyncalter

inductive PhyType where
  | DKL
  | COMBO
  | M_N
  | C10
  | C20
deriving DecidableEq, Repr

/-- A `ddi_sel` entry without its `dpll_num`. The bit numbers are those that
`BIT` and `GENMASK` can shift to. -/
structure DdiSel where
  phy : PhyType
  deClk : ℤ
  dpclk : ℕ
  clockBit : Fin 64
  muxSelectLowBit : Fin 63
deriving DecidableEq, Repr

/-- `platform`, with the places of its `ddi_sel` entries; behind the listed device
ids `device_ids` is zero. -/
structure Platform where
  name : String
  deviceIds : List ℕ
  ds : List ℕ
  firstDklPhyLoc : ℤ
deriving DecidableEq, Repr

inductive TableEntry where
  | combo (n : Fin 4)
  | dkl (n : Fin 6)
deriving DecidableEq, Repr

/-- Fields of the derived class: pointers into its table, `dpll_num` of `dkl`. -/
inductive PhyPart where
  | combo (comboPhy : Option (Fin 4))
  | dkl (dklPhy : Option (Fin 6)) (dpllNum : ℕ)
  | c10
  | c20 (isBMG : Bool)
  | dpMN (dpMNPhy : Option (Fin 4))
deriving DecidableEq, Repr

def PhyPart.entry : PhyPart → Option TableEntry
  | .combo comboPhy => comboPhy.map .combo
  | .dkl dklPhy _ => dklPhy.map .dkl
  | _ => none

structure PhyObject where
  part : PhyPart
  pipe : Fin 4
  isInit : Bool := false
  ds : Option ℕ := none
deriving DecidableEq, Repr

def PhyObject.owned (o : PhyObject) : Option TableEntry := if o.isInit then o.part.entry else none

/-- `enabled` of the tables, `dpll_num` of the `ddi_sel` entries and the objects. -/
structure Pool where
  enabled : TableEntry → Bool
  dpMNEnabled : Fin 4 → Bool
  dpllNum : ℕ → ℕ
  objs : ℕ → Option PhyObject
  next : ℕ

namespace Pool

def fresh (dpllNum : ℕ → ℕ) : Pool :=
  ⟨fun _ => false, fun _ => false, dpllNum, fun _ => none, 0⟩

def owns (p : Pool) (i : ℕ) : Option TableEntry := (p.objs i).bind PhyObject.owned

end Pool

/-! ## Constructors -/

section Constructors

variable (ddi : ℕ → DdiSel) (dsel : Option ℕ) (pipe : Fin 4)

/-- The mux field: the DPLL of the DDI. -/
def comboSelect (ds : DdiSel) (dpclk : U32) : ℕ :=
  getBits (dpclk.signExtend 64) (ds.muxSelectLowBit + 1) ds.muxSelectLowBit

/-- The clock bit is set when the DDI's clock is off. -/
def comboClockOff (ds : DdiSel) (dpclk : U32) : Prop :=
  (dpclk.signExtend 64).getLsbD ds.clockBit = true

instance (ds : DdiSel) (dpclk : U32) : Decidable (comboClockOff ds dpclk) :=
  inferInstanceAs (Decidable (_ = _))

/-- `combo::combo`; `dpclk` is what `DPCLKA_CFGCR` reads as, an `int`. -/
def constructCombo (dpclk : U32) (p : Pool) : PhyObject × Pool :=
  match dsel with
  | none => (⟨.combo none, pipe, false, none⟩, p)
  | some d =>
    if comboClockOff (ddi d) dpclk then (⟨.combo none, pipe, false, none⟩, p)
    else
      let n := comboSelect (ddi d) dpclk
      let q := { p with dpllNum := Function.update p.dpllNum d n }
      if h : n < 4 then
        if p.enabled (.combo ⟨n, h⟩) then (⟨.combo none, pipe, false, none⟩, q)
        else (⟨.combo (some ⟨n, h⟩), pipe, true, some d⟩,
          { q with enabled := Function.update q.enabled (.combo ⟨n, h⟩) true })
      else (⟨.combo none, pipe, false, none⟩, q)

/-- `dkl::dkl`; `val` is what `DKL_PLL_DIV0` reads as. Behind the table the read is
undefined. -/
def constructDkl (firstDklPhyLoc : ℤ) (val : U32) (p : Pool) : Option (PhyObject × Pool) :=
  match dsel with
  | none => some (⟨.dkl none 0, pipe, false, none⟩, p)
  | some d =>
    if (ddi d).deClk < firstDklPhyLoc then some (⟨.dkl none 0, pipe, false, none⟩, p)
    else
      let n := ((ddi d).deClk - firstDklPhyLoc).toNat
      if h : n < 6 then
        if val ≠ 0xFFFFFFFF ∧ p.enabled (.dkl ⟨n, h⟩) = false then
          some (⟨.dkl (some ⟨n, h⟩) n, pipe, true, some d⟩,
            { p with enabled := Function.update p.enabled (.dkl ⟨n, h⟩) true })
        else some (⟨.dkl none n, pipe, false, none⟩, p)
      else none

/-- `c10::c10` and `c20::c20`. -/
def constructCx0 (part : PhyPart) : PhyObject :=
  match dsel with
  | none => ⟨part, pipe, false, none⟩
  | some d => ⟨part, pipe, true, some d⟩

def constructDpMN (p : Pool) : PhyObject × Pool :=
  match dsel with
  | none => (⟨.dpMN none, pipe, false, none⟩, p)
  | some d => (⟨.dpMN (some pipe), pipe, true, some d⟩,
      { p with dpMNEnabled := Function.update p.dpMNEnabled pipe true })

end Constructors

/-- The constructor to call, with its arguments besides `ddi_sel` and pipe. -/
inductive PhyCtor where
  | combo
  | dkl (firstDklPhyLoc : ℤ)
  | c10
  | c20 (isBMG : Bool)
  | dpMN
deriving DecidableEq, Repr

/-- `val` is what the register reads as that the constructor looks at. -/
def PhyCtor.construct (ddi : ℕ → DdiSel) (dsel : Option ℕ) (pipe : Fin 4) (val : U32) :
    PhyCtor → Pool → Option (PhyObject × Pool)
  | combo, p => some (constructCombo ddi dsel pipe val p)
  | dkl firstDklPhyLoc, p => constructDkl ddi dsel pipe firstDklPhyLoc val p
  | c10, p => some (constructCx0 dsel pipe .c10, p)
  | c20 isBMG, p => some (constructCx0 dsel pipe (.c20 isBMG), p)
  | dpMN, p => some (constructDpMN dsel pipe p)

/-- The destructors. `~combo` finds its entry through `get_ds()`, which is null in an
object that was not initialised. -/
def PhyObject.destruct (o : PhyObject) (p : Pool) : Option Pool :=
  match o.part with
  | .combo _ => o.ds.bind fun d =>
      if h : p.dpllNum d < 4 then
        some { p with enabled := Function.update p.enabled (.combo ⟨p.dpllNum d, h⟩) false }
      else none
  | .dkl _ n =>
      if h : n < 6 then some { p with enabled := Function.update p.enabled (.dkl ⟨n, h⟩) false }
      else none
  | .c10 | .c20 _ => some p
  | .dpMN dpMNPhy => dpMNPhy.map fun n =>
      { p with dpMNEnabled := Function.update p.dpMNEnabled n false }

/-! ## Constructions and deletions -/

inductive PoolOp where
  | construct (c : PhyCtor) (dsel : Option ℕ) (pipe : Fin 4) (val : U32)
  | delete (phy : ℕ)
deriving DecidableEq, Repr

@[reducible] def PoolOp.Ans : PoolOp → Type
  | construct .. => ℕ × Bool
  | delete _ => Unit

namespace Pool

variable (ddi : ℕ → DdiSel)

def insert (p : Pool) (o : PhyObject) : Pool :=
  { p with objs := Function.update p.objs p.next (some o), next := p.next + 1 }

def remove (p : Pool) (i : ℕ) : Pool := { p with objs := Function.update p.objs i none }

/-- Only objects are deleted: where there is none, nothing happens. -/
def exec : (o : PoolOp) → Pool → Option (o.Ans × Pool)
  | .construct c dsel pipe val, p =>
      (c.construct ddi dsel pipe val p).map fun r => ((r.2.next, r.1.isInit), r.2.insert r.1)
  | .delete i, p =>
      match p.objs i with
      | none => some ((), p)
      | some o => (o.destruct p).map fun q => ((), q.remove i)

def step (p : Pool) (o : PoolOp) : Option Pool := (exec ddi o p).map Prod.snd

end Pool

/-! ## Ownership -/

def PhyObject.Formed (o : PhyObject) : Prop :=
  match o.part with
  | .combo comboPhy => if o.isInit then ∃ n d, comboPhy = some n ∧ o.ds = some d else o.ds = none
  | .dkl dklPhy n => ∃ h : n < 6, o.isInit = true → dklPhy = some ⟨n, h⟩
  | .c10 | .c20 _ => True
  | .dpMN dpMNPhy => dpMNPhy.isSome = o.isInit

namespace Pool

variable {ddi : ℕ → DdiSel} {p q : Pool}

structure Inv (p : Pool) : Prop where
  fresh (i : ℕ) (h : p.next ≤ i) : p.objs i = none
  formed (i : ℕ) (o : PhyObject) (h : p.objs i = some o) : o.Formed
  exclusive : Exclusive p.enabled p.owns

theorem inv_fresh (dpllNum : ℕ → ℕ) : (fresh dpllNum).Inv where
  fresh _ _ := rfl
  formed _ _ h := absurd h (by simp [Pool.fresh])
  exclusive := .none_owned (fun _ => rfl) fun _ => rfl

theorem owns_insert (o : PhyObject) : (p.insert o).owns = Function.update p.owns p.next o.owned := by
  funext i
  show (Function.update p.objs p.next (some o) i).bind PhyObject.owned = _
  by_cases hi : i = p.next
  · subst hi
    rw [Function.update_self, Function.update_self]
    rfl
  · rw [Function.update_of_ne hi, Function.update_of_ne hi]
    rfl

theorem owns_remove (i : ℕ) : (p.remove i).owns = Function.update p.owns i none := by
  funext j
  show (Function.update p.objs i none j).bind PhyObject.owned = _
  by_cases hj : j = i
  · subst hj
    rw [Function.update_self, Function.update_self]
    rfl
  · rw [Function.update_of_ne hj, Function.update_of_ne hj]
    rfl

theorem construct_cases {c : PhyCtor} {dsel : Option ℕ} {pipe : Fin 4} {val : U32} {o : PhyObject}
    (h : c.construct ddi dsel pipe val p = some (o, q)) :
    q.objs = p.objs ∧ q.next = p.next ∧ o.pipe = pipe ∧ o.Formed ∧
      (o.owned = none ∧ q.enabled = p.enabled ∨
        ∃ e, o.owned = some e ∧ p.enabled e = false ∧ q.enabled = Function.update p.enabled e true) := by
  cases c with
  | combo =>
      replace h := Option.some.inj h
      unfold constructCombo at h
      split at h
      · obtain ⟨rfl, rfl⟩ := Prod.mk.inj h
        exact ⟨rfl, rfl, rfl, rfl, .inl ⟨rfl, rfl⟩⟩
      · rename_i d
        split at h
        · obtain ⟨rfl, rfl⟩ := Prod.mk.inj h
          exact ⟨rfl, rfl, rfl, rfl, .inl ⟨rfl, rfl⟩⟩
        · dsimp only at h
          split at h
          · rename_i hn
            split at h
            · obtain ⟨rfl, rfl⟩ := Prod.mk.inj h
              exact ⟨rfl, rfl, rfl, rfl, .inl ⟨rfl, rfl⟩⟩
            · rename_i hfree
              obtain ⟨rfl, rfl⟩ := Prod.mk.inj h
              exact ⟨rfl, rfl, rfl, ⟨_, d, rfl, rfl⟩, .inr ⟨_, rfl, Bool.eq_false_iff.mpr hfree, rfl⟩⟩
          · obtain ⟨rfl, rfl⟩ := Prod.mk.inj h
            exact ⟨rfl, rfl, rfl, rfl, .inl ⟨rfl, rfl⟩⟩
  | dkl first =>
      replace h : constructDkl ddi dsel pipe first val p = some (o, q) := h
      unfold constructDkl at h
      split at h
      · obtain ⟨rfl, rfl⟩ := Prod.mk.inj (Option.some.inj h)
        exact ⟨rfl, rfl, rfl, ⟨by omega, fun hf => absurd hf (by simp)⟩, .inl ⟨rfl, rfl⟩⟩
      · rename_i d
        split at h
        · obtain ⟨rfl, rfl⟩ := Prod.mk.inj (Option.some.inj h)
          exact ⟨rfl, rfl, rfl, ⟨by omega, fun hf => absurd hf (by simp)⟩, .inl ⟨rfl, rfl⟩⟩
        · dsimp only at h
          split at h
          · rename_i hn
            split at h
            · rename_i hfree
              obtain ⟨rfl, rfl⟩ := Prod.mk.inj (Option.some.inj h)
              exact ⟨rfl, rfl, rfl, ⟨hn, fun _ => rfl⟩, .inr ⟨_, rfl, hfree.2, rfl⟩⟩
            · obtain ⟨rfl, rfl⟩ := Prod.mk.inj (Option.some.inj h)
              exact ⟨rfl, rfl, rfl, ⟨hn, fun hf => absurd hf (by simp)⟩, .inl ⟨rfl, rfl⟩⟩
          · exact absurd h (by simp)
  | c10 =>
      obtain ⟨rfl, rfl⟩ := Prod.mk.inj (Option.some.inj h)
      cases dsel <;> exact ⟨rfl, rfl, rfl, trivial, .inl ⟨rfl, rfl⟩⟩
  | c20 isBMG =>
      obtain ⟨rfl, rfl⟩ := Prod.mk.inj (Option.some.inj h)
      cases dsel <;> exact ⟨rfl, rfl, rfl, trivial, .inl ⟨rfl, rfl⟩⟩
  | dpMN =>
      cases dsel <;> obtain ⟨rfl, rfl⟩ := Prod.mk.inj (Option.some.inj h) <;>
        exact ⟨rfl, rfl, rfl, rfl, .inl ⟨rfl, rfl⟩⟩

theorem Inv.construct (hp : p.Inv) {c : PhyCtor} {dsel : Option ℕ} {pipe : Fin 4} {val : U32}
    {o : PhyObject} (h : c.construct ddi dsel pipe val p = some (o, q)) : (q.insert o).Inv := by
  obtain ⟨hobjs, hnext, -, hformed, howned⟩ := construct_cases h
  have howns : (q.insert o).owns = Function.update p.owns p.next o.owned := by
    rw [owns_insert, hnext]
    unfold owns
    rw [hobjs]
  have hnone : p.owns p.next = none := by
    unfold owns
    rw [hp.fresh _ le_rfl]
    rfl
  constructor
  · intro i hi
    have hne : i ≠ q.next := Nat.ne_of_gt hi
    show Function.update q.objs q.next (some o) i = none
    rw [Function.update_of_ne hne, hobjs]
    exact hp.fresh i (by rw [← hnext]; exact Nat.le_of_succ_le hi)
  · intro i o' ho'
    replace ho' : Function.update q.objs q.next (some o) i = some o' := ho'
    rw [Function.update_apply] at ho'
    split at ho'
    · obtain rfl := Option.some.inj ho'
      exact hformed
    · rw [hobjs] at ho'
      exact hp.formed i o' ho'
  · rw [howns]
    rcases howned with ⟨hown, hen⟩ | ⟨e, hown, hfree, hen⟩
    · show Exclusive q.enabled _
      rw [hen, hown]
      exact hp.exclusive.update_none hnone
    · show Exclusive q.enabled _
      rw [hen, hown]
      exact hp.exclusive.claim hnone hfree

end Pool

/-! ## Deletions -/

def PhyObject.ClearsOwn (o : PhyObject) (p : Pool) : Prop :=
  match o.part with
  | .combo comboPhy => o.isInit = true ∧ o.ds.map p.dpllNum = comboPhy.map Fin.val
  | .dkl _ n => o.isInit = true ∨ ∀ h : n < 6, p.enabled (.dkl ⟨n, h⟩) = false
  | .c10 | .c20 _ => True
  | .dpMN _ => o.isInit = true

namespace Pool

variable {ddi : ℕ → DdiSel} {p q : Pool} {o : PhyObject} {i : ℕ}

theorem destruct_cases (hform : o.Formed) (hclears : o.ClearsOwn p) :
    ∃ q, o.destruct p = some q ∧ q.objs = p.objs ∧ q.next = p.next ∧
      (o.owned = none ∧ q.enabled = p.enabled ∨
        ∃ e, o.owned = some e ∧ q.enabled = Function.update p.enabled e false) := by
  obtain ⟨part, pipe, isInit, ds⟩ := o
  cases part with
  | combo comboPhy =>
      obtain ⟨rfl, hds⟩ := hclears
      obtain ⟨n, d, rfl, rfl⟩ := hform
      have hn : p.dpllNum d = n := Option.some.inj hds
      have hlt : p.dpllNum d < 4 := by omega
      refine ⟨_, dif_pos hlt, rfl, rfl, .inr ⟨.combo n, rfl, ?_⟩⟩
      simp only [hn, Fin.eta]
  | dkl dklPhy n =>
      obtain ⟨hn, hphy⟩ := hform
      refine ⟨_, dif_pos hn, rfl, rfl, ?_⟩
      cases isInit with
      | true =>
          obtain rfl := hphy rfl
          exact .inr ⟨_, rfl, rfl⟩
      | false =>
          refine .inl ⟨rfl, ?_⟩
          rcases hclears with hf | hfree
          · exact absurd hf (by simp)
          · exact Function.update_eq_self_iff.mpr (hfree hn).symm
  | c10 => exact ⟨p, rfl, rfl, rfl, .inl ⟨by cases isInit <;> rfl, rfl⟩⟩
  | c20 isBMG => exact ⟨p, rfl, rfl, rfl, .inl ⟨by cases isInit <;> rfl, rfl⟩⟩
  | dpMN dpMNPhy =>
      obtain ⟨n, rfl⟩ := Option.isSome_iff_exists.mp (hform.trans hclears)
      exact ⟨_, rfl, rfl, rfl, .inl ⟨by cases isInit <;> rfl, rfl⟩⟩

theorem Inv.delete (hp : p.Inv) (hobj : p.objs i = some o) (hobjs : q.objs = p.objs)
    (hnext : q.next = p.next) (howned : o.owned = none ∧ q.enabled = p.enabled ∨
      ∃ e, o.owned = some e ∧ q.enabled = Function.update p.enabled e false) : (q.remove i).Inv := by
  have howns : p.owns i = o.owned := by
    unfold owns
    rw [hobj]
    rfl
  constructor
  · intro j hj
    show Function.update q.objs i none j = none
    rw [Function.update_apply, hobjs]
    split
    · rfl
    · exact hp.fresh j (hnext ▸ hj)
  · intro j o' ho'
    replace ho' : Function.update q.objs i none j = some o' := ho'
    rw [Function.update_apply, hobjs] at ho'
    split at ho'
    · exact absurd ho' (by simp)
    · exact hp.formed j o' ho'
  · have hq : (q.remove i).owns = Function.update p.owns i none := by
      rw [owns_remove]
      unfold owns
      rw [hobjs]
    rw [hq]
    show Exclusive q.enabled _
    rcases howned with ⟨hown, hen⟩ | ⟨e, hown, hen⟩
    · rw [hen]
      exact hp.exclusive.update_none (howns.trans hown)
    · rw [hen]
      exact hp.exclusive.release (howns.trans hown)

end Pool

/-! ## The library's programs -/

/-- The constructor for a pipe in mode `modeSelect`; `none` is an unsupported PHY. -/
def Platform.ctor (P : Platform) (ds : DdiSel) (mN : Bool) (modeSelect : ℕ) : Option PhyCtor :=
  if mN ∧ (modeSelect = 2 ∨ modeSelect = 3) then some .dpMN
  else
    match ds.phy with
    | .DKL => some (.dkl P.firstDklPhyLoc)
    | .COMBO => some .combo
    | .C10 => some .c10
    | .C20 => some (.c20 (P.name = "BMG"))
    | .M_N => none

section Programs

variable (ddi : ℕ → DdiSel) (P : Platform) (mN : Bool) (ctl val : Fin 4 → U32)

/-- The loop of `find_enabled_phys` over the pipes; the result is its failure and
`phy_enabled_list`. `ctl` is what `TRANS_DDI_FUNC_CTL` reads as, `val` what the
constructors read. -/
def findEnabledPhysFrom : List (Fin 4) → List ℕ → Prog PoolOp PoolOp.Ans (Bool × List ℕ)
  | [], phys => .pure (false, phys)
  | i :: is, phys =>
    if (ctl i).getLsbD 31 = false then findEnabledPhysFrom is phys
    else
      match P.ds.find? fun d => (ddi d).deClk = getBits (ctl i) 30 27 with
      | none => findEnabledPhysFrom is phys
      | some d =>
        match P.ctor (ddi d) mN (getBits (ctl i) 26 24) with
        | none => .pure (true, phys)
        | some c => .step (.construct c (some d) i (val i)) fun r =>
          if r.2 then findEnabledPhysFrom is (phys ++ [r.1])
          else .step (.delete r.1) fun _ => .pure (true, phys)

def findEnabledPhys : Prog PoolOp PoolOp.Ans (Bool × List ℕ) :=
  findEnabledPhysFrom ddi P mN ctl val (List.finRange 4) []

end Programs

def cleanupPhyList : List ℕ → Prog PoolOp PoolOp.Ans Unit :=
  Prog.forEach fun i => Prog.perform (PoolOp.delete i)

def tglDdiSel (j : ℕ) : DdiSel :=
  match j with
  | 0 => ⟨.COMBO, 1, 0x164280, 10, 0⟩
  | 1 => ⟨.COMBO, 2, 0x164280, 11, 2⟩
  | 2 => ⟨.COMBO, 3, 0x164280, 11, 2⟩
  | j => ⟨.DKL, j + 1, 0, 11, 2⟩

def tgl : Platform where
  name := "TGL"
  deviceIds := [0x9A60, 0x9A68, 0x9A70, 0x9A40, 0x9A49, 0x9A59, 0x9A78, 0x9AC0, 0x9AC9, 0x9AD9, 0x9AF8]
  ds := List.range 9
  firstDklPhyLoc := 4

/-! ## Sequences of constructions and deletions -/

namespace Pool

variable (ddi : ℕ → DdiSel) (p : Pool)

/-- A construction on an owned entry, with the clock off or with an invalid
`de_clk`. -/
def Refused : PoolOp → Prop
  | .construct .combo (some d) _ dpclk => comboClockOff (ddi d) dpclk ∨
      ∃ (i : ℕ) (n : Fin 4), p.owns i = some (.combo n) ∧ comboSelect (ddi d) dpclk = n
  | .construct (.dkl firstDklPhyLoc) (some d) _ _ => (ddi d).deClk < firstDklPhyLoc ∨
      ∃ (i : ℕ) (n : Fin 6), p.owns i = some (.dkl n) ∧ (ddi d).deClk = firstDklPhyLoc + n
  | _ => False

structure Kept (o : PoolOp) (q : Pool) : Prop where
  flags (e : TableEntry) : q.enabled e = true ↔ ∃! i, q.owns i = some e
  refused (h : p.Refused ddi o) :
    q.enabled = p.enabled ∧ ∀ i, p.owns i ≠ none → q.objs i = p.objs i
  notInit (i : ℕ) (obj : PhyObject) (ho : o = .delete i) (hobj : p.objs i = some obj)
    (hinit : obj.isInit = false) : q.enabled = p.enabled

def Keeps (o : PoolOp) : Prop := ∃ q, p.step ddi o = some q ∧ p.Kept ddi o q

/-- A `dkl` construction stays in its table; a destructor clears its own entry or a
free one. -/
def Meets : PoolOp → Prop
  | .construct (.dkl firstDklPhyLoc) (some d) _ _ => (ddi d).deClk < firstDklPhyLoc + 6
  | .construct .. => True
  | .delete i => ∀ o, p.objs i = some o → o.ClearsOwn p

variable {ddi p}

theorem construct_of_meets {c : PhyCtor} {dsel : Option ℕ} {pipe : Fin 4} {val : U32}
    (h : p.Meets ddi (.construct c dsel pipe val)) : ∃ r, c.construct ddi dsel pipe val p = some r := by
  cases c with
  | dkl first =>
      show ∃ r, constructDkl ddi dsel pipe first val p = some r
      unfold constructDkl
      cases dsel with
      | none => exact ⟨_, rfl⟩
      | some d =>
          replace h : (ddi d).deClk < first + 6 := h
          dsimp only
          split
          · exact ⟨_, rfl⟩
          · rw [dif_pos (by omega)]
            split <;> exact ⟨_, rfl⟩
  | combo => exact ⟨_, rfl⟩
  | c10 => exact ⟨_, rfl⟩
  | c20 isBMG => exact ⟨_, rfl⟩
  | dpMN => exact ⟨_, rfl⟩

theorem meets_of_construct {c : PhyCtor} {dsel : Option ℕ} {pipe : Fin 4} {val : U32}
    {r : PhyObject × Pool} (h : c.construct ddi dsel pipe val p = some r) :
    p.Meets ddi (.construct c dsel pipe val) := by
  cases c with
  | dkl first =>
      replace h : constructDkl ddi dsel pipe first val p = some r := h
      unfold constructDkl at h
      cases dsel with
      | none => trivial
      | some d =>
          show (ddi d).deClk < first + 6
          by_contra hlt
          dsimp only at h
          rw [if_neg (by omega), dif_neg (by omega)] at h
          exact absurd h (by simp)
  | combo => trivial
  | c10 => trivial
  | c20 isBMG => trivial
  | dpMN => trivial

theorem Inv.enabled_of_owns (hp : p.Inv) {i : ℕ} {e : TableEntry} (h : p.owns i = some e) :
    p.enabled e = true := (hp.exclusive.enabled_iff e).mpr ⟨i, h⟩

theorem Inv.refused (hp : p.Inv) {c : PhyCtor} {dsel : Option ℕ} {pipe : Fin 4} {val : U32}
    {o : PhyObject} {q : Pool} (h : c.construct ddi dsel pipe val p = some (o, q))
    (href : p.Refused ddi (.construct c dsel pipe val)) : q.enabled = p.enabled := by
  cases dsel with
  | none => cases c <;> exact absurd href id
  | some d =>
      cases c with
      | combo =>
          replace h := Option.some.inj h
          unfold constructCombo at h
          dsimp only at h
          by_cases hoff : comboClockOff (ddi d) val
          · rw [if_pos hoff] at h
            obtain ⟨rfl, rfl⟩ := Prod.mk.inj h
            rfl
          · obtain ⟨i, n, hown, hsel⟩ := href.resolve_left hoff
            have hlt : comboSelect (ddi d) val < 4 := hsel ▸ n.isLt
            have hn : (⟨comboSelect (ddi d) val, hlt⟩ : Fin 4) = n := Fin.ext hsel
            rw [if_neg hoff, dif_pos hlt, hn, if_pos (hp.enabled_of_owns hown)] at h
            obtain ⟨rfl, rfl⟩ := Prod.mk.inj h
            rfl
      | dkl first =>
          replace h : constructDkl ddi (some d) pipe first val p = some (o, q) := h
          unfold constructDkl at h
          dsimp only at h
          by_cases hlt : (ddi d).deClk < first
          · rw [if_pos hlt] at h
            obtain ⟨rfl, rfl⟩ := Prod.mk.inj (Option.some.inj h)
            rfl
          · obtain ⟨i, n, hown, hclk⟩ := href.resolve_left hlt
            have hsub : ((ddi d).deClk - first).toNat = n := by omega
            have hn : ((ddi d).deClk - first).toNat < 6 := hsub ▸ n.isLt
            have heq : (⟨((ddi d).deClk - first).toNat, hn⟩ : Fin 6) = n := Fin.ext hsub
            have hen := hp.enabled_of_owns hown
            rw [if_neg hlt, dif_pos hn, heq, if_neg (by simp [hen])] at h
            obtain ⟨rfl, rfl⟩ := Prod.mk.inj (Option.some.inj h)
            rfl
      | c10 => exact absurd href id
      | c20 isBMG => exact absurd href id
      | dpMN => exact absurd href id

/-- An operation that meets the condition keeps the tables and the invariant. -/
theorem Inv.keeps (hp : p.Inv) {op : PoolOp} (h : p.Meets ddi op) :
    ∃ q, p.step ddi op = some q ∧ p.Kept ddi op q ∧ q.Inv := by
  cases op with
  | construct c dsel pipe val =>
      obtain ⟨⟨o, q⟩, hcon⟩ := construct_of_meets h
      have hstep : p.step ddi (.construct c dsel pipe val) = some (q.insert o) := by
        rw [step, exec, hcon]
        rfl
      have hinv := hp.construct hcon
      obtain ⟨hobjs, hnext, -⟩ := construct_cases hcon
      refine ⟨_, hstep, ⟨hinv.exclusive.existsUnique, ?_, ?_⟩, hinv⟩
      · intro href
        have hen : q.enabled = p.enabled := hp.refused hcon href
        refine ⟨hen, fun i hi => ?_⟩
        have hne : i ≠ q.next := by
          rintro rfl
          apply hi
          unfold owns
          rw [hp.fresh _ (le_of_eq hnext.symm)]
          rfl
        show Function.update q.objs q.next (some o) i = p.objs i
        rw [Function.update_of_ne hne, hobjs]
      · intro i o' hop
        exact absurd hop (by simp)
  | delete i =>
      cases hobj : p.objs i with
      | none =>
          have hstep : p.step ddi (.delete i) = some p := by
            rw [step, exec, hobj]
            rfl
          refine ⟨p, hstep, ⟨hp.exclusive.existsUnique, False.elim, ?_⟩, hp⟩
          intro j o' hop ho'
          obtain rfl := PoolOp.delete.inj hop
          exact absurd (hobj.symm.trans ho') (by simp)
      | some o =>
          obtain ⟨q, hdes, hobjs, hnext, howned⟩ := destruct_cases (hp.formed i o hobj) (h o hobj)
          have hstep : p.step ddi (.delete i) = some (q.remove i) := by
            rw [step, exec, hobj]
            simp [hdes]
          have hinv := hp.delete hobj hobjs hnext howned
          refine ⟨_, hstep, ⟨hinv.exclusive.existsUnique, False.elim, ?_⟩, hinv⟩
          intro j o' hop ho' hinit
          obtain rfl := PoolOp.delete.inj hop
          obtain rfl := Option.some.inj (hobj.symm.trans ho')
          rcases howned with ⟨-, hen⟩ | ⟨e, hown, -⟩
          · exact hen
          · rw [PhyObject.owned, hinit] at hown
            exact absurd hown (by simp)

/-- A deletion that keeps the tables clears the object's own entry or a free one. -/
theorem Inv.clearsOwn_of_keeps (hp : p.Inv) {i : ℕ} {o : PhyObject} (hobj : p.objs i = some o)
    (h : p.Keeps ddi (.delete i)) : o.ClearsOwn p := by
  obtain ⟨q', hstep, hkept⟩ := h
  obtain ⟨q, hdes, rfl⟩ : ∃ q, o.destruct p = some q ∧ q.remove i = q' := by
    rw [step, exec, hobj] at hstep
    simpa using hstep
  have hform := hp.formed i o hobj
  have hobjs : ∀ r : Pool, (r.remove i).owns = Function.update r.owns i none := fun r => owns_remove i
  have hnot := hkept.notInit i o rfl hobj
  have hflags := hkept.flags
  obtain ⟨part, pipe, isInit, ds⟩ := o
  cases part with
  | combo comboPhy =>
      replace hdes : ds.bind _ = some q := hdes
      obtain ⟨d, rfl, hclear⟩ := Option.bind_eq_some_iff.mp hdes
      split at hclear
      · rename_i hlt
        obtain rfl := Option.some.inj hclear
        cases isInit with
        | false => exact absurd hform (by simp [PhyObject.Formed])
        | true =>
            obtain ⟨n, d', rfl, hd⟩ := hform
            have hown : p.owns i = some (.combo n) := by
              unfold owns
              rw [hobj]
              rfl
            have heq := hp.exclusive.eq_of_release (d := .combo ⟨p.dpllNum d, hlt⟩) hown fun e => by
              have := hflags e
              rwa [hobjs] at this
            refine ⟨rfl, ?_⟩
            have hval := congrArg Fin.val (TableEntry.combo.inj heq)
            exact congrArg some hval
      · exact absurd hclear (by simp)
  | dkl dklPhy n =>
      cases isInit with
      | true => exact .inl rfl
      | false =>
          refine .inr fun hn => ?_
          replace hdes : (if _ : n < 6 then _ else _) = some q := hdes
          rw [dif_pos hn] at hdes
          obtain rfl := Option.some.inj hdes
          have := congrFun (hnot rfl) (.dkl ⟨n, hn⟩)
          rw [← this]
          exact Function.update_self ..
  | c10 => trivial
  | c20 isBMG => trivial
  | dpMN dpMNPhy =>
      replace hdes : dpMNPhy.map _ = some q := hdes
      obtain ⟨m, rfl, -⟩ := Option.map_eq_some_iff.mp hdes
      exact hform.symm

theorem Inv.keeps_iff (hp : p.Inv) (op : PoolOp) : p.Keeps ddi op ↔ p.Meets ddi op := by
  constructor
  · intro h
    cases op with
    | construct c dsel pipe val =>
        obtain ⟨q, hstep, -⟩ := h
        obtain ⟨r, hexec, -⟩ := Option.map_eq_some_iff.mp hstep
        obtain ⟨s, hcon, -⟩ := Option.map_eq_some_iff.mp hexec
        exact meets_of_construct hcon
    | delete i => exact fun o hobj => hp.clearsOwn_of_keeps hobj h
  · intro h
    obtain ⟨q, hstep, hkept, -⟩ := hp.keeps h
    exact ⟨q, hstep, hkept⟩

theorem Inv.next (hp : p.Inv) {op : PoolOp} {q : Pool} (h : p.Meets ddi op)
    (hstep : p.step ddi op = some q) : q.Inv := by
  obtain ⟨q', hstep', -, hinv⟩ := hp.keeps h
  obtain rfl := Option.some.inj (hstep.symm.trans hstep')
  exact hinv

/-- The tables are kept along a sequence of constructions and deletions exactly if no
`dkl` leaves its table and every destructor clears the entry of its object or a free one. -/
theorem tables_kept_iff (ddi : ℕ → DdiSel) (dpllNum : ℕ → ℕ) (ops : List PoolOp) :
    Steps.All (step ddi) (Keeps ddi) ops (fresh dpllNum) ↔
      Steps.All (step ddi) (Meets ddi) ops (fresh dpllNum) :=
  Steps.all_iff (I := Inv) (fun _ op hp => hp.keeps_iff op) (fun _ _ _ hp h => hp.next h) ops
    (inv_fresh dpllNum)

/-- `find_enabled_phys` on Tiger Lake with two pipes on `DDI_TC1`: its second
object is not initialised, and deleting it clears the entry of the first. -/
theorem second_pipe_clears_entry :
    ¬ Steps.All (step tglDdiSel) (Keeps tglDdiSel)
      (Steps.ops (exec tglDdiSel)
        (findEnabledPhys tglDdiSel tgl false (fun i => if i.val < 2 then 0xA3000000 else 0) fun _ => 1)
        (fresh fun _ => 0))
      (fresh fun _ => 0) := by
  have hops : Steps.ops (exec tglDdiSel)
      (findEnabledPhys tglDdiSel tgl false (fun i => if i.val < 2 then 0xA3000000 else 0) fun _ => 1)
      (fresh fun _ => 0) =
      [.construct (.dkl 4) (some 3) 0 1, .construct (.dkl 4) (some 3) 1 1, .delete 1] := by
    decide
  rw [hops]
  intro h
  obtain ⟨q, hstep, hkept⟩ := ((h.2 _ rfl).2 _ rfl).1
  have hsame := congrFun (hkept.notInit 1 _ rfl rfl rfl) (.dkl 0)
  obtain rfl := Option.some.inj hstep
  exact absurd hsame (by decide)

end Pool

end Genlock.Vsyncalter
