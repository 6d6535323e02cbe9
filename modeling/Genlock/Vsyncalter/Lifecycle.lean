import Genlock.Vsyncalter.Tables

/-! # The life of the library

`vsync_lib_init`, `vsync_lib_uninit` and `shutdown_lib` on the globals, the tables and
the MMIO interface. A process may call them in any order and over and over; what the
system answers is an argument of each call.
-/

namespace Genlock.Vsyncalter

/-- The `MMIOLinux` singleton; `pciDev` is the id of `pci_dev_`. A destroyed one is
created anew, with these values. -/
structure Mmio where
  initialized : Bool := false
  pciDev : Option ℕ := none
deriving DecidableEq, Repr

/-- What the library keeps between calls, and the `HH_ENABLE_REG` register. -/
structure LibState where
  pool : Pool
  phyEnabledList : Option (List ℕ)
  supportedPlatform : ℕ
  hardwareTs : Bool
  libClientDone : Bool
  mmio : Mmio
  hhEnable : U32

/-- What one call of `vsync_lib_init` gets from the system: whether the device opens,
the PCI device as `get_device_id` and as `map_mmio` find it, whether it maps, and what
the registers read as. -/
structure InitEnv where
  opened : Bool
  pciDev : Option ℕ
  pciDevAtMap : Option ℕ
  mapped : Bool
  ctl : Fin 4 → U32
  val : Fin 4 → U32

inductive LibCall where
  | init (deviceStr : Option String) (dpMN hTs : Bool) (env : InitEnv)
  | uninit (unmapped : Bool)
  | shutdown

section Calls

variable (ddi : ℕ → DdiSel) (platformTable : List Platform)

/-- One of the `MAX_DEVICE_ID` entries of `device_ids`. -/
def Platform.HasDevice (P : Platform) (deviceId : ℕ) : Prop :=
  deviceId ∈ P.deviceIds ∨ deviceId = 0 ∧ P.deviceIds.length < 40

instance (P : Platform) (deviceId : ℕ) : Decidable (P.HasDevice deviceId) :=
  inferInstanceAs (Decidable (_ ∨ _))

def findPlatform (deviceId : ℕ) : Option ℕ :=
  platformTable.findIdx? fun P => P.HasDevice deviceId

def mapMmio (env : InitEnv) : Bool × Mmio :=
  if env.pciDevAtMap.isSome ∧ env.mapped then (false, ⟨true, env.pciDevAtMap⟩)
  else (true, ⟨false, none⟩)

namespace LibState

/-- `vsync_lib_uninit`, but for its status. -/
def uninitLib (s : LibState) : Option LibState :=
  match s.phyEnabledList with
  | none => some { s with mmio := {} }
  | some phys => ((cleanupPhyList phys).run (Pool.exec ddi) s.pool).map fun r =>
      { s with pool := r.2, phyEnabledList := none, mmio := {} }

def vsyncLibUninit (unmapped : Bool) (s : LibState) : Option (ℕ × LibState) :=
  (uninitLib ddi s).map fun s => (if unmapped then 0 else 1, s)

/-- `vsync_lib_init` from `find_enabled_phys` on. -/
def initPhys (P : Platform) (dpMN hTs : Bool) (env : InitEnv) (s : LibState) :
    Option (ℕ × LibState) :=
  ((findEnabledPhys ddi P dpMN env.ctl env.val).run (Pool.exec ddi) s.pool).bind fun r =>
    let s := { s with pool := r.2, phyEnabledList := some r.1.2 }
    if r.1.1 then (uninitLib ddi s).map fun s => (1, s)
    else if hTs then some (0, { s with hardwareTs := true, hhEnable := s.hhEnable ||| (1 <<< 31) })
    else some (0, s)

def vsyncLibInit (deviceStr : Option String) (dpMN hTs : Bool) (env : InitEnv) (s : LibState) :
    Option (ℕ × LibState) :=
  if s.mmio.initialized then some (0, s)
  else if deviceStr = none ∨ env.opened = false then some (1, s)
  else
    -- The interface keeps the PCI device it looked up for the device id.
    let s := { s with mmio.pciDev := s.mmio.pciDev <|> env.pciDev }
    match findPlatform platformTable (s.mmio.pciDev.getD 0) with
    | none => some (1, s)
    | some i =>
      let s := { s with supportedPlatform := i, mmio := (mapMmio env).2 }
      if (mapMmio env).1 then some (1, s)
      else
        match platformTable[i]? with
        | none => none
        | some P => initPhys ddi P dpMN hTs env s

end LibState

open LibState in
def LibCall.exec : LibCall → LibState → Option (ℕ × LibState)
  | init deviceStr dpMN hTs env, s => vsyncLibInit ddi platformTable deviceStr dpMN hTs env s
  | uninit unmapped, s => vsyncLibUninit ddi unmapped s
  | shutdown, s => some (0, { s with libClientDone := true })

def LibState.step (s : LibState) (c : LibCall) : Option LibState :=
  (c.exec ddi platformTable s).map Prod.snd

end Calls

/-! ## What the library is to its callers -/

/-- The `ddi_sel` entry, for the classes that use its `dpll_num`. -/
def PhyObject.dpllDs (o : PhyObject) : Option ℕ :=
  match o.part with
  | .combo _ | .c10 | .c20 _ => o.ds
  | .dkl .. | .dpMN _ => none

def Pool.objects (p : Pool) (phys : List ℕ) : List (Option (PhyObject × Option ℕ)) :=
  phys.map fun i => (p.objs i).map fun o => (o, o.dpllDs.map p.dpllNum)

structure LibView where
  phys : Option (List (Option (PhyObject × Option ℕ)))
  supportedPlatform : ℕ
  hardwareTs : Bool
  libClientDone : Bool
  mmio : Mmio

namespace LibState

def process (dpllNum : ℕ → ℕ) (hhEnable : U32) : LibState :=
  ⟨Pool.fresh dpllNum, none, 0, false, false, {}, hhEnable⟩

def view (s : LibState) : LibView where
  phys := s.phyEnabledList.map s.pool.objects
  supportedPlatform := s.supportedPlatform
  hardwareTs := s.hardwareTs
  libClientDone := s.libClientDone
  mmio := s.mmio

def pipes (s : LibState) : List (Option (Fin 4)) :=
  (s.phyEnabledList.getD []).map fun i => (s.pool.objs i).map PhyObject.pipe

end LibState

/-- The `ddi_sel` entry of a pipe: `none` if the pipe is off or its DDI unknown. -/
def pipeDdi (ddi : ℕ → DdiSel) (P : Platform) (ctl : Fin 4 → U32) (i : Fin 4) : Option ℕ :=
  if (ctl i).getLsbD 31 then P.ds.find? fun d => (ddi d).deClk = getBits (ctl i) 30 27 else none

def enabledPipes (ddi : ℕ → DdiSel) (P : Platform) (ctl : Fin 4 → U32) (is : List (Fin 4)) :
    List (Fin 4) :=
  is.filter fun i => (pipeDdi ddi P ctl i).isSome

/-! ## One run of `find_enabled_phys` -/

namespace Pool

structure Live (p : Pool) (phys : List ℕ) : Prop where
  isSome_iff (i : ℕ) : (p.objs i).isSome ↔ i ∈ phys
  fresh (i : ℕ) (h : p.next ≤ i) : p.objs i = none

variable {ddi : ℕ → DdiSel} {P : Platform} {mN : Bool} {ctl val : Fin 4 → U32} {p q : Pool}
  {phys : List ℕ} {o : PhyObject}

theorem Live.lt_next (h : p.Live phys) {i : ℕ} (hi : i ∈ phys) : i < p.next := by
  by_contra hle
  have := (h.isSome_iff i).mpr hi
  rw [h.fresh i (not_lt.mp hle)] at this
  exact absurd this (by simp)

theorem insert_objs_of_lt {i : ℕ} (hi : i < p.next) : (p.insert o).objs i = p.objs i :=
  Function.update_of_ne hi.ne ..

theorem Live.insert (h : p.Live phys) (o : PhyObject) : (p.insert o).Live (phys ++ [p.next]) where
  isSome_iff i := by
    show (Function.update p.objs p.next (some o) i).isSome ↔ _
    rw [Function.update_apply]
    by_cases hi : i = p.next
    · simp [hi]
    · simp [hi, h.isSome_iff i]
  fresh i hi := by
    show Function.update p.objs p.next (some o) i = none
    rw [Function.update_of_ne (Nat.ne_of_gt hi)]
    exact h.fresh i (Nat.le_of_succ_le hi)

theorem Live.insert_remove (h : p.Live phys) (o : PhyObject) :
    ((p.insert o).remove p.next).Live phys := by
  have hobjs : ((p.insert o).remove p.next).objs = p.objs := by
    funext i
    show Function.update (Function.update p.objs p.next (some o)) p.next none i = p.objs i
    rw [Function.update_idem, Function.update_apply]
    split
    · rename_i hi
      rw [hi, h.fresh _ le_rfl]
    · rfl
  constructor
  · intro i
    rw [hobjs]
    exact h.isSome_iff i
  · intro i hi
    rw [hobjs]
    exact h.fresh i (Nat.le_of_succ_le hi)

theorem destruct_frame (h : o.destruct p = some q) :
    q.objs = p.objs ∧ q.next = p.next ∧ q.dpllNum = p.dpllNum := by
  obtain ⟨part, pipe, isInit, ds⟩ := o
  cases part with
  | combo comboPhy =>
      obtain ⟨d, -, hif⟩ := Option.bind_eq_some_iff.mp (show ds.bind _ = some q from h)
      split at hif
      · obtain rfl := Option.some.inj hif
        exact ⟨rfl, rfl, rfl⟩
      · exact absurd hif (by simp)
  | dkl dklPhy n =>
      replace h : (if _ : n < 6 then _ else _) = some q := h
      split at h
      · obtain rfl := Option.some.inj h
        exact ⟨rfl, rfl, rfl⟩
      · exact absurd h (by simp)
  | c10 =>
      obtain rfl := Option.some.inj h
      exact ⟨rfl, rfl, rfl⟩
  | c20 isBMG =>
      obtain rfl := Option.some.inj h
      exact ⟨rfl, rfl, rfl⟩
  | dpMN dpMNPhy =>
      obtain ⟨n, -, rfl⟩ := Option.map_eq_some_iff.mp (show dpMNPhy.map _ = some q from h)
      exact ⟨rfl, rfl, rfl⟩

/-- Only `combo` writes a `dpll_num`. -/
theorem construct_dpllNum {c : PhyCtor} {d : ℕ} {pipe : Fin 4} {v : U32}
    (hc : c = .combo → (ddi d).phy = .COMBO) (h : c.construct ddi (some d) pipe v p = some (o, q))
    {j : ℕ} (hj : (ddi j).phy ≠ .COMBO) : q.dpllNum j = p.dpllNum j := by
  cases c with
  | combo =>
      have hne : j ≠ d := by
        rintro rfl
        exact hj (hc rfl)
      have hq : q = (constructCombo ddi (some d) pipe v p).2 := by
        rw [Option.some.inj h]
      rw [hq]
      unfold constructCombo
      dsimp only
      split
      · rfl
      · split
        · split <;> exact Function.update_of_ne hne ..
        · exact Function.update_of_ne hne ..
  | dkl first =>
      replace h : constructDkl ddi (some d) pipe first v p = some (o, q) := h
      unfold constructDkl at h
      dsimp only at h
      split at h
      · obtain ⟨-, rfl⟩ := Prod.mk.inj (Option.some.inj h)
        rfl
      · split at h
        · split at h <;>
          · obtain ⟨-, rfl⟩ := Prod.mk.inj (Option.some.inj h)
            rfl
        · exact absurd h (by simp)
  | c10 =>
      obtain ⟨-, rfl⟩ := Prod.mk.inj (Option.some.inj h)
      rfl
  | c20 isBMG =>
      obtain ⟨-, rfl⟩ := Prod.mk.inj (Option.some.inj h)
      rfl
  | dpMN =>
      obtain ⟨-, rfl⟩ := Prod.mk.inj (Option.some.inj h)
      rfl

theorem ctor_combo {ds : DdiSel} {mode : ℕ} {c : PhyCtor} (h : P.ctor ds mN mode = some c)
    (hc : c = .combo) : ds.phy = .COMBO := by
  subst hc
  unfold Platform.ctor at h
  split at h
  · exact absurd h (by simp)
  · split at h <;> first | assumption | exact absurd h (by simp)

theorem ctor_ne_combo {ds : DdiSel} {mode : ℕ} {c : PhyCtor} (h : P.ctor ds mN mode = some c)
    (hc : c ≠ .combo) (hm : c ≠ .dpMN) : ds.phy ≠ .COMBO := by
  intro hphy
  unfold Platform.ctor at h
  rw [hphy] at h
  split at h
  · exact hm (Option.some.inj h).symm
  · exact hc (Option.some.inj h).symm

theorem findEnabledPhysFrom_cons (i : Fin 4) (is : List (Fin 4)) (phys : List ℕ) :
    findEnabledPhysFrom ddi P mN ctl val (i :: is) phys =
      match pipeDdi ddi P ctl i with
      | none => findEnabledPhysFrom ddi P mN ctl val is phys
      | some d =>
        match P.ctor (ddi d) mN (getBits (ctl i) 26 24) with
        | none => .pure (true, phys)
        | some c => .step (.construct c (some d) i (val i)) fun r =>
          if r.2 then findEnabledPhysFrom ddi P mN ctl val is (phys ++ [r.1])
          else .step (.delete r.1) fun _ => .pure (true, phys) := by
  rw [findEnabledPhysFrom, pipeDdi]
  cases (ctl i).getLsbD 31 with
  | false => rfl
  | true => rfl

/-- What one pipe does in a run. -/
theorem findEnabledPhysFrom_cases {i : Fin 4} {is : List (Fin 4)} {r : (Bool × List ℕ) × Pool}
    (h : (findEnabledPhysFrom ddi P mN ctl val (i :: is) phys).run (exec ddi) p = some r) :
    (pipeDdi ddi P ctl i = none ∧
      (findEnabledPhysFrom ddi P mN ctl val is phys).run (exec ddi) p = some r) ∨
    r = ((true, phys), p) ∨
    ∃ d c o q, pipeDdi ddi P ctl i = some d ∧ P.ctor (ddi d) mN (getBits (ctl i) 26 24) = some c ∧
      c.construct ddi (some d) i (val i) p = some (o, q) ∧
      ((o.isInit = true ∧ (findEnabledPhysFrom ddi P mN ctl val is (phys ++ [q.next])).run (exec ddi)
          (q.insert o) = some r) ∨
        ∃ q', o.destruct (q.insert o) = some q' ∧ r = ((true, phys), q'.remove q.next)) := by
  rw [findEnabledPhysFrom_cons] at h
  cases hd : pipeDdi ddi P ctl i with
  | none =>
      rw [hd] at h
      exact .inl ⟨rfl, h⟩
  | some d =>
      right
      rw [hd] at h
      dsimp only at h
      cases hc : P.ctor (ddi d) mN (getBits (ctl i) 26 24) with
      | none =>
          rw [hc] at h
          exact .inl (Option.some.inj h).symm
      | some c =>
          right
          rw [hc] at h
          obtain ⟨⟨a, w⟩, hexec, hrest⟩ := Option.bind_eq_some_iff.mp h
          obtain ⟨⟨o, q⟩, hcon, heq⟩ := Option.map_eq_some_iff.mp hexec
          obtain ⟨rfl, rfl⟩ := Prod.mk.inj heq
          refine ⟨d, c, o, q, rfl, hc, hcon, ?_⟩
          dsimp only at hrest
          cases hinit : o.isInit with
          | true =>
              rw [if_pos hinit] at hrest
              exact .inl ⟨rfl, hrest⟩
          | false =>
              rw [if_neg (by simp [hinit])] at hrest
              obtain ⟨⟨u, w⟩, hdel, hret⟩ := Option.bind_eq_some_iff.mp hrest
              have hobj : (q.insert o).objs q.next = some o := Function.update_self ..
              rw [exec, hobj] at hdel
              obtain ⟨q', hdes, heq⟩ := Option.map_eq_some_iff.mp hdel
              obtain ⟨-, rfl⟩ := Prod.mk.inj heq
              exact .inr ⟨q', hdes, (Option.some.inj hret).symm⟩

def pipes (p : Pool) (phys : List ℕ) : List (Option (Fin 4)) :=
  phys.map fun i => (p.objs i).map PhyObject.pipe

theorem pipes_insert (h : p.Live phys) (o : PhyObject) :
    (p.insert o).pipes (phys ++ [p.next]) = p.pipes phys ++ [some o.pipe] := by
  have hold : phys.map (fun i => ((p.insert o).objs i).map PhyObject.pipe) = p.pipes phys :=
    List.map_congr_left fun i hi => by rw [insert_objs_of_lt (h.lt_next hi)]
  have hnew : (p.insert o).objs p.next = some o := Function.update_self ..
  rw [pipes, List.map_append, hold, List.map_singleton, hnew]
  rfl

theorem Live.congr (h : p.Live phys) (hobjs : q.objs = p.objs) (hnext : q.next = p.next) :
    q.Live phys where
  isSome_iff i := by
    rw [hobjs]
    exact h.isSome_iff i
  fresh i hi := by
    rw [hobjs]
    exact h.fresh i (hnext ▸ hi)

/-- The list holds the live objects; after a success one for each enabled pipe. -/
theorem findEnabledPhysFrom_spec {is : List (Fin 4)} {b : Bool} {phys' : List ℕ} {p' : Pool}
    (h : (findEnabledPhysFrom ddi P mN ctl val is phys).run (exec ddi) p = some ((b, phys'), p'))
    (hlive : p.Live phys) :
    p'.Live phys' ∧ (∀ j, (ddi j).phy ≠ .COMBO → p'.dpllNum j = p.dpllNum j) ∧
      (b = false → p'.pipes phys' = p.pipes phys ++ (enabledPipes ddi P ctl is).map some) := by
  induction is generalizing p phys with
  | nil =>
      obtain ⟨heq, rfl⟩ := Prod.mk.inj (Option.some.inj h)
      obtain ⟨rfl, rfl⟩ := Prod.mk.inj heq
      exact ⟨hlive, fun _ _ => rfl, fun _ => (List.append_nil _).symm⟩
  | cons i is ih =>
      rcases findEnabledPhysFrom_cases h with ⟨hd, hrest⟩ | heq | ⟨d, c, o, q, hd, hc, hcon, hrest⟩
      · have hpipes : enabledPipes ddi P ctl (i :: is) = enabledPipes ddi P ctl is :=
          List.filter_cons_of_neg (by simp [hd])
        rw [hpipes]
        exact ih hrest hlive
      · obtain ⟨hr, rfl⟩ := Prod.mk.inj heq
        obtain ⟨rfl, rfl⟩ := Prod.mk.inj hr
        exact ⟨hlive, fun _ _ => rfl, fun hf => absurd hf (by simp)⟩
      · obtain ⟨hobjs, hnext, hpipe, -⟩ := construct_cases hcon
        have hdpll := fun j hj => construct_dpllNum (j := j) (ctor_combo hc) hcon hj
        have hlive' := hlive.congr hobjs hnext
        rcases hrest with ⟨-, hrest⟩ | ⟨q', hdes, heq⟩
        · obtain ⟨hl, hn, hp⟩ := ih hrest (hlive'.insert o)
          refine ⟨hl, fun j hj => (hn j hj).trans (hdpll j hj), fun hb => ?_⟩
          have hpipes : enabledPipes ddi P ctl (i :: is) = i :: enabledPipes ddi P ctl is :=
            List.filter_cons_of_pos (by simp [hd])
          have hsame : q.pipes phys = p.pipes phys := by
            unfold pipes
            rw [hobjs]
          rw [hp hb, pipes_insert hlive', hpipes, hsame, hpipe, List.map_cons, List.append_assoc]
          rfl
        · obtain ⟨hr, rfl⟩ := Prod.mk.inj heq
          obtain ⟨rfl, rfl⟩ := Prod.mk.inj hr
          obtain ⟨ho, hx, hn⟩ := destruct_frame hdes
          refine ⟨?_, fun j hj => (congrFun hn j).trans (hdpll j hj), fun hf => absurd hf (by simp)⟩
          have hobjs' : (q'.remove q.next).objs = ((q.insert o).remove q.next).objs :=
            congrArg (fun f : ℕ → Option PhyObject => Function.update f q.next none) ho
          exact (hlive'.insert_remove o).congr hobjs' hx

/-- `cleanup_phy_list` leaves no object of the list. -/
theorem cleanupPhyList_spec {u : Unit} {p' : Pool}
    (h : (cleanupPhyList phys).run (exec ddi) p = some (u, p')) :
    (∀ i, p'.objs i = if i ∈ phys then none else p.objs i) ∧ p'.next = p.next ∧
      p'.dpllNum = p.dpllNum := by
  induction phys generalizing p with
  | nil =>
      obtain ⟨-, rfl⟩ := Prod.mk.inj (Option.some.inj h)
      exact ⟨fun i => (if_neg (List.not_mem_nil)).symm, rfl, rfl⟩
  | cons k phys ih =>
      obtain ⟨u', q, hdel, hrest⟩ := Prog.run_bind_eq_some h
      rw [Prog.run_perform] at hdel
      obtain ⟨hobjs, hnext, hdpll⟩ := ih hrest
      have hq : (∀ i, q.objs i = if i = k then none else p.objs i) ∧ q.next = p.next ∧
          q.dpllNum = p.dpllNum := by
        rw [exec] at hdel
        cases hk : p.objs k with
        | none =>
            rw [hk] at hdel
            obtain ⟨-, rfl⟩ := Prod.mk.inj (Option.some.inj hdel)
            refine ⟨fun i => ?_, rfl, rfl⟩
            split
            · rename_i hi
              rw [hi, hk]
            · rfl
        | some o =>
            rw [hk] at hdel
            obtain ⟨q', hdes, heq⟩ := Option.map_eq_some_iff.mp hdel
            obtain ⟨-, rfl⟩ := Prod.mk.inj heq
            obtain ⟨ho, hx, hn⟩ := destruct_frame hdes
            refine ⟨fun i => ?_, hx, hn⟩
            show Function.update q'.objs k none i = _
            rw [Function.update_apply, ho]
      refine ⟨fun i => ?_, hnext.trans hq.2.1, hdpll.trans hq.2.2⟩
      rw [hobjs i, hq.1 i]
      by_cases hi : i = k <;> by_cases hm : i ∈ phys <;> simp [hi, hm]

theorem Live.cleanup (hlive : p.Live phys) {u : Unit} {p' : Pool}
    (h : (cleanupPhyList phys).run (exec ddi) p = some (u, p')) : p'.Live [] := by
  obtain ⟨hobjs, hnext, -⟩ := cleanupPhyList_spec h
  have hnone : ∀ i, p'.objs i = none := by
    intro i
    rw [hobjs i]
    split
    · rfl
    · rename_i hi
      rw [← Option.not_isSome_iff_eq_none, hlive.isSome_iff]
      exact hi
  exact ⟨fun i => by simp [hnone i], fun i _ => hnone i⟩

/-! ## The same run from fresh tables -/

theorem objects_insert (h : p.Live phys) (o : PhyObject) :
    (p.insert o).objects (phys ++ [p.next]) =
      p.objects phys ++ [some (o, o.dpllDs.map p.dpllNum)] := by
  have hold : (p.insert o).objects phys = p.objects phys :=
    List.map_congr_left fun i hi => by
      rw [insert_objs_of_lt (h.lt_next hi)]
      rfl
  have hnew : (p.insert o).objs p.next = some o := Function.update_self ..
  have happ : (p.insert o).objects (phys ++ [p.next]) =
      (p.insert o).objects phys ++ (p.insert o).objects [p.next] := List.map_append
  rw [happ, hold, objects, objects, List.map_singleton, hnew]
  rfl

theorem objects_update (p : Pool) (d n : ℕ) (e : TableEntry → Bool) (phys : List ℕ) :
    ({ p with dpllNum := Function.update p.dpllNum d n, enabled := e } : Pool).objects phys =
      (p.objects phys).map (Option.map fun x =>
        (x.1, if x.1.dpllDs = some d then some n else x.2)) := by
  unfold objects
  rw [List.map_map]
  apply List.map_congr_left
  intro i _
  rw [Function.comp_apply, Option.map_map]
  congr 1
  funext o
  rw [Function.comp_apply]
  congr 1
  cases o.dpllDs with
  | none => rfl
  | some j =>
      show some (Function.update p.dpllNum d n j) = if some j = some d then some n else _
      rw [Function.update_apply]
      by_cases hj : j = d
      · rw [if_pos hj, if_pos (congrArg some hj)]
      · rw [if_neg hj, if_neg fun h => hj (Option.some.inj h)]
        rfl

/-- Two pools on which a successful `find_enabled_phys` does the same: the second has
no entry enabled that the first has free. -/
structure Twin (ddi : ℕ → DdiSel) (p f : Pool) (physP physF : List ℕ) : Prop where
  objects : p.objects physP = f.objects physF
  enabled (e : TableEntry) (h : p.enabled e = false) : f.enabled e = false
  dpllNum (j : ℕ) (h : (ddi j).phy ≠ .COMBO) : p.dpllNum j = f.dpllNum j

variable {f g : Pool} {physP physF : List ℕ}

theorem Twin.update_enabled (ht : Twin ddi p f physP physF) (e x : TableEntry)
    (hx : Function.update p.enabled e true x = false) : Function.update f.enabled e true x = false := by
  rw [Function.update_apply] at hx ⊢
  split at hx
  · exact absurd hx (by simp)
  · rw [if_neg ‹_›]
    exact ht.enabled x hx

theorem Twin.construct (ht : Twin ddi p f physP physF) {c : PhyCtor} {d mode : ℕ} {pipe : Fin 4}
    {v : U32} (hc : P.ctor (ddi d) mN mode = some c)
    (hcon : c.construct ddi (some d) pipe v p = some (o, q)) (hinit : o.isInit = true) :
    ∃ g, c.construct ddi (some d) pipe v f = some (o, g) ∧ Twin ddi q g physP physF ∧
      o.dpllDs.map q.dpllNum = o.dpllDs.map g.dpllNum := by
  cases c with
  | combo =>
      have hphy := ctor_combo hc rfl
      replace hcon := Option.some.inj hcon
      unfold constructCombo at hcon
      dsimp only at hcon
      split at hcon
      · obtain ⟨rfl, -⟩ := Prod.mk.inj hcon
        exact absurd hinit (by simp)
      · rename_i hclock
        split at hcon
        · rename_i hn
          split at hcon
          · obtain ⟨rfl, -⟩ := Prod.mk.inj hcon
            exact absurd hinit (by simp)
          · rename_i hfree
            have hfree' := ht.enabled _ (Bool.eq_false_iff.mpr hfree)
            obtain ⟨rfl, rfl⟩ := Prod.mk.inj hcon
            refine ⟨{ f with
              dpllNum := Function.update f.dpllNum d (comboSelect (ddi d) v)
              enabled := Function.update f.enabled (.combo ⟨_, hn⟩) true }, ?_, ⟨?_, ?_, ?_⟩, ?_⟩
            · show some (constructCombo ddi (some d) pipe v f) = _
              unfold constructCombo
              dsimp only
              rw [if_neg hclock, dif_pos hn, if_neg (by simp [hfree'])]
            · rw [objects_update p, objects_update f, ht.objects]
            · exact ht.update_enabled _
            · intro j hj
              have hne : j ≠ d := by
                rintro rfl
                exact hj hphy
              show Function.update p.dpllNum d _ j = Function.update f.dpllNum d _ j
              rw [Function.update_of_ne hne, Function.update_of_ne hne]
              exact ht.dpllNum j hj
            · show some (Function.update p.dpllNum d _ d) = some (Function.update f.dpllNum d _ d)
              rw [Function.update_self, Function.update_self]
        · obtain ⟨rfl, -⟩ := Prod.mk.inj hcon
          exact absurd hinit (by simp)
  | dkl first =>
      replace hcon : constructDkl ddi (some d) pipe first v p = some (o, q) := hcon
      unfold constructDkl at hcon
      dsimp only at hcon
      split at hcon
      · obtain ⟨rfl, -⟩ := Prod.mk.inj (Option.some.inj hcon)
        exact absurd hinit (by simp)
      · rename_i hclk
        split at hcon
        · rename_i hn
          split at hcon
          · rename_i hfree
            have hfree' := ht.enabled _ hfree.2
            obtain ⟨rfl, rfl⟩ := Prod.mk.inj (Option.some.inj hcon)
            refine ⟨{ f with enabled := Function.update f.enabled (.dkl ⟨_, hn⟩) true }, ?_,
              ⟨ht.objects, ht.update_enabled _, ht.dpllNum⟩, rfl⟩
            show constructDkl ddi (some d) pipe first v f = _
            unfold constructDkl
            dsimp only
            rw [if_neg hclk, dif_pos hn, if_pos ⟨hfree.1, hfree'⟩]
          · obtain ⟨rfl, -⟩ := Prod.mk.inj (Option.some.inj hcon)
            exact absurd hinit (by simp)
        · exact absurd hcon (by simp)
  | c10 =>
      have hphy : (ddi d).phy ≠ .COMBO := ctor_ne_combo hc (by simp) (by simp)
      obtain ⟨rfl, rfl⟩ := Prod.mk.inj (Option.some.inj hcon)
      exact ⟨f, rfl, ht, congrArg some (ht.dpllNum d hphy)⟩
  | c20 isBMG =>
      have hphy : (ddi d).phy ≠ .COMBO := ctor_ne_combo hc (by simp) (by simp)
      obtain ⟨rfl, rfl⟩ := Prod.mk.inj (Option.some.inj hcon)
      exact ⟨f, rfl, ht, congrArg some (ht.dpllNum d hphy)⟩
  | dpMN =>
      obtain ⟨rfl, rfl⟩ := Prod.mk.inj (Option.some.inj hcon)
      exact ⟨_, rfl, ⟨ht.objects, ht.enabled, ht.dpllNum⟩, rfl⟩

theorem Twin.insert (ht : Twin ddi p f physP physF) (hp : p.Live physP) (hf : f.Live physF)
    (ho : o.dpllDs.map p.dpllNum = o.dpllDs.map f.dpllNum) :
    Twin ddi (p.insert o) (f.insert o) (physP ++ [p.next]) (physF ++ [f.next]) where
  objects := by rw [objects_insert hp, objects_insert hf, ht.objects, ho]
  enabled := ht.enabled
  dpllNum := ht.dpllNum

theorem findEnabledPhysFrom_twin {is : List (Fin 4)} {physP' : List ℕ} {p' : Pool}
    (h : (findEnabledPhysFrom ddi P mN ctl val is physP).run (exec ddi) p = some ((false, physP'), p'))
    (ht : Twin ddi p f physP physF) (hp : p.Live physP) (hf : f.Live physF) :
    ∃ physF' f', (findEnabledPhysFrom ddi P mN ctl val is physF).run (exec ddi) f =
      some ((false, physF'), f') ∧ Twin ddi p' f' physP' physF' := by
  induction is generalizing p f physP physF with
  | nil =>
      obtain ⟨hr, rfl⟩ := Prod.mk.inj (Option.some.inj h)
      obtain ⟨-, rfl⟩ := Prod.mk.inj hr
      exact ⟨physF, f, rfl, ht⟩
  | cons i is ih =>
      rw [findEnabledPhysFrom_cons]
      rcases findEnabledPhysFrom_cases h with ⟨hd, hrest⟩ | heq | ⟨d, c, o, q, hd, hc, hcon, hrest⟩
      · rw [hd]
        exact ih hrest ht hp hf
      · exact absurd (congrArg (fun r => r.1.1) heq) (by simp)
      · rcases hrest with ⟨hinit, hrest⟩ | ⟨q', -, heq⟩
        · obtain ⟨g, hcon', htwin, ho⟩ := ht.construct hc hcon hinit
          obtain ⟨hobjs, hnext, -⟩ := construct_cases hcon
          obtain ⟨hobjs', hnext', -⟩ := construct_cases hcon'
          have hq := hp.congr hobjs hnext
          have hg := hf.congr hobjs' hnext'
          obtain ⟨physF', f', hrun, hres⟩ := ih hrest (htwin.insert hq hg ho) (hq.insert o) (hg.insert o)
          refine ⟨physF', f', ?_, hres⟩
          rw [hd]
          dsimp only
          rw [hc]
          dsimp only
          rw [Prog.run_step, exec, hcon', Option.map_some, Option.bind_some, if_pos hinit]
          exact hrun
        · exact absurd (congrArg (fun r => r.1.1) heq) (by simp)

end Pool

/-! ## Calls -/

namespace LibState

variable {ddi : ℕ → DdiSel} {platformTable : List Platform} {dpllNum : ℕ → ℕ} {s s' : LibState}

/-- Between calls the list holds the live objects, and an interface that is not
initialised knows no device of a supported platform. -/
structure Inv (ddi : ℕ → DdiSel) (platformTable : List Platform) (dpllNum : ℕ → ℕ) (s : LibState) :
    Prop where
  live : s.pool.Live (s.phyEnabledList.getD [])
  dpllNum (j : ℕ) (h : (ddi j).phy ≠ .COMBO) : s.pool.dpllNum j = dpllNum j
  list (h : s.mmio.initialized = false) : s.phyEnabledList = none
  pciDev (h : s.mmio.initialized = false) (id : ℕ) (hid : s.mmio.pciDev = some id) :
    findPlatform platformTable id = none

theorem inv_process (hhEnable : U32) : (process dpllNum hhEnable).Inv ddi platformTable dpllNum where
  live := ⟨fun i => by simp [process, Pool.fresh], fun _ _ => rfl⟩
  dpllNum _ _ := rfl
  list _ := rfl
  pciDev _ _ hid := absurd hid (by simp [process])

theorem Inv.uninitLib (hs : s.Inv ddi platformTable dpllNum) (h : uninitLib ddi s = some s') :
    s'.Inv ddi platformTable dpllNum := by
  unfold LibState.uninitLib at h
  cases hl : s.phyEnabledList with
  | none =>
      rw [hl] at h
      obtain rfl := Option.some.inj h
      have hlive : s.pool.Live [] := by
        have := hs.live
        rwa [hl] at this
      exact ⟨hlive, hs.dpllNum, fun _ => rfl, fun _ _ hid => absurd hid (by simp)⟩
  | some phys =>
      rw [hl] at h
      obtain ⟨⟨u, p'⟩, hrun, rfl⟩ := Option.map_eq_some_iff.mp h
      have hlive : s.pool.Live phys := by
        have := hs.live
        rwa [hl] at this
      refine ⟨hlive.cleanup hrun, fun j hj => ?_, fun _ => rfl, fun _ _ hid => absurd hid (by simp)⟩
      exact (congrFun (Pool.cleanupPhyList_spec hrun).2.2 j).trans (hs.dpllNum j hj)

/-- What a call of `vsync_lib_init` does from an interface that is not initialised:
it fails before `find_enabled_phys`, or goes on with the platform it found. -/
theorem init_cases {deviceStr : Option String} {dpMN hTs : Bool} {env : InitEnv} {r : ℕ × LibState}
    (h : vsyncLibInit ddi platformTable deviceStr dpMN hTs env s = some r)
    (hidle : s.mmio.initialized = false) :
    (r.1 = 1 ∧ ∃ i m, r.2 = { s with supportedPlatform := i, mmio := m } ∧ m.initialized = false ∧
      ∀ id, m.pciDev = some id → s.mmio.pciDev = some id ∨ findPlatform platformTable id = none) ∨
    ∃ i P, (deviceStr ≠ none ∧ env.opened = true) ∧
      findPlatform platformTable ((s.mmio.pciDev <|> env.pciDev).getD 0) = some i ∧
      (mapMmio env).1 = false ∧ platformTable[i]? = some P ∧
      initPhys ddi P dpMN hTs env { s with supportedPlatform := i, mmio := (mapMmio env).2 } = some r := by
  unfold vsyncLibInit at h
  rw [if_neg (by simp [hidle])] at h
  split at h
  · obtain rfl := Option.some.inj h
    exact .inl ⟨rfl, s.supportedPlatform, s.mmio, rfl, hidle, fun id hid => .inl hid⟩
  · rename_i hdev
    dsimp only at h
    split at h
    · rename_i hnone
      obtain rfl := Option.some.inj h
      refine .inl ⟨rfl, s.supportedPlatform, _, rfl, hidle, fun id hid => .inr ?_⟩
      replace hid : (s.mmio.pciDev <|> env.pciDev) = some id := hid
      rwa [hid] at hnone
    · rename_i i hfind
      split at h
      · rename_i hfail
        obtain rfl := Option.some.inj h
        refine .inl ⟨rfl, i, _, rfl, ?_⟩
        unfold mapMmio at hfail ⊢
        split at hfail
        · exact absurd hfail (by simp)
        · rw [if_neg ‹_›]
          exact ⟨rfl, fun id hid => absurd hid (by simp)⟩
      · rename_i hmap
        split at h
        · exact absurd h (by simp)
        · rename_i P hP
          refine .inr ⟨i, P, ?_, hfind, Bool.eq_false_iff.mpr hmap, hP, h⟩
          rw [not_or] at hdev
          exact ⟨hdev.1, Bool.of_not_eq_false hdev.2⟩

/-- `find_enabled_phys` ends in success, or in a failure that uninitialises. -/
theorem initPhys_cases {P : Platform} {dpMN hTs : Bool} {env : InitEnv} {r : ℕ × LibState}
    (h : initPhys ddi P dpMN hTs env s = some r) :
    ∃ b phys pool, (findEnabledPhys ddi P dpMN env.ctl env.val).run (Pool.exec ddi) s.pool =
        some ((b, phys), pool) ∧
      ((b = true ∧ r.1 = 1 ∧ LibState.uninitLib ddi { s with pool, phyEnabledList := some phys } =
          some r.2) ∨
        b = false ∧ r.1 = 0 ∧ ∃ hh, r.2 = { s with
          pool, phyEnabledList := some phys, hardwareTs := s.hardwareTs || hTs, hhEnable := hh }) := by
  obtain ⟨⟨⟨b, phys⟩, pool⟩, hrun, hrest⟩ := Option.bind_eq_some_iff.mp h
  refine ⟨b, phys, pool, hrun, ?_⟩
  dsimp only at hrest
  cases b with
  | true =>
      rw [if_pos rfl] at hrest
      obtain ⟨s', hun, rfl⟩ := Option.map_eq_some_iff.mp hrest
      exact .inl ⟨rfl, rfl, hun⟩
  | false =>
      rw [if_neg (by simp)] at hrest
      cases hTs with
      | true =>
          obtain rfl := Option.some.inj hrest
          refine .inr ⟨rfl, rfl, s.hhEnable ||| (1 <<< 31), ?_⟩
          rw [Bool.or_true]
      | false =>
          obtain rfl := Option.some.inj hrest
          refine .inr ⟨rfl, rfl, s.hhEnable, ?_⟩
          rw [Bool.or_false]

theorem init_eq_initPhys {deviceStr : Option String} {dpMN hTs : Bool} {env : InitEnv} {i : ℕ}
    {P : Platform} (hidle : s.mmio.initialized = false)
    (hdev : deviceStr ≠ none ∧ env.opened = true)
    (hfind : findPlatform platformTable ((s.mmio.pciDev <|> env.pciDev).getD 0) = some i)
    (hmap : (mapMmio env).1 = false) (hP : platformTable[i]? = some P) :
    vsyncLibInit ddi platformTable deviceStr dpMN hTs env s =
      initPhys ddi P dpMN hTs env { s with supportedPlatform := i, mmio := (mapMmio env).2 } := by
  unfold vsyncLibInit
  rw [if_neg (by simp [hidle]), if_neg (by simp [hdev])]
  dsimp only
  rw [hfind]
  dsimp only
  rw [if_neg (by simp [hmap]), hP]

theorem initPhys_of_run {P : Platform} {dpMN : Bool} {env : InitEnv} {phys : List ℕ} {pool : Pool}
    (h : (findEnabledPhys ddi P dpMN env.ctl env.val).run (Pool.exec ddi) s.pool =
      some ((false, phys), pool)) (hTs : Bool) :
    ∃ hh, initPhys ddi P dpMN hTs env s = some (0, { s with
      pool, phyEnabledList := some phys, hardwareTs := s.hardwareTs || hTs, hhEnable := hh }) := by
  unfold initPhys
  rw [h, Option.bind_some]
  dsimp only
  rw [if_neg (by simp)]
  cases hTs with
  | true => exact ⟨s.hhEnable ||| (1 <<< 31), by rw [Bool.or_true, if_pos rfl]⟩
  | false => exact ⟨s.hhEnable, by rw [Bool.or_false, if_neg (by simp)]⟩

theorem Inv.initPhys {P : Platform} {dpMN hTs : Bool} {env : InitEnv} {r : ℕ × LibState}
    (hlive : s.pool.Live []) (hdpll : ∀ j, (ddi j).phy ≠ .COMBO → s.pool.dpllNum j = dpllNum j)
    (hmap : s.mmio.initialized = true) (h : initPhys ddi P dpMN hTs env s = some r) :
    r.2.Inv ddi platformTable dpllNum := by
  obtain ⟨b, phys, pool, hrun, hres⟩ := initPhys_cases h
  obtain ⟨hlive', hdpll', -⟩ := Pool.findEnabledPhysFrom_spec hrun hlive
  have hkeep : ∀ j, (ddi j).phy ≠ .COMBO → pool.dpllNum j = dpllNum j :=
    fun j hj => (hdpll' j hj).trans (hdpll j hj)
  have hbusy : ¬ s.mmio.initialized = false := by simp [hmap]
  rcases hres with ⟨-, -, hun⟩ | ⟨-, -, hh, heq⟩
  · have hmid : LibState.Inv ddi platformTable dpllNum { s with pool, phyEnabledList := some phys } :=
      ⟨hlive', hkeep, fun hf => absurd hf hbusy, fun hf => absurd hf hbusy⟩
    exact hmid.uninitLib hun
  · rw [heq]
    exact ⟨hlive', hkeep, fun hf => absurd hf hbusy, fun hf => absurd hf hbusy⟩

theorem mapMmio_initialized {env : InitEnv} (h : (mapMmio env).1 = false) :
    (mapMmio env).2.initialized = true := by
  unfold mapMmio at h ⊢
  split at h
  · rw [if_pos ‹_›]
  · exact absurd h (by simp)

theorem Inv.step (hs : s.Inv ddi platformTable dpllNum) {c : LibCall}
    (h : s.step ddi platformTable c = some s') : s'.Inv ddi platformTable dpllNum := by
  obtain ⟨r, hexec, rfl⟩ := Option.map_eq_some_iff.mp h
  cases c with
  | shutdown =>
      obtain rfl := Option.some.inj hexec
      exact ⟨hs.live, hs.dpllNum, hs.list, hs.pciDev⟩
  | uninit unmapped =>
      obtain ⟨t, hun, rfl⟩ := Option.map_eq_some_iff.mp hexec
      exact hs.uninitLib hun
  | init deviceStr dpMN hTs env =>
      cases hinit : s.mmio.initialized with
      | true =>
          replace hexec : vsyncLibInit ddi platformTable deviceStr dpMN hTs env s = some r := hexec
          rw [vsyncLibInit, if_pos hinit] at hexec
          obtain rfl := Option.some.inj hexec
          exact hs
      | false =>
          have hlive := hs.live
          rw [hs.list hinit] at hlive
          rcases init_cases hexec hinit with ⟨-, i, m, heq, hm, hpci⟩ | ⟨i, P, -, -, hmap, -, hphys⟩
          · rw [heq]
            refine ⟨hs.live, hs.dpllNum, fun _ => hs.list hinit, fun _ id hid => ?_⟩
            rcases hpci id hid with hold | hnone
            · exact hs.pciDev hinit id hold
            · exact hnone
          · exact Inv.initPhys (s := { s with supportedPlatform := i, mmio := (mapMmio env).2 }) hlive
              hs.dpllNum (mapMmio_initialized hmap) hphys

/-! ## Initialising again -/

variable (ddi platformTable dpllNum s)

/-- A successful `vsync_lib_init` of an interface that is not initialised leaves what
it leaves in a fresh process. -/
def AsFresh : LibCall → Prop
  | .init deviceStr dpMN hTs env => s.mmio.initialized = false →
      ∀ s', vsyncLibInit ddi platformTable deviceStr dpMN hTs env s = some (0, s') →
        (∃ f, vsyncLibInit ddi platformTable deviceStr dpMN hTs env (process dpllNum s.hhEnable) =
          some (0, f) ∧ s'.view = f.view) ∧
        s'.hardwareTs = hTs ∧ s'.libClientDone = false ∧
        (∀ i, (s'.pool.objs i).isSome ↔ i ∈ s'.phyEnabledList.getD []) ∧
        ∃ P, platformTable[s'.supportedPlatform]? = some P ∧
          s'.pipes = (enabledPipes ddi P env.ctl (List.finRange 4)).map some
  | _ => True

/-- No flag of an earlier session is left that the call would not set itself. -/
def NoStaleFlag : LibCall → Prop
  | .init deviceStr dpMN hTs env => s.mmio.initialized = false →
      (∃ s', vsyncLibInit ddi platformTable deviceStr dpMN hTs env s = some (0, s')) →
        s.libClientDone = false ∧ (s.hardwareTs = true → hTs = true)
  | _ => True

variable {ddi platformTable dpllNum s}

theorem Inv.init_success (hs : s.Inv ddi platformTable dpllNum) {deviceStr : Option String}
    {dpMN hTs : Bool} {env : InitEnv} (hidle : s.mmio.initialized = false)
    (h : vsyncLibInit ddi platformTable deviceStr dpMN hTs env s = some (0, s')) :
    s'.hardwareTs = (s.hardwareTs || hTs) ∧ s'.libClientDone = s.libClientDone ∧
      (∃ P, platformTable[s'.supportedPlatform]? = some P ∧
        s'.pipes = (enabledPipes ddi P env.ctl (List.finRange 4)).map some) ∧
      ∃ f, vsyncLibInit ddi platformTable deviceStr dpMN hTs env (process dpllNum s.hhEnable) =
        some (0, f) ∧ f.hardwareTs = hTs ∧ f.libClientDone = false ∧
        s'.view.phys = f.view.phys ∧ s'.supportedPlatform = f.supportedPlatform ∧
        s'.mmio = f.mmio := by
  have hlive := hs.live
  rw [hs.list hidle] at hlive
  rcases init_cases h hidle with ⟨hfail, -⟩ | ⟨i, P, hdev, hfind, hmap, hP, hphys⟩
  · exact absurd hfail (by simp)
  · have hpci : s.mmio.pciDev = none := by
      cases hid : s.mmio.pciDev with
      | none => rfl
      | some id =>
          rw [hid] at hfind
          exact absurd ((hs.pciDev hidle id hid).symm.trans hfind) (by simp)
    obtain ⟨b, phys, pool, hrun, hres⟩ := initPhys_cases hphys
    rcases hres with ⟨-, hfail, -⟩ | ⟨rfl, -, hh, rfl⟩
    · exact absurd hfail (by simp)
    · obtain ⟨-, -, hpipes⟩ := Pool.findEnabledPhysFrom_spec hrun hlive
      have htwin : Pool.Twin ddi s.pool (Pool.fresh dpllNum) [] [] :=
        ⟨rfl, fun _ _ => rfl, hs.dpllNum⟩
      have hfresh : (process dpllNum s.hhEnable).Inv ddi platformTable dpllNum := inv_process s.hhEnable
      obtain ⟨physF, poolF, hrunF, htwin'⟩ :=
        Pool.findEnabledPhysFrom_twin hrun htwin hlive hfresh.live
      rw [hpci] at hfind
      obtain ⟨hhF, hinitF⟩ := initPhys_of_run (s := { process dpllNum s.hhEnable with
        supportedPlatform := i, mmio := (mapMmio env).2 }) hrunF hTs
      refine ⟨rfl, rfl, ⟨P, hP, hpipes rfl⟩, _,
        (init_eq_initPhys rfl hdev hfind hmap hP).trans hinitF, Bool.false_or _, rfl,
        congrArg some htwin'.objects, rfl, rfl⟩

theorem Inv.asFresh_iff (hs : s.Inv ddi platformTable dpllNum) (c : LibCall) :
    s.AsFresh ddi platformTable dpllNum c ↔ s.NoStaleFlag ddi platformTable c := by
  cases c with
  | shutdown => exact Iff.rfl
  | uninit unmapped => exact Iff.rfl
  | init deviceStr dpMN hTs env =>
      constructor
      · rintro h hidle ⟨s', hcall⟩
        obtain ⟨-, hts, hdone, -⟩ := h hidle s' hcall
        obtain ⟨hts', hdone', -⟩ := hs.init_success hidle hcall
        refine ⟨hdone'.symm.trans hdone, fun hst => ?_⟩
        rw [← hts, hts', hst, Bool.true_or]
      · intro h hidle s' hcall
        obtain ⟨hdone, hts⟩ := h hidle ⟨s', hcall⟩
        obtain ⟨hts', hdone', hpipes, f, hf, hfts, hfdone, hphys, hplat, hmmio⟩ :=
          hs.init_success hidle hcall
        have htsEq : s'.hardwareTs = hTs := by
          rw [hts']
          cases hst : s.hardwareTs with
          | false => exact Bool.false_or _
          | true => rw [hts hst, Bool.true_or]
        have hinv : s'.Inv ddi platformTable dpllNum := hs.step (c := .init deviceStr dpMN hTs env) (by
          rw [LibState.step, LibCall.exec, hcall]
          rfl)
        refine ⟨⟨f, hf, ?_⟩, htsEq, hdone'.trans hdone, hinv.live.isSome_iff, hpipes⟩
        have hview : s'.view = ⟨s'.view.phys, s'.supportedPlatform, s'.hardwareTs, s'.libClientDone,
          s'.mmio⟩ := rfl
        rw [hview, hphys, hplat, htsEq, hdone', hdone, hmmio, ← hfts, ← hfdone]
        rfl

/-- Every successful initialisation is that of a fresh process exactly if none meets a
flag of an earlier session. -/
theorem reinit_asFresh_iff (ddi : ℕ → DdiSel) (platformTable : List Platform) (dpllNum : ℕ → ℕ)
    (hhEnable : U32) (calls : List LibCall) :
    Steps.All (step ddi platformTable) (AsFresh ddi platformTable dpllNum) calls
        (process dpllNum hhEnable) ↔
      Steps.All (step ddi platformTable) (NoStaleFlag ddi platformTable) calls
        (process dpllNum hhEnable) :=
  Steps.all_iff (I := Inv ddi platformTable dpllNum) (fun _ c hs => hs.asFresh_iff c)
    (fun _ _ _ hs _ hstep => hs.step hstep) calls (inv_process hhEnable)

/-! ### The flags -/

/-- Only `shutdown_lib` and an initialisation with `h_ts` set a flag; nothing clears one. -/
theorem flags_of_step {c : LibCall} (h : s.step ddi platformTable c = some s') :
    (s'.libClientDone = true ↔ s.libClientDone = true ∨ c = .shutdown) ∧
      (s.hardwareTs = true → s'.hardwareTs = true) ∧
      (s'.hardwareTs = true → s.hardwareTs = true ∨ ∃ dev dpMN env, c = .init dev dpMN true env) := by
  have huninit : ∀ t t', LibState.uninitLib ddi t = some t' →
      t'.libClientDone = t.libClientDone ∧ t'.hardwareTs = t.hardwareTs := by
    intro t t' hun
    unfold LibState.uninitLib at hun
    split at hun
    · obtain rfl := Option.some.inj hun
      exact ⟨rfl, rfl⟩
    · obtain ⟨r, -, rfl⟩ := Option.map_eq_some_iff.mp hun
      exact ⟨rfl, rfl⟩
  obtain ⟨r, hexec, rfl⟩ := Option.map_eq_some_iff.mp h
  cases c with
  | shutdown =>
      obtain rfl := Option.some.inj hexec
      exact ⟨iff_of_true rfl (.inr rfl), id, .inl⟩
  | uninit unmapped =>
      obtain ⟨t, hun, rfl⟩ := Option.map_eq_some_iff.mp hexec
      obtain ⟨hdone, hts⟩ := huninit s t hun
      exact ⟨by simp [hdone], fun hs => hts.trans hs, fun ht => .inl (hts.symm.trans ht)⟩
  | init deviceStr dpMN hTs env =>
      have hres : r.2.libClientDone = s.libClientDone ∧
          (r.2.hardwareTs = s.hardwareTs ∨ r.2.hardwareTs = (s.hardwareTs || hTs)) := by
        cases hinit : s.mmio.initialized with
        | true =>
            replace hexec : vsyncLibInit ddi platformTable deviceStr dpMN hTs env s = some r := hexec
            rw [vsyncLibInit, if_pos hinit] at hexec
            obtain rfl := Option.some.inj hexec
            exact ⟨rfl, .inl rfl⟩
        | false =>
            rcases init_cases hexec hinit with ⟨-, i, m, heq, -⟩ | ⟨i, P, -, -, -, -, hphys⟩
            · rw [heq]
              exact ⟨rfl, .inl rfl⟩
            · obtain ⟨b, phys, pool, -, hres⟩ := initPhys_cases hphys
              rcases hres with ⟨-, -, hun⟩ | ⟨-, -, hh, heq⟩
              · obtain ⟨hdone, hts⟩ := huninit _ _ hun
                exact ⟨hdone, .inl hts⟩
              · rw [heq]
                exact ⟨rfl, .inr rfl⟩
      obtain ⟨hdone, hts⟩ := hres
      refine ⟨by simp [hdone], fun hs => ?_, fun ht => ?_⟩
      · rcases hts with heq | heq <;> simp [heq, hs]
      · rcases hts with heq | heq
        · exact .inl (heq.symm.trans ht)
        · rw [heq, Bool.or_eq_true] at ht
          rcases ht with ht | rfl
          · exact .inl ht
          · exact .inr ⟨_, _, _, rfl⟩

/-- Stepping loops are cut short from the first `shutdown_lib` on, for good. -/
theorem libClientDone_of_run {calls : List LibCall} (h : Steps.run (step ddi platformTable) calls s = some s') :
    s'.libClientDone = true ↔ s.libClientDone = true ∨ .shutdown ∈ calls := by
  induction calls generalizing s with
  | nil =>
      obtain rfl := Option.some.inj h
      simp
  | cons c calls ih =>
      obtain ⟨t, hstep, hrest⟩ := Option.bind_eq_some_iff.mp h
      rw [ih hrest, (flags_of_step hstep).1, List.mem_cons, or_assoc, eq_comm (a := c)]

/-- Hardware timestamps come from an initialisation that asked for them, and stay. -/
theorem hardwareTs_of_run {calls : List LibCall} (h : Steps.run (step ddi platformTable) calls s = some s') :
    (s.hardwareTs = true → s'.hardwareTs = true) ∧
      (s'.hardwareTs = true → s.hardwareTs = true ∨ ∃ dev dpMN env, .init dev dpMN true env ∈ calls) := by
  induction calls generalizing s with
  | nil =>
      obtain rfl := Option.some.inj h
      exact ⟨id, .inl⟩
  | cons c calls ih =>
      obtain ⟨t, hstep, hrest⟩ := Option.bind_eq_some_iff.mp h
      obtain ⟨-, hkeep, hcause⟩ := flags_of_step hstep
      obtain ⟨hkeep', hcause'⟩ := ih hrest
      refine ⟨fun hs => hkeep' (hkeep hs), fun hs' => ?_⟩
      rcases hcause' hs' with ht | ⟨dev, dpMN, env, hmem⟩
      · rcases hcause ht with hs | ⟨dev, dpMN, env, rfl⟩
        · exact .inl hs
        · exact .inr ⟨dev, dpMN, env, List.mem_cons_self⟩
      · exact .inr ⟨dev, dpMN, env, List.mem_cons_of_mem _ hmem⟩

def tc1Env : InitEnv where
  opened := true
  pciDev := some 0x9A60
  pciDevAtMap := some 0x9A60
  mapped := true
  ctl i := if i.val = 0 then 0xA2000000 else 0
  val _ := 1

/-- A session with hardware timestamps, then one without: `get_vsync` keeps to the
hardware timestamps. -/
theorem hardwareTs_survives_uninit :
    ¬ Steps.All (step tglDdiSel [tgl]) (AsFresh tglDdiSel [tgl] fun _ => 0)
      [.init (some "/dev/dri/card0") false true tc1Env, .uninit true,
        .init (some "/dev/dri/card0") false false tc1Env] (process (fun _ => 0) 0) := by
  intro h
  have hrun : (Steps.run (step tglDdiSel [tgl])
      [.init (some "/dev/dri/card0") false true tc1Env, .uninit true] (process (fun _ => 0) 0)).bind
        (fun s => (vsyncLibInit tglDdiSel [tgl] (some "/dev/dri/card0") false false tc1Env s).map fun r =>
          (s.mmio.initialized, r.1, r.2.hardwareTs)) = some (false, 0, true) := by
    decide
  obtain ⟨s, hs, hres⟩ := Option.bind_eq_some_iff.mp hrun
  obtain ⟨⟨n, s'⟩, hcall, heq⟩ := Option.map_eq_some_iff.mp hres
  obtain ⟨hidle, heq⟩ := Prod.mk.inj heq
  obtain ⟨rfl, hts⟩ := Prod.mk.inj heq
  have hfresh := Steps.All.of_run [_, _] [] h hs
  exact absurd ((hfresh hidle s' hcall).2.1.symm.trans hts) (by simp)

end LibState

end Genlock.Vsyncalter
