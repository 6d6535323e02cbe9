import Mathlib.Data.List.Range
import Mathlib.Data.List.TakeDrop

/-! # Vblank timestamps from the kernel

`os_get_vsync` polls for as many rounds as it was asked for timestamps; the events of
a round are written by `vblank_handler`. The outcomes of `open`, `drmWaitVBlank`,
`select` and `drmHandleEvent` are arguments. The pipe only goes to the kernel and is
left out.
-/

namespace Genlock.Os

abbrev U32 := BitVec 32
abbrev U64 := BitVec 64

/-! ## The handler -/

/-- An event: the kernel's time, and the time that the Hammock Harbor registers give
for it. -/
structure VblankEvent where
  sec : U32
  usec : U32
  hammockHarbor : U64
deriving DecidableEq, Repr

def timeInUsec (sec usec : U32) : U64 := 1000000 * sec.setWidth 64 + usec.setWidth 64

def VblankEvent.timestamp (hardwareTs : Bool) (e : VblankEvent) : U64 :=
  if hardwareTs then e.hammockHarbor else timeInUsec e.sec e.usec

/-- `os_vbl_info`; the array is the list of the writes to it, index and value. -/
structure VblInfo where
  size : ℤ
  counter : ℕ
  hardwareTs : Bool
  writes : List (ℕ × U64)
deriving DecidableEq, Repr

/-- `vblank_handler`; the request for the next event is not checked. -/
def vblankHandler (info : VblInfo) (e : VblankEvent) : VblInfo :=
  if info.counter < info.size then
    { info with
      counter := info.counter + 1
      writes := info.writes ++ [(info.counter, e.timestamp info.hardwareTs)] }
  else info

/-! ## The polling loop -/

/-- One round: the result of `select`, the events that `drmHandleEvent` hands to the
handler and its result. -/
structure PollOutcome where
  select : ℤ
  events : List VblankEvent
  handleEvent : ℤ
deriving DecidableEq, Repr

/-- `n` rounds from round `i` on. A timeout or an error of `select` takes a round. -/
def pollEvents (polls : ℕ → PollOutcome) : ℕ → ℕ → VblInfo → ℤ × VblInfo
  | 0, _, info => (0, info)
  | n + 1, i, info =>
    if (polls i).select ≤ 0 then pollEvents polls n (i + 1) info
    else
      let info := (polls i).events.foldl vblankHandler info
      if (polls i).handleEvent ≠ 0 then (1, info) else pollEvents polls n (i + 1) info

structure VsyncEnv where
  fd : ℤ
  waitVBlank : ℤ
  polls : ℕ → PollOutcome

/-- `os_get_vsync`; `hasArray` is whether the array is not null. -/
def osGetVsync (deviceStr : Option String) (hasArray : Bool) (size : ℤ) (hardwareTs : Bool)
    (env : VsyncEnv) : ℤ × VblInfo :=
  let info : VblInfo := ⟨size, 0, hardwareTs, []⟩
  if deviceStr = none ∨ deviceStr = some "" then (1, info)
  else if hasArray = false then (1, info)
  else if size ≤ 0 then (1, info)
  else if env.fd < 0 then (1, info)
  else if env.waitVBlank ≠ 0 then (1, info)
  else pollEvents env.polls size.toNat 0 info

/-! ## What the rounds deliver -/

def handled (polls : ℕ → PollOutcome) : ℕ → ℕ → List VblankEvent
  | 0, _ => []
  | n + 1, i =>
    if (polls i).select ≤ 0 then handled polls n (i + 1)
    else (polls i).events ++ if (polls i).handleEvent ≠ 0 then [] else handled polls n (i + 1)

def NoFailure (polls : ℕ → PollOutcome) (n i : ℕ) : Prop :=
  ∀ j, i ≤ j → j < i + n → 0 < (polls j).select → (polls j).handleEvent = 0

structure Filled (size : ℤ) (hardwareTs : Bool) (evs : List VblankEvent) (info : VblInfo) : Prop where
  size_eq : info.size = size
  hardwareTs_eq : info.hardwareTs = hardwareTs
  counter_eq : info.counter = min evs.length size.toNat
  indices : info.writes.map Prod.fst = List.range info.counter
  values : info.writes.map Prod.snd = (evs.take size.toNat).map (VblankEvent.timestamp hardwareTs)

section Loop

variable {polls : ℕ → PollOutcome} {size : ℤ} {hardwareTs : Bool} {evs : List VblankEvent}
  {info : VblInfo}

theorem Filled.handler (h : Filled size hardwareTs evs info) (e : VblankEvent) :
    Filled size hardwareTs (evs ++ [e]) (vblankHandler info e) := by
  have hcount := h.counter_eq
  have hsize := h.size_eq
  have hlen : (evs ++ [e]).length = evs.length + 1 := List.length_append
  unfold vblankHandler
  split
  · rename_i hlt
    have htake : (evs ++ [e]).take size.toNat = evs.take size.toNat ++ [e] := by
      rw [List.take_of_length_le (by omega), List.take_of_length_le (by omega)]
    refine ⟨hsize, h.hardwareTs_eq, ?_, ?_, ?_⟩
    · show info.counter + 1 = _
      omega
    · show (info.writes ++ [_]).map Prod.fst = List.range (info.counter + 1)
      rw [List.map_append, h.indices, List.range_succ]
      rfl
    · show (info.writes ++ [_]).map Prod.snd = _
      rw [List.map_append, h.values, htake, List.map_append, h.hardwareTs_eq]
      rfl
  · rename_i hge
    have htake : (evs ++ [e]).take size.toNat = evs.take size.toNat :=
      List.take_append_of_le_length (by omega)
    refine ⟨hsize, h.hardwareTs_eq, ?_, h.indices, ?_⟩
    · rw [hlen]
      omega
    · rw [htake]
      exact h.values

theorem Filled.events (h : Filled size hardwareTs evs info) (es : List VblankEvent) :
    Filled size hardwareTs (evs ++ es) (es.foldl vblankHandler info) := by
  induction es generalizing evs info with
  | nil =>
      rw [List.append_nil]
      exact h
  | cons e es ih =>
      rw [List.append_cons]
      exact ih (h.handler e)

/-- The loop fills the array from what it delivers, and fails in a round in which
`drmHandleEvent` does. -/
theorem pollEvents_spec (n i : ℕ) (h : Filled size hardwareTs evs info) :
    Filled size hardwareTs (evs ++ handled polls n i) (pollEvents polls n i info).2 ∧
      ((pollEvents polls n i info).1 = 0 ∨ (pollEvents polls n i info).1 = 1) ∧
      ((pollEvents polls n i info).1 = 0 ↔ NoFailure polls n i) := by
  induction n generalizing i evs info with
  | zero =>
      rw [handled, List.append_nil]
      exact ⟨h, .inl rfl, iff_of_true rfl fun j hij hj => by omega⟩
  | succ n ih =>
      have hshift : NoFailure polls (n + 1) i ↔
          (0 < (polls i).select → (polls i).handleEvent = 0) ∧ NoFailure polls n (i + 1) := by
        constructor
        · intro hall
          exact ⟨hall i le_rfl (by omega), fun j hij hj => hall j (by omega) (by omega)⟩
        · rintro ⟨hi, hall⟩ j hij hj
          rcases hij.eq_or_lt with rfl | hlt
          · exact hi
          · exact hall j hlt (by omega)
      rw [pollEvents, handled]
      by_cases hsel : (polls i).select ≤ 0
      · rw [if_pos hsel, if_pos hsel]
        obtain ⟨hfill, hret, hiff⟩ := ih (i + 1) h
        have himp : 0 < (polls i).select → (polls i).handleEvent = 0 := fun hlt => by omega
        rw [hshift, and_iff_right himp]
        exact ⟨hfill, hret, hiff⟩
      · rw [if_neg hsel, if_neg hsel]
        have hevents := h.events (polls i).events
        by_cases hev : (polls i).handleEvent ≠ 0
        · rw [if_pos hev, if_pos hev, List.append_nil]
          refine ⟨hevents, .inr rfl, iff_of_false (by simp) fun hall => hev ?_⟩
          exact hall i le_rfl (by omega) (Int.not_le.mp hsel)
        · rw [if_neg hev, if_neg hev, ← List.append_assoc]
          obtain ⟨hfill, hret, hiff⟩ := ih (i + 1) hevents
          have himp : 0 < (polls i).select → (polls i).handleEvent = 0 := fun _ => not_not.mp hev
          rw [hshift, and_iff_right himp]
          exact ⟨hfill, hret, hiff⟩

end Loop

/-! ## One call -/

def Opens (deviceStr : Option String) (hasArray : Bool) (size : ℤ) (env : VsyncEnv) : Prop :=
  (deviceStr ≠ none ∧ deviceStr ≠ some "") ∧ hasArray = true ∧ 0 < size ∧ 0 ≤ env.fd ∧
    env.waitVBlank = 0

instance (deviceStr : Option String) (hasArray : Bool) (size : ℤ) (env : VsyncEnv) :
    Decidable (Opens deviceStr hasArray size env) := inferInstanceAs (Decidable (_ ∧ _))

def delivered (deviceStr : Option String) (hasArray : Bool) (size : ℤ) (env : VsyncEnv) :
    List VblankEvent :=
  if Opens deviceStr hasArray size env then handled env.polls size.toNat 0 else []

def Completes (deviceStr : Option String) (hasArray : Bool) (size : ℤ) (env : VsyncEnv) : Prop :=
  Opens deviceStr hasArray size env ∧ NoFailure env.polls size.toNat 0

section Call

variable {deviceStr : Option String} {hasArray : Bool} {size : ℤ} {hardwareTs : Bool} {env : VsyncEnv}

theorem osGetVsync_eq :
    osGetVsync deviceStr hasArray size hardwareTs env =
      if Opens deviceStr hasArray size env then
        pollEvents env.polls size.toNat 0 ⟨size, 0, hardwareTs, []⟩
      else (1, ⟨size, 0, hardwareTs, []⟩) := by
  unfold osGetVsync
  dsimp only
  split
  · rename_i hdev
    rw [if_neg fun h => hdev.elim h.1.1 h.1.2]
  · rename_i hdev
    rw [not_or] at hdev
    split
    · rename_i harr
      rw [if_neg fun h => absurd (harr.symm.trans h.2.1) (by simp)]
    · rename_i harr
      split
      · rw [if_neg fun h => absurd h.2.2.1 (by omega)]
      · split
        · rw [if_neg fun h => absurd h.2.2.2.1 (by omega)]
        · split
          · rename_i hwait
            rw [if_neg fun h => hwait h.2.2.2.2]
          · rename_i hwait
            rw [if_pos ⟨hdev, Bool.of_not_eq_false harr, by omega, by omega, not_not.mp hwait⟩]

variable (deviceStr hasArray size hardwareTs env) in
theorem osGetVsync_spec :
    Filled size hardwareTs (delivered deviceStr hasArray size env)
        (osGetVsync deviceStr hasArray size hardwareTs env).2 ∧
      ((osGetVsync deviceStr hasArray size hardwareTs env).1 = 0 ∨
        (osGetVsync deviceStr hasArray size hardwareTs env).1 = 1) ∧
      ((osGetVsync deviceStr hasArray size hardwareTs env).1 = 0 ↔
        Completes deviceStr hasArray size env) := by
  have hstart : Filled size hardwareTs [] ⟨size, 0, hardwareTs, []⟩ :=
    ⟨rfl, rfl, by simp, rfl, by simp⟩
  rw [osGetVsync_eq, delivered, Completes]
  by_cases hopen : Opens deviceStr hasArray size env
  · rw [if_pos hopen, if_pos hopen, and_iff_right hopen]
    exact pollEvents_spec size.toNat 0 hstart
  · rw [if_neg hopen, if_neg hopen]
    exact ⟨hstart, .inr rfl, iff_of_false (by simp) fun h => hopen h.1⟩

theorem mem_indices_iff {evs : List VblankEvent} {info : VblInfo} (h : Filled size hardwareTs evs info)
    {i : ℕ} : i ∈ info.writes.map Prod.fst ↔ i < evs.length ∧ i < size.toNat := by
  rw [h.indices, List.mem_range, h.counter_eq, Nat.lt_min]

/-- The call's contract: every entry written once, in the order of the events. -/
def Delivers (size : ℤ) (hardwareTs : Bool) (evs : List VblankEvent) (r : ℤ × VblInfo) : Prop :=
  r.1 = 0 → r.2.writes.map Prod.fst = List.range size.toNat ∧
    r.2.writes.map Prod.snd = (evs.take size.toNat).map (VblankEvent.timestamp hardwareTs)

theorem delivers_iff :
    Delivers size hardwareTs (delivered deviceStr hasArray size env)
        (osGetVsync deviceStr hasArray size hardwareTs env) ↔
      (Completes deviceStr hasArray size env →
        size.toNat ≤ (delivered deviceStr hasArray size env).length) := by
  obtain ⟨hfill, -, hret⟩ := osGetVsync_spec deviceStr hasArray size hardwareTs env
  unfold Delivers
  rw [hret]
  apply imp_congr_right
  intro _
  rw [hfill.indices, and_iff_left hfill.values, hfill.counter_eq]
  constructor
  · intro h
    have hlen := congrArg List.length h
    rw [List.length_range, List.length_range] at hlen
    omega
  · intro h
    rw [min_eq_right h]

end Call

end Genlock.Os
