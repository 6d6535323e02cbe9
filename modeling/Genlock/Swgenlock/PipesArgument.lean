import Genlock.Lib.Text
import Mathlib.Data.List.DropRight
import Mathlib.Tactic

/-!
# The pipes on the command line

`parse_pipes_arg` of the main program: `4` for all pipes, or pipe ids separated by commas.
-/

namespace Genlock.Swgenlock

open Text

/-! ## Tokens -/

def isBlank (c : Char) : Bool :=
  c = ' ' ∨ c = '\t' ∨ c = '\n' ∨ c = '\r'

/-- `erase` up to the first and from behind the last character that is no blank. -/
def trim (s : List Char) : List Char :=
  (s.dropWhile isBlank).rdropWhile isBlank

/-- What `getline` reads up to each comma; nothing is read behind a last comma. -/
def getlines (s : List Char) : List (List Char) :=
  let toks := s.splitOn ','
  if toks.getLast? = some [] then toks.dropLast else toks

/-- `c_str`: what stands in front of the first NUL. -/
def cStr (s : List Char) : List Char :=
  s.takeWhile (· ≠ '\x00')

/-! ## The set of pipes -/

/-- `std::set<int>::insert` on the elements in order. -/
def insertElem (v : ℤ) : List ℤ → List ℤ
  | [] => [v]
  | x :: xs => if v < x then v :: x :: xs else if v = x then x :: xs else x :: insertElem v xs

theorem mem_insertElem {v w : ℤ} {xs : List ℤ} : w ∈ insertElem v xs ↔ w = v ∨ w ∈ xs := by
  induction xs with
  | nil =>
      simp [insertElem]
  | cons x xs ih =>
      unfold insertElem
      split
      · simp
      · split
        · next h => simp [h]
        · rw [List.mem_cons, ih, List.mem_cons]
          tauto

theorem pairwise_insertElem {v : ℤ} {xs : List ℤ} (h : xs.Pairwise (· < ·)) :
    (insertElem v xs).Pairwise (· < ·) := by
  induction xs with
  | nil =>
      simp [insertElem]
  | cons x xs ih =>
      have hx := List.pairwise_cons.1 h
      unfold insertElem
      split
      · next hlt =>
        apply List.Pairwise.cons _ h
        intro y hy
        cases List.mem_cons.1 hy with
        | inl hy => exact hy ▸ hlt
        | inr hy => exact hlt.trans (hx.1 y hy)
      · split
        · exact h
        · next hle hne =>
          apply List.Pairwise.cons _ (ih hx.2)
          intro y hy
          cases mem_insertElem.1 hy with
          | inl hy => exact hy ▸ lt_of_le_of_ne (not_lt.1 hle) (Ne.symm hne)
          | inr hy => exact hx.1 y hy

structure IntSet where
  elems : List ℤ
  sorted : elems.Pairwise (· < ·)

def IntSet.empty : IntSet := ⟨[], List.Pairwise.nil⟩

def IntSet.insert (v : ℤ) (s : IntSet) : IntSet :=
  ⟨insertElem v s.elems, pairwise_insertElem s.sorted⟩

@[simp] theorem IntSet.mem_insert {v w : ℤ} {s : IntSet} :
    w ∈ (s.insert v).elems ↔ w = v ∨ w ∈ s.elems :=
  mem_insertElem

/-! ## The parser -/

inductive PipeError where
  | invalidToken (tok : List Char)
  | outOfRange (val : ℤ)
deriving DecidableEq, Repr

/-- The loop of `parse_pipes_arg` over the tokens that are left. -/
def collectPipes : List (List Char) → IntSet → Except PipeError IntSet
  | [], uniq => .ok uniq
  | tok :: toks, uniq =>
      let tok := trim tok
      if tok = [] then collectPipes toks uniq
      else
        let (val, endp) := strtol 10 (cStr tok)
        if cStr tok = [] ∨ endp ≠ [] then .error (.invalidToken tok)
        else if val < 0 ∨ val > 3 then .error (.outOfRange val)
        else collectPipes toks (uniq.insert val)

/-- The result, and what is in `out` then. -/
def parsePipesArg (arg : List Char) (out : List ℤ) : Bool × List ℤ :=
  let s := trim arg
  if s = [] then (false, out)
  else if s = ['4'] then (true, [0, 1, 2, 3])
  else
    match collectPipes (getlines s) IntSet.empty with
    | .error _ => (false, out)
    | .ok uniq => if uniq.elems = [] then (false, out) else (true, uniq.elems)

/-! ## What a token says -/

def PipeToken (t : List Char) (v : ℤ) : Prop :=
  ∃ neg n, Numeral 10 t neg n ∧ signedValue neg n = v ∧ 0 ≤ v ∧ v ≤ 3

/-- The tokens of the argument that are not blank, trimmed. -/
def pipeTokens (arg : List Char) : List (List Char) :=
  (((trim arg).splitOn ',').map trim).filter (· ≠ [])

theorem strtol_whole_iff {t : List Char} (ht : t ≠ []) {v : ℤ} :
    strtol 10 t = (v, []) ↔ ∃ neg n, Numeral 10 t neg n ∧ signedValue neg n = v := by
  unfold Text.strtol
  constructor
  · intro h
    split at h
    · exact absurd (Prod.mk.inj h).2 ht
    · next neg n rest hscan =>
      obtain ⟨w, hw, hnum⟩ := numeral_of_scanNumeral hscan
      rw [(Prod.mk.inj h).2, List.append_nil] at hw
      exact ⟨neg, n, hw ▸ hnum, (Prod.mk.inj h).1⟩
  · intro h
    obtain ⟨neg, n, hnum, hv⟩ := h
    have hscan : scanNumeral 10 (t ++ []) = some (neg, n, []) := scanNumeral_append hnum (by simp)
    rw [List.append_nil] at hscan
    simp only [hscan, hv]

theorem PipeToken.ne_nil {t : List Char} {v : ℤ} (h : PipeToken t v) : t ≠ [] := by
  obtain ⟨neg, n, hnum, -⟩ := h
  exact numeral_ne_nil hnum

theorem PipeToken.strtol {t : List Char} {v : ℤ} (h : PipeToken t v) : strtol 10 t = (v, []) := by
  have hne := h.ne_nil
  obtain ⟨neg, n, hnum, hv, -⟩ := h
  exact (strtol_whole_iff hne).2 ⟨neg, n, hnum, hv⟩

theorem PipeToken.unique {t : List Char} {v w : ℤ} (h : PipeToken t v) (h' : PipeToken t w) :
    v = w :=
  (Prod.mk.inj (h.strtol.symm.trans h'.strtol)).1

theorem cStr_of_notMem {s : List Char} (h : '\x00' ∉ s) : cStr s = s := by
  rw [cStr, List.takeWhile_eq_self_iff]
  intro c hc
  rw [decide_eq_true_eq]
  intro heq
  exact h (heq ▸ hc)

theorem mem_of_mem_trim {s : List Char} {c : Char} (h : c ∈ trim s) : c ∈ s :=
  (List.dropWhile_sublist isBlank).subset ((List.rdropWhile_prefix isBlank _).subset h)

theorem mem_of_mem_splitOn {c d : Char} {s t : List Char} (ht : t ∈ s.splitOn d) (hc : c ∈ t) :
    c ∈ s := by
  induction s generalizing t with
  | nil =>
      rw [List.splitOn_nil, List.mem_singleton] at ht
      exact ht ▸ hc
  | cons x s ih =>
      rw [List.splitOn_cons_eq_if_modifyHead] at ht
      split at ht
      · cases List.mem_cons.1 ht with
        | inl ht => exact absurd hc (by simp [ht])
        | inr ht => exact List.mem_cons_of_mem x (ih ht hc)
      · cases hsplit : s.splitOn d with
        | nil =>
            exact absurd hsplit (List.splitOn_ne_nil d s)
        | cons u us =>
            rw [hsplit, List.modifyHead_cons] at ht
            cases List.mem_cons.1 ht with
            | inl ht =>
                rw [ht] at hc
                cases List.mem_cons.1 hc with
                | inl hc => exact List.mem_cons.2 (Or.inl hc)
                | inr hc => exact List.mem_cons_of_mem x (ih (by simp [hsplit]) hc)
            | inr ht =>
                exact List.mem_cons_of_mem x (ih (by simp [hsplit, ht]) hc)

/-! ## One token, and all of them -/

theorem collectPipes_blank {tok : List Char} (h : trim tok = []) (toks : List (List Char))
    (uniq : IntSet) : collectPipes (tok :: toks) uniq = collectPipes toks uniq := by
  rw [collectPipes]
  simp only [if_pos h]

theorem collectPipes_token {tok : List Char} {v : ℤ} (h : PipeToken (trim tok) v)
    (hnul : '\x00' ∉ tok) (toks : List (List Char)) (uniq : IntSet) :
    collectPipes (tok :: toks) uniq = collectPipes toks (uniq.insert v) := by
  have hcstr := cStr_of_notMem fun hmem => hnul (mem_of_mem_trim hmem)
  have hread := h.strtol
  have hne := h.ne_nil
  obtain ⟨-, -, -, -, hmin, hmax⟩ := h
  rw [collectPipes]
  simp only [hcstr, hread, hne, ne_eq, not_true_eq_false, or_self, if_false]
  rw [if_neg (by omega)]

theorem collectPipes_error {tok : List Char} (hne : trim tok ≠ []) (h : ∀ v, ¬ PipeToken (trim tok) v)
    (hnul : '\x00' ∉ tok) (toks : List (List Char)) (uniq : IntSet) :
    ∃ e, collectPipes (tok :: toks) uniq = .error e := by
  have hcstr := cStr_of_notMem fun hmem => hnul (mem_of_mem_trim hmem)
  rw [collectPipes]
  simp only [hcstr, hne, false_or]
  generalize hread : Text.strtol 10 (trim tok) = read
  obtain ⟨v, endp⟩ := read
  by_cases hend : endp = []
  · subst hend
    obtain ⟨neg, n, hnum, hv⟩ := (strtol_whole_iff hne).1 hread
    have hrange : v < 0 ∨ v > 3 := by
      by_contra hin
      exact h v ⟨neg, n, hnum, hv, by omega, by omega⟩
    exact ⟨.outOfRange v, by simp [hrange]⟩
  · exact ⟨.invalidToken (trim tok), by simp [hend]⟩

/-- Tokens that are blank or pipe ids are collected, in whatever order they come. -/
theorem collectPipes_ok {toks : List (List Char)} (uniq : IntSet)
    (hnul : ∀ t ∈ toks, '\x00' ∉ t)
    (h : ∀ t ∈ toks, trim t = [] ∨ ∃ v, PipeToken (trim t) v) :
    ∃ r, collectPipes toks uniq = .ok r ∧
      ∀ v, v ∈ r.elems ↔ v ∈ uniq.elems ∨ ∃ t ∈ toks, PipeToken (trim t) v := by
  induction toks generalizing uniq with
  | nil =>
      exact ⟨uniq, rfl, by simp⟩
  | cons t toks ih =>
      have htail (u : IntSet) := ih u (fun t' ht' => hnul t' (List.mem_cons_of_mem t ht'))
        fun t' ht' => h t' (List.mem_cons_of_mem t ht')
      cases h t List.mem_cons_self with
      | inl hblank =>
          obtain ⟨r, hr, hmem⟩ := htail uniq
          refine ⟨r, by rw [collectPipes_blank hblank, hr], ?_⟩
          intro v
          have hnot : ¬ PipeToken (trim t) v := fun htok => htok.ne_nil hblank
          rw [hmem, List.exists_mem_cons_iff, or_iff_right hnot]
      | inr htok =>
          obtain ⟨w, hw⟩ := htok
          obtain ⟨r, hr, hmem⟩ := htail (uniq.insert w)
          refine ⟨r, by rw [collectPipes_token hw (hnul t List.mem_cons_self), hr], ?_⟩
          intro v
          have hiff : PipeToken (trim t) v ↔ v = w := by
            constructor
            · intro hv
              exact hv.unique hw
            · intro hv
              exact hv ▸ hw
          rw [hmem, List.exists_mem_cons_iff, hiff, IntSet.mem_insert, or_assoc, or_left_comm]

/-- One token that is neither makes the whole argument fail. -/
theorem collectPipes_fails {toks : List (List Char)} (uniq : IntSet)
    (hnul : ∀ t ∈ toks, '\x00' ∉ t)
    (h : ∃ t ∈ toks, trim t ≠ [] ∧ ∀ v, ¬ PipeToken (trim t) v) :
    ∃ e, collectPipes toks uniq = .error e := by
  induction toks generalizing uniq with
  | nil =>
      exact absurd h (by simp)
  | cons t toks ih =>
      have htail := fun t' ht' => hnul t' (List.mem_cons_of_mem t ht')
      have ht := hnul t List.mem_cons_self
      by_cases hblank : trim t = []
      · rw [collectPipes_blank hblank]
        apply ih _ htail
        cases (List.exists_mem_cons_iff _ _ _).1 h with
        | inl h => exact absurd hblank h.1
        | inr h => exact h
      · by_cases htok : ∃ v, PipeToken (trim t) v
        · obtain ⟨w, hw⟩ := htok
          rw [collectPipes_token hw ht]
          apply ih _ htail
          cases (List.exists_mem_cons_iff _ _ _).1 h with
          | inl h => exact absurd hw (h.2 w)
          | inr h => exact h
        · exact collectPipes_error hblank (not_exists.1 htok) ht toks uniq

/-! ## The whole argument -/

theorem collectPipes_range {toks : List (List Char)} {uniq r : IntSet}
    (h : collectPipes toks uniq = .ok r) (huniq : ∀ v ∈ uniq.elems, 0 ≤ v ∧ v ≤ 3) :
    ∀ v ∈ r.elems, 0 ≤ v ∧ v ≤ 3 := by
  induction toks generalizing uniq with
  | nil =>
      obtain rfl := Except.ok.inj h
      exact huniq
  | cons tok toks ih =>
      simp only [collectPipes] at h
      split at h
      · exact ih h huniq
      · split at h
        · cases h
        · split at h
          · cases h
          · next hrange =>
            apply ih h
            intro v hv
            cases IntSet.mem_insert.mp hv with
            | inl hv =>
                subst hv
                omega
            | inr hv => exact huniq v hv

/-- What `main` goes on with: each pipe once, and only ids of pipes. -/
theorem parsePipesArg_some {arg : List Char} {out pipes : List ℤ}
    (h : parsePipesArg arg out = (true, pipes)) :
    pipes.Pairwise (· < ·) ∧ ∀ p ∈ pipes, 0 ≤ p ∧ p ≤ 3 := by
  simp only [parsePipesArg] at h
  split at h
  · cases h
  · split at h
    · obtain rfl := (Prod.mk.inj h).2
      decide
    · split at h
      · cases h
      · next uniq huniq =>
        split at h
        · cases h
        · obtain rfl := (Prod.mk.inj h).2
          exact ⟨uniq.sorted, collectPipes_range huniq (by simp [IntSet.empty])⟩

/-- The empty token that `getline` leaves out says nothing. -/
theorem exists_mem_getlines_iff {s : List Char} {P : List Char → Prop} (hP : ¬ P []) :
    (∃ t ∈ getlines s, P t) ↔ ∃ t ∈ s.splitOn ',', P t := by
  simp only [getlines]
  split
  · next hlast =>
    have hsplit := List.dropLast_append_getLast? [] hlast
    conv_rhs => rw [← hsplit]
    simp [or_and_right, exists_or, hP]
  · rfl

theorem mem_pipeTokens {arg t : List Char} :
    t ∈ pipeTokens arg ↔ ∃ u ∈ (trim arg).splitOn ',', trim u = t ∧ t ≠ [] := by
  simp only [pipeTokens, List.mem_filter, List.mem_map, decide_eq_true_eq]
  tauto

theorem exists_pipeToken_iff {arg : List Char} {v : ℤ} :
    (∃ t ∈ pipeTokens arg, PipeToken t v) ↔ ∃ u ∈ getlines (trim arg), PipeToken (trim u) v := by
  rw [exists_mem_getlines_iff (P := fun u => PipeToken (trim u) v) fun h => h.ne_nil rfl]
  constructor
  · intro h
    obtain ⟨t, ht, hv⟩ := h
    obtain ⟨u, hu, rfl, -⟩ := mem_pipeTokens.1 ht
    exact ⟨u, hu, hv⟩
  · intro h
    obtain ⟨u, hu, hv⟩ := h
    exact ⟨trim u, mem_pipeTokens.2 ⟨u, hu, rfl, hv.ne_nil⟩, hv⟩

theorem mem_splitOn_of_mem_getlines {s t : List Char} (h : t ∈ getlines s) : t ∈ s.splitOn ',' := by
  simp only [getlines] at h
  split at h
  · exact List.dropLast_subset _ h
  · exact h

theorem pipeTokens_of_blank {arg : List Char} (h : trim arg = []) : pipeTokens arg = [] := by
  rw [pipeTokens, h, List.splitOn_nil]
  rfl

section
variable {arg : List Char} (hnul : '\x00' ∉ arg) (h4 : trim arg ≠ ['4']) (out : List ℤ)

include hnul in
theorem notMem_getlines {u : List Char} (hu : u ∈ getlines (trim arg)) : '\x00' ∉ u :=
  fun hmem => hnul (mem_of_mem_trim (mem_of_mem_splitOn (mem_splitOn_of_mem_getlines hu) hmem))

include hnul h4

theorem parsePipesArg_valid (hvalid : ∀ t ∈ pipeTokens arg, ∃ v, PipeToken t v) :
    ∃ r : IntSet, (∀ v, v ∈ r.elems ↔ ∃ t ∈ pipeTokens arg, PipeToken t v) ∧
      parsePipesArg arg out = if r.elems = [] then (false, out) else (true, r.elems) := by
  by_cases hblank : trim arg = []
  · refine ⟨IntSet.empty, ?_, ?_⟩
    · simp [pipeTokens_of_blank hblank, IntSet.empty]
    · simp [parsePipesArg, hblank, IntSet.empty]
  · have htokens : ∀ u ∈ getlines (trim arg), trim u = [] ∨ ∃ v, PipeToken (trim u) v := by
      intro u hu
      by_cases hu' : trim u = []
      · exact Or.inl hu'
      · exact Or.inr (hvalid (trim u)
          (mem_pipeTokens.2 ⟨u, mem_splitOn_of_mem_getlines hu, rfl, hu'⟩))
    obtain ⟨r, hr, hmem⟩ := collectPipes_ok IntSet.empty
      (fun u hu => notMem_getlines hnul hu) htokens
    refine ⟨r, ?_, ?_⟩
    · intro v
      rw [hmem, exists_pipeToken_iff]
      simp [IntSet.empty]
    · simp only [parsePipesArg, if_neg hblank, if_neg h4, hr]

theorem parsePipesArg_invalid (hinvalid : ¬ ∀ t ∈ pipeTokens arg, ∃ v, PipeToken t v) :
    parsePipesArg arg out = (false, out) := by
  have hbad : ∃ u ∈ getlines (trim arg), trim u ≠ [] ∧ ∀ v, ¬ PipeToken (trim u) v := by
    rw [exists_mem_getlines_iff (P := fun u => trim u ≠ [] ∧ ∀ v, ¬ PipeToken (trim u) v)
      fun h => h.1 rfl]
    simp only [not_forall, not_exists] at hinvalid
    obtain ⟨t, ht, hno⟩ := hinvalid
    obtain ⟨u, hu, rfl, hne⟩ := mem_pipeTokens.1 ht
    exact ⟨u, hu, hne, hno⟩
  obtain ⟨e, he⟩ := collectPipes_fails IntSet.empty (fun u hu => notMem_getlines hnul hu) hbad
  by_cases hblank : trim arg = []
  · simp [parsePipesArg, hblank]
  · simp only [parsePipesArg, if_neg hblank, if_neg h4, he]

end

structure PipesParsed (arg : List Char) (out : List ℤ) : Prop where
  accepts : (parsePipesArg arg out).1 = true ↔ trim arg = ['4'] ∨
    pipeTokens arg ≠ [] ∧ ∀ t ∈ pipeTokens arg, ∃ v, PipeToken t v
  all : trim arg = ['4'] → (parsePipesArg arg out).2 = [0, 1, 2, 3]
  increasing : (parsePipesArg arg out).1 = true → (parsePipesArg arg out).2.Pairwise (· < ·)
  pipes : (parsePipesArg arg out).1 = true → trim arg ≠ ['4'] →
    ∀ v, v ∈ (parsePipesArg arg out).2 ↔ ∃ t ∈ pipeTokens arg, PipeToken t v
  untouched : (parsePipesArg arg out).1 = false → (parsePipesArg arg out).2 = out

theorem pipes_parsed (arg : List Char) (out : List ℤ) (hnul : '\x00' ∉ arg) :
    PipesParsed arg out := by
  by_cases h4 : trim arg = ['4']
  · have hparse : parsePipesArg arg out = (true, [0, 1, 2, 3]) := by
      simp [parsePipesArg, h4]
    constructor
    · simp [hparse, h4]
    · simp [hparse]
    · intro _
      rw [hparse]
      decide
    · intro _ hne
      exact absurd h4 hne
    · simp [hparse]
  · by_cases hvalid : ∀ t ∈ pipeTokens arg, ∃ v, PipeToken t v
    · obtain ⟨r, hmem, hparse⟩ := parsePipesArg_valid hnul h4 out hvalid
      have hempty : r.elems = [] ↔ pipeTokens arg = [] := by
        rw [List.eq_nil_iff_forall_not_mem, List.eq_nil_iff_forall_not_mem]
        constructor
        · intro h t ht
          obtain ⟨v, hv⟩ := hvalid t ht
          exact h v ((hmem v).2 ⟨t, ht, hv⟩)
        · intro h v hv
          obtain ⟨t, ht, -⟩ := (hmem v).1 hv
          exact h t ht
      by_cases hnone : r.elems = []
      · rw [if_pos hnone] at hparse
        constructor
        · simp [hparse, h4, hempty.1 hnone]
        · exact fun h => absurd h h4
        · simp [hparse]
        · simp [hparse]
        · simp [hparse]
      · rw [if_neg hnone] at hparse
        constructor
        · simp only [hparse, true_iff]
          exact Or.inr ⟨fun h => hnone (hempty.2 h), hvalid⟩
        · exact fun h => absurd h h4
        · simpa [hparse] using r.sorted
        · simpa [hparse] using fun _ => hmem
        · simp [hparse]
    · have hparse := parsePipesArg_invalid hnul h4 out hvalid
      constructor
      · simp only [hparse, Bool.false_eq_true, false_iff]
        intro h
        cases h with
        | inl h => exact h4 h
        | inr h => exact hvalid h.2
      · exact fun h => absurd h h4
      · simp [hparse]
      · simp [hparse]
      · simp [hparse]

/-- Two pipes, one of them twice and with an empty token between them. -/
theorem pipes_parsed_twice : PipesParsed " 2, 0,,2".toList [] ∧
    parsePipesArg " 2, 0,,2".toList [] = (true, [0, 2]) :=
  ⟨pipes_parsed _ _ (by decide), by decide⟩

end Genlock.Swgenlock
