import Genlock.Lib.Bytes
import Genlock.Lib.Text
import Mathlib.Tactic

/-!
# The Ethernet address of the server

`ptp_connection::str_to_l2_addr` reads six groups with `strtoul` and takes the index at which its
loop stopped for the verdict.
-/

namespace Genlock.Swgenlock

open Text Bytes

def ethAlen : ℕ := 6

def maxMacAddrLen : ℕ := 17

def maxLen : ℕ := 256

abbrev L2Addr := Fin 6 → U8

/--
The loop of `str_to_l2_addr` with `left` rounds to go. `size` and `len` are the length of the whole
string and its `strnlen`, so `size - str.length` is how far `str` has advanced.
-/
def l2Groups (size len : ℕ) : ℕ → List Char → L2Addr → ℕ × L2Addr
  | 0, _, addr => (ethAlen, addr)
  | left + 1, str, addr =>
      let i := ethAlen - (left + 1)
      if len ≤ size - str.length then (i, addr)
      else
        let (tmp, rest) := strtoul 16 str
        if tmp = maxLen then (i, addr)
        else
          let addr := Function.update addr (Fin.ofNat 6 i) (BitVec.ofNat 8 tmp)
          match rest with
          | [] => (i, addr)
          | c :: str => if isPunct c then l2Groups size len left str addr else (i, addr)

def strToL2Addr (str : List Char) (addr : L2Addr) : Bool × L2Addr :=
  let r := l2Groups str.length (min str.length maxMacAddrLen) ethAlen str addr
  (r.1 = ethAlen - 1, r.2)

/-! ## Well formed addresses -/

/-- The texts, with one punctuation character between each two. -/
def Separated : List (List Char) → List Char → Prop
  | [], s => s = []
  | [g], s => s = g
  | g :: gs, s => ∃ p r, isPunct p = true ∧ s = g ++ p :: r ∧ Separated gs r

structure HexGroup (g : List Char) : Prop where
  ne_nil : g ≠ []
  length_le : g.length ≤ 2
  digits : ∀ c ∈ g, isDigitIn 16 c = true

/-- Six groups separated by single punctuation characters, and nothing after the sixth. -/
def MacGroups (gs : List (List Char)) (s : List Char) : Prop :=
  gs.length = ethAlen ∧ (∀ g ∈ gs, HexGroup g) ∧ Separated gs s

/-- Exactly the well formed addresses are accepted, and `addr` then holds their six values. -/
structure MacParsed (str : List Char) (addr : L2Addr) : Prop where
  accepts : (strToL2Addr str addr).1 = true ↔ ∃ gs, MacGroups gs str
  values : ∀ gs, MacGroups gs str →
    ∀ i : Fin 6, (strToL2Addr str addr).2 i = BitVec.ofNat 8 (valueIn 16 (gs.getD i []))

/-! ## What the loop takes for a group -/

/--
A group in front of the punctuation `p` and the rest `r`: a numeral with its blanks, sign and
prefix, of any length but not of the value `MAX_LEN`; or nothing, where `p` starts no numeral.
-/
def LooseGroup (w : List Char) (p : Char) (r : List Char) : Prop :=
  isPunct p = true ∧
    ((∃ neg n, Numeral 16 w neg n ∧ unsignedValue neg n ≠ maxLen) ∨
      w = [] ∧ ∀ w' r' neg n, w' ++ r' = p :: r → ¬ Numeral 16 w' neg n)

/-- `left` groups, all begun within the first `len` characters, and then no further group. -/
def LooseGroups (size len : ℕ) : ℕ → List Char → Prop
  | 0, s => len ≤ size - s.length ∨ ¬ ∃ w p r, s = w ++ p :: r ∧ LooseGroup w p r
  | left + 1, s => size - s.length < len ∧
      ∃ w p r, s = w ++ p :: r ∧ LooseGroup w p r ∧ LooseGroups size len left r

theorem LooseGroup.strtoul {w r : List Char} {p : Char} (h : LooseGroup w p r) :
    ∃ v, strtoul 16 (w ++ p :: r) = (v, p :: r) ∧ v ≠ maxLen := by
  obtain ⟨hp, h⟩ := h
  cases h with
  | inl h =>
      obtain ⟨neg, n, hw, hvalue⟩ := h
      refine ⟨unsignedValue neg n, ?_, hvalue⟩
      have hscan : scanNumeral 16 (w ++ p :: r) = some (neg, n, p :: r) := by
        apply scanNumeral_append hw
        intro c hc
        cases hc
        exact digitOf_of_isPunct hp
      rw [Text.strtoul, hscan]
  | inr h =>
      obtain ⟨rfl, hnone⟩ := h
      refine ⟨0, ?_, by decide⟩
      have hscan : scanNumeral 16 (p :: r) = none := by
        rw [Option.eq_none_iff_forall_not_mem]
        intro a ha
        obtain ⟨neg, n, rest⟩ := a
        obtain ⟨w', hw', hnum⟩ := numeral_of_scanNumeral ha
        exact hnone w' rest neg n hw' hnum
      rw [List.nil_append, Text.strtoul, hscan]

theorem looseGroup_of_strtoul {s r : List Char} {p : Char} {v : ℕ}
    (h : strtoul 16 s = (v, p :: r)) (hv : v ≠ maxLen) (hp : isPunct p = true) :
    ∃ w, s = w ++ p :: r ∧ LooseGroup w p r := by
  unfold Text.strtoul at h
  split at h
  · next hscan =>
    injection h with _ h
    refine ⟨[], h, hp, Or.inr ⟨rfl, ?_⟩⟩
    intro w' r' neg n hw' hnum
    exact scanNumeral_ne_none hnum (hw' ▸ h ▸ hscan)
  · next neg n rest hscan =>
    injection h with hn h
    obtain ⟨w, hw, hnum⟩ := numeral_of_scanNumeral hscan
    exact ⟨w, by rw [← hw, h], hp, Or.inl ⟨neg, n, hnum, hn ▸ hv⟩⟩

/-- The loop goes on exactly behind a group. -/
theorem looseGroup_iff {s : List Char} :
    (∃ w p r, s = w ++ p :: r ∧ LooseGroup w p r) ↔
      ∃ v p r, strtoul 16 s = (v, p :: r) ∧ v ≠ maxLen ∧ isPunct p = true := by
  constructor
  · intro h
    obtain ⟨w, p, r, rfl, h⟩ := h
    obtain ⟨v, hv, hne⟩ := h.strtoul
    exact ⟨v, p, r, hv, hne, h.1⟩
  · intro h
    obtain ⟨v, p, r, hv, hne, hp⟩ := h
    obtain ⟨w, hw, h⟩ := looseGroup_of_strtoul hv hne hp
    exact ⟨w, p, r, hw, h⟩

theorem l2Groups_succ (size len left : ℕ) (str : List Char) (addr : L2Addr) :
    ((len ≤ size - str.length ∨ ¬ ∃ w p r, str = w ++ p :: r ∧ LooseGroup w p r) ∧
        (l2Groups size len (left + 1) str addr).1 = ethAlen - (left + 1)) ∨
      size - str.length < len ∧ ∃ w p r v, str = w ++ p :: r ∧ LooseGroup w p r ∧
        strtoul 16 str = (v, p :: r) ∧
        l2Groups size len (left + 1) str addr = l2Groups size len left r
          (Function.update addr (Fin.ofNat 6 (ethAlen - (left + 1))) (BitVec.ofNat 8 v)) := by
  by_cases hlen : len ≤ size - str.length
  · exact Or.inl ⟨Or.inl hlen, by rw [l2Groups, if_pos hlen]⟩
  · by_cases hgroup : ∃ w p r, str = w ++ p :: r ∧ LooseGroup w p r
    · obtain ⟨w, p, r, hstr, hw⟩ := hgroup
      obtain ⟨v, hv, hne⟩ := hw.strtoul
      rw [← hstr] at hv
      refine Or.inr ⟨not_le.1 hlen, w, p, r, v, hstr, hw, hv, ?_⟩
      rw [l2Groups, if_neg hlen, hv]
      simp only [if_neg hne, if_pos hw.1]
    · refine Or.inl ⟨Or.inr hgroup, ?_⟩
      rw [looseGroup_iff] at hgroup
      rw [l2Groups, if_neg hlen]
      generalize hread : Text.strtoul 16 str = read
      obtain ⟨v, rest⟩ := read
      by_cases hv : v = maxLen
      · simp only [if_pos hv]
      · cases rest with
        | nil =>
            simp only [if_neg hv]
        | cons p r =>
            have hp : isPunct p = false := Bool.eq_false_iff.2 fun hp =>
              hgroup ⟨v, p, r, hread, hv, hp⟩
            simp only [if_neg hv, hp, Bool.false_eq_true, if_false]

/-- The rest behind a group is determined by the string. -/
theorem LooseGroup.rest_eq {w w' r r' : List Char} {p p' : Char} (h : LooseGroup w p r)
    (h' : LooseGroup w' p' r') (heq : w ++ p :: r = w' ++ p' :: r') : r = r' := by
  obtain ⟨v, hv, -⟩ := h.strtoul
  obtain ⟨v', hv', -⟩ := h'.strtoul
  rw [heq, hv'] at hv
  exact ((List.cons.inj (Prod.mk.inj hv).2).2).symm

theorem looseGroups_succ {size len left : ℕ} {w r : List Char} {p : Char} (h : LooseGroup w p r)
    (hlen : size - (w ++ p :: r).length < len) :
    LooseGroups size len (left + 1) (w ++ p :: r) ↔ LooseGroups size len left r := by
  constructor
  · intro hloose
    obtain ⟨-, w', p', r', heq, h', hrest⟩ := hloose
    rw [h.rest_eq h' heq]
    exact hrest
  · intro hrest
    exact ⟨hlen, w, p, r, rfl, h, hrest⟩

/-- The verdict index is reached exactly over a loose address. -/
theorem l2Groups_verdict_iff {size len left : ℕ} (hleft : left < ethAlen) (str : List Char)
    (addr : L2Addr) :
    (l2Groups size len (left + 1) str addr).1 = ethAlen - 1 ↔ LooseGroups size len left str := by
  induction left generalizing str addr with
  | zero =>
      cases l2Groups_succ size len 0 str addr with
      | inl h =>
          exact iff_of_true h.2 h.1
      | inr h =>
          -- the loop ran to its end, over a group where the address should have ended
          obtain ⟨hlen, w, p, r, v, hstr, hw, -, hloop⟩ := h
          rw [hloop]
          apply iff_of_false (by decide : ethAlen ≠ ethAlen - 1)
          intro hloose
          cases hloose with
          | inl hover => exact absurd hover (not_le.2 hlen)
          | inr hnone => exact hnone ⟨w, p, r, hstr, hw⟩
  | succ left ih =>
      cases l2Groups_succ size len (left + 1) str addr with
      | inl h =>
          rw [h.2]
          apply iff_of_false (by simp only [ethAlen] at hleft ⊢; omega)
          intro hloose
          cases h.1 with
          | inl hover =>
              exact absurd hover (not_le.2 hloose.1)
          | inr hnone =>
              obtain ⟨-, w, p, r, hstr, hw, -⟩ := hloose
              exact hnone ⟨w, p, r, hstr, hw⟩
      | inr h =>
          obtain ⟨hlen, w, p, r, v, rfl, hw, -, hloop⟩ := h
          rw [hloop, looseGroups_succ hw hlen]
          exact ih (Nat.lt_of_succ_lt hleft) r _

/-! ## Well formed addresses are read -/

theorem HexGroup.value_lt {g : List Char} (h : HexGroup g) : valueIn 16 g < 256 := by
  have hdigit : ∀ c ∈ g, (digitOf c).getD 0 < 16 := by
    intro c hc
    obtain ⟨d, hd, hlt⟩ := digitOf_of_isDigitIn (h.digits c hc)
    rw [hd]
    exact hlt
  cases g with
  | nil =>
      exact absurd rfl h.ne_nil
  | cons a g =>
      have ha := hdigit a (by simp)
      cases g with
      | nil =>
          simp only [valueIn, List.foldl_cons, List.foldl_nil]
          omega
      | cons b g =>
          have hb := hdigit b (by simp)
          cases g with
          | nil =>
              simp only [valueIn, List.foldl_cons, List.foldl_nil]
              omega
          | cons c g =>
              exact absurd h.length_le (by simp)

theorem HexGroup.unsignedValue {g : List Char} (h : HexGroup g) :
    unsignedValue false (valueIn 16 g) = valueIn 16 g := by
  have hlt := h.value_lt
  rw [Text.unsignedValue, if_neg (by omega)]
  rfl

theorem HexGroup.strtoul {g rest : List Char} (h : HexGroup g)
    (hrest : ∀ c ∈ rest.head?, digitOf c = none) :
    strtoul 16 (g ++ rest) = (valueIn 16 g, rest) := by
  rw [Text.strtoul, scanNumeral_append (numeral_digits h.ne_nil h.digits) hrest]
  simp only [h.unsignedValue]

theorem stored_succ {k : ℕ} (hk : k < 6) (addr : L2Addr) (g : List Char) (gs : List (List Char))
    (i : Fin 6) :
    (if i.val < k + 1 then
        Function.update addr (Fin.ofNat 6 k) (BitVec.ofNat 8 (valueIn 16 g)) i
      else BitVec.ofNat 8 (valueIn 16 (gs.getD (i.val - (k + 1)) []))) =
      if i.val < k then addr i
      else BitVec.ofNat 8 (valueIn 16 ((g :: gs).getD (i.val - k) [])) := by
  have hval : (Fin.ofNat 6 k).val = k := Nat.mod_eq_of_lt hk
  by_cases hlt : i.val < k
  · have hne : i ≠ Fin.ofNat 6 k := by
      intro h
      rw [h, hval] at hlt
      exact Nat.lt_irrefl k hlt
    rw [if_pos hlt, if_pos (Nat.lt_succ_of_lt hlt), Function.update_of_ne hne]
  · by_cases heq : i.val = k
    · have hi : i = Fin.ofNat 6 k := Fin.ext (heq.trans hval.symm)
      rw [if_neg hlt, if_pos (by omega), hi, Function.update_self, hval, Nat.sub_self]
      rfl
    · have hsucc : i.val - k = i.val - (k + 1) + 1 := by omega
      rw [if_neg hlt, if_neg (by omega), hsucc]
      rfl

/-- The groups of a well formed rest are stored from the round's index on. -/
theorem l2Groups_separated {size left : ℕ} (hleft : left < ethAlen) {gs : List (List Char)}
    {str : List Char} (addr : L2Addr) (hlength : gs.length = left + 1)
    (hgroups : ∀ g ∈ gs, HexGroup g) (hstr : Separated gs str) (hsize : str.length ≤ size) :
    l2Groups size size (left + 1) str addr =
      (ethAlen - 1, fun i => if i.val < ethAlen - (left + 1) then addr i
        else BitVec.ofNat 8 (valueIn 16 (gs.getD (i.val - (ethAlen - (left + 1))) []))) := by
  have hlast : ∀ i : Fin 6, i.val < ethAlen - 1 + 1 := fun i => i.isLt
  induction left generalizing gs str addr with
  | zero =>
      obtain ⟨g, rfl⟩ := List.length_eq_one_iff.1 hlength
      have hg := hgroups g List.mem_cons_self
      have hstr : str = g := hstr
      have hpos := List.length_pos_iff.2 hg.ne_nil
      have hread : strtoul 16 (g ++ []) = (valueIn 16 g, []) := hg.strtoul (by simp)
      rw [List.append_nil] at hread
      rw [hstr] at hsize ⊢
      rw [l2Groups, if_neg (by omega), hread]
      simp only [if_neg (Nat.ne_of_lt hg.value_lt : valueIn 16 g ≠ maxLen)]
      congr 1
      funext i
      rw [← stored_succ (by decide) addr g [] i, if_pos (hlast i)]
  | succ left ih =>
      cases gs with
      | nil =>
          exact absurd hlength (by simp)
      | cons g gs =>
          have hgs : gs.length = left + 1 := Nat.succ.inj hlength
          have hsplit : ∃ p r, isPunct p = true ∧ str = g ++ p :: r ∧ Separated gs r := by
            cases gs with
            | nil => exact absurd hgs (by simp)
            | cons g' gs => exact hstr
          obtain ⟨p, r, hp, rfl, hr⟩ := hsplit
          have hg := hgroups g List.mem_cons_self
          have hrest : ∀ c ∈ (p :: r).head?, digitOf c = none := by
            intro c hc
            cases hc
            exact digitOf_of_isPunct hp
          have hlen : (g ++ p :: r).length = g.length + (r.length + 1) := by simp
          have hindex : ethAlen - (left + 1) = ethAlen - (left + 1 + 1) + 1 := by
            simp only [ethAlen] at hleft ⊢
            omega
          rw [l2Groups, if_neg (by omega), hg.strtoul hrest]
          simp only [if_neg (Nat.ne_of_lt hg.value_lt : valueIn 16 g ≠ maxLen), if_pos hp]
          rw [ih (Nat.lt_of_succ_lt hleft) _ hgs
            (fun g' hg' => hgroups g' (List.mem_cons_of_mem g hg')) hr (by omega)]
          congr 1
          funext i
          rw [hindex]
          exact stored_succ (by simp only [ethAlen]; omega) addr g gs i

theorem Separated.length_le {gs : List (List Char)} {s : List Char} (h : Separated gs s)
    (hgroups : ∀ g ∈ gs, HexGroup g) : s.length ≤ 3 * gs.length - 1 := by
  induction gs generalizing s with
  | nil =>
      have h : s = [] := h
      simp [h]
  | cons g gs ih =>
      have hg := (hgroups g List.mem_cons_self).length_le
      cases gs with
      | nil =>
          have h : s = g := h
          simp only [h, List.length_cons, List.length_nil]
          omega
      | cons g' gs =>
          obtain ⟨p, r, -, rfl, hr⟩ := h
          have hlen := ih hr fun x hx => hgroups x (List.mem_cons_of_mem g hx)
          simp only [List.length_append, List.length_cons] at hlen ⊢
          omega

theorem MacGroups.length_le {gs : List (List Char)} {s : List Char} (h : MacGroups gs s) :
    s.length ≤ maxMacAddrLen := by
  have hlen := h.2.2.length_le h.2.1
  rw [h.1] at hlen
  exact hlen

/-- A well formed address is accepted with its values. -/
theorem MacGroups.strToL2Addr {gs : List (List Char)} {s : List Char} (h : MacGroups gs s)
    (addr : L2Addr) :
    strToL2Addr s addr = (true, fun i : Fin 6 => BitVec.ofNat 8 (valueIn 16 (gs.getD i []))) := by
  have hloop := l2Groups_separated (by decide : 5 < ethAlen) addr h.1 h.2.1 h.2.2 le_rfl
  have hread : l2Groups s.length (min s.length maxMacAddrLen) ethAlen s addr =
      (ethAlen - 1, fun i : Fin 6 => BitVec.ofNat 8 (valueIn 16 (gs.getD i []))) := by
    rw [min_eq_left h.length_le]
    exact hloop
  rw [Swgenlock.strToL2Addr, hread]
  rfl

/-! ## What is accepted -/

/-- Five groups as `strtoul` reads them, begun within 17 characters, and then no sixth of them. -/
def LooseAddress (s : List Char) : Prop :=
  LooseGroups s.length (min s.length maxMacAddrLen) (ethAlen - 1) s

theorem strToL2Addr_accepts_iff (s : List Char) (addr : L2Addr) :
    (strToL2Addr s addr).1 = true ↔ LooseAddress s := by
  rw [strToL2Addr, decide_eq_true_eq]
  exact l2Groups_verdict_iff (by decide) s addr

/-- An address is parsed as it should be unless it is loose without being well formed. -/
theorem mac_parsed_iff (s : List Char) (addr : L2Addr) :
    MacParsed s addr ↔ (LooseAddress s → ∃ gs, MacGroups gs s) := by
  constructor
  · intro h hloose
    exact h.accepts.1 ((strToL2Addr_accepts_iff s addr).2 hloose)
  · intro h
    constructor
    · constructor
      · intro haccepts
        exact h ((strToL2Addr_accepts_iff s addr).1 haccepts)
      · intro hgroups
        obtain ⟨gs, hgs⟩ := hgroups
        rw [hgs.strToL2Addr]
    · intro gs hgs i
      rw [hgs.strToL2Addr]

/-- An address with a character after its sixth group is accepted. -/
theorem trailing_character_accepted : ¬ MacParsed "84:47:09:04:eb:0ex".toList 0 := by
  intro h
  obtain ⟨gs, hgs⟩ := h.accepts.1 (by decide)
  exact absurd hgs.length_le (by decide)

end Genlock.Swgenlock
