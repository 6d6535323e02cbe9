import Genlock.Lib.Text
import Mathlib.Tactic

/-!
# The address on the command line

Which argument is an IPv4 address, and which one names an Ethernet interface.
-/

namespace Genlock.Swgenlock

open Text RegularExpression

/-! ## The pattern of `is_valid_ip4` -/

/-- The alternatives `2[0-4][0-9]` and `[01]?[0-9][0-9]?` of an octet. -/
def octetBelow250 : RegularExpression Char :=
  literal ['2'] * (oneOf (charRange '0' '4') * oneOf (charRange '0' '9')) +
    optional (oneOf ['0', '1']) * (oneOf (charRange '0' '9') *
      optional (oneOf (charRange '0' '9')))

def octetPattern : RegularExpression Char :=
  literal ['2', '5'] * oneOf (charRange '0' '5') + octetBelow250

/-- How the raw string goes on after `(25[0-5]`: the end of the line and the indentation. -/
def lineBreak : List Char :=
  ['\n', '\t', '\t', '\t', '\t', '\t']

/-- The last octet, whose first alternative runs over the end of the source line. -/
def lastOctetPattern : RegularExpression Char :=
  literal ['2', '5'] * (oneOf (charRange '0' '5') * literal lineBreak) + octetBelow250

/-- `ipv4_pattern`; its `^` and `$` hold wherever `regex_match` matches. -/
def ipv4Pattern : RegularExpression Char :=
  (octetPattern * literal ['.']) ^ 3 * lastOctetPattern

def isValidIp4 (ip : List Char) : Bool :=
  ipv4Pattern.rmatch ip

/-! ## Dotted addresses -/

structure Octet (x : List Char) : Prop where
  ne_nil : x ≠ []
  length_le : x.length ≤ 3
  digits : ∀ c ∈ x, isDigitIn 10 c = true
  value_le : valueIn 10 x ≤ 255

def dotted (a b c d : List Char) : List Char :=
  a ++ '.' :: (b ++ '.' :: (c ++ '.' :: d))

/-- Four octets separated by single dots, and nothing else. -/
def DottedQuad (s : List Char) : Prop :=
  ∃ a b c d, Octet a ∧ Octet b ∧ Octet c ∧ Octet d ∧ s = dotted a b c d

theorem digitOf_decimal {c : Char} (h : isDigitIn 10 c = true) :
    48 ≤ c.toNat ∧ c.toNat ≤ 57 ∧ (digitOf c).getD 0 = c.toNat - 48 := by
  have h := isDigitIn_ten.1 h
  refine ⟨h.1, h.2, ?_⟩
  rw [digitOf, if_pos h]
  rfl

theorem valueIn_three {p q r : Char} (hp : isDigitIn 10 p = true) (hq : isDigitIn 10 q = true)
    (hr : isDigitIn 10 r = true) :
    valueIn 10 [p, q, r] = (p.toNat - 48) * 100 + (q.toNat - 48) * 10 + (r.toNat - 48) := by
  simp only [valueIn, List.foldl_cons, List.foldl_nil, (digitOf_decimal hp).2.2,
    (digitOf_decimal hq).2.2, (digitOf_decimal hr).2.2]
  omega

theorem octet_one {p : Char} (hp : isDigitIn 10 p = true) :
    Octet [p] ∧ valueIn 10 [p] < 250 := by
  have hvalue : valueIn 10 [p] = p.toNat - 48 := by
    simp [valueIn, (digitOf_decimal hp).2.2]
  have := (digitOf_decimal hp).2.1
  exact ⟨⟨by simp, by simp, by simpa using hp, by omega⟩, by omega⟩

theorem octet_two {p q : Char} (hp : isDigitIn 10 p = true) (hq : isDigitIn 10 q = true) :
    Octet [p, q] ∧ valueIn 10 [p, q] < 250 := by
  have hvalue : valueIn 10 [p, q] = (p.toNat - 48) * 10 + (q.toNat - 48) := by
    simp [valueIn, (digitOf_decimal hp).2.2, (digitOf_decimal hq).2.2]
  have := (digitOf_decimal hp).2.1
  have := (digitOf_decimal hq).2.1
  exact ⟨⟨by simp, by simp, by simpa using ⟨hp, hq⟩, by omega⟩, by omega⟩

theorem octet_three {p q r : Char} (hp : isDigitIn 10 p = true) (hq : isDigitIn 10 q = true)
    (hr : isDigitIn 10 r = true) (h : valueIn 10 [p, q, r] ≤ 255) : Octet [p, q, r] :=
  ⟨by simp, by simp, by simpa using ⟨hp, hq, hr⟩, h⟩

theorem octet_cases {x : List Char} (h : Octet x) :
    (∃ p, x = [p] ∧ isDigitIn 10 p) ∨
      (∃ p q, x = [p, q] ∧ isDigitIn 10 p ∧ isDigitIn 10 q) ∨
      ∃ p q r, x = [p, q, r] ∧ isDigitIn 10 p ∧ isDigitIn 10 q ∧ isDigitIn 10 r := by
  cases x with
  | nil =>
      exact absurd rfl h.ne_nil
  | cons p x =>
      have hp := h.digits p (by simp)
      cases x with
      | nil =>
          exact Or.inl ⟨p, rfl, hp⟩
      | cons q x =>
          have hq := h.digits q (by simp)
          cases x with
          | nil =>
              exact Or.inr (Or.inl ⟨p, q, rfl, hp, hq⟩)
          | cons r x =>
              have hr := h.digits r (by simp)
              cases x with
              | nil => exact Or.inr (Or.inr ⟨p, q, r, rfl, hp, hq, hr⟩)
              | cons y x => exact absurd h.length_le (by simp)

/-! ## What the pattern accepts -/

theorem mem_digit {c : Char} : c ∈ charRange '0' '9' ↔ isDigitIn 10 c = true := by
  rw [mem_charRange (by decide), isDigitIn_ten]

theorem isDigitIn_of_mem {hi c : Char} (hhi : hi.toNat ≤ 57) (h : c ∈ charRange '0' hi) :
    isDigitIn 10 c = true ∧ c.toNat ≤ hi.toNat := by
  have h := (mem_charRange (by omega)).1 h
  exact ⟨isDigitIn_ten.2 ⟨h.1, h.2.trans hhi⟩, h.2⟩

theorem octet_of_mem_below {x : List Char} (h : x ∈ octetBelow250.matches') :
    Octet x ∧ valueIn 10 x < 250 := by
  rw [octetBelow250, matches'_add, Language.mem_add] at h
  have two_digit : isDigitIn 10 '2' = true := rfl
  cases h with
  | inl h =>
      obtain ⟨y, hy, z, hz, rfl⟩ := mem_comp.1 h
      rw [mem_literal.1 hy]
      obtain ⟨q, hq, w, hw, rfl⟩ := mem_oneOf_comp.1 hz
      obtain ⟨r, hr, rfl⟩ := mem_oneOf.1 hw
      have hq := isDigitIn_of_mem (by decide) hq
      have hr := mem_digit.1 hr
      have hq4 : q.toNat ≤ 52 := hq.2
      have hr9 := (digitOf_decimal hr).2.1
      have h2 : '2'.toNat = 50 := rfl
      have hvalue : valueIn 10 ['2', q, r] < 250 := by
        rw [valueIn_three two_digit hq.1 hr]
        omega
      exact ⟨octet_three two_digit hq.1 hr (by omega), hvalue⟩
  | inr h =>
      obtain ⟨y, hy, z, hz, rfl⟩ := mem_comp.1 h
      obtain ⟨q, hq, w, hw, rfl⟩ := mem_oneOf_comp.1 hz
      have hq := mem_digit.1 hq
      have hw := mem_optional.1 hw
      cases mem_optional.1 hy with
      | inl hy =>
          obtain ⟨p, hp, rfl⟩ := mem_oneOf.1 hy
          have hp : isDigitIn 10 p = true ∧ p.toNat ≤ 49 := by
            simp only [List.mem_cons, List.not_mem_nil, or_false] at hp
            cases hp with
            | inl hp => exact hp ▸ ⟨rfl, by decide⟩
            | inr hp => exact hp ▸ ⟨rfl, by decide⟩
          cases hw with
          | inl hw =>
              obtain ⟨r, hr, rfl⟩ := mem_oneOf.1 hw
              have hr := mem_digit.1 hr
              have hq9 := (digitOf_decimal hq).2.1
              have hr9 := (digitOf_decimal hr).2.1
              have hvalue : valueIn 10 [p, q, r] < 250 := by
                rw [valueIn_three hp.1 hq hr]
                omega
              exact ⟨octet_three hp.1 hq hr (by omega), hvalue⟩
          | inr hw =>
              rw [hw]
              exact octet_two hp.1 hq
      | inr hy =>
          rw [hy]
          cases hw with
          | inl hw =>
              obtain ⟨r, hr, rfl⟩ := mem_oneOf.1 hw
              exact octet_two hq (mem_digit.1 hr)
          | inr hw =>
              rw [hw]
              exact octet_one hq

theorem mem_below_of_octet {x : List Char} (h : Octet x) (hx : valueIn 10 x < 250) :
    x ∈ octetBelow250.matches' := by
  rw [octetBelow250, matches'_add, Language.mem_add]
  cases octet_cases h with
  | inl h =>
      obtain ⟨p, rfl, hp⟩ := h
      exact Or.inr (mem_comp.2 ⟨[], mem_optional.2 (Or.inr rfl), [p], mem_oneOf_comp.2
        ⟨p, mem_digit.2 hp, [], mem_optional.2 (Or.inr rfl), rfl⟩, rfl⟩)
  | inr h =>
      cases h with
      | inl h =>
          obtain ⟨p, q, rfl, hp, hq⟩ := h
          exact Or.inr (mem_comp.2 ⟨[], mem_optional.2 (Or.inr rfl), [p, q], mem_oneOf_comp.2
            ⟨p, mem_digit.2 hp, [q], mem_optional.2 (Or.inl (mem_oneOf.2 ⟨q, mem_digit.2 hq, rfl⟩)),
              rfl⟩, rfl⟩)
      | inr h =>
          obtain ⟨p, q, r, rfl, hp, hq, hr⟩ := h
          rw [valueIn_three hp hq hr] at hx
          obtain ⟨hp0, -, -⟩ := digitOf_decimal hp
          obtain ⟨hq0, -, -⟩ := digitOf_decimal hq
          by_cases htwo : p.toNat = 50
          · have hq4 : q ∈ charRange '0' '4' := (mem_charRange (by decide)).2
              ⟨hq0, show q.toNat ≤ 52 by omega⟩
            rw [Char.toNat_inj.1 (show p.toNat = '2'.toNat from htwo)]
            exact Or.inl (mem_comp.2 ⟨['2'], mem_literal.2 rfl, [q, r], mem_oneOf_comp.2
              ⟨q, hq4, [r], mem_oneOf.2 ⟨r, mem_digit.2 hr, rfl⟩, rfl⟩, rfl⟩)
          · have hp1 : p ∈ ['0', '1'] := by
              by_cases hzero : p.toNat = 48
              · rw [Char.toNat_inj.1 (show p.toNat = '0'.toNat from hzero)]
                exact List.mem_cons_self
              · rw [Char.toNat_inj.1 (show p.toNat = '1'.toNat from (by omega : p.toNat = 49))]
                exact List.mem_cons_of_mem _ List.mem_cons_self
            exact Or.inr (mem_comp.2 ⟨[p], mem_optional.2 (Or.inl (mem_oneOf.2 ⟨p, hp1, rfl⟩)),
              [q, r], mem_oneOf_comp.2 ⟨q, mem_digit.2 hq, [r],
                mem_optional.2 (Or.inl (mem_oneOf.2 ⟨r, mem_digit.2 hr, rfl⟩)), rfl⟩, rfl⟩)

/-- The octets that the first alternative stands for. -/
theorem octet_of_mem_from {c : Char} (h : c ∈ charRange '0' '5') :
    Octet ['2', '5', c] ∧ 250 ≤ valueIn 10 ['2', '5', c] := by
  have two_digit : isDigitIn 10 '2' = true := rfl
  have five_digit : isDigitIn 10 '5' = true := rfl
  have h := isDigitIn_of_mem (by decide) h
  have h5 : c.toNat ≤ 53 := h.2
  have hvalue := valueIn_three two_digit five_digit h.1
  have h2 : '2'.toNat = 50 := rfl
  have h5 : '5'.toNat = 53 := rfl
  exact ⟨octet_three two_digit five_digit h.1 (by omega), by omega⟩

theorem mem_from_of_octet {x : List Char} (h : Octet x) (hx : 250 ≤ valueIn 10 x) :
    ∃ c ∈ charRange '0' '5', x = ['2', '5', c] := by
  cases octet_cases h with
  | inl h =>
      obtain ⟨p, rfl, hp⟩ := h
      exact absurd (octet_one hp).2 (by omega)
  | inr h' =>
      cases h' with
      | inl h =>
          obtain ⟨p, q, rfl, hp, hq⟩ := h
          exact absurd (octet_two hp hq).2 (by omega)
      | inr h' =>
          obtain ⟨p, q, r, rfl, hp, hq, hr⟩ := h'
          have hle := h.value_le
          rw [valueIn_three hp hq hr] at hx hle
          obtain ⟨hp0, hp9, -⟩ := digitOf_decimal hp
          obtain ⟨hq0, hq9, -⟩ := digitOf_decimal hq
          obtain ⟨hr0, hr9, -⟩ := digitOf_decimal hr
          have hp2 : p.toNat = '2'.toNat := show p.toNat = 50 by omega
          have hq5 : q.toNat = '5'.toNat := show q.toNat = 53 by omega
          refine ⟨r, (mem_charRange (by decide)).2 ⟨hr0, show r.toNat ≤ 53 by omega⟩, ?_⟩
          rw [Char.toNat_inj.1 hp2, Char.toNat_inj.1 hq5]

theorem mem_octetPattern {x : List Char} : x ∈ octetPattern.matches' ↔ Octet x := by
  rw [octetPattern, matches'_add, Language.mem_add]
  constructor
  · intro h
    cases h with
    | inl h =>
        obtain ⟨y, hy, z, hz, rfl⟩ := mem_comp.1 h
        obtain ⟨c, hc, rfl⟩ := mem_oneOf.1 hz
        rw [mem_literal.1 hy]
        exact (octet_of_mem_from hc).1
    | inr h =>
        exact (octet_of_mem_below h).1
  · intro h
    by_cases hx : valueIn 10 x < 250
    · exact Or.inr (mem_below_of_octet h hx)
    · obtain ⟨c, hc, rfl⟩ := mem_from_of_octet h (not_lt.1 hx)
      exact Or.inl (mem_comp.2 ⟨['2', '5'], mem_literal.2 rfl, [c], mem_oneOf.2 ⟨c, hc, rfl⟩, rfl⟩)

/-- The last octet is below 250, or it is not and the rest of the source line follows it. -/
theorem mem_lastOctetPattern {x : List Char} :
    x ∈ lastOctetPattern.matches' ↔ (Octet x ∧ valueIn 10 x < 250) ∨
      ∃ d, Octet d ∧ 250 ≤ valueIn 10 d ∧ x = d ++ lineBreak := by
  rw [lastOctetPattern, matches'_add, Language.mem_add]
  constructor
  · intro h
    cases h with
    | inl h =>
        obtain ⟨y, hy, z, hz, rfl⟩ := mem_comp.1 h
        obtain ⟨c, hc, w, hw, rfl⟩ := mem_oneOf_comp.1 hz
        have hoctet := octet_of_mem_from hc
        rw [mem_literal.1 hy, mem_literal.1 hw]
        exact Or.inr ⟨['2', '5', c], hoctet.1, hoctet.2, rfl⟩
    | inr h =>
        exact Or.inl (octet_of_mem_below h)
  · intro h
    cases h with
    | inl h =>
        exact Or.inr (mem_below_of_octet h.1 h.2)
    | inr h =>
        obtain ⟨d, hd, hvalue, rfl⟩ := h
        obtain ⟨c, hc, rfl⟩ := mem_from_of_octet hd hvalue
        exact Or.inl (mem_comp.2 ⟨['2', '5'], mem_literal.2 rfl, c :: lineBreak,
          mem_oneOf_comp.2 ⟨c, hc, lineBreak, mem_literal.2 rfl, rfl⟩, rfl⟩)

theorem mem_dottedPattern {P Q : RegularExpression Char} {s : List Char} :
    s ∈ (P * literal ['.'] * Q).matches' ↔ ∃ x ∈ P.matches', ∃ y ∈ Q.matches', s = x ++ '.' :: y := by
  constructor
  · intro h
    obtain ⟨xy, hxy, z, hz, rfl⟩ := mem_comp.1 h
    obtain ⟨x, hx, y, hy, rfl⟩ := mem_comp.1 hxy
    rw [mem_literal.1 hy]
    exact ⟨x, hx, z, hz, by simp⟩
  · intro h
    obtain ⟨x, hx, y, hy, rfl⟩ := h
    exact mem_comp.2 ⟨x ++ ['.'], mem_comp.2 ⟨x, hx, ['.'], mem_literal.2 rfl, rfl⟩, y, hy, by simp⟩

theorem isValidIp4_eq_true {s : List Char} :
    isValidIp4 s = true ↔ ∃ a b c d, Octet a ∧ Octet b ∧ Octet c ∧
      d ∈ lastOctetPattern.matches' ∧ s = dotted a b c d := by
  have hassoc : ipv4Pattern.matches' = (octetPattern * literal ['.'] * (octetPattern *
      literal ['.'] * (octetPattern * literal ['.'] * lastOctetPattern))).matches' := by
    simp only [ipv4Pattern, matches'_mul, matches'_pow, pow_succ, pow_zero, one_mul, mul_assoc]
  rw [isValidIp4, rmatch_iff_matches', hassoc, mem_dottedPattern]
  constructor
  · intro h
    obtain ⟨a, ha, bcd, hbcd, rfl⟩ := h
    obtain ⟨b, hb, cd, hcd, rfl⟩ := mem_dottedPattern.1 hbcd
    obtain ⟨c, hc, d, hd, rfl⟩ := mem_dottedPattern.1 hcd
    exact ⟨a, b, c, d, mem_octetPattern.1 ha, mem_octetPattern.1 hb, mem_octetPattern.1 hc, hd, rfl⟩
  · intro h
    obtain ⟨a, b, c, d, ha, hb, hc, hd, rfl⟩ := h
    exact ⟨a, mem_octetPattern.2 ha, _, mem_dottedPattern.2 ⟨b, mem_octetPattern.2 hb, _,
      mem_dottedPattern.2 ⟨c, mem_octetPattern.2 hc, d, hd, rfl⟩, rfl⟩, rfl⟩

/-! ## The server of `do_primary` -/

inductive ConType where
  | tcp
  | udp
  | ptp
deriving DecidableEq, Repr

inductive Domain where
  | inet
  | packet
  | unix
deriving DecidableEq, Repr

inductive SockType where
  | stream
  | dgram
deriving DecidableEq, Repr

def socketArgs (type : ConType) : Domain × SockType :=
  (if type = .ptp then .packet else .inet, if type = .tcp then .stream else .dgram)

/-- The two classes of server, with what their constructors keep of the argument. -/
inductive Server where
  | connection (ipAddress : List Char)
  | ptpConnection (iface : List Char)
deriving DecidableEq, Repr

def Server.conType : Server → ConType
  | .connection _ => .tcp
  | .ptpConnection _ => .ptp

def primaryServer (ptpIf : List Char) : Server :=
  let isPtp := !isValidIp4 ptpIf
  if isPtp then .ptpConnection ptpIf else .connection ptpIf

def primarySocket (ptpIf : List Char) : Domain × SockType :=
  socketArgs (primaryServer ptpIf).conType

structure AddressRecognised (s : List Char) : Prop where
  valid : isValidIp4 s = true ↔ DottedQuad s
  tcp : DottedQuad s → primarySocket s = (.inet, .stream)
  ethernet : ¬ DottedQuad s → primarySocket s = (.packet, .dgram)

/-- The last octet is 250 or more, alone or with the line break after it. -/
def LastOctetFrom250 (s : List Char) : Prop :=
  ∃ a b c d, Octet a ∧ Octet b ∧ Octet c ∧ Octet d ∧ 250 ≤ valueIn 10 d ∧
    (s = dotted a b c d ∨ s = dotted a b c d ++ lineBreak)

theorem Octet.notMem {x : List Char} (h : Octet x) {c : Char} (hc : digitOf c = none) : c ∉ x := by
  intro hmem
  obtain ⟨d, hd, -⟩ := digitOf_of_isDigitIn (h.digits c hmem)
  rw [hc] at hd
  cases hd

/-- The octets of an address are determined by it. -/
theorem dotted_last {a b c d a' b' c' d' : List Char} (ha : Octet a) (hb : Octet b) (hc : Octet c)
    (ha' : Octet a') (hb' : Octet b') (hc' : Octet c') (h : dotted a b c d = dotted a' b' c' d') :
    d = d' := by
  have hdot : digitOf '.' = none := rfl
  have h := append_cons_inj (ha.notMem hdot) (ha'.notMem hdot) h
  have h := append_cons_inj (hb.notMem hdot) (hb'.notMem hdot) h.2
  exact (append_cons_inj (hc.notMem hdot) (hc'.notMem hdot) h.2).2

theorem DottedQuad.notMem_newline {s : List Char} (h : DottedQuad s) : '\n' ∉ s := by
  obtain ⟨a, b, c, d, ha, hb, hc, hd, rfl⟩ := h
  have hline : digitOf '\n' = none := rfl
  simp [dotted, ha.notMem hline, hb.notMem hline, hc.notMem hline, hd.notMem hline]

theorem isValidIp4_iff {s : List Char} (h : ¬ LastOctetFrom250 s) :
    isValidIp4 s = true ↔ DottedQuad s := by
  rw [isValidIp4_eq_true]
  constructor
  · intro h'
    obtain ⟨a, b, c, d, ha, hb, hc, hd, rfl⟩ := h'
    cases mem_lastOctetPattern.1 hd with
    | inl hd =>
        exact ⟨a, b, c, d, ha, hb, hc, hd.1, rfl⟩
    | inr hd =>
        obtain ⟨e, he, hvalue, rfl⟩ := hd
        exact absurd ⟨a, b, c, e, ha, hb, hc, he, hvalue, Or.inr (by simp [dotted])⟩ h
  · intro h'
    obtain ⟨a, b, c, d, ha, hb, hc, hd, rfl⟩ := h'
    refine ⟨a, b, c, d, ha, hb, hc, mem_lastOctetPattern.2 (Or.inl ⟨hd, ?_⟩), rfl⟩
    rw [← not_le]
    intro hvalue
    exact h ⟨a, b, c, d, ha, hb, hc, hd, hvalue, Or.inl rfl⟩

theorem not_isValidIp4_iff {s : List Char} (h : LastOctetFrom250 s) :
    ¬ (isValidIp4 s = true ↔ DottedQuad s) := by
  obtain ⟨a, b, c, d, ha, hb, hc, hd, hvalue, hs⟩ := h
  intro hiff
  cases hs with
  | inl hs =>
      -- the address is one, and the pattern leaves it out
      obtain ⟨a', b', c', d', ha', hb', hc', hd', h⟩ :=
        isValidIp4_eq_true.1 (hiff.2 ⟨a, b, c, d, ha, hb, hc, hd, hs⟩)
      have heq := dotted_last ha hb hc ha' hb' hc' (hs.symm.trans h)
      subst heq
      cases mem_lastOctetPattern.1 hd' with
      | inl hd' =>
          exact absurd hd'.2 (by omega)
      | inr hd' =>
          obtain ⟨e, he, -, rfl⟩ := hd'
          exact hd.notMem (c := '\n') rfl (by simp [lineBreak])
  | inr hs =>
      -- the string is none, and the pattern takes it
      have hvalid : isValidIp4 s = true := isValidIp4_eq_true.2
        ⟨a, b, c, d ++ lineBreak, ha, hb, hc, mem_lastOctetPattern.2 (Or.inr ⟨d, hd, hvalue, rfl⟩),
          by simp [hs, dotted]⟩
      apply (hiff.1 hvalid).notMem_newline
      simp [hs, lineBreak]

/-- The address is recognised unless its last octet is one of the last six. -/
theorem address_recognised_iff (s : List Char) : AddressRecognised s ↔ ¬ LastOctetFrom250 s := by
  constructor
  · intro h hlast
    exact not_isValidIp4_iff hlast h.valid
  · intro h
    have hiff := isValidIp4_iff h
    refine ⟨hiff, fun hs => ?_, fun hs => ?_⟩
    · simp [primarySocket, primaryServer, hiff.2 hs, Server.conType, socketArgs]
    · have hinvalid : isValidIp4 s = false := Bool.eq_false_iff.2 fun hvalid => hs (hiff.1 hvalid)
      simp [primarySocket, primaryServer, hinvalid, Server.conType, socketArgs]

/-- The broadcast address of a home network opens an Ethernet socket. -/
theorem last_octet_refused : ¬ AddressRecognised "192.168.1.255".toList := by
  intro h
  have hquad : DottedQuad "192.168.1.255".toList := by
    refine ⟨"192".toList, "168".toList, "1".toList, "255".toList, ?_, ?_, ?_, ?_, by decide⟩
    all_goals exact ⟨by decide, by decide, List.all_eq_true.mp (by decide), by decide⟩
  exact absurd (h.tcp hquad) (by decide)

end Genlock.Swgenlock
