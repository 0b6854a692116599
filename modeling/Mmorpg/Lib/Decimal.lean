import Mathlib.Data.Char
import Mathlib.Data.List.Lex
import Mathlib.Order.Compare
import Mathlib.Tactic.Ring

/-!
# Canonical decimal text

Numbers that are stored as text and compared as text. A text is a `List Char`, one character
for one byte. `Nat.toDigits 10` writes a number without leading zeros and `value` reads any
text of digits. The comparison `bytecmp` (length first, then the first byte that differs) is
the order of the numbers on canonical texts (`bytecmp_toDigits`), texts of a fixed width are
`padded`, and adding a small number with a carry loop on the text is addition
(`addCarry_value`).
-/

namespace Decimal

open List

abbrev Text := List Char

/-- The number that a text of digits denotes. -/
def value (s : Text) : Nat := Nat.ofDigitChars 10 s 0

def Digits (s : Text) : Prop := ∀ c ∈ s, c.isDigit = true

instance (s : Text) : Decidable (Digits s) := inferInstanceAs (Decidable (∀ c ∈ s, _))

/-- The digits of a number without leading zeros. -/
def Canonical (s : Text) : Prop := ∃ n, s = Nat.toDigits 10 n

/-! ## Reading and writing -/

@[simp] theorem value_nil : value [] = 0 := rfl

theorem value_cons (c : Char) (s : Text) :
    value (c :: s) = 10 ^ s.length * (c.toNat - 48) + value s := by
  rw [value, Nat.ofDigitChars_cons, Nat.ofDigitChars_eq_ofDigitChars_zero]
  simp [value]

theorem value_append (s t : Text) : value (s ++ t) = 10 ^ t.length * value s + value t := by
  rw [value, Nat.ofDigitChars_append, Nat.ofDigitChars_eq_ofDigitChars_zero]
  rfl

@[simp] theorem value_toDigits (n : Nat) : value (Nat.toDigits 10 n) = n :=
  Nat.ofDigitChars_toDigits (by omega) (by omega)

theorem toDigits_injective : Function.Injective (Nat.toDigits 10) :=
  Function.LeftInverse.injective (g := value) value_toDigits

theorem digits_toDigits (n : Nat) : Digits (Nat.toDigits 10 n) :=
  fun _ hc => Nat.isDigit_of_mem_toDigits (by omega) (by omega) hc

theorem digit_le (c : Char) (h : c.isDigit = true) : 48 ≤ c.toNat ∧ c.toNat - 48 ≤ 9 := by
  have := Char.isDigit_iff_toNat.1 h
  simp only [Char.reduceToNat] at this
  omega

variable {s t : Text}

theorem value_lt (h : Digits s) : value s < 10 ^ s.length := by
  induction s with
  | nil => simp
  | cons c s ih =>
    have hs := ih fun x hx => h x (mem_cons_of_mem _ hx)
    obtain ⟨-, hc⟩ := digit_le c (h c mem_cons_self)
    have hmul : 10 ^ s.length * (c.toNat - 48) ≤ 10 ^ s.length * 9 := Nat.mul_le_mul_left _ hc
    rw [value_cons, length_cons, pow_succ]
    omega

theorem lt_ten_pow_length (n : Nat) : n < 10 ^ (Nat.toDigits 10 n).length := by
  simpa using value_lt (digits_toDigits n)

/-- The first differing byte decides. -/
def bytecmpSame : Text → Text → Ordering
  | x :: s, y :: t => if x = y then bytecmpSame s t else if x > y then .gt else .lt
  | _, _ => .eq

/-- The greater leading digit outweighs everything behind it. -/
theorem lead_lt {c d n a : Nat} (hc : 48 ≤ c) (ha : a < n) (h : c < d) (b : Nat) :
    n * (c - 48) + a < n * (d - 48) + b := by
  have hmul : n * (c - 48 + 1) ≤ n * (d - 48) := Nat.mul_le_mul_left _ (by omega)
  rw [Nat.mul_add, Nat.mul_one] at hmul
  omega

theorem bytecmpSame_eq_compare (hs : Digits s) (ht : Digits t)
    (hl : s.length = t.length) : bytecmpSame s t = compare (value s) (value t) := by
  induction s generalizing t with
  | nil =>
    obtain rfl : t = [] := length_eq_zero_iff.1 hl.symm
    rfl
  | cons c s ih =>
    cases t with
    | nil => simp at hl
    | cons d t =>
      have hl' : s.length = t.length := by simpa using hl
      have hs' : Digits s := fun x hx => hs x (mem_cons_of_mem _ hx)
      have ht' : Digits t := fun x hx => ht x (mem_cons_of_mem _ hx)
      obtain ⟨hc, -⟩ := digit_le c (hs c mem_cons_self)
      obtain ⟨hd, -⟩ := digit_le d (ht d mem_cons_self)
      have h1 := value_lt hs'
      have h2 := value_lt ht'
      rw [hl'] at h1
      rw [bytecmpSame, value_cons, value_cons, hl']
      by_cases hcd : c = d
      · subst hcd
        rw [if_pos rfl, ih hs' ht' hl']
        simp only [compare, compareOfLessAndEq]
        simp
      · have hne : c.toNat ≠ d.toNat := fun h => hcd (Char.toNat_inj.1 h)
        rw [if_neg hcd]
        rcases Nat.lt_or_gt_of_ne hne with hlt | hgt
        · have hn : ¬ c > d := hlt.not_gt
          rw [if_neg hn, eq_comm]
          exact compare_lt_iff_lt.2 (lead_lt hc h1 hlt _)
        · have hp : c > d := hgt
          rw [if_pos hp, eq_comm]
          exact compare_gt_iff_gt.2 (lead_lt hd h2 hgt _)

/-- Among texts of one length the comparison is the lexicographic order. -/
theorem bytecmpSame_eq_gt_iff {a b : Text} (hl : a.length = b.length) :
    bytecmpSame a b = .gt ↔ b < a := by
  induction a generalizing b with
  | nil =>
    obtain rfl : b = [] := length_eq_zero_iff.1 hl.symm
    simp [bytecmpSame]
  | cons x a ih =>
    cases b with
    | nil => simp at hl
    | cons y b =>
      rw [bytecmpSame, cons_lt_cons_iff]
      by_cases hxy : x = y
      · subst hxy
        simpa using ih (by simpa using hl)
      · rw [if_neg hxy]
        by_cases hgt : x > y
        · simp [hgt]
        · simp [hgt, Ne.symm hxy]

/-- Texts of digits of one length are determined by their values. -/
theorem eq_of_value_eq (hs : Digits s) (ht : Digits t)
    (hl : s.length = t.length) (hv : value s = value t) : s = t := by
  by_contra hne
  rcases lt_or_gt_of_ne hne with hlt | hlt
  · have hgt := (bytecmpSame_eq_gt_iff hl.symm).2 hlt
    rw [bytecmpSame_eq_compare ht hs hl.symm] at hgt
    exact (compare_gt_iff_gt.1 hgt).ne hv
  · have hgt := (bytecmpSame_eq_gt_iff hl).2 hlt
    rw [bytecmpSame_eq_compare hs ht hl] at hgt
    exact (compare_gt_iff_gt.1 hgt).ne' hv

/-- The number of digits is the one that its size asks for. -/
theorem length_toDigits_eq {n k : Nat} (hk : 0 < k) (hlo : 10 ^ (k - 1) ≤ n) (hhi : n < 10 ^ k) :
    (Nat.toDigits 10 n).length = k := by
  have hle : (Nat.toDigits 10 n).length ≤ k := (Nat.length_toDigits_le_iff (by omega) hk).2 hhi
  by_contra hne
  have hlt : 10 ^ (Nat.toDigits 10 n).length ≤ 10 ^ (k - 1) :=
    Nat.pow_le_pow_right (by omega) (by omega)
  have := lt_ten_pow_length n
  omega

/-- A nonempty text of digits that is `0` or does not start with `0` is canonical. -/
def maxUint64 : Text := Nat.toDigits 10 (2 ^ 64 - 1)

theorem value_maxUint64 : value maxUint64 = 2 ^ 64 - 1 := value_toDigits _

theorem digits_maxUint64 : Digits maxUint64 := digits_toDigits _

theorem length_maxUint64 : maxUint64.length = 20 :=
  length_toDigits_eq (by omega) (by omega) (by omega)

theorem toDigits_value (hd : Digits s) (hne : s ≠ [])
    (hlead : s = ['0'] ∨ s.head? ≠ some '0') : Nat.toDigits 10 (value s) = s := by
  rcases hlead with rfl | hlead
  · decide
  cases s with
  | nil => exact absurd rfl hne
  | cons c s =>
    obtain ⟨hc, -⟩ := digit_le c (hd c mem_cons_self)
    have hc0 : c.toNat ≠ 48 := fun h => hlead (by
      have : c = '0' := Char.toNat_inj.1 h
      rw [this, List.head?_cons])
    have hlo : 10 ^ s.length ≤ value (c :: s) := by
      rw [value_cons]
      have : 10 ^ s.length * 1 ≤ 10 ^ s.length * (c.toNat - 48) :=
        Nat.mul_le_mul_left _ (by omega)
      omega
    have hlen : (Nat.toDigits 10 (value (c :: s))).length = (c :: s).length :=
      length_toDigits_eq (by simp) (by simpa using hlo) (value_lt hd)
    exact eq_of_value_eq (digits_toDigits _) hd hlen (value_toDigits _)

theorem Canonical.toDigits_value (h : Canonical s) : Nat.toDigits 10 (value s) = s := by
  obtain ⟨n, rfl⟩ := h
  rw [value_toDigits]

theorem head_toDigits {n : Nat} (hn : n ≠ 0) : (Nat.toDigits 10 n).head? ≠ some '0' := by
  intro hhead
  obtain ⟨t, ht⟩ := List.head?_eq_some_iff.1 hhead
  have hdigits : Digits t := fun c hc =>
    digits_toDigits n c (ht ▸ mem_cons_of_mem _ hc)
  have hvalue : value t = n := by
    rw [← value_toDigits n, ht, value_cons]
    simp
  -- without the zero there would be fewer digits
  cases t with
  | nil => exact hn hvalue.symm
  | cons c t =>
    have hlt := value_lt hdigits
    rw [hvalue] at hlt
    have hlen := (Nat.length_toDigits_le_iff (by omega) (by simp)).2 hlt
    rw [ht] at hlen
    simp at hlen

/-- The canonical texts are those of digits without a leading zero. -/
theorem canonical_iff :
    Canonical s ↔ s ≠ [] ∧ Digits s ∧ (s.length = 1 ∨ s.head? ≠ some '0') := by
  constructor
  · rintro ⟨n, rfl⟩
    refine ⟨ne_nil_of_length_pos Nat.length_toDigits_pos, digits_toDigits n, ?_⟩
    rcases Nat.eq_zero_or_pos n with rfl | hn
    · exact .inl rfl
    · exact .inr (head_toDigits hn.ne')
  · rintro ⟨hne, hd, hlead⟩
    refine ⟨_, (toDigits_value hd hne ?_).symm⟩
    refine Decidable.or_iff_not_imp_right.2 fun hhead => ?_
    obtain ⟨t, rfl⟩ := List.head?_eq_some_iff.1 (not_not.1 hhead)
    simpa using hlead

/-! ## Comparing -/

/-- The longer text is greater; texts of one length compare byte by byte. -/
def bytecmp (a b : Text) : Ordering :=
  if a.length ≠ b.length then (if a.length > b.length then .gt else .lt) else bytecmpSame a b

theorem length_toDigits_mono {a b : Nat} (h : a ≤ b) :
    (Nat.toDigits 10 a).length ≤ (Nat.toDigits 10 b).length :=
  (Nat.length_toDigits_le_iff (by omega) Nat.length_toDigits_pos).2
    (h.trans_lt (lt_ten_pow_length b))

/-- On canonical texts `bytecmp` is the order of the numbers. -/
theorem bytecmp_toDigits (a b : Nat) :
    bytecmp (Nat.toDigits 10 a) (Nat.toDigits 10 b) = compare a b := by
  rw [bytecmp]
  split
  case isFalse heq =>
    have hlen : (Nat.toDigits 10 a).length = (Nat.toDigits 10 b).length := by simpa using heq
    rw [bytecmpSame_eq_compare (digits_toDigits a) (digits_toDigits b) hlen]
    simp
  case isTrue hne =>
    split
    case isTrue hgt =>
      refine (compare_gt_iff_gt.2 ?_).symm
      by_contra hle
      have := length_toDigits_mono (not_lt.1 hle)
      omega
    case isFalse hgt =>
      refine (compare_lt_iff_lt.2 ?_).symm
      by_contra hle
      have := length_toDigits_mono (not_lt.1 hle)
      omega

theorem Canonical.bytecmp_eq (hs : Canonical s) (ht : Canonical t) :
    bytecmp s t = compare (value s) (value t) := by
  obtain ⟨a, rfl⟩ := hs
  obtain ⟨b, rfl⟩ := ht
  rw [bytecmp_toDigits, value_toDigits, value_toDigits]

/-- Texts of one length are compared from the front. -/
theorem bytecmpSame_append {a b : Text} (hl : a.length = b.length) (s t : Text) :
    bytecmpSame (a ++ s) (b ++ t) = (bytecmpSame a b).then (bytecmpSame s t) := by
  induction a generalizing b with
  | nil =>
    obtain rfl : b = [] := length_eq_zero_iff.1 hl.symm
    rfl
  | cons x a ih =>
    cases b with
    | nil => simp at hl
    | cons y b =>
      simp only [cons_append, bytecmpSame]
      split
      · exact ih (by simpa using hl)
      · split <;> rfl

/-! ## Fixed width -/

/-- The digits of a number, filled up with zeros in front. -/
def padded (width n : Nat) : Text :=
  List.replicate (width - (Nat.toDigits 10 n).length) '0' ++ Nat.toDigits 10 n

theorem value_replicate_zero (k : Nat) : value (List.replicate k '0') = 0 := by
  induction k with
  | zero => rfl
  | succ k ih => simp [replicate_succ, value_cons, ih]

@[simp] theorem value_padded (width n : Nat) : value (padded width n) = n := by
  rw [padded, value_append, value_replicate_zero, value_toDigits]
  omega

theorem digits_padded (width n : Nat) : Digits (padded width n) := by
  intro c hc
  rcases mem_append.1 hc with hc | hc
  · rw [(mem_replicate.1 hc).2]
    rfl
  · exact digits_toDigits n c hc

theorem length_padded {width n : Nat} (hpos : 0 < width) (h : n < 10 ^ width) :
    (padded width n).length = width := by
  have : (Nat.toDigits 10 n).length ≤ width := (Nat.length_toDigits_le_iff (by omega) hpos).2 h
  rw [padded, length_append, length_replicate]
  omega

theorem padded_value (hd : Digits s) (hne : s ≠ []) :
    padded s.length (value s) = s := by
  have hpos : 0 < s.length := length_pos_iff.2 hne
  exact eq_of_value_eq (digits_padded _ _) hd (length_padded hpos (value_lt hd)) (value_padded _ _)

/-! ## Adding a digit with carry -/

/-- The loop that adds `carry` to the last digit and carries on to the front: the digits that
come out and the carry that is left. -/
def addCarry (carry : Nat) : Text → Text × Nat
  | [] => ([], carry)
  | c :: s =>
    let (out, carry) := addCarry carry s
    let v := c.toNat - 48 + carry
    ((v % 10).digitChar :: out, v / 10)

variable (carry : Nat)

theorem addCarry_length (s : Text) : (addCarry carry s).1.length = s.length := by
  induction s with
  | nil => rfl
  | cons c s ih => simp [addCarry, ih]

theorem digits_addCarry (s : Text) : Digits (addCarry carry s).1 := by
  induction s with
  | nil => simp [addCarry, Digits]
  | cons c s ih =>
    refine forall_mem_cons.2 ⟨?_, ih⟩
    rw [Nat.isDigit_digitChar]
    exact decide_eq_true (Nat.mod_lt _ (by omega))

theorem addCarry_value (hs : Digits s) :
    10 ^ s.length * (addCarry carry s).2 + value (addCarry carry s).1 = value s + carry := by
  induction s with
  | nil => simp [addCarry]
  | cons c s ih =>
    have ih := ih fun x hx => hs x (mem_cons_of_mem _ hx)
    have hlen := addCarry_length carry s
    simp only [addCarry, value_cons, hlen, length_cons]
    generalize hv : c.toNat - 48 + (addCarry carry s).2 = v
    have hdig : (v % 10).digitChar.toNat - 48 = v % 10 := by
      rw [Nat.toNat_digitChar_of_lt_ten (Nat.mod_lt v (by omega))]
      omega
    rw [hdig, pow_succ]
    have hsplit : 10 * (v / 10) + v % 10 = v := Nat.div_add_mod v 10
    calc 10 ^ s.length * 10 * (v / 10) + (10 ^ s.length * (v % 10) + value (addCarry carry s).1)
        = 10 ^ s.length * (10 * (v / 10) + v % 10) + value (addCarry carry s).1 := by ring
      _ = 10 ^ s.length * (c.toNat - 48) +
            (10 ^ s.length * (addCarry carry s).2 + value (addCarry carry s).1) := by
          rw [hsplit, ← hv]; ring
      _ = 10 ^ s.length * (c.toNat - 48) + value s + carry := by rw [ih]; ring

/-- Only a one is carried out of the front when at most ten is added. -/
theorem addCarry_snd_le {carry : Nat} (hs : Digits s) (hc : carry ≤ 10) (hne : s ≠ []) :
    (addCarry carry s).2 ≤ 1 := by
  induction s with
  | nil => exact absurd rfl hne
  | cons c s ih =>
    obtain ⟨-, hdig⟩ := digit_le c (hs c mem_cons_self)
    have hin : (addCarry carry s).2 ≤ 10 := by
      cases s with
      | nil => exact hc
      | cons d s =>
        have := ih (fun x hx => hs x (mem_cons_of_mem _ hx)) (by simp)
        omega
    simp only [addCarry]
    omega

end Decimal
