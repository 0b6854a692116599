import Mathlib.Data.Prod.Lex
import Mmorpg.Lib.Decimal

/-!
# The handoff fence record

The permanent field `handoff_fence` of a player's save barrier holds one record
`E|S|N|A|K|T`: owner epoch, scene instance, admission generation, admission nonce, state
(held, frozen, revoked) and the nonce of the current qualification. This module translates
the helper functions that all scripts of handoff_sql_barrier.h share (`kFenceLuaHelpers`):
the record is parsed from its bytes and numbers stay decimal texts. `Fence.order`, the pair
of owner epoch and admission generation, is what the scripts may only raise.
-/

namespace Mmorpg.Handoff

open Decimal List

/-- The states of a qualification: `H`, `F` and `R`. -/
inductive FenceState where
  | held
  | frozen
  | revoked
deriving DecidableEq, Repr

/-- The table that the Lua function `fence` returns. Numbers are kept as texts. -/
structure Fence where
  e : Text
  i : Text
  n : Text
  a : Text
  k : FenceState
  t : Text
deriving DecidableEq, Repr

/-- `uint(s, zero)`: canonical decimal text of a 64-bit number; zero only on request. -/
def uint (s : Text) (zero : Bool) : Bool :=
  if s.length = 0 || s.length > 20 || !s.all Char.isDigit then false
  else if s = ['0'] then zero
  else if s.head? = some '0' then false
  else bytecmp s maxUint64 ≠ .gt

/-- The digit loop of `plus2`: a carry that is left becomes the leading digit. -/
def plus2Digits (s : Text) : Text :=
  let (out, carry) := addCarry 2 s
  if carry > 0 then carry.digitChar :: out else out

/-- `plus2`: the text of the number two larger, or nothing above 64 bits. -/
def plus2 (s : Text) : Option Text :=
  if uint (plus2Digits s) false then some (plus2Digits s) else none

def zeroNonce : Text := List.replicate 32 '0'

def isHexDigit (c : Char) : Bool := c.isDigit || ('a' ≤ c && c ≤ 'f')

/-- `nonce(s, zero)`: 32 lower-case hexadecimal digits, all zero only on request. -/
def nonce (s : Text) (zero : Bool) : Bool :=
  s.length = 32 && s.all isHexDigit && (zero || s ≠ zeroNonce)

/-- The class `[%c%s]`: control characters and blanks. -/
def isControlOrSpace (c : Char) : Bool := c.toNat ≤ 32 || c.toNat = 127

def FenceState.ofText : Text → Option FenceState
  | ['H'] => some .held
  | ['F'] => some .frozen
  | ['R'] => some .revoked
  | _ => none

/-- The checks of `fence` on the fields. A record of generation zero is the tombstone of a
restore: revoked, with no instance and no admission nonce. -/
def Fence.wellFormed (f : Fence) : Bool :=
  uint f.e false && uint f.n true && nonce f.a true && nonce f.t false && f.i.length ≤ 256
    && !f.i.any isControlOrSpace
    && (if f.n = ['0'] then f.k = .revoked && f.i = [] && f.a = zeroNonce
        else f.i ≠ [] && f.a ≠ zeroNonce)

/-- `fence(s)`: the six fields between bars, checked. -/
def fence (s : Text) : Option Fence :=
  match s.splitOn '|' with
  | [e, i, n, a, k, t] =>
    match FenceState.ofText k with
    | none => none
    | some k => if Fence.wellFormed ⟨e, i, n, a, k, t⟩ then some ⟨e, i, n, a, k, t⟩ else none
  | _ => none

def sameholder (a b : Fence) : Bool := a.e = b.e && a.i = b.i && a.n = b.n && a.a = b.a

/-- The pattern `^(%d+):(%d+)$` of a handoff marker: owner epoch and time of the save. -/
def markParts (s : Text) : Option (Text × Text) :=
  match s.splitOn ':' with
  | [owner, time] =>
    if owner ≠ [] && owner.all Char.isDigit && time ≠ [] && time.all Char.isDigit then
      some (owner, time)
    else none
  | _ => none

/-- `marker(s, e)`. -/
def marker (s e : Text) : Bool :=
  match markParts s with
  | some (owner, time) => owner = e && uint time false
  | none => false

/-- `version(s)`: `epoch:seq`, both of fixed width 20 and in the 64-bit range, seq not zero. -/
def version (s : Text) : Bool :=
  s.length = 41 && s[20]? = some ':' && (markParts s).isSome
    && bytecmp (s.take 20) maxUint64 ≠ .gt && bytecmp (s.drop 21) maxUint64 ≠ .gt
    && s.drop 21 ≠ List.replicate 20 '0'

/-! ## What the checks establish -/

variable {s : Text}

theorem uint_canonical {zero : Bool} (h : uint s zero = true) : Canonical s := by
  unfold uint at h
  split at h
  · simp at h
  rename_i hshape
  simp only [Bool.or_eq_true, decide_eq_true_eq, Bool.not_eq_true', not_or,
    Bool.not_eq_false] at hshape
  obtain ⟨⟨hne, -⟩, hd⟩ := hshape
  have hdig : Digits s := all_eq_true.1 hd
  have hnil : s ≠ [] := fun h => hne (by simp [h])
  split at h
  next h0 => exact ⟨_, (toDigits_value hdig hnil (.inl h0)).symm⟩
  next h0 =>
    split at h
    · simp at h
    next hlead => exact ⟨_, (toDigits_value hdig hnil (.inr hlead)).symm⟩

theorem uint_toDigits (n : Nat) (zero : Bool) :
    uint (Nat.toDigits 10 n) zero = (decide (n < 2 ^ 64) && (zero || decide (n ≠ 0))) := by
  rcases Nat.eq_zero_or_pos n with rfl | hn
  · cases zero <;> decide
  have hzero : Nat.toDigits 10 n ≠ ['0'] := fun h => hn.ne' (toDigits_injective h)
  have hall : (Nat.toDigits 10 n).all Char.isDigit = true := all_eq_true.2 (digits_toDigits n)
  have hmax : bytecmp (Nat.toDigits 10 n) maxUint64 ≠ .gt ↔ n < 2 ^ 64 := by
    rw [maxUint64, bytecmp_toDigits, Nat.compare_ne_gt]
    omega
  unfold uint
  rw [if_neg hzero, if_neg (head_toDigits hn.ne'), decide_eq_decide.2 hmax,
    decide_eq_true hn.ne', Bool.or_true, Bool.and_true]
  split
  next hshape =>
    simp only [hall, Nat.length_toDigits_pos.ne', decide_false, Bool.false_or, Bool.not_true,
      Bool.or_false, decide_eq_true_eq] at hshape
    have hbig : ¬ n < 10 ^ 20 := fun h =>
      Nat.not_le.2 hshape ((Nat.length_toDigits_le_iff (by omega) (by omega)).2 h)
    exact (decide_eq_false (by omega)).symm
  · rfl

theorem uint_iff {zero : Bool} : uint s zero = true ↔
    Canonical s ∧ value s < 2 ^ 64 ∧ (zero = true ∨ value s ≠ 0) := by
  by_cases hs : Canonical s
  · rw [← hs.toDigits_value, uint_toDigits, value_toDigits, hs.toDigits_value]
    simp [hs]
  · simp [hs, mt uint_canonical hs]

theorem plus2Digits_value (hd : Digits s) : value (plus2Digits s) = value s + 2 := by
  have hv := addCarry_value 2 hd
  simp only [plus2Digits]
  split
  next hc =>
    have hle : (addCarry 2 s).2 ≤ 9 := by
      cases s with
      | nil => simp [addCarry]
      | cons c s => exact (addCarry_snd_le hd (by omega) (by simp)).trans (by omega)
    rw [value_cons, addCarry_length, Nat.toNat_digitChar_of_lt_ten (by omega)]
    simpa using hv
  next hc =>
    have hzero : (addCarry 2 s).2 = 0 := by omega
    simpa [hzero] using hv

theorem plus2Digits_toDigits (n : Nat) :
    plus2Digits (Nat.toDigits 10 n) = Nat.toDigits 10 (n + 2) := by
  have hdigits := digits_toDigits n
  have hne := ne_nil_of_length_pos (Nat.length_toDigits_pos (b := 10) (n := n))
  have hv := plus2Digits_value hdigits
  have hsum := addCarry_value 2 hdigits
  rw [value_toDigits] at hv hsum
  have hlen := addCarry_length 2 (Nat.toDigits 10 n)
  have hout := digits_addCarry 2 (Nat.toDigits 10 n)
  -- no leading zero comes out: there are as many digits as before, or a carry in front of them
  have hspec : Digits (plus2Digits (Nat.toDigits 10 n)) ∧ plus2Digits (Nat.toDigits 10 n) ≠ [] ∧
      (plus2Digits (Nat.toDigits 10 n)).length ≤ (Nat.toDigits 10 (n + 2)).length := by
    simp only [plus2Digits]
    split
    next hcarry =>
      have hle := addCarry_snd_le hdigits (by omega : 2 ≤ 10) hne
      have hdigit : (addCarry 2 (Nat.toDigits 10 n)).2.digitChar.isDigit = true := by
        rw [Nat.isDigit_digitChar]
        exact decide_eq_true (by omega)
      refine ⟨forall_mem_cons.2 ⟨hdigit, hout⟩, cons_ne_nil _ _, ?_⟩
      rw [length_cons, hlen]
      by_contra hlt
      have hsmall : n + 2 < 10 ^ (Nat.toDigits 10 n).length :=
        (Nat.length_toDigits_le_iff (by omega) Nat.length_toDigits_pos).1 (by omega)
      have hbig := Nat.le_mul_of_pos_right (10 ^ (Nat.toDigits 10 n).length) hcarry
      omega
    · rw [hlen]
      refine ⟨hout, fun h => hne ?_, length_toDigits_mono (by omega)⟩
      rw [← length_eq_zero_iff, ← hlen, h, length_nil]
  obtain ⟨hd, hnil, hle⟩ := hspec
  rw [← padded_value hd hnil, hv, padded, Nat.sub_eq_zero_of_le hle]
  rfl

theorem plus2_toDigits (n : Nat) : plus2 (Nat.toDigits 10 n) =
    if n + 2 < 2 ^ 64 then some (Nat.toDigits 10 (n + 2)) else none := by
  simp only [plus2, plus2Digits_toDigits, uint_toDigits]
  simp

theorem plus2_value {out : Text} (hs : Canonical s) (h : plus2 s = some out) :
    Canonical out ∧ value out = value s + 2 := by
  obtain ⟨n, rfl⟩ := hs
  rw [plus2_toDigits] at h
  split at h
  · cases h
    exact ⟨⟨_, rfl⟩, by rw [value_toDigits, value_toDigits]⟩
  · cases h

theorem fence_wellFormed {f : Fence} (h : fence s = some f) : f.wellFormed = true := by
  simp only [fence] at h
  split at h
  · split at h
    · cases h
    · split at h
      next hw => rwa [← Option.some.inj h]
      · cases h
  · cases h

theorem fence_canonical {f : Fence} (h : fence s = some f) :
    Canonical f.e ∧ Canonical f.n := by
  have hw := fence_wellFormed h
  simp only [Fence.wellFormed, Bool.and_eq_true] at hw
  exact ⟨uint_canonical hw.1.1.1.1.1.1, uint_canonical hw.1.1.1.1.1.2⟩

def Fence.order (f : Fence) : Nat ×ₗ Nat := toLex (value f.e, value f.n)

end Mmorpg.Handoff
