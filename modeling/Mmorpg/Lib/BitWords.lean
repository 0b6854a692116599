import Mathlib.Algebra.Order.Ring.Nat
import Mathlib.Data.List.GetD
import Mathlib.Tactic.Common

/-!
# Bit sets in machine words

A bit set kept as a list of 64-bit words, bit `i` in word `i / 64` at place `i % 64`, with the
operations such code has: read and write of a word (out of range reads zero and writes nothing),
test and set of a bit, and the shift of the whole set to the right by any number of bits. Each
operation is characterised by what it does to every bit (`testBit_setBit`,
`testBit_shiftRight`), so that users never look into the words. `number` reads the words as one
number, which the shift divides by a power of two.
-/

namespace BitWords

open BitVec

abbrev Words := List (BitVec 64)

abbrev WordArray (size : Nat) := Vector (BitVec 64) size

def readWord (ws : Words) (word : Nat) : BitVec 64 := ws.getD word 0

def writeWord (ws : Words) (word : Nat) (v : BitVec 64) : Words := ws.set word v

def testBit (ws : Words) (i : Nat) : Bool := (readWord ws (i / 64) >>> (i % 64)) &&& 1#64 != 0#64

def setBit (ws : Words) (i : Nat) : Words :=
  writeWord ws (i / 64) (readWord ws (i / 64) ||| (1#64 <<< (i % 64)))

/-- The word at place `word` of the shifted set, from the one or two words that end up in it. -/
def shiftedWord (n : Nat) (ws : Words) (shift word : Nat) : BitVec 64 :=
  let src := word + shift / 64
  let value := if src < n then readWord ws src else 0
  let value := value >>> (shift % 64)
  if shift % 64 ≠ 0 ∧ src + 1 < n then value ||| readWord ws (src + 1) <<< (64 - shift % 64)
  else value

/-- Shift the first `n` words to the right; low bits are dropped and zeros come in. -/
def shiftRight (n : Nat) (ws : Words) (shift : Nat) : Words :=
  (List.range n).map (shiftedWord n ws shift)

def zero (n : Nat) : Words := List.replicate n 0

/-- The words as one number, the first word lowest. -/
def number : Words → Nat
  | [] => 0
  | w :: ws => 2 ^ 64 * number ws + w.toNat

variable {ws : Words} {n : Nat}

theorem readWord_of_le {word : Nat} (h : ws.length ≤ word) : readWord ws word = 0 :=
  List.getD_eq_default _ _ h

theorem testBit_eq (ws : Words) (i : Nat) :
    testBit ws i = (readWord ws (i / 64)).getLsbD (i % 64) := by
  have hone : ∀ v : BitVec 64, (v &&& 1#64 != 0#64) = v.getLsbD 0 := by
    intro v
    rw [and_one_eq_setWidth_ofBool_getLsbD]
    cases v.getLsbD 0 <;> rfl
  rw [testBit, hone, getLsbD_ushiftRight, Nat.add_zero]

theorem testBit_of_le {i : Nat} (h : 64 * ws.length ≤ i) : testBit ws i = false := by
  rw [testBit_eq, readWord_of_le (by omega)]
  simp

@[simp] theorem testBit_zero (n i : Nat) : testBit (zero n) i = false := by
  have hread : readWord (zero n) (i / 64) = 0 := by
    simp only [readWord, zero, List.getD_eq_getElem?_getD, List.getElem?_replicate]
    split <;> rfl
  rw [testBit_eq, hread]
  simp

@[simp] theorem length_zero (n : Nat) : (zero n).length = n := List.length_replicate

@[simp] theorem length_setBit (ws : Words) (i : Nat) : (setBit ws i).length = ws.length := by
  simp [setBit, writeWord]

@[simp] theorem length_shiftRight (n : Nat) (ws : Words) (shift : Nat) :
    (shiftRight n ws shift).length = n := by
  simp [shiftRight]

theorem readWord_writeWord (ws : Words) (w w' : Nat) (v : BitVec 64) (h : w < ws.length) :
    readWord (writeWord ws w v) w' = if w = w' then v else readWord ws w' := by
  simp only [readWord, writeWord, List.getD_eq_getElem?_getD, List.getElem?_set]
  split <;> simp_all

/-- Setting a bit sets that bit and no other. -/
theorem testBit_setBit {i : Nat} (h : i < 64 * ws.length) (j : Nat) :
    testBit (setBit ws i) j = (decide (i = j) || testBit ws j) := by
  rw [testBit_eq, testBit_eq, setBit, readWord_writeWord _ _ _ _ (by omega)]
  split
  next hw =>
    have hbit : (1#64 <<< (i % 64)).getLsbD (j % 64) = decide (i = j) := by
      rw [getLsbD_shiftLeft, getLsbD_one, Bool.eq_iff_iff]
      simp only [Bool.and_eq_true, Bool.not_eq_true', decide_eq_true_eq,
        decide_eq_false_iff_not]
      omega
    rw [getLsbD_or, hw, hbit, Bool.or_comm]
  next hw =>
    have hne : i ≠ j := fun e => hw (e ▸ rfl)
    simp [hne]

theorem readWord_shiftRight (ws : Words) (shift : Nat) {word : Nat} (h : word < n) :
    readWord (shiftRight n ws shift) word = shiftedWord n ws shift word := by
  simp [readWord, shiftRight, h]

/-- A word read from the first `n` words or zero behind them. -/
theorem readWord_if (hlen : ws.length = n) (word : Nat) :
    (if word < n then readWord ws word else 0) = readWord ws word := by
  split
  · rfl
  next h => rw [readWord_of_le (by omega)]

/-- Bit `j` after the shift is bit `j + shift` before it. -/
theorem testBit_shiftRight (hlen : ws.length = n) (shift : Nat) {j : Nat}
    (h : j < 64 * n) : testBit (shiftRight n ws shift) j = testBit ws (j + shift) := by
  rw [testBit_eq, testBit_eq, readWord_shiftRight ws shift (by omega)]
  simp only [shiftedWord, readWord_if hlen]
  -- the bit comes from the source word itself or, past its end, from the next one
  by_cases hcarry : j % 64 + shift % 64 < 64
  · have hword : (j + shift) / 64 = j / 64 + shift / 64 := by omega
    have hbit : (j + shift) % 64 = shift % 64 + j % 64 := by omega
    rw [hword, hbit]
    split
    · rw [getLsbD_or, getLsbD_ushiftRight, getLsbD_shiftLeft]
      have hlow : j % 64 < 64 - shift % 64 := by omega
      simp [hlow]
    · rw [getLsbD_ushiftRight]
  · have hword : (j + shift) / 64 = j / 64 + shift / 64 + 1 := by omega
    have hbit : (j + shift) % 64 = j % 64 - (64 - shift % 64) := by omega
    rw [hword, hbit]
    split
    · rw [getLsbD_or, getLsbD_ushiftRight, getLsbD_shiftLeft]
      have hhigh : ¬ j % 64 < 64 - shift % 64 := by omega
      have hpast : 64 ≤ shift % 64 + j % 64 := by omega
      have hin : j % 64 < 64 := by omega
      rw [getLsbD_of_ge _ _ hpast]
      simp [hhigh, hin]
    next hnot =>
      have hpast : 64 ≤ shift % 64 + j % 64 := by omega
      have hempty : readWord ws (j / 64 + shift / 64 + 1) = 0#64 := readWord_of_le (by omega)
      rw [getLsbD_ushiftRight, getLsbD_of_ge _ _ hpast, hempty]
      simp

theorem testBit_number (ws : Words) (i : Nat) : (number ws).testBit i = testBit ws i := by
  rw [testBit_eq]
  induction ws generalizing i with
  | nil => simp [number, readWord]
  | cons w ws ih =>
    rw [number, Nat.testBit_two_pow_mul_add _ w.isLt]
    split
    next hlt => rw [Nat.div_eq_of_lt hlt, Nat.mod_eq_of_lt hlt]; rfl
    next hge =>
      have hword : i / 64 = (i - 64) / 64 + 1 := by omega
      have hbit : i % 64 = (i - 64) % 64 := by omega
      rw [ih, hword, hbit]
      rfl

/-- The shift divides the number by a power of two. -/
theorem number_shiftRight (hlen : ws.length = n) (shift : Nat) :
    number (shiftRight n ws shift) = number ws / 2 ^ shift := by
  refine Nat.eq_of_testBit_eq fun j => ?_
  rw [Nat.testBit_div_two_pow, testBit_number, testBit_number]
  by_cases hj : j < 64 * n
  · exact testBit_shiftRight hlen shift hj
  · rw [testBit_of_le (by simpa using hj), testBit_of_le (by omega)]

/-- A set is contained in another one when word by word nothing is left over. -/
theorem andNot_eq_zero_iff {ws' : Words} (hlen : ws.length = n) :
    (∀ word < n, readWord ws word &&& ~~~ readWord ws' word = 0) ↔
      ∀ i, testBit ws i = true → testBit ws' i = true := by
  constructor
  · intro h i hi
    have hin : i < 64 * ws.length := by
      by_contra hge
      rw [testBit_of_le (by omega)] at hi
      cases hi
    have hbit := congrArg (·.getLsbD (i % 64)) (h (i / 64) (by omega))
    rw [testBit_eq] at hi ⊢
    simpa [hi, Nat.mod_lt] using hbit
  · intro h word _
    refine eq_of_getLsbD_eq fun j hj => ?_
    have hdiv : (64 * word + j) / 64 = word := by omega
    have hmod : (64 * word + j) % 64 = j := by omega
    have hbit := h (64 * word + j)
    rw [testBit_eq, testBit_eq, hdiv, hmod] at hbit
    simp only [getLsbD_and, getLsbD_not, ofNat_eq_ofNat, getLsbD_zero]
    cases hb : (readWord ws word).getLsbD j with
    | false => rfl
    | true => simp [hbit hb]

end BitWords
