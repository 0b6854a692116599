import Mathlib.Algebra.Order.BigOperators.Group.Finset
import Mathlib.Algebra.Order.Floor.Div

/-!
# The arithmetic of class skills

`MulPpm` and `PlanUpgrade` of class_skill_rules.h. Unsigned 64-bit operations that could overflow
are written with `wrap`; that none of them does is part of `rules_exact`.
-/

namespace Mmorpg.Battle.ClassSkill

def wrap (n : Nat) : Nat := n % 2 ^ 64

theorem wrap_of_lt {n : Nat} (h : n < 2 ^ 64) : wrap n = n := Nat.mod_eq_of_lt h

def kMax : Nat := 2 ^ 64 - 1

def kRatioScale : Nat := 1000000

def mulPpm (value ppm : Nat) (roundUp : Bool) : Nat :=
  let quotient := value / kRatioScale
  let remainder := value % kRatioScale
  if ppm ≠ 0 ∧ quotient > kMax / ppm then kMax
  else
    let whole := wrap (quotient * ppm)
    let tail := wrap (wrap (remainder * ppm) + if roundUp then kRatioScale - 1 else 0) / kRatioScale
    if tail > wrap (kMax + 2 ^ 64 - whole) then kMax else wrap (whole + tail)

def upgradeCost (nextRank unlockLevel : Nat) : Nat :=
  wrap (100 * nextRank * nextRank + 10 * unlockLevel)

inductive UpgradeStop where
  | none
  | maxRank
  | levelLimit
  | gold
deriving DecidableEq, Repr

structure UpgradePlan where
  steps : Nat
  finalRank : Nat
  totalCost : Nat
  stop : UpgradeStop
deriving DecidableEq, Repr

/-- The arguments of `PlanUpgrade` but the number of steps that is asked for. -/
structure Upgrade where
  currentRank : Nat
  maxRank : Nat
  rankLimit : Nat
  unlockLevel : Nat
  balance : Nat

namespace Upgrade

/-- The loop of `PlanUpgrade`, with the number of steps that may still be made. -/
def planLoop (u : Upgrade) : Nat → UpgradePlan → UpgradePlan
  | 0, plan => plan
  | n + 1, plan =>
    if plan.finalRank ≥ u.maxRank then { plan with stop := .maxRank }
    else if plan.finalRank ≥ u.rankLimit then { plan with stop := .levelLimit }
    else
      let cost := upgradeCost (plan.finalRank + 1) u.unlockLevel
      if cost > wrap (u.balance + 2 ^ 64 - plan.totalCost) then { plan with stop := .gold }
      else u.planLoop n
        { plan with
          totalCost := wrap (plan.totalCost + cost)
          finalRank := plan.finalRank + 1
          steps := plan.steps + 1 }

def planUpgrade (u : Upgrade) (count : Nat) : UpgradePlan :=
  u.planLoop count ⟨0, u.currentRank, 0, .none⟩

/-- What the first `k` steps cost. -/
def spent (u : Upgrade) (k : Nat) : Nat :=
  ∑ j ∈ Finset.range k, (100 * (u.currentRank + j + 1) ^ 2 + 10 * u.unlockLevel)

/-- The first `k` steps stay within the maximum rank, the rank limit and the balance. -/
structure Feasible (u : Upgrade) (k : Nat) : Prop where
  ranks : ∀ j < k, u.currentRank + j < u.maxRank ∧ u.currentRank + j < u.rankLimit
  paid : u.spent k ≤ u.balance

/-- The plan makes as many steps as it may and counts their exact costs. -/
structure Exact (u : Upgrade) (count : Nat) (plan : UpgradePlan) : Prop where
  most : IsGreatest {k | k ≤ count ∧ u.Feasible k} plan.steps
  rank : plan.finalRank = u.currentRank + plan.steps
  cost : plan.totalCost = u.spent plan.steps
  covered : plan.totalCost ≤ u.balance

variable {u : Upgrade}

theorem spent_succ (u : Upgrade) (k : Nat) : u.spent (k + 1) =
    u.spent k + (100 * (u.currentRank + k + 1) ^ 2 + 10 * u.unlockLevel) :=
  Finset.sum_range_succ _ k

theorem Feasible.of_le {k m : Nat} (h : u.Feasible m) (hk : k ≤ m) : u.Feasible k :=
  ⟨fun j hj => h.ranks j (hj.trans_le hk),
    (Finset.sum_le_sum_of_subset (Finset.range_mono hk)).trans h.paid⟩

theorem upgradeCost_eq {r unlockLevel : Nat} (hr : r < 2 ^ 28) (hunlock : unlockLevel < 2 ^ 32) :
    upgradeCost (r + 1) unlockLevel = 100 * (r + 1) ^ 2 + 10 * unlockLevel := by
  have hsquare : (r + 1) ^ 2 ≤ (2 ^ 28) ^ 2 := Nat.pow_le_pow_left hr 2
  rw [upgradeCost, wrap, Nat.mul_assoc, ← Nat.pow_two, Nat.mod_eq_of_lt (by omega)]

variable (hranks : min u.maxRank u.rankLimit ≤ 2 ^ 28)

include hranks

/-- The loop goes on from `k` steps until it has made its steps or one more is not feasible. -/
theorem planLoop_spec (hunlock : u.unlockLevel < 2 ^ 32) (hbalance : u.balance < 2 ^ 64) (n : Nat)
    {k : Nat} (hk : u.Feasible k) :
    ∃ m stop, u.planLoop n ⟨k, u.currentRank + k, u.spent k, .none⟩ =
        ⟨m, u.currentRank + m, u.spent m, stop⟩ ∧
      m ≤ k + n ∧ u.Feasible m ∧ (m = k + n ∨ ¬ u.Feasible (m + 1)) := by
  induction n generalizing k with
  | zero => exact ⟨k, _, rfl, Nat.le_refl _, hk, .inl rfl⟩
  | succ n ih =>
    have hpaid := hk.paid
    have hspent := u.spent_succ k
    have hstop (hnot : ¬ u.Feasible (k + 1)) (stop : UpgradeStop) :
        ∃ m stop', UpgradePlan.mk k (u.currentRank + k) (u.spent k) stop =
            ⟨m, u.currentRank + m, u.spent m, stop'⟩ ∧
          m ≤ k + (n + 1) ∧ u.Feasible m ∧ (m = k + (n + 1) ∨ ¬ u.Feasible (m + 1)) :=
      ⟨k, stop, rfl, Nat.le_add_right _ _, hk, .inr hnot⟩
    unfold planLoop
    dsimp only
    split
    next hmax => exact hstop (fun h => (h.ranks k k.lt_succ_self).1.not_ge hmax) _
    split
    next hlimit => exact hstop (fun h => (h.ranks k k.lt_succ_self).2.not_ge hlimit) _
    next hmax hlimit =>
    have hleft : wrap (u.balance + 2 ^ 64 - u.spent k) = u.balance - u.spent k := by
      unfold wrap
      omega
    rw [upgradeCost_eq (by omega) hunlock, hleft]
    split
    next hgold => exact hstop (fun h => by have := h.paid; omega) _
    next hgold =>
      have hnext : u.Feasible (k + 1) := by
        refine ⟨fun j hj => ?_, by omega⟩
        rcases Nat.lt_succ_iff_lt_or_eq.1 hj with hj | rfl
        · exact hk.ranks j hj
        · exact ⟨Nat.not_le.1 hmax, Nat.not_le.1 hlimit⟩
      rw [← hspent, wrap, Nat.mod_eq_of_lt (hnext.paid.trans_lt hbalance)]
      obtain ⟨m, stop, heq, hle, hm, hend⟩ := ih hnext
      exact ⟨m, stop, heq, by omega, hm, hend.imp_left (by omega)⟩

theorem planUpgrade_exact (hunlock : u.unlockLevel < 2 ^ 32) (hbalance : u.balance < 2 ^ 64)
    (count : Nat) :
    u.Exact count (u.planUpgrade count) := by
  have hzero : u.Feasible 0 := ⟨fun j hj => absurd hj j.not_lt_zero, Nat.zero_le _⟩
  obtain ⟨m, stop, heq, hle, hm, hend⟩ := planLoop_spec hranks hunlock hbalance count hzero
  have hplan : u.planUpgrade count = ⟨m, u.currentRank + m, u.spent m, stop⟩ := heq
  rw [Nat.zero_add] at hle hend
  rw [hplan]
  refine ⟨⟨⟨hle, hm⟩, fun k hk => ?_⟩, rfl, rfl, hm.paid⟩
  rcases hend with rfl | hend
  · exact hk.1
  · by_contra hlt
    exact hend (hk.2.of_le (Nat.not_le.1 hlt))

end Upgrade

/-- The products of `mulPpm` have 64 bits, the first one behind its guard. -/
structure ProductsFit (value ppm : Nat) : Prop where
  whole : ¬ (ppm ≠ 0 ∧ value / kRatioScale > kMax / ppm) → value / kRatioScale * ppm < 2 ^ 64
  tail : value % kRatioScale * ppm + (kRatioScale - 1) < 2 ^ 64

theorem productsFit {value ppm : Nat} (hppm : ppm ≤ kMax / kRatioScale) :
    ProductsFit value ppm := by
  unfold kMax kRatioScale at hppm
  constructor
  · intro hsmall
    by_contra hlt
    have hpos : ppm ≠ 0 := by
      rintro rfl
      omega
    refine hsmall ⟨hpos, (Nat.div_lt_iff_lt_mul (Nat.pos_of_ne_zero hpos)).2 ?_⟩
    unfold kMax
    omega
  · have hle : value % kRatioScale * ppm ≤ 999999 * ((2 ^ 64 - 1) / 1000000) :=
      Nat.mul_le_mul (by unfold kRatioScale; omega) hppm
    unfold kRatioScale at *
    omega

theorem mulPpm_eq {value ppm : Nat} (hppm : ppm ≤ kMax / kRatioScale) (roundUp : Bool) :
    mulPpm value ppm roundUp =
      min kMax ((value * ppm + if roundUp then kRatioScale - 1 else 0) / kRatioScale) := by
  obtain ⟨hwhole, htail⟩ : ProductsFit value ppm := productsFit hppm
  have hsplit (c : Nat) : (value * ppm + c) / kRatioScale =
      value / kRatioScale * ppm + (value % kRatioScale * ppm + c) / kRatioScale := by
    rw [← Nat.mul_add_div (by decide : 0 < kRatioScale), ← Nat.add_assoc, ← Nat.mul_assoc,
      ← Nat.add_mul, Nat.div_add_mod]
  rw [hsplit]
  unfold mulPpm
  dsimp only
  split
  next hbig =>
    have hlt := (Nat.div_lt_iff_lt_mul (Nat.pos_of_ne_zero hbig.1)).1 hbig.2
    exact (Nat.min_eq_left (hlt.le.trans (Nat.le_add_right _ _))).symm
  next hsmall =>
    specialize hwhole hsmall
    have hc : (if roundUp then kRatioScale - 1 else 0) ≤ kRatioScale - 1 := by split <;> omega
    generalize (if roundUp then kRatioScale - 1 else 0) = c at *
    generalize value / kRatioScale * ppm = whole at *
    generalize value % kRatioScale * ppm = part at *
    have hleft : wrap (kMax + 2 ^ 64 - whole) = kMax - whole := by
      unfold wrap kMax
      omega
    rw [wrap_of_lt hwhole, wrap_of_lt (by omega : part < 2 ^ 64),
      wrap_of_lt (by omega : part + c < 2 ^ 64), hleft]
    generalize (part + c) / kRatioScale = tail
    split
    next hmore => exact (Nat.min_eq_left (by omega)).symm
    next hfits =>
      have hsum : whole + tail ≤ kMax := by
        unfold kMax at *
        omega
      rw [Nat.min_eq_right hsum, wrap_of_lt (Nat.lt_of_le_pred (Nat.two_pow_pos 64) hsum)]

/-- **The integer rules are exact.** -/
theorem rules_exact :
    (∀ value ppm roundUp, ppm ≤ kMax / kRatioScale → ProductsFit value ppm ∧
      mulPpm value ppm roundUp = min kMax
        (if roundUp then value * ppm ⌈/⌉ kRatioScale else value * ppm / kRatioScale)) ∧
    ∀ (u : Upgrade) (count : Nat), min u.maxRank u.rankLimit ≤ 2 ^ 28 →
      u.unlockLevel < 2 ^ 32 → u.balance < 2 ^ 64 → u.Exact count (u.planUpgrade count) := by
  refine ⟨fun value ppm roundUp hppm => ⟨productsFit hppm, ?_⟩,
    fun u count hranks hunlock hbalance => u.planUpgrade_exact hranks hunlock hbalance count⟩
  rw [mulPpm_eq hppm]
  cases roundUp with
  | false => simp only [Bool.false_eq_true, if_false, Nat.add_zero]
  | true =>
    have hscale : 1 ≤ kRatioScale := by decide
    simp only [if_true, Nat.ceilDiv_eq_add_pred_div, Nat.add_sub_assoc hscale]

theorem rules_exact_sample :
    (ProductsFit 10 70001 ∧ mulPpm 10 70001 true = min kMax (10 * 70001 ⌈/⌉ kRatioScale)) ∧
    (⟨1, 10, 5, 3, 1000⟩ : Upgrade).Exact 10 (Upgrade.planUpgrade ⟨1, 10, 5, 3, 1000⟩ 10) :=
  ⟨rules_exact.1 10 70001 true (by decide),
    rules_exact.2 ⟨1, 10, 5, 3, 1000⟩ 10 (by decide) (by decide) (by decide)⟩

end Mmorpg.Battle.ClassSkill
