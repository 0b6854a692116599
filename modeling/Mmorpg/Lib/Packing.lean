import Mathlib.Algebra.BigOperators.Group.Finset.Basic
import Mathlib.Algebra.BigOperators.Group.Finset.Piecewise
import Mathlib.Algebra.Order.Ring.Nat

/-!
# Packing units into stacks

Units of a kind fill the room that open stacks leave and then new stacks of at most `max` units.
Requests that are packed one after the other need as many new stacks as the sum of them at once
(`pack_add`), also where requests of several kinds are mixed (`needs_eq_sum`).
-/

namespace Packing

open List Function

/-- The number of stacks of at most `max` units that hold `total` units. -/
def stacksNeeded (total max : Nat) : Nat := (total + max - 1) / max

/-- `k` stacks hold the units and `k - 1` do not. -/
theorem stacksNeeded_eq_iff {total max k : Nat} (hmax : 0 < max) :
    stacksNeeded total max = k ↔ total ≤ k * max ∧ k * max < total + max := by
  unfold stacksNeeded
  rw [Nat.div_eq_iff hmax]
  have hcases : k = 0 ∨ max ≤ k * max := by
    rcases Nat.eq_zero_or_pos k with hk | hk
    · exact .inl hk
    · exact .inr (Nat.le_mul_of_pos_left max hk)
  constructor
  · intro h
    omega
  · intro h
    rcases hcases with rfl | hk
    · omega
    · omega

@[simp] theorem stacksNeeded_zero (max : Nat) : stacksNeeded 0 max = 0 := by
  rcases Nat.eq_zero_or_pos max with rfl | hmax
  · rfl
  · exact (stacksNeeded_eq_iff hmax).2 ⟨by omega, by omega⟩

theorem stacksNeeded_le (total : Nat) {max : Nat} (hmax : 0 < max) :
    stacksNeeded total max ≤ total := by
  refine Nat.le_of_lt_succ ((Nat.div_lt_iff_lt_mul hmax).2 ?_)
  have := Nat.le_mul_of_pos_right total hmax
  rw [Nat.succ_mul]
  omega

/-- The new stacks for some units, and the room that is then left. -/
def pack (max room units : Nat) : Nat × Nat :=
  let opened := stacksNeeded (units - room) max
  (opened, room + opened * max - units)

/-- A new stack is opened only when the room is used up. -/
theorem pack_eq_iff {max room units k left : Nat} (hmax : 0 < max) :
    pack max room units = (k, left) ↔
      room + k * max = units + left ∧ (k = 0 ∨ left < max) := by
  unfold pack
  simp only [Prod.mk.injEq, stacksNeeded_eq_iff hmax]
  constructor
  · rintro ⟨⟨hle, hlt⟩, hleft⟩
    rw [(stacksNeeded_eq_iff hmax).2 ⟨hle, hlt⟩] at hleft
    refine ⟨by omega, ?_⟩
    rcases Nat.eq_zero_or_pos k with hk | hk
    · exact .inl hk
    · have := Nat.le_mul_of_pos_left max hk
      exact .inr (by omega)
  · rintro ⟨hsum, hk⟩
    have hbounds : units - room ≤ k * max ∧ k * max < units - room + max := by
      rcases hk with rfl | hk
      · omega
      · omega
    exact ⟨hbounds, by rw [(stacksNeeded_eq_iff hmax).2 hbounds]; omega⟩

/-- **Two requests in turn are packed as one.** -/
theorem pack_add {max : Nat} (hmax : 0 < max) (room a b : Nat) :
    pack max room (a + b) =
      ((pack max room a).1 + (pack max (pack max room a).2 b).1,
        (pack max (pack max room a).2 b).2) := by
  obtain ⟨hsum, hk⟩ := (pack_eq_iff hmax).1 (Prod.mk.eta (p := pack max room a)).symm
  obtain ⟨hsum', hk'⟩ := (pack_eq_iff hmax).1
    (Prod.mk.eta (p := pack max (pack max room a).2 b)).symm
  refine (pack_eq_iff hmax).2 ⟨?_, ?_⟩
  · rw [Nat.add_mul]
    omega
  · rcases Nat.eq_zero_or_pos (pack max (pack max room a).2 b).1 with hzero | hpos
    · -- the second request opens no stack, so it only uses up room
      rw [hzero] at hsum' ⊢
      omega
    · omega

section kinds

variable {κ : Type*} [DecidableEq κ] (max : κ → Nat)

/-- The new stacks that requests of several kinds open in turn. -/
def needs (room : κ → Nat) : List (κ × Nat) → Nat
  | [] => 0
  | (kind, units) :: requests =>
    let packed := pack (max kind) (room kind) units
    packed.1 + needs (update room kind packed.2) requests

/-- The units of a kind in a list of requests. -/
def demand (requests : List (κ × Nat)) (kind : κ) : Nat :=
  match requests with
  | [] => 0
  | (k, units) :: requests => (if k = kind then units else 0) + demand requests kind

variable {requests : List (κ × Nat)}

/-- **Requests in turn open as many stacks as the demands of their kinds.** -/
theorem needs_eq_sum {keys : Finset κ} (hkeys : ∀ r ∈ requests, r.1 ∈ keys)
    (hmax : ∀ r ∈ requests, 0 < max r.1) (room : κ → Nat) :
    needs max room requests =
      ∑ kind ∈ keys, (pack (max kind) (room kind) (demand requests kind)).1 := by
  induction requests generalizing room with
  | nil =>
    refine (Finset.sum_eq_zero fun kind _ => ?_).symm
    simp [pack, demand]
  | cons r requests ih =>
    obtain ⟨kind, units⟩ := r
    have hkind : kind ∈ keys := hkeys _ mem_cons_self
    have hpos : 0 < max kind := hmax _ mem_cons_self
    have hrest := ih (fun r hr => hkeys r (mem_cons_of_mem _ hr))
      (fun r hr => hmax r (mem_cons_of_mem _ hr))
      (update room kind (pack (max kind) (room kind) units).2)
    rw [needs, hrest, ← Finset.add_sum_erase _ _ hkind, ← Finset.add_sum_erase _ _ hkind,
      ← Nat.add_assoc]
    congr 1
    · rw [update_self, demand, if_pos rfl, pack_add hpos]
    · -- the requests of the other kinds do not see the first one
      refine Finset.sum_congr rfl fun k hk => ?_
      have hne : k ≠ kind := (Finset.mem_erase.1 hk).1
      rw [update_of_ne hne, demand, if_neg hne.symm, Nat.zero_add]

theorem demand_append (a b : List (κ × Nat)) (kind : κ) :
    demand (a ++ b) kind = demand a kind + demand b kind := by
  induction a with
  | nil => rw [nil_append, demand, Nat.zero_add]
  | cons r a ih => rw [cons_append, demand, demand, ih, Nat.add_assoc]

theorem sum_demand {keys : Finset κ} (hkeys : ∀ r ∈ requests, r.1 ∈ keys) :
    ∑ kind ∈ keys, demand requests kind = (requests.map (·.2)).sum := by
  induction requests with
  | nil => exact Finset.sum_eq_zero fun _ _ => rfl
  | cons r requests ih =>
    obtain ⟨kind, units⟩ := r
    have hkind : kind ∈ keys := hkeys _ mem_cons_self
    simp only [demand, Finset.sum_add_distrib, Finset.sum_ite_eq, if_pos hkind]
    rw [ih fun r hr => hkeys r (mem_cons_of_mem _ hr), map_cons, sum_cons]

end kinds

end Packing
