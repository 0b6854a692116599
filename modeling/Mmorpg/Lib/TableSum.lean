import Mmorpg.Lib.Table
import Mathlib.Algebra.BigOperators.Group.Finset.Basic
import Mathlib.Algebra.BigOperators.Ring.Finset
import Mathlib.Algebra.Order.BigOperators.Group.Finset

/-!
# Sums over tables

The sum of a quantity over the rows of a table depends only on what is read at each key, so a write
changes it by the difference at the written key (`sum_congr`, `sum_add`).
-/

namespace Table

open List

variable {κ ρ : Type} [DecidableEq κ]

/-- The sum of `f` over all rows. -/
def sum (f : ρ → Nat) (t : Table κ ρ) : Nat := (t.rows.map fun x => f x.2).sum

/-- What the row of a key adds to the sum. -/
def value (f : ρ → Nat) (t : Table κ ρ) (k : κ) : Nat := (get t k).elim 0 f

variable {f : ρ → Nat} {t t' : Table κ ρ}

theorem value_of_get {k : κ} {r : ρ} (h : get t k = some r) :
    value f t k = f r := by rw [value, h]; rfl

theorem value_of_none {k : κ} (h : get t k = none) :
    value f t k = 0 := by rw [value, h]; rfl

theorem sum_eq_finset {s : Finset κ}
    (h : ∀ k, get t k ≠ none → k ∈ s) : sum f t = ∑ k ∈ s, value f t k := by
  have hnodup : t.keys.Nodup := t.keys_nodup
  have hrows : t.rows.map (fun x => f x.2) = t.keys.map (value f t) := by
    simp only [rows, AList.keys, List.keys, map_map]
    refine map_congr_left fun e he => ?_
    have hget : get t e.1 = some e.2 := AList.mem_lookup_iff.2 he
    exact (value_of_get hget).symm
  calc sum f t = (t.keys.map (value f t)).sum := by rw [sum, hrows]
    _ = ∑ k ∈ t.keys.toFinset, value f t k := (sum_toFinset _ hnodup).symm
    _ = ∑ k ∈ s, value f t k := by
      refine Finset.sum_subset (fun k hk => ?_) fun k _ hk => ?_
      · refine h k fun hnone => ?_
        have hmem : k ∈ t := mem_toFinset.1 hk
        exact AList.lookup_eq_none.1 hnone hmem
      · refine value_of_none (AList.lookup_eq_none.2 fun hmem => hk ?_)
        exact mem_toFinset.2 hmem

/-- Finitely many keys cover both tables. -/
theorem exists_cover (t t' : Table κ ρ) :
    ∃ s : Finset κ, (∀ k, get t k ≠ none → k ∈ s) ∧ ∀ k, get t' k ≠ none → k ∈ s := by
  have hmem : ∀ (t : Table κ ρ) k, get t k ≠ none → k ∈ t.keys.toFinset := fun t k hk =>
    mem_toFinset.2 (by_contra fun h => hk (AList.lookup_eq_none.2 h))
  exact ⟨t.keys.toFinset ∪ t'.keys.toFinset, fun k hk => Finset.mem_union_left _ (hmem t k hk),
    fun k hk => Finset.mem_union_right _ (hmem t' k hk)⟩

theorem sum_congr (h : ∀ k, value f t' k = value f t k) :
    sum f t' = sum f t := by
  obtain ⟨s, hs, hs'⟩ := exists_cover t t'
  rw [sum_eq_finset hs, sum_eq_finset hs']
  exact Finset.sum_congr rfl fun k _ => h k

/-- One row adds `n`. -/
theorem sum_add {k₀ : κ} {n : Nat} (hnone : get t k₀ = none)
    (hnew : value f t' k₀ = n) (h : ∀ k, k ≠ k₀ → value f t' k = value f t k) :
    sum f t' = sum f t + n := by
  obtain ⟨s, hs, hs'⟩ := exists_cover t t'
  have hcover : ∀ k, get t k ≠ none → k ∈ insert k₀ s := fun k hk =>
    Finset.mem_insert_of_mem (hs k hk)
  have hcover' : ∀ k, get t' k ≠ none → k ∈ insert k₀ s := fun k hk =>
    Finset.mem_insert_of_mem (hs' k hk)
  rw [sum_eq_finset hcover, sum_eq_finset hcover',
    ← Finset.add_sum_erase _ (value f t') (Finset.mem_insert_self k₀ s),
    ← Finset.add_sum_erase _ (value f t) (Finset.mem_insert_self k₀ s), hnew,
    value_of_none hnone, zero_add, add_comm]
  congr 1
  exact Finset.sum_congr rfl fun k hk => h k (Finset.ne_of_mem_erase hk)

/-- The summand is a multiple of another one on the rows of the table. -/
theorem sum_eq_mul {g : ρ → Nat} {n : Nat}
    (h : ∀ k r, get t k = some r → f r = n * g r) : sum f t = n * sum g t := by
  have hmap : t.rows.map (fun x => f x.2) = t.rows.map fun x => n * g x.2 :=
    map_congr_left fun x hx => h x.1 x.2 (mem_rows.1 hx)
  rw [sum, sum, hmap, sum_map_mul_left]

theorem sum_eq_zero (h : ∀ k r, get t k = some r → f r = 0) :
    sum f t = 0 := by
  rw [sum_eq_mul (g := f) (n := 0) fun k r hr => by rw [h k r hr, zero_mul], zero_mul]

end Table
