import Mathlib.Order.Bounds.Basic
import Mmorpg.Bags.AddItems

/-!
# Evicting the oldest instances

A victim may be the very stack that the batch would have filled, so the need grows with the
victims. It is monotone in the number of the oldest that are gone, so a round that goes on to the
shortfall of the last plan passes over no number that would have been enough.
-/

namespace Mmorpg.Bags.Bag

open ItemStore List

variable {cfg : Tables} {b : Bag} {units separate : ItemCountMap} {free k m : Nat}

def oldest (b : Bag) (k : Nat) : List Guid := (b.store.inAcquireOrder.map (·.itemId)).take k

theorem nodup_inAcquireOrder (s : ItemStore) : (s.inAcquireOrder.map (·.itemId)).Nodup :=
  (s.perm_inAcquireOrder.map _).nodup_iff.2 s.nodup

theorem length_oldest (hk : k ≤ b.store.items.length) : (b.oldest k).length = k := by
  rw [oldest, length_take, length_map, b.store.perm_inAcquireOrder.length_eq]
  exact Nat.min_eq_left hk

theorem evictOldestFirst_eq (hm : 0 < m) (hle : m ≤ b.store.items.length) :
    evictOldestFirst m b.store b.layout = b.oldest m := by
  rw [evictOldestFirst, if_neg (Nat.ne_of_gt hm), if_neg (Nat.not_lt.2 hle), map_take, oldest]

/-- The victims of two rounds are the oldest of the larger one. -/
theorem foldl_take {l : List Guid} (hnodup : l.Nodup) (k m : Nat) :
    (l.take m).foldl (fun vs guid => if guid ∈ vs then vs else vs ++ [guid]) (l.take k) =
      l.take (max k m) := by
  induction m with
  | zero => rw [take_zero, foldl_nil, Nat.max_zero]
  | succ m ih =>
    rw [take_add_one, foldl_append, ih]
    cases hguid : l[m]? with
    | none =>
      have hlen := List.getElem?_eq_none_iff.1 hguid
      rw [Option.toList_none, foldl_nil, take_of_length_le (by omega),
        take_of_length_le (by omega)]
    | some guid =>
      have htake : l.take (m + 1) = l.take m ++ [guid] := by rw [take_add_one, hguid]; rfl
      rw [Option.toList_some, foldl_cons, foldl_nil]
      rcases Nat.lt_or_ge m k with hlt | hge
      · rw [Nat.max_eq_left hlt.le, Nat.max_eq_left hlt, if_pos]
        exact take_subset_take_left l hlt (htake ▸ mem_append_right _ mem_cons_self)
      · rw [Nat.max_eq_right hge, Nat.max_eq_right (Nat.le_succ_of_le hge), htake, if_neg]
        intro hmem
        have hnew := hnodup.sublist (take_sublist (m + 1) l)
        rw [htake] at hnew
        exact (nodup_append.1 hnew).2.2 guid hmem guid mem_cons_self rfl

theorem needWithout_mono (hle : k ≤ m) :
    b.needWithout cfg units separate (b.oldest k) ≤
      b.needWithout cfg units separate (b.oldest m) := by
  refine Nat.add_le_add_right (sum_le_sum fun e _ => Nat.div_le_div_right ?_) _
  have hroom : roomsWithout cfg b.store (b.oldest m) e.1 ≤
      roomsWithout cfg b.store (b.oldest k) e.1 :=
    roomsWithout_anti (take_subset_take_left _ hle)
  omega

/-- Without the `k` oldest the batch fits into the free cells and theirs. -/
def Fits (cfg : Tables) (b : Bag) (units separate : ItemCountMap) (free k : Nat) : Prop :=
  k ≤ b.store.items.length ∧ b.needWithout cfg units separate (b.oldest k) ≤ free + k

/-- The plan takes the fewest of the oldest that help. -/
structure Shortest (cfg : Tables) (b : Bag) (units separate : ItemCountMap) (free : Nat)
    (plan : Option (List Guid × Nat)) : Prop where
  accepts : ∀ k, IsLeast {k | b.Fits cfg units separate free k} k →
    plan = some (b.oldest k, b.needWithout cfg units separate (b.oldest k))
  rejects : plan = none ↔ ∀ k, ¬ b.Fits cfg units separate free k

theorem Shortest.of_fits (hfits : b.Fits cfg units separate free k)
    (hbelow : ∀ j < k, ¬ b.Fits cfg units separate free j) :
    b.Shortest cfg units separate free
      (some (b.oldest k, b.needWithout cfg units separate (b.oldest k))) where
  accepts j hj := by
    rw [(hj.2 hfits).antisymm (not_lt.1 fun hlt => hbelow j hlt hj.1)]
  rejects := ⟨nofun, fun h => absurd hfits (h k)⟩

theorem Shortest.unique {plan plan' : Option (List Guid × Nat)}
    (h : b.Shortest cfg units separate free plan)
    (h' : b.Shortest cfg units separate free plan') : plan = plan' := by
  classical
  by_cases hex : ∃ k, b.Fits cfg units separate free k
  · have hleast : IsLeast {k | b.Fits cfg units separate free k} (Nat.find hex) :=
      ⟨Nat.find_spec hex, fun _ => Nat.find_min' hex⟩
    rw [h.accepts _ hleast, h'.accepts _ hleast]
  · rw [h.rejects.2 (not_exists.1 hex), h'.rejects.2 (not_exists.1 hex)]

theorem evictionRounds_shortest (hpolicy : b.eviction = evictOldestFirst)
    (hunits : ∀ e ∈ units.entries, b.Plannable cfg e.1) (rounds : Nat) :
    ∀ {k}, k ≤ b.store.items.length → b.store.items.length < rounds + k →
      (∀ j < k, ¬ b.Fits cfg units separate free j) →
      b.Shortest cfg units separate free
        (b.evictionRounds cfg units separate free rounds (b.oldest k)) := by
  induction rounds with
  | zero =>
    intro k hk hrounds
    omega
  | succ rounds ih =>
    intro k hk hrounds hbelow
    obtain ⟨need, hneed⟩ := planNeed_eq hunits separate (b.oldest k)
    unfold evictionRounds
    simp only [hneed, length_oldest hk, hpolicy]
    generalize hm : b.needWithout cfg units separate (b.oldest k) - free = m
    split
    · exact .of_fits ⟨hk, by omega⟩ hbelow
    next hshort =>
      -- Up to the shortfall the need is at least the present one.
      have hpast : ∀ j < m, ¬ b.Fits cfg units separate free j := by
        intro j hj hfits
        rcases Nat.lt_or_ge j k with hlt | hge
        · exact hbelow j hlt hfits
        · have hmono : b.needWithout cfg units separate (b.oldest k) ≤ _ := needWithout_mono hge
          have hfit := hfits.2
          omega
      rcases Nat.lt_or_ge b.store.items.length m with hall | hsome
      · have hnone : ∀ j, ¬ b.Fits cfg units separate free j :=
          fun j hfits => hpast j (hfits.1.trans_lt hall) hfits
        have hpick : evictOldestFirst m b.store b.layout = [] := by simp [evictOldestFirst, hall]
        rw [hpick, length_nil, if_pos (by omega)]
        exact ⟨fun j hj => absurd hj.1 (hnone j), fun _ => hnone, fun _ => rfl⟩
      · rw [evictOldestFirst_eq (by omega) hsome, if_neg (by rw [length_oldest hsome]; omega),
          oldest, oldest, foldl_take (nodup_inAcquireOrder b.store), Nat.max_eq_right (by omega),
          ← oldest, if_neg (by rw [length_oldest hsome]; omega)]
        exact ih hsome (by omega) hpast

/-- **A flat bag evicts the fewest of its oldest instances that make room for the batch, or none
when all of them would not; one round more than there are instances is enough.** -/
theorem planEviction_least {l : FlatLayout} (hlayout : b.layout = .flat false l)
    (hpolicy : b.eviction = evictOldestFirst)
    (hunits : ∀ e ∈ units.entries, b.Plannable cfg e.1) :
    (∀ k, IsLeast {k | b.Fits cfg units separate l.freeCells k} k →
      b.planEviction cfg units separate true =
        some (b.oldest k, b.needWithout cfg units separate (b.oldest k))) ∧
    (b.planEviction cfg units separate true = none ↔
      ∀ k, ¬ b.Fits cfg units separate l.freeCells k) ∧
    ∀ rounds, b.store.items.length < rounds →
      b.evictionRounds cfg units separate l.freeCells rounds [] =
        b.evictionRounds cfg units separate l.freeCells (b.store.items.length + 1) [] := by
  have hrounds : ∀ rounds, b.store.items.length < rounds → b.Shortest cfg units separate l.freeCells
      (b.evictionRounds cfg units separate l.freeCells rounds []) := fun rounds hlt =>
    evictionRounds_shortest hpolicy hunits rounds (Nat.zero_le _) hlt fun j hj => absurd hj
      (Nat.not_lt_zero j)
  have hplan : b.Shortest cfg units separate l.freeCells
      (b.planEviction cfg units separate true) := by
    obtain ⟨need, hneed⟩ := planNeed_eq hunits separate []
    unfold planEviction
    rw [hneed]
    simp only [canReserve, hlayout, Layout.canFit, Layout.hasSlotSemantics, Layout.freeCells]
    by_cases hfit : b.needWithout cfg units separate [] ≤ l.freeCells
    · simp only [hfit]
      exact .of_fits (k := 0) ⟨Nat.zero_le _, hfit⟩ fun j hj => absurd hj (Nat.not_lt_zero j)
    · simp only [ge_iff_le, hfit, decide_false, Bool.not_false, Bool.false_eq_true, if_true,
        if_false, Bool.not_true]
      exact hrounds _ (Nat.lt_succ_self _)
  exact ⟨hplan.accepts, hplan.rejects, fun rounds hlt =>
    (hrounds rounds hlt).unique (hrounds _ (Nat.lt_succ_self _))⟩

def sampleFull : Bag where
  store := ⟨[⟨7, 1, 4, 1, none, []⟩, ⟨8, 1, 5, 2, none, []⟩], 3, by decide⟩
  layout := .flat false (((FlatLayout.new 2).put 7 0).put 8 1)
  admission _ := true
  eviction := evictOldestFirst

/-- Of three units one would fit on the oldest stack, which goes all the same. -/
theorem planEviction_least_sampleFull : sampleFull.planEviction sampleTables
    (AList.singleton 1 3) ∅ true = some ([7], 1) := by
  refine (planEviction_least rfl rfl fun e he => ?_).1 1 ⟨⟨by decide, by decide⟩, fun k hk => ?_⟩
  · obtain rfl := mem_singleton.1 he
    exact ⟨⟨⟨5, 0⟩, rfl, by decide⟩, rfl, by decide⟩
  · rcases Nat.eq_zero_or_pos k with rfl | hpos
    · exact absurd hk.2 (by decide)
    · exact hpos

end Mmorpg.Bags.Bag
