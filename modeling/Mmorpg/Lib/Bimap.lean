import Mathlib.Data.List.AList
import Mathlib.Data.List.Range
import Mathlib.Data.List.Dedup

/-!
# Tables and their indices

`Index` ties a table to the reverse map from the points that its entries cover; a table and its
reverse index, as two association lists, are the case of one point (`Inverse`). Both are kept by
inserting a pair
of absent keys and by erasing a pair, and inverse maps have as many entries. A map whose keys are
numbers below a bound has at most that many entries, and a free key as long as it has fewer.
-/

namespace Bimap

open List Option

variable {α β : Type*} [DecidableEq α] {f : AList fun _ : α => β} {a : α} {b : β}

theorem mem_of_lookup (h : f.lookup a = some b) : a ∈ f :=
  AList.lookup_isSome.1 (h ▸ rfl)

theorem exists_lookup (h : a ∈ f) : ∃ b, f.lookup a = some b :=
  isSome_iff_exists.1 (AList.lookup_isSome.2 h)

variable [DecidableEq β] {g : AList fun _ : β => α}

/-- A table whose entries cover points: `names` gives the key of the entry that covers a point. -/
def Index {γ : Type*} (covers : γ → α → Prop) (names : α → Option β)
    (table : AList fun _ : β => γ) : Prop :=
  ∀ a b, names a = some b ↔ ∃ c, table.lookup b = some c ∧ covers c a

namespace Index

omit [DecidableEq α]

variable {γ : Type*} {covers : γ → α → Prop} {names names' : α → Option β}
  {table : AList fun _ : β => γ} {c : γ}

/-- A new entry covers points that had no name. -/
theorem insert (h : Index covers names table) (hb : b ∉ table)
    (hfree : ∀ a, covers c a → names a = none) (hin : ∀ a, covers c a → names' a = some b)
    (hout : ∀ a, ¬ covers c a → names' a = names a) : Index covers names' (table.insert b c) := by
  intro a b'
  by_cases hb' : b' = b
  · subst hb'
    rw [AList.lookup_insert]
    constructor
    · intro hname
      by_contra hnot
      have hc : ¬ covers c a := fun hc => hnot ⟨c, rfl, hc⟩
      rw [hout a hc] at hname
      obtain ⟨c', hc', -⟩ := (h a b').1 hname
      exact hb (mem_of_lookup hc')
    · rintro ⟨c', hc', hcov⟩
      exact hin a (some.inj hc' ▸ hcov)
  · rw [AList.lookup_insert_ne hb', ← h]
    by_cases hc : covers c a
    · rw [hin a hc, hfree a hc]
      simp [Ne.symm hb']
    · rw [hout a hc]

/-- The points of an entry that is gone have no name. -/
theorem erase (h : Index covers names table) (hb : table.lookup b = some c)
    (hin : ∀ a, covers c a → names' a = none) (hout : ∀ a, ¬ covers c a → names' a = names a) :
    Index covers names' (table.erase b) := by
  intro a b'
  by_cases hb' : b' = b
  · subst hb'
    rw [AList.lookup_erase]
    refine ⟨fun hname => ?_, fun ⟨c', hc', _⟩ => nomatch hc'⟩
    by_cases hc : covers c a
    · rw [hin a hc] at hname
      cases hname
    · rw [hout a hc, h, hb] at hname
      obtain ⟨c', hc', hcov⟩ := hname
      exact absurd (some.inj hc' ▸ hcov) hc
  · rw [AList.lookup_erase_ne hb', ← h]
    by_cases hc : covers c a
    · rw [hin a hc, (h a b).2 ⟨c, hb, hc⟩]
      simp [Ne.symm hb']
    · rw [hout a hc]

end Index

/-- Each map looks up what the other one has as key. -/
def Inverse (f : AList fun _ : α => β) (g : AList fun _ : β => α) : Prop :=
  ∀ a b, f.lookup a = some b ↔ g.lookup b = some a

namespace Inverse

theorem empty : Inverse (∅ : AList fun _ : α => β) (∅ : AList fun _ : β => α) := by
  intro a b
  simp

theorem symm (h : Inverse f g) : Inverse g f := fun b a => (h a b).symm

theorem mem (h : Inverse f g) (hab : f.lookup a = some b) : b ∈ g :=
  mem_of_lookup ((h a b).1 hab)

theorem index_iff : Inverse f g ↔ Index Eq f.lookup g := by
  simp [Inverse, Index]

variable (h : Inverse f g)

include h

theorem insert (ha : a ∉ f) (hb : b ∉ g) : Inverse (f.insert a b) (g.insert b a) := by
  refine index_iff.2 ((index_iff.1 h).insert hb ?_ ?_ ?_)
  · rintro x rfl
    exact AList.lookup_eq_none.2 ha
  · rintro x rfl
    exact AList.lookup_insert _
  · exact fun x hx => AList.lookup_insert_ne (Ne.symm hx)

theorem erase (hab : f.lookup a = some b) : Inverse (f.erase a) (g.erase b) := by
  refine index_iff.2 ((index_iff.1 h).erase ((h a b).1 hab) ?_ ?_)
  · rintro x rfl
    exact AList.lookup_erase _ _
  · exact fun x hx => AList.lookup_erase_ne (Ne.symm hx)

theorem length_le : f.keys.length ≤ g.keys.length := by
  have hnodup : (f.keys.filterMap f.lookup).Nodup := by
    refine f.keys_nodup.filterMap fun x y b hx hy => ?_
    have hgx := (h x b).1 hx
    rw [(h y b).1 hy] at hgx
    exact (some.inj hgx).symm
  have hlength : (f.keys.filterMap f.lookup).length = f.keys.length := by
    rw [filterMap_length_eq_length]
    intro x hx
    exact AList.lookup_isSome.2 hx
  rw [← hlength]
  refine (subperm_of_subset hnodup fun b hb => ?_).length_le
  obtain ⟨x, -, hxb⟩ := mem_filterMap.1 hb
  exact h.mem hxb

theorem length_eq : f.keys.length = g.keys.length :=
  Nat.le_antisymm h.length_le h.symm.length_le

end Inverse

/-! ## Maps with numbers below a bound as keys -/

omit [DecidableEq β]

variable {m : AList fun _ : Nat => β} {n : Nat}

theorem length_le_of_bound (h : ∀ k ∈ m, k < n) : m.keys.length ≤ n := by
  have hsub : m.keys ⊆ List.range n := fun k hk => mem_range.2 (h k hk)
  simpa using (subperm_of_subset m.keys_nodup hsub).length_le

theorem exists_free (h : m.keys.length < n) : ∃ k < n, k ∉ m := by
  by_contra hall
  have hsub : List.range n ⊆ m.keys := by
    intro k hk
    by_contra hfree
    exact hall ⟨k, mem_range.1 hk, hfree⟩
  have hle := (subperm_of_subset nodup_range hsub).length_le
  rw [length_range] at hle
  exact absurd h (Nat.not_lt.2 hle)

end Bimap
