import Mathlib.Data.List.DropRight

/-!
# Records that are found by key

A list of records with a key each, as a repeated field that is searched linearly and kept
ordered. `upsert` changes the first record of a key, or puts a changed default in its place;
`find_upsert` is its specification.
-/

namespace KeyedList

open List Option

variable {α κ : Type*} [DecidableEq κ] (key : α → κ)

/-- The first record of the key. -/
def find (l : List α) (k : κ) : Option α := l.find? (key · = k)

/-- `f` on the first record of the key, if there is one. -/
def modifyFirst (k : κ) (f : α → α) : List α → Option (List α)
  | [] => none
  | a :: l => if key a = k then some (f a :: l) else (modifyFirst k f l).map (a :: ·)

/-- A record moves forward from the end over the larger ones. -/
def insertBefore (larger : α → Bool) (l : List α) (a : α) : List α :=
  l.rdropWhile larger ++ a :: l.rtakeWhile larger

/-- `f` on the record of the key; a missing one is the default, put before the larger ones. -/
def upsert (larger : α → Bool) (k : κ) (f : α → α) (dflt : α) (l : List α) : List α :=
  (modifyFirst key k f l).getD (insertBefore larger l (f dflt))

variable {key} {l : List α} {a : α} {k : κ} {f : α → α} {larger : α → Bool} {r : κ → κ → Prop}

/-- Where no two records share a key, every record is found. -/
theorem find_of_mem (hl : l.Pairwise (fun a b => key a ≠ key b))
    (h : a ∈ l) : find key l (key a) = some a := by
  induction l with
  | nil => cases h
  | cons b l ih =>
    obtain ⟨hb, hl⟩ := pairwise_cons.1 hl
    rcases mem_cons.1 h with rfl | h
    · simp [find]
    · have hne : key b ≠ key a := hb a h
      simpa [find, List.find?_cons, hne] using ih hl h

/-- Where no two records share a key, the key is the record. -/
theorem eq_of_key (hl : l.Pairwise (fun a b => key a ≠ key b)) {b : α}
    (ha : a ∈ l) (hb : b ∈ l) (hkey : key a = key b) : a = b := by
  have hfind := find_of_mem hl ha
  rw [hkey, find_of_mem hl hb] at hfind
  exact (some.inj hfind).symm

theorem mem_of_find (h : find key l k = some a) :
    a ∈ l ∧ key a = k :=
  ⟨mem_of_find?_eq_some h, by simpa using List.find?_some h⟩

theorem find_modifyFirst (hf : ∀ a, key (f a) = key a) (k' : κ) :
    ∀ {l l' : List α}, modifyFirst key k f l = some l' →
      find key l' k' = if k' = k then (find key l k').map f else find key l k'
  | [], l', h => by cases h
  | a :: l, l', h => by
    rw [modifyFirst] at h
    split at h
    next ha =>
      cases h
      by_cases hk : k' = k
      · simp [find, hf, hk, ha]
      · have hne : key a ≠ k' := fun e => hk (e.symm.trans ha)
        simp [find, hf, hk, hne]
    next ha =>
      obtain ⟨l'', hl, rfl⟩ := map_eq_some_iff.1 h
      have ih := find_modifyFirst hf k' hl
      by_cases hak : key a = k'
      · have hk : k' ≠ k := fun e => ha (hak.trans e)
        simp [find, hak, hk]
      · simpa [find, List.find?_cons, hak] using ih

theorem modifyFirst_isSome :
    ∀ {l : List α}, (modifyFirst key k f l).isSome = (find key l k).isSome
  | [] => rfl
  | a :: l => by
    rw [modifyFirst]
    by_cases ha : key a = k
    · simp [find, ha]
    · simpa [find, List.find?_cons, ha] using modifyFirst_isSome

theorem modifyFirst_id (h : find key l k = some a) : modifyFirst key k id l = some l := by
  induction l with
  | nil => cases h
  | cons b l ih =>
    rw [modifyFirst]
    split
    · rfl
    next hb => rw [ih (by simpa [find, List.find?_cons, hb] using h), map_some]

theorem find_eq_none (h : modifyFirst key k f l = none) :
    find key l k = none := by
  rw [← isNone_iff_eq_none, ← not_isSome, ← modifyFirst_isSome (f := f), h]
  rfl

theorem rdropWhile_append_rtakeWhile (larger : α → Bool) (l : List α) :
    l.rdropWhile larger ++ l.rtakeWhile larger = l := by
  rw [List.rdropWhile, List.rtakeWhile, ← reverse_append, takeWhile_append_dropWhile,
    reverse_reverse]

theorem find_insertBefore (hnone : find key l (key a) = none) (k : κ) :
    find key (insertBefore larger l a) k = if k = key a then some a else find key l k := by
  have hfind : ∀ k, find key l k =
      ((l.rdropWhile larger).find? (key · = k)).or ((l.rtakeWhile larger).find? (key · = k)) := by
    intro k
    rw [← List.find?_append, rdropWhile_append_rtakeWhile]
    rfl
  rw [hfind, or_eq_none_iff] at hnone
  rw [hfind, find, insertBefore, List.find?_append, List.find?_cons]
  by_cases hk : k = key a
  · subst hk
    simp [hnone.1]
  · have hne : key a ≠ k := fun e => hk e.symm
    simp [hk, hne]

/-- **What is found after an `upsert`.** -/
theorem find_upsert {dflt : α}
    (hf : ∀ a, key (f a) = key a) (hd : key dflt = k) (l : List α) (k' : κ) :
    find key (upsert key larger k f dflt l) k' =
      if k' = k then some (f ((find key l k').getD dflt)) else find key l k' := by
  have hsome : (modifyFirst key k f l).isSome = (find key l k).isSome := modifyFirst_isSome
  unfold upsert
  cases hm : modifyFirst key k f l with
  | some l' =>
    rw [hm] at hsome
    obtain ⟨a, ha⟩ := isSome_iff_exists.1 hsome.symm
    rw [getD_some, find_modifyFirst hf k' hm]
    split
    next hk => simp [hk, ha]
    · rfl
  | none =>
    have hnone := find_eq_none hm
    have hkey : key (f dflt) = k := (hf dflt).trans hd
    rw [getD_none, find_insertBefore (by rw [hkey]; exact hnone), hkey]
    split
    next hk => simp [hk, hnone]
    · rfl

theorem insertBefore_perm (larger : α → Bool) (l : List α) (a : α) :
    (insertBefore larger l a).Perm (a :: l) := by
  have hmiddle := @List.perm_middle _ a (l.rdropWhile larger) (l.rtakeWhile larger)
  rwa [rdropWhile_append_rtakeWhile] at hmiddle

theorem perm_cons_eraseP (h : find key l k = some a) :
    l.Perm (a :: l.eraseP (key · = k)) := by
  induction l with
  | nil => cases h
  | cons b l ih =>
    by_cases hb : key b = k
    · simp_all [find]
    · rw [eraseP_cons_of_neg (by simpa using hb)]
      exact ((ih (by simpa [find, List.find?_cons, hb] using h)).cons b).trans (.swap _ _ _)

theorem modifyFirst_perm :
    ∀ {l l' : List α}, modifyFirst key k f l = some l' →
      ∃ a, find key l k = some a ∧ l'.Perm (f a :: l.eraseP (key · = k))
  | [], l', h => by cases h
  | a :: l, l', h => by
    rw [modifyFirst] at h
    split at h
    next ha =>
      cases h
      exact ⟨a, by simp [find, ha], by simp [ha]⟩
    next ha =>
      obtain ⟨l'', hl, rfl⟩ := map_eq_some_iff.1 h
      obtain ⟨b, hb, hperm⟩ := modifyFirst_perm hl
      refine ⟨b, by simpa [find, List.find?_cons, ha] using hb, ?_⟩
      rw [eraseP_cons_of_neg (by simpa using ha)]
      exact (hperm.cons a).trans (List.Perm.swap _ _ _)

/-- **The records after an `upsert`**: the changed one and all but the first of its key. -/
theorem upsert_perm (larger : α → Bool) (k : κ) (f : α → α) (dflt : α) (l : List α) :
    (upsert key larger k f dflt l).Perm
      (f ((find key l k).getD dflt) :: l.eraseP (key · = k)) := by
  unfold upsert
  cases hm : modifyFirst key k f l with
  | some l' =>
    obtain ⟨a, ha, hperm⟩ := modifyFirst_perm hm
    rw [ha]
    exact hperm
  | none =>
    have hnone := find_eq_none hm
    rw [hnone, eraseP_of_forall_not (List.find?_eq_none.1 hnone)]
    exact insertBefore_perm larger l (f dflt)

theorem map_key_modifyFirst (hf : ∀ a, key (f a) = key a) :
    ∀ {l l' : List α}, modifyFirst key k f l = some l' → l'.map key = l.map key
  | [], l', h => by cases h
  | a :: l, l', h => by
    rw [modifyFirst] at h
    split at h
    · cases h
      simp [hf]
    · obtain ⟨l'', hl, rfl⟩ := map_eq_some_iff.1 h
      simp [map_key_modifyFirst hf hl]

omit [DecidableEq κ] in
/-- Put before the larger ones, a record keeps an order of the keys. -/
theorem insertBefore_pairwise [IsTrans κ r] (hl : l.Pairwise fun a b => r (key a) (key b))
    (hlarger : ∀ b ∈ l, if larger b then r (key a) (key b) else r (key b) (key a)) :
    (insertBefore larger l a).Pairwise (fun a b => r (key a) (key b)) := by
  rw [← rdropWhile_append_rtakeWhile larger l] at hl hlarger
  obtain ⟨hlow, hhigh, hcross⟩ := pairwise_append.1 hl
  have hafter : ∀ b ∈ l.rtakeWhile larger, r (key a) (key b) := by
    intro b hb
    have hb' := hlarger b (mem_append_right _ hb)
    rwa [if_pos (mem_rtakeWhile_imp hb)] at hb'
  -- the last of the others is not larger, and they lie before it
  have hbefore : ∀ b ∈ l.rdropWhile larger, r (key b) (key a) := by
    intro b hb
    have hne : l.rdropWhile larger ≠ [] := ne_nil_of_mem hb
    have hlast := hlarger _ (mem_append_left _ (getLast_mem hne))
    rw [if_neg (rdropWhile_last_not _ _ hne)] at hlast
    rw [← dropLast_append_getLast hne] at hb hlow
    rcases mem_append.1 hb with hb | hb
    · have hbl := (pairwise_append.1 hlow).2.2 b hb _ (mem_singleton_self _)
      exact IsTrans.trans _ _ _ hbl hlast
    · exact mem_singleton.1 hb ▸ hlast
  refine pairwise_append.2 ⟨hlow, pairwise_cons.2 ⟨hafter, hhigh⟩, fun b hb c hc => ?_⟩
  rcases mem_cons.1 hc with rfl | hc
  · exact hbefore b hb
  · exact hcross b hb c hc

/-- An `upsert` keeps the order of the keys by which it puts new records in their place. -/
theorem upsert_pairwise [IsTrans κ r] {dflt : α} (hf : ∀ a, key (f a) = key a) (hd : key dflt = k)
    (hl : l.Pairwise fun a b => r (key a) (key b))
    (hlarger : ∀ b, key b ≠ k → if larger b then r k (key b) else r (key b) k) :
    (upsert key larger k f dflt l).Pairwise (fun a b => r (key a) (key b)) := by
  unfold upsert
  cases hm : modifyFirst key k f l with
  | some l' =>
    have hkeys : ∀ l : List α, l.Pairwise (fun a b => r (key a) (key b)) ↔ (l.map key).Pairwise r :=
      fun l => pairwise_map.symm
    rwa [getD_some, hkeys, map_key_modifyFirst hf hm, ← hkeys]
  | none =>
    have hkey : key (f dflt) = k := (hf dflt).trans hd
    refine insertBefore_pairwise hl fun b hb => ?_
    rw [hkey]
    exact hlarger b (by simpa using List.find?_eq_none.1 (find_eq_none hm) b hb)

end KeyedList
