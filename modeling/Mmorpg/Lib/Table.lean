import Mathlib.Data.List.AList

/-!
# Tables with a primary key

A table is a finite map from the primary key to the rest of a row. `get`, `put` and `del` read,
write and delete the row of a key; `get_put` and `get_del` say what is read afterwards.
-/

abbrev Table (κ ρ : Type) := AList fun _ : κ => ρ

namespace Table

variable {κ ρ : Type} [DecidableEq κ]

def get (t : Table κ ρ) (k : κ) : Option ρ := AList.lookup k t

def put (t : Table κ ρ) (k : κ) (r : ρ) : Table κ ρ := AList.insert k r t

def del (t : Table κ ρ) (k : κ) : Table κ ρ := AList.erase k t

def delAll (t : Table κ ρ) (ks : List κ) : Table κ ρ := ks.foldl del t

/-- The rows with their keys. -/
def rows (t : Table κ ρ) : List (κ × ρ) := t.entries.map fun e => (e.1, e.2)

@[simp] theorem get_empty (k : κ) : get (∅ : Table κ ρ) k = none := AList.lookup_empty k

variable (t : Table κ ρ)

theorem get_put (k k' : κ) (r : ρ) : get (put t k r) k' = if k' = k then some r else get t k' := by
  split
  · subst k'
    exact AList.lookup_insert t
  · exact AList.lookup_insert_ne ‹_›

@[simp] theorem get_put_self (k : κ) (r : ρ) : get (put t k r) k = some r :=
  AList.lookup_insert t

theorem get_put_of_ne {t : Table κ ρ} {k k' : κ} {r : ρ} (h : k' ≠ k) :
    get (put t k r) k' = get t k' := AList.lookup_insert_ne h

theorem get_del (k k' : κ) : get (del t k) k' = if k' = k then none else get t k' := by
  split
  · subst k'
    exact AList.lookup_erase k t
  · exact AList.lookup_erase_ne ‹_›

theorem get_delAll (ks : List κ) (k : κ) :
    get (delAll t ks) k = if k ∈ ks then none else get t k := by
  induction ks generalizing t with
  | nil => rfl
  | cons x ks ih =>
    have hstep : get (delAll t (x :: ks)) k = get (delAll (del t x) ks) k := rfl
    rw [hstep, ih, get_del]
    by_cases hx : k = x <;> by_cases hk : k ∈ ks <;> simp [hx, hk]

theorem mem_rows {t : Table κ ρ} {k : κ} {r : ρ} : (k, r) ∈ rows t ↔ get t k = some r := by
  rw [rows, List.mem_map]
  constructor
  · rintro ⟨⟨a, b⟩, hmem, heq⟩
    obtain ⟨rfl, rfl⟩ := Prod.mk.inj heq
    exact AList.mem_lookup_iff.2 hmem
  · intro h
    exact ⟨⟨k, r⟩, AList.mem_lookup_iff.1 h, rfl⟩

end Table
