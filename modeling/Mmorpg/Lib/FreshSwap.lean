import Mathlib.Data.List.Basic
import Mathlib.Logic.Relation

/-!
# Swaps of one register with fresh values

A register is changed only by *swaps*: a swap replaces the stored value, if that is one of the
values it consumes, by its own new value. Swaps are issued once and may then be carried out at
any later time and any number of times. When the new value of every issued swap was fresh at
that time, a value that has been replaced never comes back (`Steps.stored_ne`). The argument is
one number: the place of the stored value in the order in which values became known only grows.
-/

namespace FreshSwap

open List

variable {κ α : Type*} [DecidableEq α]

/-- A conditional write: `kind` tells apart swaps with the same values. -/
structure Swap (κ α : Type*) where
  kind : κ
  consumed : List α
  next : α

/-- The register, the values seen so far in the order in which they were seen, and the swaps
issued so far. -/
structure History (κ α : Type*) where
  stored : α
  known : List α
  issued : List (Swap κ α)

namespace History

/-- A swap may be issued when it was issued before, or when its new value is seen for the
first time. -/
def Fresh (h : History κ α) (w : Swap κ α) : Prop :=
  w ∈ h.issued ∨ w.next ∉ h.known ∧ w.next ∉ w.consumed

def issue (h : History κ α) (w : Swap κ α) : History κ α :=
  { h with known := h.known ++ (w.consumed ++ [w.next]), issued := h.issued ++ [w] }

/-- Issuing a swap, or carrying out one that was issued. -/
inductive Step : History κ α → History κ α → Prop
  | issue (h : History κ α) (w : Swap κ α) (hf : h.Fresh w) : Step h (h.issue w)
  | swap (h : History κ α) (w : Swap κ α) (hw : w ∈ h.issued) (hs : h.stored ∈ w.consumed) :
      Step h { h with stored := w.next }

abbrev Steps : History κ α → History κ α → Prop := Relation.ReflTransGen Step

/-- When a value became known. -/
def birth (h : History κ α) (x : α) : Nat := h.known.idxOf x

/-- When the stored value became known. -/
def age (h : History κ α) : Nat := h.birth h.stored

/-- Every issued swap consumes values that were known before its new value, and a new value
belongs to one swap. -/
structure WellBorn (h : History κ α) : Prop where
  stored_known : h.stored ∈ h.known
  next_known : ∀ w ∈ h.issued, w.next ∈ h.known
  consumed_known : ∀ w ∈ h.issued, ∀ x ∈ w.consumed, x ∈ h.known
  consumed_lt : ∀ w ∈ h.issued, ∀ x ∈ w.consumed, h.birth x < h.birth w.next
  next_unique : ∀ w ∈ h.issued, ∀ w' ∈ h.issued, w.next = w'.next → w = w'

variable {h h' : History κ α} {w : Swap κ α}

/-- Issuing a swap does not change when a value became known. -/
theorem birth_issue {x : α} (hx : x ∈ h.known) :
    (h.issue w).birth x = h.birth x :=
  idxOf_append_of_mem hx

theorem WellBorn.start (stored : α) (known : List α) (h : stored ∈ known) :
    WellBorn (⟨stored, known, []⟩ : History κ α) :=
  ⟨h, by simp, by simp, by simp, by simp⟩

section

variable (hb : WellBorn h)

include hb

theorem WellBorn.issue (hf : h.Fresh w) : WellBorn (h.issue w) := by
  have hold : ∀ v ∈ h.issued, ∀ x ∈ v.consumed, (h.issue w).birth x < (h.issue w).birth v.next := by
    intro v hv x hx
    rw [birth_issue (hb.consumed_known v hv x hx), birth_issue (hb.next_known v hv)]
    exact hb.consumed_lt v hv x hx
  refine ⟨?_, ?_, ?_, ?_, ?_⟩
  · exact mem_append_left _ hb.stored_known
  · refine forall_mem_append.2 ⟨fun v hv => ?_, by simp [History.issue]⟩
    exact mem_append_left _ (hb.next_known v hv)
  · refine forall_mem_append.2 ⟨fun v hv x hx => ?_, by simp +contextual [History.issue]⟩
    exact mem_append_left _ (hb.consumed_known v hv x hx)
  · refine forall_mem_append.2 ⟨hold, forall_mem_singleton.2 fun x hx => ?_⟩
    rcases hf with hf | ⟨hk, hc⟩
    · exact hold w hf x hx
    -- the new value is at the very end, everything else is in front of it
    have hlast : (h.issue w).birth w.next = (h.known ++ w.consumed).length := by
      simp only [birth, History.issue, ← append_assoc]
      rw [idxOf_append_of_notMem (by simp [hk, hc])]
      simp
    have hmem : x ∈ h.known ++ w.consumed := mem_append_right _ hx
    have hx : (h.issue w).birth x = (h.known ++ w.consumed).idxOf x := by
      simp only [birth, History.issue, ← append_assoc]
      exact idxOf_append_of_mem hmem
    rw [hlast, hx]
    exact idxOf_lt_length_of_mem hmem
  · intro v hv v' hv' heq
    simp only [History.issue, mem_append, mem_singleton] at hv hv'
    rcases hf with hf | ⟨hk, -⟩
    · -- the swap was issued before, so both are among the old ones
      have hin : ∀ u, u ∈ h.issued ∨ u = w → u ∈ h.issued := by
        rintro u (hu | rfl)
        · exact hu
        · exact hf
      exact hb.next_unique v (hin v hv) v' (hin v' hv') heq
    · rcases hv with hv | rfl <;> rcases hv' with hv' | rfl
      · exact hb.next_unique v hv v' hv' heq
      · exact absurd (heq ▸ hb.next_known v hv) hk
      · exact absurd (heq ▸ hb.next_known v' hv') hk
      · rfl

theorem WellBorn.step (hs : Step h h') : WellBorn h' := by
  cases hs with
  | issue w hf => exact hb.issue hf
  | swap w hw hs => exact ⟨hb.next_known w hw, hb.next_known, hb.consumed_known,
      hb.consumed_lt, hb.next_unique⟩

theorem WellBorn.steps (hs : Steps h h') : WellBorn h' := by
  induction hs with
  | refl => exact hb
  | tail _ hstep ih => exact ih.step hstep

/-- A step leaves the stored value and its age, or makes the age greater. -/
theorem Step.age (hs : Step h h') : h'.stored = h.stored ∧ h'.age = h.age ∨ h.age < h'.age := by
  cases hs with
  | issue w hf => exact .inl ⟨rfl, birth_issue hb.stored_known⟩
  | swap w hw hs => exact .inr (hb.consumed_lt w hw _ hs)

theorem Steps.age (hs : Steps h h') : h'.stored = h.stored ∧ h'.age = h.age ∨ h.age < h'.age := by
  induction hs with
  | refl => exact .inl ⟨rfl, rfl⟩
  | tail hsteps hstep ih =>
    rcases ih with ⟨hv, ha⟩ | hlt <;> rcases hstep.age (hb.steps hsteps) with ⟨hv', ha'⟩ | hlt'
    · exact .inl ⟨hv'.trans hv, ha'.trans ha⟩
    · exact .inr (ha ▸ hlt')
    · exact .inr (ha' ▸ hlt)
    · exact .inr (Nat.lt_trans hlt hlt')

end

/-- When a value became known does not change later on. -/
theorem Steps.birth_eq (hs : Steps h h') {x : α} (hx : x ∈ h.known) :
    x ∈ h'.known ∧ h'.birth x = h.birth x := by
  induction hs with
  | refl => exact ⟨hx, rfl⟩
  | tail _ hstep ih =>
    cases hstep with
    | issue w hf => exact ⟨mem_append_left _ ih.1, (birth_issue ih.1).trans ih.2⟩
    | swap w hw hs => exact ih

/-- **No value comes back.** What was stored and is stored no more is never stored again. -/
theorem Steps.stored_ne {h₁ h₂ h₃ : History κ α} (hb : WellBorn h₁) (h₁₂ : Steps h₁ h₂)
    (h₂₃ : Steps h₂ h₃) (hne : h₂.stored ≠ h₁.stored) : h₃.stored ≠ h₁.stored := by
  intro heq
  have hlt : h₁.age < h₂.age := (h₁₂.age hb).resolve_left fun h => hne h.1
  have hle : h₂.age ≤ h₃.age := by
    rcases h₂₃.age (hb.steps h₁₂) with ⟨-, ha⟩ | ha <;> omega
  have hsame : h₃.age = h₁.age := by
    have hall : Steps h₁ h₃ := h₁₂.trans h₂₃
    rw [History.age, heq, (hall.birth_eq hb.stored_known).2]
    rfl
  omega

end History

end FreshSwap
