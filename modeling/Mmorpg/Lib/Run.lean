import Mathlib.Data.List.Basic

/-!
# Runs of event-driven machines

A machine is a total step function `σ → ε → σ`: an event that is not enabled leaves the
state as it is. A run is a list of events, so a statement about every interleaving is a
statement about every list. This file has the rules the protocol proofs use: splitting a
run, the invariant rule (also for runs whose events meet an admission condition), the rule
for relations kept between a state and every later one, and the simulation rule.
-/

namespace Machine

variable {σ τ ε : Type*}

/-- The state reached from `s` by the events of a run. -/
def run (step : σ → ε → σ) (s : σ) (evs : List ε) : σ := evs.foldl step s

section

variable (step : σ → ε → σ)

variable (s : σ)

@[simp] theorem run_nil : run step s [] = s := rfl

@[simp] theorem run_cons (e : ε) (evs : List ε) :
    run step s (e :: evs) = run step (step s e) evs := rfl

theorem run_append (evs evs' : List ε) :
    run step s (evs ++ evs') = run step (run step s evs) evs' := List.foldl_append

theorem run_snoc (evs : List ε) (e : ε) : run step s (evs ++ [e]) = step (run step s evs) e := by
  rw [run_append]
  rfl

end

variable {step : σ → ε → σ} {I : σ → Prop} {s : σ} {ok ok' : σ → ε → Prop} {evs : List ε}

/-- What every step keeps, every run keeps. -/
theorem run_invariant (hstep : ∀ s e, I s → I (step s e)) (h : I s) (evs : List ε) :
    I (run step s evs) := by
  induction evs generalizing s with
  | nil => exact h
  | cons e evs ih => exact ih (hstep s e h)

/-- A relation that is a preorder and holds across every step that starts in the invariant
holds between a state and every later one. -/
theorem run_rel {R : σ → σ → Prop} (hinv : ∀ s e, I s → I (step s e)) (hrefl : ∀ s, R s s)
    (htrans : ∀ {a b c}, R a b → R b c → R a c)
    (hstep : ∀ s e, I s → R s (step s e)) (h : I s) (evs : List ε) :
    R s (run step s evs) := by
  induction evs generalizing s with
  | nil => exact hrefl s
  | cons e evs ih => exact htrans (hstep s e h) (ih (hinv s e h))

/-- Two machines driven by the same events stay related when every step keeps the
relation. -/
theorem run_simulates {step' : τ → ε → τ} {R : σ → τ → Prop}
    (hstep : ∀ s t e, R s t → R (step s e) (step' t e)) {t : τ} (h : R s t)
    (evs : List ε) : R (run step s evs) (run step' t evs) := by
  induction evs generalizing s t with
  | nil => exact h
  | cons e evs ih => exact ih (hstep s t e h)

/-- Every event of the run meets `ok` in the state in which it happens. -/
def Admits (step : σ → ε → σ) (ok : σ → ε → Prop) : σ → List ε → Prop
  | _, [] => True
  | s, e :: evs => ok s e ∧ Admits step ok (step s e) evs

instance decidableAdmits (step : σ → ε → σ) (ok : σ → ε → Prop) [∀ s e, Decidable (ok s e)] :
    (s : σ) → (evs : List ε) → Decidable (Admits step ok s evs)
  | _, [] => isTrue trivial
  | s, e :: evs =>
    have := decidableAdmits step ok (step s e) evs
    inferInstanceAs (Decidable (ok s e ∧ Admits step ok (step s e) evs))

/-- The invariant rule for runs whose events are admitted. -/
theorem run_invariant_of_admits (hstep : ∀ s e, I s → ok s e → I (step s e)) (h : I s)
    (hok : Admits step ok s evs) : I (run step s evs) := by
  induction evs generalizing s with
  | nil => exact h
  | cons e evs ih => exact ih (hstep s e h hok.1) hok.2

/-- A condition on the events alone. -/
theorem admits_of_forall {ok : ε → Prop}
    (h : ∀ e ∈ evs, ok e) : Admits step (fun _ e => ok e) s evs := by
  induction evs generalizing s with
  | nil => trivial
  | cons e evs ih =>
    exact ⟨h e List.mem_cons_self, ih fun e' he' => h e' (List.mem_cons_of_mem e he')⟩

theorem admits_imp {p : Prop} (h : p → Admits step ok s evs) :
    Admits step (fun s e => p → ok s e) s evs := by
  induction evs generalizing s with
  | nil => trivial
  | cons e evs ih => exact ⟨fun hp => (h hp).1, ih fun hp => (h hp).2⟩

theorem Admits.and (h : Admits step ok s evs) (h' : Admits step ok' s evs) :
    Admits step (fun s e => ok s e ∧ ok' s e) s evs := by
  induction evs generalizing s with
  | nil => trivial
  | cons e evs ih => exact ⟨⟨h.1, h'.1⟩, ih h.2 h'.2⟩

theorem admits_append {evs' : List ε} :
    Admits step ok s (evs ++ evs') ↔
      Admits step ok s evs ∧ Admits step ok (run step s evs) evs' := by
  induction evs generalizing s with
  | nil => simp [Admits]
  | cons e evs ih => simp [Admits, ih, and_assoc]

end Machine
