import Mathlib.Data.List.Basic

/-!
# Function bodies as sequences of blocks

A block of a function body works on the function's variables: it fails, returns from the
function, or falls through to the next block. `runBlocks` runs the blocks of a body in order. What
every block keeps, the body keeps (`runBlocks_keeps`); a block whose guard fails is skipped.
-/

namespace Blocks

open List

/-- What a successful `do` block did. -/
theorem bind_eq_ok {ε α β : Type} {x : Except ε α} {f : α → Except ε β} {r : β}
    (h : x >>= f = .ok r) : ∃ a, x = .ok a ∧ f a = .ok r := by
  cases x with
  | error e => exact nomatch h
  | ok a => exact ⟨a, rfl, h⟩

/-- How a block ends. -/
inductive Flow (σ : Type) where
  | ret (s : σ)
  | go (s : σ)

def Flow.state {σ : Type} : Flow σ → σ
  | .ret s => s
  | .go s => s

variable {σ ε : Type}

abbrev Block (σ ε : Type) := σ → Except ε (Flow σ)

def runBlocks : List (Block σ ε) → σ → Except ε σ
  | [], s => .ok s
  | b :: bs, s =>
    match b s with
    | .error e => .error e
    | .ok (.ret s') => .ok s'
    | .ok (.go s') => runBlocks bs s'

def Keeps (I : σ → Prop) (b : Block σ ε) : Prop :=
  ∀ s f, I s → b s = .ok f → I f.state

/-- The block does nothing in a state that meets `I`. -/
def Skips (I : σ → Prop) (b : Block σ ε) : Prop :=
  ∀ s, I s → b s = .ok (.go s)

variable {bs : List (Block σ ε)}

theorem runBlocks_keeps {I : σ → Prop} (h : ∀ b ∈ bs, Keeps I b) {s s' : σ} (hs : I s)
    (hrun : runBlocks bs s = .ok s') : I s' := by
  induction bs generalizing s with
  | nil =>
    cases hrun
    exact hs
  | cons b bs ih =>
    have hb := h b mem_cons_self
    unfold runBlocks at hrun
    split at hrun
    · cases hrun
    · cases hrun
      exact hb s _ hs ‹_›
    next s₁ hgo =>
      exact ih (fun b' hb' => h b' (mem_cons_of_mem b hb')) (hb s (.go s₁) hs hgo) hrun

theorem runBlocks_of_skips {I : σ → Prop} (h : ∀ b ∈ bs, Skips I b) {s : σ} (hs : I s) :
    runBlocks bs s = .ok s := by
  induction bs with
  | nil => rfl
  | cons b bs ih =>
    rw [runBlocks, h b mem_cons_self s hs]
    exact ih fun b' hb' => h b' (mem_cons_of_mem b hb')

end Blocks
