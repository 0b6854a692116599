import Mathlib.Data.List.Nodup
import Mathlib.Logic.Function.Basic
import Mmorpg.Snowflake.Node

/-!
# The lock-free generator

`SnowFlakeAtomic` (snow_flake.h) keeps the last second and step in one 64-bit word. A thread reads
the clock, loads the word, picks the steps it will take and stores the last of them with a
compare-exchange, which may also fail without a reason; a batch repeats this until it is complete.
Threads are interleaved between any two of these accesses.
-/

namespace Mmorpg.Snowflake.Atomic

open List

/-- What a thread does next: nothing, load the word, or exchange the word it loaded. -/
inductive Phase where
  | idle
  | load (count : Nat)
  | exchange (count now current : Nat)
deriving DecidableEq, Repr

/-- Second, first step and number of steps that `Generate` and `GenerateBatch` take when the clock
read `now`, the word was `current` and a wait for the clock would end with `advanced`. -/
def pick (count now current advanced : Nat) : Nat × Nat × Nat :=
  let last_time := current >>> 15
  let last_step := current &&& stepMask
  if now > last_time then (now, 0, min (stepMask + 1) count)
  else if last_step < stepMask then (last_time, last_step + 1, min (stepMask - last_step) count)
  else (if advanced > last_time then advanced else last_time + 1, 0, min (stepMask + 1) count)

structure State where
  nodeID : Nat
  timeStep : Nat
  threads : Nat → Phase
  /-- The ids given to any thread. -/
  ids : List Nat

inductive Event where
  /-- `Generate` takes one id as a batch of one does. -/
  | generate (thread : Nat)
  | generateBatch (thread count : Nat)
  | load (thread now : Nat)
  | exchange (thread advanced : Nat) (spurious : Bool)

def State.goto (s : State) (thread : Nat) (p : Phase) : State :=
  { s with threads := Function.update s.threads thread p }

/-- The loop head of a call that still needs `count` ids. -/
def State.again (s : State) (thread count : Nat) : State :=
  s.goto thread (if count = 0 then .idle else .load count)

def step (s : State) : Event → State
  | .generate thread => if s.threads thread = .idle then s.again thread 1 else s
  | .generateBatch thread count => if s.threads thread = .idle then s.again thread count else s
  | .load thread now =>
    match s.threads thread with
    | .load count => s.goto thread (.exchange count now s.timeStep)
    | _ => s
  | .exchange thread advanced spurious =>
    match s.threads thread with
    | .exchange count now current =>
      if s.timeStep = current ∧ !spurious then
        let (mint_time, step_start, step_count) := pick count now current advanced
        { s.again thread (count - step_count) with
          timeStep := (mint_time <<< 15) % 2 ^ 64 ||| (step_start + step_count - 1)
          ids := s.ids ++ (range step_count).map fun i =>
            composeID s.nodeID mint_time (step_start + i) }
      else s.again thread count
    | _ => s

def initial (nodeID : Nat) : State := ⟨nodeID, 0, fun _ => .idle, []⟩

def MintsBelow (s : State) : Event → Prop
  | .exchange thread advanced spurious =>
    match s.threads thread with
    | .exchange count now current =>
      s.timeStep = current ∧ !spurious → (pick count now current advanced).1 < 2 ^ 32
    | _ => True
  | _ => True

instance (s : State) : DecidablePred (MintsBelow s)
  | .exchange thread _ _ => by unfold MintsBelow; dsimp only; split <;> infer_instance
  | .generate _ | .generateBatch _ _ | .load _ _ => isTrue trivial

/-- The id of a second and step packed into one number. -/
def idOf (nodeID v : Nat) : Nat := composeID nodeID (v / 2 ^ 15) (v % 2 ^ 15)

theorem idOf_inj {nodeID v v' : Nat} (hnode : nodeID ≤ NodeMask) (hv : v < 2 ^ 47)
    (hv' : v' < 2 ^ 47) (h : idOf nodeID v = idOf nodeID v') : v = v' := by
  unfold idOf at h
  rw [composeID_eq hnode (by omega) (by unfold stepMask; omega),
    composeID_eq hnode (by omega) (by unfold stepMask; omega)] at h
  omega

variable {mint_time step_start step_count : Nat} {s : State}

/-- The steps picked lie past the loaded word and in one second. -/
theorem pick_spec {count now current advanced : Nat} (hcount : 0 < count)
    (hpick : pick count now current advanced = (mint_time, step_start, step_count)) :
    current < mint_time * 2 ^ 15 + step_start ∧ 0 < step_count ∧
      step_start + step_count ≤ 2 ^ 15 := by
  have hstep : current &&& stepMask = current % 2 ^ 15 := Nat.and_two_pow_sub_one_eq_mod _ 15
  unfold pick at hpick
  dsimp only at hpick
  rw [hstep, Nat.shiftRight_eq_div_pow] at hpick
  unfold stepMask at hpick
  split at hpick
  · cases hpick
    omega
  split at hpick
  · cases hpick
    omega
  · cases hpick
    split <;> omega

/-- A call that is under way needs at least one more id. -/
def Phase.Asks : Phase → Prop
  | .idle => True
  | .load count | .exchange count _ _ => 0 < count

/-- Every id given so far is that of a packed number up to the word, and the word fits the fields
of an id. -/
structure Inv (s : State) : Prop where
  node : s.nodeID ≤ NodeMask
  fits : s.timeStep < 2 ^ 47
  distinct : s.ids.Nodup
  bounded : ∀ id ∈ s.ids, ∃ v ≤ s.timeStep, id = idOf s.nodeID v
  asks : ∀ thread, (s.threads thread).Asks

theorem Inv.goto (h : Inv s) {thread : Nat} {p : Phase} (hp : p.Asks) :
    Inv (s.goto thread p) := by
  refine { h with asks := fun thread' => ?_ }
  simp only [State.goto, Function.update_apply]
  by_cases heq : thread' = thread
  · rw [if_pos heq]
    exact hp
  · rw [if_neg heq]
    exact h.asks thread'

theorem Inv.again (h : Inv s) (thread count : Nat) : Inv (s.again thread count) := by
  unfold State.again
  split
  · exact h.goto trivial
  · exact h.goto (Nat.pos_of_ne_zero ‹_›)

/-- The steps of a second past the word are taken, the last of them stored. -/
theorem Inv.mint (h : Inv s)
    (hbelow : mint_time < 2 ^ 32) (hpast : s.timeStep < mint_time * 2 ^ 15 + step_start)
    (hsome : 0 < step_count) (hroom : step_start + step_count ≤ 2 ^ 15) :
    Inv { s with
      timeStep := (mint_time <<< 15) % 2 ^ 64 ||| (step_start + step_count - 1)
      ids := s.ids ++ (range step_count).map fun i =>
        composeID s.nodeID mint_time (step_start + i) } := by
  have hnext : (mint_time <<< 15) % 2 ^ 64 ||| (step_start + step_count - 1) =
      mint_time * 2 ^ 15 + (step_start + step_count - 1) := by
    rw [Nat.mod_eq_of_lt (by rw [Nat.shiftLeft_eq]; omega),
      ← Nat.shiftLeft_add_eq_or_of_lt (by omega), Nat.shiftLeft_eq]
  have hid : ∀ i < step_count, composeID s.nodeID mint_time (step_start + i) =
      idOf s.nodeID (mint_time * 2 ^ 15 + step_start + i) := by
    intro i hi
    rw [idOf]
    congr 1 <;> omega
  rw [hnext]
  refine ⟨h.node, ?_, ?_, ?_, h.asks⟩
  · dsimp only
    omega
  · refine Nodup.append h.distinct ?_ ?_
    · refine Nodup.map_on ?_ nodup_range
      intro i hi j hj heq
      have hi := mem_range.1 hi
      have hj := mem_range.1 hj
      rw [hid i hi, hid j hj] at heq
      have := idOf_inj h.node (by omega) (by omega) heq
      omega
    · -- An id given before is that of a number up to the old word.
      intro id hold hnew
      obtain ⟨v, hv, rfl⟩ := h.bounded id hold
      obtain ⟨i, hi, heq⟩ := mem_map.1 hnew
      have hi := mem_range.1 hi
      have hfits := h.fits
      rw [hid i hi] at heq
      have := idOf_inj h.node (by omega) (by omega) heq
      omega
  · intro id hmem
    dsimp only
    obtain hold | hnew := mem_append.1 hmem
    · obtain ⟨v, hv, rfl⟩ := h.bounded id hold
      exact ⟨v, by omega, rfl⟩
    · obtain ⟨i, hi, rfl⟩ := mem_map.1 hnew
      have hi := mem_range.1 hi
      exact ⟨_, by omega, hid i hi⟩

theorem Inv.step (h : Inv s) {e : Event} (hbelow : MintsBelow s e) :
    Inv (step s e) := by
  cases e with
  | generate thread =>
    simp only [Atomic.step]
    split
    · exact h.again thread 1
    · exact h
  | generateBatch thread count =>
    simp only [Atomic.step]
    split
    · exact h.again thread count
    · exact h
  | load thread now =>
    have hasks := h.asks thread
    simp only [Atomic.step]
    split
    · next heq =>
      rw [heq] at hasks
      exact h.goto hasks
    · exact h
  | exchange thread advanced spurious =>
    have hasks := h.asks thread
    simp only [MintsBelow] at hbelow
    simp only [Atomic.step]
    split
    · next count now current heq =>
      simp only [heq] at hasks hbelow
      split
      · next hsame =>
        -- Only a thread that loaded the word as it now is gets here.
        have hbelow := hbelow hsame
        obtain ⟨rfl, -⟩ := hsame
        obtain ⟨hpast, hsome, hroom⟩ := pick_spec hasks rfl
        exact (h.again thread _).mint hbelow hpast hsome hroom
      · exact h.again thread count
    · exact h

/-- However the loads and exchanges of any threads are interleaved, with any clock readings: while
every second minted in is below 2^32, no id is given twice. -/
theorem atomic_ids_distinct {nodeID : Nat} (hnode : nodeID ≤ NodeMask) {evs : List Event}
    (hbelow : Machine.Admits step MintsBelow (initial nodeID) evs) :
    (Machine.run step (initial nodeID) evs).ids.Nodup := by
  have hinit : Inv (initial nodeID) :=
    ⟨hnode, Nat.two_pow_pos 47, nodup_nil, fun id hid => absurd hid not_mem_nil,
      fun _ => trivial⟩
  have hinv : Inv (Machine.run step (initial nodeID) evs) :=
    Machine.run_invariant_of_admits (fun _ _ h hok => h.step hok) hinit hbelow
  exact hinv.distinct

/-- Two threads load the same word, the second with a wrong clock; its exchange fails and is
repeated. -/
def sampleEvents : List Event :=
  [.generate 0, .generateBatch 1 2, .load 0 (2 ^ 32), .load 1 5, .exchange 1 0 false,
    .exchange 0 0 false, .load 0 4, .exchange 0 0 false]

theorem atomic_ids_distinct_sampleEvents :
    (Machine.run step (initial 9) sampleEvents).ids =
      [composeID 9 5 0, composeID 9 5 1, composeID 9 5 2] ∧
    (Machine.run step (initial 9) sampleEvents).ids.Nodup :=
  ⟨by decide, atomic_ids_distinct (by decide) (by decide)⟩

/-- Clock readings 2^32 seconds apart give one id twice. -/
theorem atomic_ids_repeat_past_time_field :
    ¬ (Machine.run step (initial 9) [.generate 0, .load 0 1, .exchange 0 0 false,
      .generate 0, .load 0 (1 + 2 ^ 32), .exchange 0 0 false]).ids.Nodup := by
  decide

end Mmorpg.Snowflake.Atomic
