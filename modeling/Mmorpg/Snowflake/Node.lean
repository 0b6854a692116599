import Mathlib.Algebra.Order.Ring.Nat
import Mmorpg.Lib.Run

/-!
# Snowflake ids of one Go node

An id holds the second in which it was minted, the worker id and a step within the second
(`composeID`, the layout the C++ generators share). A `Node` (shared/snowflake/snowflake.go) keeps
the last second it has minted in as a high water, never moved back: while the clock is not past it
the node uses up that second's steps, and then waits for the clock or borrows the next second, at
most `maxBorrowAheadSec` ahead of the clock. A guard lifts the high water to a second of which no
step is left, so that what follows a restart is minted later than all before it.
-/

namespace Mmorpg.Snowflake

open List Machine

def Epoch : Int := 1773446400

def stepMask : Nat := 2 ^ 15 - 1

def NodeMask : Nat := 2 ^ 17 - 1

def maxBorrowAheadSec : Nat := 10

/-- The 64-bit id `[time:32][node:17][step:15]`; a second from 2^32 on loses its high bits. -/
def composeID (nodeID time step : Nat) : Nat :=
  (time <<< 32) % 2 ^ 64 ||| nodeID <<< 15 ||| step

def timeField (id : Nat) : Nat := id >>> 32

theorem composeID_eq {nodeID time step : Nat} (hnode : nodeID ≤ NodeMask) (htime : time < 2 ^ 32)
    (hstep : step ≤ stepMask) :
    composeID nodeID time step = time * 2 ^ 32 + nodeID * 2 ^ 15 + step := by
  have hwrap : (time <<< 32) % 2 ^ 64 = time <<< 32 := by
    rw [Nat.shiftLeft_eq]
    exact Nat.mod_eq_of_lt (by omega)
  have hlow : nodeID <<< 15 ||| step = nodeID <<< 15 + step :=
    (Nat.shiftLeft_add_eq_or_of_lt (by unfold stepMask at hstep; omega) _).symm
  have hhigh : nodeID <<< 15 + step < 2 ^ 32 := by
    unfold NodeMask at hnode
    unfold stepMask at hstep
    rw [Nat.shiftLeft_eq]
    omega
  rw [composeID, hwrap, Nat.or_assoc, hlow, ← Nat.shiftLeft_add_eq_or_of_lt hhigh,
    Nat.shiftLeft_eq, Nat.shiftLeft_eq, Nat.add_assoc]

theorem timeField_composeID {nodeID time step : Nat} (hnode : nodeID ≤ NodeMask)
    (htime : time < 2 ^ 32) (hstep : step ≤ stepMask) :
    timeField (composeID nodeID time step) = time := by
  rw [composeID_eq hnode htime hstep, timeField, Nat.shiftRight_eq_div_pow]
  unfold NodeMask at hnode
  unfold stepMask at hstep
  omega

theorem timeField_mono {id id' : Nat} (h : id ≤ id') : timeField id ≤ timeField id' := by
  simp only [timeField, Nat.shiftRight_eq_div_pow]
  exact Nat.div_le_div_right h

/-! ## The node -/

structure Node where
  nodeID : Nat
  lastTime : Nat
  step : Nat
deriving DecidableEq, Repr

inductive GenerateError where
  | fenced
  | watermarkStale
  | borrowLimitExceeded
deriving DecidableEq, Repr

/-- One call of `Generate`: what the fence and the watermark age say before the lock is held and
before the id is handed out, and the wall clock (in seconds) when it is read: once at first, and
in `waitNextTime` until the wait ends. -/
structure Call where
  entry : Option GenerateError
  now : Int
  waitFirst : Int
  waitRest : List Int
  exit : Option GenerateError
deriving DecidableEq, Repr

def nowEpoch (sec : Int) : Nat := if sec < Epoch then 0 else (sec - Epoch).toNat

/-- `none`: the node is refused. -/
def newNode (nodeID : Nat) (sec : Int) : Option Node :=
  if nodeID > NodeMask then none
  else if sec < Epoch then none
  else some ⟨nodeID, nowEpoch sec, stepMask⟩

/-- The reading with which the wait ends: the first one past `last`, or the one at the deadline. -/
def waitNextTime (last : Nat) : Int → List Int → Nat
  | sec, [] => nowEpoch sec
  | sec, sec' :: secs => if nowEpoch sec > last then nowEpoch sec else waitNextTime last sec' secs

namespace Node

def setGuardTime (n : Node) (guardEpochSec : Nat) : Node :=
  if guardEpochSec ≤ n.lastTime then n
  else { n with lastTime := guardEpochSec, step := stepMask }

/-- The second and step of the next id, with `uint64` sums; `none` if the borrow budget is used
up. -/
def advance (n : Node) (c : Call) : Option Node :=
  if nowEpoch c.now > n.lastTime then some { n with lastTime := nowEpoch c.now, step := 0 }
  else if n.step < stepMask then some { n with step := n.step + 1 }
  else
    let advanced := waitNextTime n.lastTime c.waitFirst c.waitRest
    if advanced > n.lastTime then some { n with lastTime := advanced, step := 0 }
    else if (n.lastTime + 1) % 2 ^ 64 > (advanced + maxBorrowAheadSec) % 2 ^ 64 then none
    else some { n with lastTime := (n.lastTime + 1) % 2 ^ 64, step := 0 }

def id (n : Node) : Nat := composeID n.nodeID n.lastTime n.step

def generate (n : Node) (c : Call) : Node × Except GenerateError Nat :=
  match c.entry with
  | some e => (n, .error e)
  | none =>
    match n.advance c with
    | none => (n, .error .borrowLimitExceeded)
    | some n' =>
      match c.exit with
      -- The second and step are used up although nobody gets the id.
      | some e => (n', .error e)
      | none => (n', .ok n'.id)

end Node

inductive Event where
  | generate (c : Call)
  | setGuardTime (guardEpochSec : Nat)
deriving DecidableEq, Repr

def step (n : Node) : Event → Node
  | .generate c => (n.generate c).1
  | .setGuardTime g => n.setGuardTime g

def minted (n : Node) : Event → Option Nat
  | .generate c => (n.generate c).2.toOption
  | .setGuardTime _ => none

def ids (n : Node) : List Event → List Nat
  | [] => []
  | e :: evs => (minted n e).toList ++ ids (step n e) evs

def Event.isGuard : Event → Bool
  | .generate _ => false
  | .setGuardTime _ => true

/-- The guards of an event are at most `guard` and its clock readings at most `clock`. -/
def Event.Within (guard clock : Nat) : Event → Prop
  | .generate c => ∀ sec ∈ c.now :: c.waitFirst :: c.waitRest, nowEpoch sec ≤ clock
  | .setGuardTime g => g ≤ guard

/-- The high water stays below 2^32 along the run. -/
def TimeFits (n : Node) (evs : List Event) : Prop :=
  n.lastTime < 2 ^ 32 ∧ Admits step (fun n e => (step n e).lastTime < 2 ^ 32) n evs

instance (n : Node) (evs : List Event) : Decidable (TimeFits n evs) :=
  inferInstanceAs (Decidable (_ ∧ _))

theorem ids_append (n : Node) (evs evs' : List Event) :
    ids n (evs ++ evs') = ids n evs ++ ids (run step n evs) evs' := by
  induction evs generalizing n with
  | nil => rfl
  | cons e evs ih => simp [ids, ih]

/-! ## One step -/

/-- What the fields of an id need in order not to run into each other. -/
structure Node.Fits (n : Node) : Prop where
  node : n.nodeID ≤ NodeMask
  time : n.lastTime < 2 ^ 32
  step : n.step ≤ stepMask

/-- Strictly later in seconds and steps. -/
def Node.Before (n n' : Node) : Prop :=
  n.nodeID = n'.nodeID ∧
    (n.lastTime < n'.lastTime ∨ n.lastTime = n'.lastTime ∧ n.step < n'.step)

variable {n : Node} {evs : List Event}

theorem Node.Fits.id_lt {n' : Node} (h : n.Fits) (h' : n'.Fits) (hlt : n.Before n') :
    n.id < n'.id := by
  obtain ⟨hnode, hlt⟩ := hlt
  have hstep := h.step
  unfold stepMask at hstep
  rw [Node.id, Node.id, composeID_eq h.node h.time h.step, composeID_eq h'.node h'.time h'.step]
  omega

theorem Node.Fits.timeField_id (h : n.Fits) : timeField n.id = n.lastTime :=
  timeField_composeID h.node h.time h.step

theorem Node.advance_before {n' : Node} {c : Call} (h : n.Fits) (hadv : n.advance c = some n') :
    n.Before n' ∧ n'.step ≤ stepMask := by
  have htime := h.time
  unfold Node.advance at hadv
  dsimp only at hadv
  split at hadv
  · next hnow =>
    cases hadv
    exact ⟨⟨rfl, .inl hnow⟩, Nat.zero_le _⟩
  split at hadv
  · next hroom =>
    cases hadv
    exact ⟨⟨rfl, .inr ⟨rfl, Nat.lt_succ_self _⟩⟩, hroom⟩
  split at hadv
  · next hnow =>
    cases hadv
    exact ⟨⟨rfl, .inl hnow⟩, Nat.zero_le _⟩
  split at hadv
  · cases hadv
  · cases hadv
    -- The borrowed second does not wrap: the high water is far from 2^64.
    exact ⟨⟨rfl, .inl (by dsimp only; omega)⟩, Nat.zero_le _⟩

/-- A call leaves the node alone and answers an error, or moves it on and answers the new id or an
error. -/
theorem Node.generate_cases (n : Node) (c : Call) :
    ((n.generate c).1 = n ∧ (n.generate c).2.toOption = none) ∨
    ∃ n', n.advance c = some n' ∧ (n.generate c).1 = n' ∧
      ((n.generate c).2.toOption = none ∨ (n.generate c).2.toOption = some n'.id) := by
  unfold Node.generate
  split
  · exact .inl ⟨rfl, rfl⟩
  split
  · exact .inl ⟨rfl, rfl⟩
  rename_i n' hadv
  refine .inr ⟨n', hadv, ?_⟩
  split
  · exact ⟨rfl, .inl rfl⟩
  · exact ⟨rfl, .inr rfl⟩

theorem Node.Fits.setGuardTime (h : n.Fits) {g : Nat}
    (hfit : (n.setGuardTime g).lastTime < 2 ^ 32) :
    (n.setGuardTime g).Fits ∧ (n.setGuardTime g).nodeID = n.nodeID ∧
      n.id ≤ (n.setGuardTime g).id := by
  unfold Node.setGuardTime at hfit ⊢
  split
  · exact ⟨h, rfl, Nat.le_refl _⟩
  rename_i hle
  rw [if_neg hle] at hfit
  have h' : Node.Fits { n with lastTime := g, step := stepMask } :=
    ⟨h.node, hfit, Nat.le_refl _⟩
  exact ⟨h', rfl, Nat.le_of_lt (h.id_lt h' ⟨rfl, .inl (Nat.lt_of_not_le hle)⟩)⟩

/-- A step does not move the high water back, and what it hands out is the new high water, past
the old one. -/
theorem Node.Fits.step_fits (h : n.Fits) {e : Event}
    (hfit : (Snowflake.step n e).lastTime < 2 ^ 32) :
    (Snowflake.step n e).Fits ∧ (Snowflake.step n e).nodeID = n.nodeID ∧
      n.id ≤ (Snowflake.step n e).id ∧
      ∀ id ∈ minted n e, n.id < id ∧ id = (Snowflake.step n e).id := by
  cases e with
  | setGuardTime g =>
    obtain ⟨hfits, hnode, hid⟩ := h.setGuardTime hfit
    exact ⟨hfits, hnode, hid, fun id hid' => by cases hid'⟩
  | generate c =>
    simp only [Snowflake.step, minted] at hfit ⊢
    obtain ⟨heq, hnone⟩ | ⟨n', hadv, heq, hans⟩ := n.generate_cases c
    · rw [heq, hnone]
      exact ⟨h, rfl, Nat.le_refl _, fun id hid => by cases hid⟩
    · rw [heq] at hfit ⊢
      obtain ⟨hbefore, hstep⟩ := Node.advance_before h hadv
      have h' : n'.Fits := ⟨hbefore.1 ▸ h.node, hfit, hstep⟩
      have hlt := h.id_lt h' hbefore
      refine ⟨h', hbefore.1.symm, Nat.le_of_lt hlt, ?_⟩
      intro id hid
      obtain hnone | hsome := hans
      · rw [hnone] at hid
        cases hid
      · rw [hsome] at hid
        cases hid
        exact ⟨hlt, rfl⟩

/-! ## Runs -/

/-- All ids of a run lie past the first high water and not past the last, and they increase. -/
theorem ids_increase (h : n.Fits) (hfit : TimeFits n evs) :
    (run step n evs).Fits ∧ (run step n evs).nodeID = n.nodeID ∧
      n.id ≤ (run step n evs).id ∧
      (∀ id ∈ ids n evs, n.id < id ∧ id ≤ (run step n evs).id ∧
        ∃ m : Node, m.Fits ∧ m.nodeID = n.nodeID ∧ m.id = id) ∧
      (ids n evs).Pairwise (· < ·) := by
  induction evs generalizing n with
  | nil => exact ⟨h, rfl, Nat.le_refl _, fun id hid => absurd hid not_mem_nil, .nil⟩
  | cons e evs ih =>
    obtain ⟨hfits, hnode, hle, hminted⟩ := h.step_fits hfit.2.1
    obtain ⟨hfits', hnode', hle', hids, hsorted⟩ := ih hfits ⟨hfit.2.1, hfit.2.2⟩
    rw [hnode] at hnode' hids
    refine ⟨hfits', hnode', Nat.le_trans hle hle', ?_, ?_⟩
    · intro id hid
      obtain hid | hid := mem_append.1 hid
      · obtain ⟨hlt, rfl⟩ := hminted id (Option.mem_toList.1 hid)
        exact ⟨hlt, hle', _, hfits, hnode, rfl⟩
      · obtain ⟨hlt, hrest⟩ := hids id hid
        exact ⟨Nat.lt_of_le_of_lt hle hlt, hrest⟩
    · refine pairwise_append.2 ⟨?_, hsorted, ?_⟩
      · cases minted n e <;> simp
      · intro id hid id' hid'
        obtain ⟨-, rfl⟩ := hminted id (Option.mem_toList.1 hid)
        exact (hids id' hid').1

/-- Guards alone leave no step of the last second, and hand out no id. -/
theorem full_of_guards (hfull : n.step = stepMask) (hguards : ∀ e ∈ evs, e.isGuard) :
    (run step n evs).step = stepMask ∧ ids n evs = [] := by
  induction evs generalizing n with
  | nil => exact ⟨hfull, rfl⟩
  | cons e evs ih =>
    cases e with
    | generate c => exact absurd (hguards _ mem_cons_self) (by simp [Event.isGuard])
    | setGuardTime g =>
      have hstep : (n.setGuardTime g).step = stepMask := by
        unfold Node.setGuardTime
        split
        · exact hfull
        · rfl
      exact ih hstep fun e he => hguards e (mem_cons_of_mem _ he)

theorem Node.le_lastTime_setGuardTime (n : Node) (g : Nat) : g ≤ (n.setGuardTime g).lastTime := by
  unfold Node.setGuardTime
  split
  · assumption
  · exact Nat.le_refl _

/-- What is minted after a guard is not below it, and past it if only guards came before. -/
theorem ids_after_guard (h : n.Fits) (hfull : n.step = stepMask) {pre post : List Event}
    {g : Nat} (hfit : TimeFits n (pre ++ .setGuardTime g :: post)) {id : Nat}
    (hid : id ∈ ids (run step n (pre ++ [.setGuardTime g])) post) :
    g ≤ timeField id ∧ ((∀ e ∈ pre, e.isGuard) → g < timeField id) := by
  obtain ⟨hpre, hpost⟩ : TimeFits n (pre ++ [.setGuardTime g]) ∧
      TimeFits (run step n (pre ++ [.setGuardTime g])) post := by
    obtain ⟨htime, hadmits⟩ := hfit
    obtain ⟨hpre, hg, hpost⟩ := admits_append.1 hadmits
    rw [TimeFits, TimeFits, run_snoc]
    exact ⟨⟨htime, admits_append.2 ⟨hpre, hg, trivial⟩⟩, hg, hpost⟩
  obtain ⟨hfits, -, -, -, -⟩ := ids_increase h hpre
  obtain ⟨-, -, -, hids, -⟩ := ids_increase hfits hpost
  obtain ⟨hlt, -, m, hm, hnode, rfl⟩ := hids id hid
  have hguard : g ≤ (run step n (pre ++ [.setGuardTime g])).lastTime := by
    rw [run_snoc]
    exact Node.le_lastTime_setGuardTime _ g
  have hmono := timeField_mono (Nat.le_of_lt hlt)
  rw [hfits.timeField_id, hm.timeField_id] at hmono
  rw [hm.timeField_id]
  refine ⟨Nat.le_trans hguard hmono, fun hguards => ?_⟩
  -- In the guard's own second no step is left for an id past it.
  have hguards' : ∀ e ∈ pre ++ [.setGuardTime g], e.isGuard := by
    intro e he
    obtain he | he := mem_append.1 he
    · exact hguards e he
    · rw [mem_singleton.1 he]
      rfl
  have hfull' := (full_of_guards hfull hguards').1
  have hstep := hm.step
  by_contra hle
  have htime : m.lastTime = (run step n (pre ++ [.setGuardTime g])).lastTime := by omega
  rw [Node.id, Node.id, hnode, htime, composeID_eq hfits.node hfits.time hfits.step,
    composeID_eq hfits.node hfits.time hstep, hfull'] at hlt
  omega

theorem waitNextTime_le {last clock : Nat} : ∀ {sec : Int} {secs : List Int},
    (∀ sec' ∈ sec :: secs, nowEpoch sec' ≤ clock) → waitNextTime last sec secs ≤ clock
  | sec, [], h => h sec mem_cons_self
  | sec, sec' :: secs, h => by
    unfold waitNextTime
    split
    · exact h sec mem_cons_self
    · exact waitNextTime_le fun s hs => h s (mem_cons_of_mem _ hs)

theorem lastTime_step_le {guard clock : Nat} {e : Event} (he : e.Within guard clock)
    (h : n.lastTime ≤ max guard (clock + maxBorrowAheadSec)) :
    (step n e).lastTime ≤ max guard (clock + maxBorrowAheadSec) := by
  cases e with
  | setGuardTime g =>
    simp only [step, Node.setGuardTime]
    split
    · exact h
    · exact Nat.le_trans he (Nat.le_max_left _ _)
  | generate c =>
    simp only [step]
    obtain ⟨heq, -⟩ | ⟨n', hadv, heq, -⟩ := n.generate_cases c
    · rwa [heq]
    have hnow : nowEpoch c.now ≤ clock := he _ mem_cons_self
    have hwait : waitNextTime n.lastTime c.waitFirst c.waitRest ≤ clock :=
      waitNextTime_le fun sec hsec => he sec (mem_cons_of_mem c.now hsec)
    rw [heq]
    unfold Node.advance at hadv
    dsimp only at hadv
    split at hadv
    · cases hadv
      exact Nat.le_trans (Nat.le_trans hnow (Nat.le_add_right _ _)) (Nat.le_max_right _ _)
    split at hadv
    · cases hadv
      exact h
    split at hadv
    · cases hadv
      exact Nat.le_trans (Nat.le_trans hwait (Nat.le_add_right _ _)) (Nat.le_max_right _ _)
    split at hadv
    · cases hadv
    rename_i hbudget
    cases hadv
    calc (n.lastTime + 1) % 2 ^ 64
        ≤ (waitNextTime n.lastTime c.waitFirst c.waitRest + maxBorrowAheadSec) % 2 ^ 64 :=
          Nat.le_of_not_lt hbudget
      _ ≤ waitNextTime n.lastTime c.waitFirst c.waitRest + maxBorrowAheadSec := Nat.mod_le _ _
      _ ≤ clock + maxBorrowAheadSec := Nat.add_le_add_right hwait _
      _ ≤ max guard (clock + maxBorrowAheadSec) := Nat.le_max_right _ _

theorem newNode_eq_some {nodeID : Nat} {sec : Int} (h : newNode nodeID sec = some n) :
    nodeID ≤ NodeMask ∧ n = ⟨nodeID, nowEpoch sec, stepMask⟩ := by
  unfold newNode at h
  split at h
  · cases h
  split at h
  · cases h
  · cases h
    exact ⟨Nat.le_of_not_lt ‹_›, rfl⟩

/-- For every sequence of calls, guards and clock readings of a node: its high water does not pass
the greatest guard or the greatest reading plus the borrow limit; while it stays below 2^32, the
ids increase strictly, each is not below a guard set before it and past one set before the first
call; and a successor of the same worker id repeats none, if a guard set before its first call is
not below the predecessor's last high water. -/
theorem node_ids_increase {nodeID : Nat} {sec : Int} {n : Node} (hn : newNode nodeID sec = some n)
    (evs : List Event) :
    (∀ guard clock, nowEpoch sec ≤ clock → (∀ e ∈ evs, e.Within guard clock) →
      (Machine.run step n evs).lastTime ≤ max guard (clock + maxBorrowAheadSec)) ∧
    (TimeFits n evs →
      (ids n evs).Pairwise (· < ·) ∧
      (∀ pre g post, evs = pre ++ .setGuardTime g :: post →
        ∀ id ∈ ids (Machine.run step n (pre ++ [.setGuardTime g])) post,
          g ≤ timeField id ∧ ((∀ e ∈ pre, e.isGuard) → g < timeField id)) ∧
      ∀ sec' n' pre g post, newNode nodeID sec' = some n' → (∀ e ∈ pre, e.isGuard) →
        (Machine.run step n evs).lastTime ≤ g → TimeFits n' (pre ++ .setGuardTime g :: post) →
        ∀ id ∈ ids n evs, ∀ id' ∈ ids n' (pre ++ .setGuardTime g :: post), id ≠ id') := by
  obtain ⟨hnode, rfl⟩ := newNode_eq_some hn
  refine ⟨fun guard clock hsec hwithin => ?_, fun hfit => ?_⟩
  · refine run_invariant_of_admits (I := fun n : Node => n.lastTime ≤ _)
      (fun n e h he => lastTime_step_le he h) ?_
      (admits_of_forall hwithin)
    exact Nat.le_trans (Nat.le_trans hsec (Nat.le_add_right _ _)) (Nat.le_max_right _ _)
  have hfits : Node.Fits ⟨nodeID, nowEpoch sec, stepMask⟩ := ⟨hnode, hfit.1, Nat.le_refl _⟩
  obtain ⟨hend, -, -, hids, hsorted⟩ := ids_increase hfits hfit
  refine ⟨hsorted, ?_, ?_⟩
  · rintro pre g post rfl id hid
    exact ids_after_guard hfits rfl hfit hid
  · intro sec' n' pre g post hn' hguards hhigh hfit' id hid id' hid'
    obtain ⟨-, rfl⟩ := newNode_eq_some hn'
    have hfits' : Node.Fits ⟨nodeID, nowEpoch sec', stepMask⟩ := ⟨hnode, hfit'.1, Nat.le_refl _⟩
    rw [ids_append, (full_of_guards rfl hguards).2, nil_append] at hid'
    have hlow : timeField id ≤ g := by
      have hmono := timeField_mono (hids id hid).2.1
      rw [hend.timeField_id] at hmono
      exact Nat.le_trans hmono hhigh
    have hpast : g < timeField id' := by
      refine (ids_after_guard hfits' rfl hfit' ?_).2 hguards
      rw [run_snoc]
      exact hid'
    rintro rfl
    omega

/-- A guard ahead of the clock, a call that waits for the clock to pass it, and one after the
clock has jumped back. -/
def sampleEvents : List Event :=
  [.setGuardTime 7, .generate ⟨none, Epoch + 6, Epoch + 6, [Epoch + 8], none⟩,
    .generate ⟨none, Epoch + 2, Epoch + 2, [], none⟩]

/-- The ids increase past the guard, and a successor whose clock is behind repeats none. -/
theorem node_ids_increase_sampleEvents :
    ids ⟨3, 5, stepMask⟩ sampleEvents = [composeID 3 8 0, composeID 3 8 1] ∧
    (ids ⟨3, 5, stepMask⟩ sampleEvents).Pairwise (· < ·) ∧
    (∀ id ∈ ids ⟨3, 5, stepMask⟩ sampleEvents, 7 < timeField id) ∧
    ∀ id ∈ ids ⟨3, 5, stepMask⟩ sampleEvents,
      ∀ id' ∈ ids ⟨3, 2, stepMask⟩ (.setGuardTime 8 :: sampleEvents), id ≠ id' := by
  have hn : newNode 3 (Epoch + 5) = some ⟨3, 5, stepMask⟩ := by decide
  obtain ⟨hsorted, hguard, hsuccessor⟩ := (node_ids_increase hn sampleEvents).2 (by decide)
  refine ⟨by decide, hsorted, fun id hid => ?_, fun id hid => ?_⟩
  · exact (hguard [] 7 _ rfl id hid).2 (by decide)
  · exact hsuccessor (Epoch + 2) ⟨3, 2, stepMask⟩ [] 8 sampleEvents (by decide) (by decide)
      (by decide) (by decide) id hid

end Mmorpg.Snowflake
