import Mmorpg.Handoff.FenceScripts
import Mmorpg.Lib.FreshSwap
import Mmorpg.Lib.Run

/-!
# Fence records never come back

The scripts of the handoff barrier against one player's keys, with commands that are issued
once and may be carried out at any later time and any number of times. Between two scripts
everything but the fence field may change arbitrarily. Every issued command writes a record
that was not seen before (its nonce is fresh), or is sent again with the same records.

The system refines swaps of one register with fresh values (`System.step_refines`), which gives
**no return**; that the order of the stored record never decreases is a property of the scripts
alone.
-/

namespace Mmorpg.Handoff

open Decimal FreshSwap List Machine

inductive ScriptName where
  | register
  | cancelRegistration
  | revoke
  | release
  | credential
  | publish
  | judge
  | resume
deriving DecidableEq, Repr

/-- The command as a swap of the fence record: what it replaces and what it writes. Marker,
epoch, location and time arguments do not belong to it. -/
def Command.swap : Command → Option (Swap ScriptName Text)
  | .register _ candidate prior => some ⟨.register, [prior], candidate⟩
  | .cancelRegistration _ candidate prior next =>
    some ⟨.cancelRegistration, [candidate, prior], next⟩
  | .confirm _ _ => none
  | .revoke held published next _ => some ⟨.revoke, [held, published], next⟩
  | .release _ _ _ held next => some ⟨.release, [held], next⟩
  | .credential _ _ _ observed next => some ⟨.credential, [observed], next⟩
  | .publish _ _ _ held next => some ⟨.publish, [held], next⟩
  | .judge held published next _ => some ⟨.judge, [held, published], next⟩
  | .resume old next _ _ => some ⟨.resume, [old], next⟩

variable {c : Command}

theorem Command.swap_of_next {next : Text} (h : c.next = some next) :
    ∃ w, c.swap = some w ∧ w.consumed = c.consumed ∧ w.next = next := by
  cases c <;> simp_all [Command.swap, Command.next, Command.consumed]

def Store.raw (s : Store) : Text := s.handoffFence.getD []

def Store.record (s : Store) : Option Fence := s.handoffFence.bind fence

theorem raw_of_prior {s : Store} {raw : Text} {old : Option Fence}
    (h : s.prior = some (raw, old)) : s.raw = raw ∧ s.record = old := by
  rcases prior_parsed h with ⟨hs, rfl, rfl⟩ | ⟨hs, f, hf, rfl⟩
  · simp [Store.raw, Store.record, hs]
  · simp [Store.raw, Store.record, hs, hf]

/-! ## The system -/

/-- One player's keys, the commands issued so far and the records seen in them. -/
structure System where
  store : Store
  issued : List Command
  known : List Text

/-- `issue` sends a command for the first time (or again with other arguments), `deliver i`
carries out the `i`-th issued command, `others` is everybody else. -/
inductive FenceEvent where
  | issue (c : Command)
  | deliver (i : Nat)
  | others (o : Store)
deriving DecidableEq, Repr

namespace System

def start (s : Store) : System := ⟨s, [], [[], s.raw]⟩

def issue (s : System) (c : Command) : System :=
  { s with
    issued := s.issued ++ [c]
    known := s.known ++ match c.swap with
      | some w => w.consumed ++ [w.next]
      | none => [] }

def exec (s : System) (c : Command) : System :=
  { s with store := s.store.apply (c.outcome s.store) }

def step (s : System) : FenceEvent → System
  | .issue c => s.issue c
  | .deliver i =>
    match s.issued[i]? with
    | some c => s.exec c
    | none => s
  | .others o => { s with store := { o with handoffFence := s.store.handoffFence } }

def history (s : System) : History ScriptName Text :=
  ⟨s.store.raw, s.known, s.issued.filterMap Command.swap⟩

/-- Fresh nonces: a command is issued with a new record, or with the records of a command of
the same kind issued before. -/
def Ok (s : System) : FenceEvent → Prop
  | .issue c => ∀ w, c.swap = some w → s.history.Fresh w
  | _ => True

variable {s : System} {f : Fence}

theorem start_wellBorn (s : Store) : (start s).history.WellBorn :=
  History.WellBorn.start _ _ (by simp [start])

/-- The stored bytes change only by a write over a consumed record. -/
theorem exec_raw (s : System) (c : Command) :
    (s.exec c).store.raw = s.store.raw ∨ ∃ w mark r, c.swap = some w ∧
      c.outcome s.store = .write w.next mark r ∧ (s.exec c).store.raw = w.next ∧
      s.store.raw ∈ w.consumed := by
  cases ho : c.outcome s.store with
  | refuse r => exact .inl (by simp [exec, ho, Store.apply])
  | write next mark r =>
    obtain ⟨hnext, nxt, hrep⟩ := Command.outcome_write ho
    obtain ⟨raw, old, hprior, hmem, -⟩ := hrep.stored
    obtain ⟨w, hw, hwc, rfl⟩ := Command.swap_of_next hnext
    have hraw := (raw_of_prior hprior).1
    have hnew : (s.exec c).store.raw = w.next := by
      simp [exec, ho, Store.apply, Store.raw]
    rcases mem_append.1 hmem with hmem | hmem
    · exact .inr ⟨w, mark, r, hw, rfl, hnew, by rw [hraw, hwc]; exact hmem⟩
    · exact .inl (by rw [hnew, hraw, mem_singleton.1 hmem])

/-- A script leaves the stored bytes or swaps them. -/
theorem exec_refines (hc : c ∈ s.issued) : History.Steps s.history (s.exec c).history := by
  rcases exec_raw s c with hsame | ⟨w, -, -, hw, -, hnew, hmem⟩
  · have : (s.exec c).history = s.history := by
      simp only [history, hsame]
      rfl
    rw [this]
  · have : (s.exec c).history = { s.history with stored := w.next } := by
      simp only [history, hnew]
      rfl
    rw [this]
    exact .single (.swap _ w (mem_filterMap.2 ⟨c, hc, hw⟩) hmem)

theorem step_refines {e : FenceEvent} (hok : s.Ok e) :
    History.Steps s.history (s.step e).history := by
  cases e with
  | issue c =>
    cases hw : c.swap with
    | none =>
      have : (s.step (.issue c)).history = s.history := by
        simp [history, step, issue, hw, filterMap_append]
      rw [this]
    | some w =>
      have : (s.step (.issue c)).history = s.history.issue w := by
        simp [history, step, issue, hw, filterMap_append, History.issue]
      rw [this]
      exact .single (.issue _ w (hok w hw))
  | deliver i =>
    simp only [step]
    split
    next c hc => exact exec_refines (mem_of_getElem? hc)
    · exact .refl
  | others o => exact .refl

variable {evs : List FenceEvent}

theorem run_refines (hok : Admits step Ok s evs) :
    History.Steps s.history (run step s evs).history := by
  induction evs generalizing s with
  | nil => exact .refl
  | cons e evs ih => exact (step_refines hok.1).trans (ih hok.2)

/-! ## The order of the stored record -/

/-- No script lowers the order of the stored record. -/
theorem exec_order (s : Store) (c : Command) (hf : s.record = some f) :
    ∃ f', (s.apply (c.outcome s)).record = some f' ∧ f.order ≤ f'.order := by
  cases ho : c.outcome s with
  | refuse r => exact ⟨f, hf, le_rfl⟩
  | write next mark r =>
    obtain ⟨-, nxt, hrep⟩ := Command.outcome_write ho
    obtain ⟨raw, old, hprior, -, hle⟩ := hrep.stored
    refine ⟨nxt, by simp [Store.record, Store.apply, hrep.parsed], hle f ?_⟩
    rw [← (raw_of_prior hprior).2, hf]

theorem step_order (s : System) (e : FenceEvent) (hf : s.store.record = some f) :
    ∃ f', (s.step e).store.record = some f' ∧ f.order ≤ f'.order := by
  cases e with
  | issue c | others o => exact ⟨f, hf, le_rfl⟩
  | deliver i =>
    simp only [step]
    split
    next c hc => exact exec_order s.store c hf
    · exact ⟨f, hf, le_rfl⟩

theorem run_order (s : System) (evs : List FenceEvent) (hf : s.store.record = some f) :
    ∃ f', (run step s evs).store.record = some f' ∧ f.order ≤ f'.order := by
  induction evs generalizing s f with
  | nil => exact ⟨f, hf, le_rfl⟩
  | cons e evs ih =>
    obtain ⟨f', hf', hle⟩ := step_order s e hf
    obtain ⟨f'', hf'', hle'⟩ := ih (s.step e) hf'
    exact ⟨f'', hf'', hle.trans hle'⟩

/-! ## No return -/

/-- In the run `evs` the bytes `r` were stored at some time and were not at some later time.
The empty text stands for "no record". -/
def ReplacedIn (s₀ : Store) (evs : List FenceEvent) (r : Text) : Prop :=
  ∃ pre mid post, evs = pre ++ (mid ++ post) ∧
    (run step (start s₀) pre).store.raw = r ∧
    (run step (start s₀) (pre ++ mid)).store.raw ≠ r

theorem ReplacedIn.raw_ne {s₀ : Store} {r : Text} (h : ReplacedIn s₀ evs r)
    (hok : Admits step Ok (start s₀) evs) :
    (run step (start s₀) evs).store.raw ≠ r := by
  obtain ⟨pre, mid, post, rfl, hstored, hgone⟩ := h
  obtain ⟨hpre, hrest⟩ := admits_append.1 hok
  obtain ⟨hmid, hpost⟩ := admits_append.1 hrest
  have hb := (start_wellBorn s₀).steps (run_refines hpre)
  rw [run_append, run_append]
  rw [run_append] at hgone
  rw [← hstored] at hgone ⊢
  exact History.Steps.stored_ne hb (run_refines hmid) (run_refines hpost) hgone

/-- A script none of whose consumed records is stored writes nothing new. -/
theorem apply_of_not_consumed {s : Store} (h : s.raw ∉ c.consumed) :
    (s.apply (c.outcome s)).handoffFence = s.handoffFence ∧
      (s.handoffFence ≠ c.next → s.apply (c.outcome s) = s) := by
  cases ho : c.outcome s with
  | refuse r => exact ⟨rfl, fun _ => rfl⟩
  | write next mark r =>
    obtain ⟨hnext, nxt, hrep⟩ := Command.outcome_write ho
    obtain ⟨raw, old, hprior, hmem, -⟩ := hrep.stored
    have hraw := (raw_of_prior hprior).1
    have heq : raw = next := by
      rcases mem_append.1 hmem with hmem | hmem
      · exact absurd (hraw ▸ hmem) h
      · exact mem_singleton.1 hmem
    -- the new record parses, so it is not the empty text that stands for "no record"
    have hstored : s.handoffFence = some next := by
      rcases prior_parsed hprior with ⟨-, h0, -⟩ | ⟨hs, -⟩
      · have := hrep.parsed
        rw [← heq, h0] at this
        cases this
      · rw [hs, heq]
    exact ⟨hstored.symm, fun hne => absurd (hstored.trans hnext.symm) hne⟩

/-- **Fence records never come back.** Take any run of the scripts with fresh records, with
commands that are carried out late and repeatedly, and any other changes in between.

* A record (or "no record") that was stored and then replaced is not stored at the end.
* A command all of whose consumed records were replaced leaves the fence field as it is, and
  writes nothing at all unless the stored record is its own new one.
* The owner epoch and admission generation of the stored record have not decreased since any
  earlier point of the run. -/
theorem fence_records_never_return (s₀ : Store) (evs : List FenceEvent)
    (hok : Machine.Admits step Ok (start s₀) evs) :
    let s := Machine.run step (start s₀) evs
    (∀ r, ReplacedIn s₀ evs r → s.store.raw ≠ r) ∧
    (∀ c : Command, (∀ x ∈ c.consumed, ReplacedIn s₀ evs x) →
      (s.store.apply (c.outcome s.store)).handoffFence = s.store.handoffFence ∧
      (s.store.handoffFence ≠ c.next → s.store.apply (c.outcome s.store) = s.store)) ∧
    (∀ pre post, evs = pre ++ post →
      ∀ f, (Machine.run step (start s₀) pre).store.record = some f →
      ∃ f', s.store.record = some f' ∧ f.order ≤ f'.order) := by
  intro s
  refine ⟨fun r hr => hr.raw_ne hok, fun c hc => apply_of_not_consumed fun hmem => ?_, ?_⟩
  · exact (hc _ hmem).raw_ne hok rfl
  · rintro pre post rfl f hf
    simp only [s, run_append]
    exact run_order _ post hf

def sampleRecord (k t : Char) : Text :=
  ['1', '|', 's', '|', '1', '|'] ++ List.replicate 32 'a' ++ ['|', k, '|'] ++ List.replicate 32 t

def sampleStore : Store := ⟨some ['1'], none, none, none, none, none, none, true, true⟩

/-- Registration, release, then both commands again: the held record does not come back. -/
theorem fence_records_never_return_release :
    let held := sampleRecord 'H' 'b'
    let frozen := sampleRecord 'F' 'c'
    let evs : List FenceEvent :=
      [.issue (.register ['1'] held []), .deliver 0,
        .issue (.release ['1'] ['1', ':', '5'] ['3', '0', '0'] held frozen), .deliver 1,
        .deliver 0, .deliver 1]
    let s := Machine.run step (start sampleStore) evs
    s.store.raw = frozen ∧ s.store.raw ≠ held := by
  intro held frozen evs s
  refine ⟨by decide, ?_⟩
  have hok : Machine.Admits step Ok (start sampleStore) evs := by
    refine ⟨?_, trivial, ?_, trivial, trivial, trivial, trivial⟩
    · rintro w hw
      cases hw
      exact .inr (by decide)
    · rintro w hw
      cases hw
      exact .inr (by decide)
  refine (fence_records_never_return sampleStore evs hok).1 held ?_
  exact ⟨evs.take 2, (evs.drop 2).take 2, evs.drop 4, by decide, by decide, by decide⟩

end System

end Mmorpg.Handoff
