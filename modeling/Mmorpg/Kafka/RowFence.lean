import Mathlib.Data.Prod.Lex
import Mathlib.Algebra.BigOperators.Group.List.Basic
import Mathlib.Data.Nat.Cast.Order.Ring
import Mmorpg.Lib.Run

/-!
# The row fence of the player tables

`savePlayerRow` (go/db/internal/kafka/player_row_fence.go) writes one row of a player table.
It probes whether the row exists, inserts it when it does not, and otherwise locks the row
in a transaction, compares the stored `(fence_owner_epoch, fence_save_seq)` with the task's
and writes, refuses, or (same version) answers with the stored row. The schema-generation
check `schemaRegressed` runs under the same row lock.

The three SQL steps are separate definitions (`sqlStep`), so that any number of writers can
interleave their steps. In that machine the stored version never decreases and, once every writer
is through, the row is the one of the greatest version (`interleaved_writes_converge`).
-/

namespace Mmorpg.Kafka

open List

/-- A player-table message, which is also the stored row. `columns` stands for everything
the fence does not read. -/
structure PlayerRow (β : Type) where
  playerId : Nat
  fenceOwnerEpoch : Nat
  fenceSaveSeq : Nat
  persistSchemaGen : Nat
  columns : β
deriving DecidableEq, Repr

inductive WriteKind where
  | applied
  | equal
  | olderSeq
  | staleOwner
  | legacyAfterSeq
  | persistUnstamped
  | schemaRegression
deriving DecidableEq, Repr

structure WriteOutcome where
  kind : WriteKind
  storedEpoch : Nat
deriving DecidableEq, Repr

def WriteOutcome.publishes (o : WriteOutcome) : Bool :=
  o.kind == .applied || o.kind == .equal

inductive FenceError where
  | identityMismatch
  | seqWithoutEpoch
  | rowVanished
deriving DecidableEq, Repr

/-- `effectiveGen`: an unstamped message counts as generation 1. -/
def effectiveGen (raw : Nat) : Nat := if raw = 0 then 1 else raw

namespace PlayerRow

variable {β : Type}

/-- `schemaRegressed`: the message's generation is below the stored row's. -/
def schemaRegressed (target current : PlayerRow β) : Bool :=
  effectiveGen target.persistSchemaGen < effectiveGen current.persistSchemaGen

def version (r : PlayerRow β) : Nat ×ₗ Nat := toLex (r.fenceOwnerEpoch, r.fenceSaveSeq)

end PlayerRow

structure RowWrite (β : Type) where
  key : Nat
  ownerEpoch : Nat
  saveSeq : Nat
  msg : PlayerRow β
deriving DecidableEq, Repr

namespace RowWrite

variable {β : Type}

/-- The checks of `savePlayerRow` before any SQL, and the message with the fence columns
set: from the task in dual mode, zero in legacy mode. -/
def target (dual : Bool) (t : RowWrite β) : Except FenceError (PlayerRow β) :=
  if t.msg.playerId ≠ t.key then .error .identityMismatch
  else if t.saveSeq ≠ 0 ∧ t.ownerEpoch = 0 then .error .seqWithoutEpoch
  else .ok { t.msg with
    fenceOwnerEpoch := if dual then t.ownerEpoch else 0
    fenceSaveSeq := if dual then t.saveSeq else 0 }

end RowWrite

/-! ## The SQL steps -/

section Sql

variable {β : Type}

/-- `Insert` of proto2mysql is assumed to write the whole message, or to fail with `ErrDuplicateKey`
and change nothing when the row exists. -/
def insertRow (row : Option (PlayerRow β)) (target : PlayerRow β) : Option (PlayerRow β) × Bool :=
  match row with
  | none => (some target, true)
  | some r => (some r, false)

/-- The transaction of `savePlayerRow` on a locked row. It returns the row after commit,
the outcome, and the message the caller goes on with: `equal` replaces it by the stored
row. Of proto2mysql it is assumed that `FindOneByPKForUpdate` gives every column of the row and
locks it until the transaction ends, and that `Save` replaces every column. -/
def saveLocked (dual : Bool) (row : Option (PlayerRow β)) (target : PlayerRow β) :
    Option (PlayerRow β) × Except FenceError (WriteOutcome × PlayerRow β) :=
  match row with
  | none => (none, .error .rowVanished)
  | some current =>
    let oldEpoch := current.fenceOwnerEpoch
    let oldSeq := current.fenceSaveSeq
    let epoch := target.fenceOwnerEpoch
    let seq := target.fenceSaveSeq
    if !dual then
      if target.schemaRegressed current then
        (row, .ok (⟨.schemaRegression, oldEpoch⟩, target))
      else
        (some { target with fenceOwnerEpoch := oldEpoch, fenceSaveSeq := oldSeq },
          .ok (⟨.applied, oldEpoch⟩, target))
    else if epoch = 0 ∧ (oldEpoch ≠ 0 ∨ oldSeq ≠ 0) then
      (row, .ok (⟨.legacyAfterSeq, oldEpoch⟩, target))
    else if epoch < oldEpoch then
      (row, .ok (⟨.staleOwner, oldEpoch⟩, target))
    else if epoch ≠ 0 ∧ seq ≠ 0 ∧ epoch = oldEpoch ∧ seq < oldSeq then
      (row, .ok (⟨.olderSeq, oldEpoch⟩, target))
    else if epoch ≠ 0 ∧ seq ≠ 0 ∧ epoch = oldEpoch ∧ seq = oldSeq then
      (row, .ok (⟨.equal, oldEpoch⟩, current))
    else if target.schemaRegressed current then
      (row, .ok (⟨.schemaRegression, oldEpoch⟩, target))
    else if seq = 0 ∧ epoch ≠ 0 ∧ oldEpoch = epoch then
      (some { target with fenceSaveSeq := oldSeq }, .ok (⟨.applied, oldEpoch⟩, target))
    else
      (some target, .ok (⟨.applied, oldEpoch⟩, target))

inductive WriterPc (β : Type) where
  | probe
  | insert
  | locked
  | done (outcome : WriteOutcome) (msg : PlayerRow β)
deriving DecidableEq, Repr

/-- The SQL step that `savePlayerRow` does next, and where it stands after it. A vanished row is an
error like a driver error: the task starts over. -/
def sqlStep (dual : Bool) (row : Option (PlayerRow β)) (target : PlayerRow β) :
    WriterPc β → Option (PlayerRow β) × WriterPc β
  | .probe => (row, if row.isSome then .locked else .insert)
  | .insert =>
    let (row, inserted) := insertRow row target
    (row, if inserted then .done ⟨.applied, 0⟩ target else .locked)
  | .locked =>
    match saveLocked dual row target with
    | (row, .ok (o, msg)) => (row, .done o msg)
    | (row, .error _) => (row, .probe)
  | .done o msg => (row, .done o msg)

end Sql

def PlayerRow.Strict {β : Type} (r : PlayerRow β) : Prop :=
  1 ≤ r.fenceOwnerEpoch ∧ 1 ≤ r.fenceSaveSeq

section Strict

variable {β : Type} {current target : PlayerRow β}

theorem PlayerRow.version_lt_iff :
    current.version < target.version ↔ current.fenceOwnerEpoch < target.fenceOwnerEpoch ∨
      current.fenceOwnerEpoch = target.fenceOwnerEpoch ∧
        current.fenceSaveSeq < target.fenceSaveSeq :=
  Prod.Lex.toLex_lt_toLex

/-- On a locked row of no newer schema generation, a strict write is a compare-and-set on
the version: it replaces the row exactly when its version is greater. -/
theorem saveLocked_strict (hs : target.Strict) (hg : target.schemaRegressed current = false) :
    ∃ o, saveLocked true (some current) target =
      (some (if current.version < target.version then target else current), .ok o) := by
  obtain ⟨he, hq⟩ := hs
  have he0 : target.fenceOwnerEpoch ≠ 0 := by omega
  have hq0 : target.fenceSaveSeq ≠ 0 := by omega
  simp only [saveLocked, he0, PlayerRow.version_lt_iff, hg, hq0, ne_eq]
  by_cases h1 : target.fenceOwnerEpoch < current.fenceOwnerEpoch
  · have hn : ¬ (current.fenceOwnerEpoch < target.fenceOwnerEpoch ∨
        current.fenceOwnerEpoch = target.fenceOwnerEpoch ∧
          current.fenceSaveSeq < target.fenceSaveSeq) := by omega
    simp only [h1, hn]
    exact ⟨_, rfl⟩
  · by_cases h2 : target.fenceOwnerEpoch = current.fenceOwnerEpoch
    · rw [h2]
      simp only [lt_irrefl]
      rcases lt_trichotomy target.fenceSaveSeq current.fenceSaveSeq with h3 | h3 | h3
      · simp only [h3, Nat.lt_asymm h3]
        exact ⟨_, rfl⟩
      · rw [h3]
        simp only [lt_irrefl]
        exact ⟨_, rfl⟩
      · simp only [h3, Nat.lt_asymm h3, (Nat.ne_of_lt h3).symm]
        exact ⟨_, rfl⟩
    · have hlt : current.fenceOwnerEpoch < target.fenceOwnerEpoch := by omega
      simp only [h1, h2, hlt]
      exact ⟨_, rfl⟩

/-- Whatever the schema generations are, a strict write leaves a locked row or raises its
version, and a write that is to be published, or of no older generation, is not ahead of the
row. -/
theorem saveLocked_raises (hs : target.Strict) :
    ((saveLocked true (some current) target).1 = some current ∨
      (saveLocked true (some current) target).1 = some target ∧
        current.version < target.version) ∧
    ∀ o m, (saveLocked true (some current) target).2 = .ok (o, m) →
      (o.publishes = true ∨ target.schemaRegressed current = false) →
      ∃ r, (saveLocked true (some current) target).1 = some r ∧ target.version ≤ r.version := by
  by_cases hg : target.schemaRegressed current = true
  · -- only an equal version is published, and it leaves the row
    obtain ⟨he, hq⟩ := hs
    have he0 : target.fenceOwnerEpoch ≠ 0 := by omega
    have hq0 : target.fenceSaveSeq ≠ 0 := by omega
    simp only [saveLocked, Bool.not_true, Bool.false_eq_true, if_false, he0, false_and, ne_eq,
      not_false_eq_true, true_and, hq0, hg]
    split
    · exact ⟨.inl rfl, by rintro o m ⟨⟩ (h | h) <;> cases h⟩
    split
    · exact ⟨.inl rfl, by rintro o m ⟨⟩ (h | h) <;> cases h⟩
    split
    next hsame =>
      refine ⟨.inl rfl, fun _ _ _ _ => ⟨current, rfl, le_of_eq ?_⟩⟩
      rw [PlayerRow.version, PlayerRow.version, hsame.1, hsame.2]
    · exact ⟨.inl rfl, by rintro o m ⟨⟩ (h | h) <;> cases h⟩
  · obtain ⟨o, ho⟩ := saveLocked_strict hs (Bool.eq_false_iff.2 hg)
    rw [ho]
    by_cases hlt : current.version < target.version
    · simp [hlt]
    · simp [hlt, not_lt.1 hlt]

/-- An SQL step of a strict write leaves the row or raises its version, and a write that is through
and has something to publish, or is of no older generation, is not ahead of the row. -/
theorem sqlStep_raises {row : Option (PlayerRow β)} (hs : target.Strict) (pc : WriterPc β) :
    ((sqlStep true row target pc).1 = row ∨
      (sqlStep true row target pc).1 = some target ∧
        ∀ r, row = some r → r.version < target.version) ∧
    ((sqlStep true row target pc).2 = .locked → (sqlStep true row target pc).1.isSome) ∧
    ∀ o m, (sqlStep true row target pc).2 = .done o m →
      (o.publishes = true ∨ ∀ r, row = some r → target.schemaRegressed r = false) →
      pc = .done o m ∧ (sqlStep true row target pc).1 = row ∨
        ∃ r, (sqlStep true row target pc).1 = some r ∧ target.version ≤ r.version := by
  unfold sqlStep
  cases pc with
  | probe | insert =>
    cases row with
    | none | some r => simp [insertRow]
  | locked =>
    cases row with
    | none => simp [saveLocked]
    | some r =>
      obtain ⟨hrow, hpub⟩ := @saveLocked_raises _ r _ hs
      rcases hsave : saveLocked true (some r) target with ⟨row', e | ⟨o, m⟩⟩
      · rw [hsave] at hrow
        exact ⟨by simpa using hrow, nofun, nofun⟩
      · rw [hsave] at hrow hpub
        refine ⟨by simpa using hrow, nofun, fun o' m' hdone hp => ?_⟩
        obtain ⟨rfl, rfl⟩ := WriterPc.done.inj hdone
        exact .inr (hpub _ _ rfl (hp.imp_right fun hg => hg r rfl))
  | done o m => simp

end Strict

/-! ## Any number of writers -/

structure Writer (β : Type) where
  target : PlayerRow β
  pc : WriterPc β

structure FenceState (β : Type) where
  row : Option (PlayerRow β)
  writers : List (Writer β)

/-- `advance i` runs the next SQL step of writer `i`; `abort i` is a driver error, a
deadlock or a crash, after which the task is redelivered and starts over. -/
inductive WriterEvent where
  | advance (i : Nat)
  | abort (i : Nat)
deriving DecidableEq, Repr

namespace FenceState

variable {β : Type}

def step (dual : Bool) (s : FenceState β) : WriterEvent → FenceState β
  | .advance i =>
    match s.writers[i]? with
    | none => s
    | some w =>
      let (row, pc) := sqlStep dual s.row w.target w.pc
      { row, writers := s.writers.set i { w with pc } }
  | .abort i =>
    match s.writers[i]? with
    | none => s
    | some w =>
      match w.pc with
      | .done _ _ => s
      | _ => { s with writers := s.writers.set i { w with pc := .probe } }

/-- The state before the first step: every task that passes the checks of `savePlayerRow`
becomes a writer. -/
def start (dual : Bool) (row : Option (PlayerRow β)) (tasks : List (RowWrite β)) :
    FenceState β where
  row
  writers := tasks.filterMap fun t =>
    match t.target dual with
    | .ok target => some ⟨target, .probe⟩
    | .error _ => none

def finished (s : FenceState β) : Bool :=
  s.writers.all fun w => match w.pc with
    | .done _ _ => true
    | _ => false

section Converge

variable {g : Nat} {row0 : Option (PlayerRow β)} {targets : List (PlayerRow β)}

/-- What holds of the row and the writers while strict writes of one schema generation
interleave: the row is the initial one or some writer's, it is at least as new as the write
of every writer that is through, and a writer only waits for the lock of a row that exists. -/
structure Converging (row0 : Option (PlayerRow β)) (targets : List (PlayerRow β))
    (s : FenceState β) : Prop where
  targets_eq : s.writers.map (·.target) = targets
  source : ∀ r, s.row = some r →
    row0 = some r ∨ r ∈ targets ∧ ∀ r0, row0 = some r0 → r0.version < r.version
  kept : ∀ r0, row0 = some r0 → ∃ r, s.row = some r ∧ r0.version ≤ r.version
  done_le : ∀ w ∈ s.writers, ∀ o m, w.pc = .done o m →
    ∃ r, s.row = some r ∧ w.target.version ≤ r.version
  locked : ∀ w ∈ s.writers, w.pc = .locked → s.row.isSome

variable {w : Writer β}

theorem map_target_set {writers : List (Writer β)} {i : Nat}
    (hw : writers[i]? = some w) (pc : WriterPc β) :
    (writers.set i { w with pc }).map (·.target) = writers.map (·.target) := by
  obtain ⟨hi, rfl⟩ := List.getElem?_eq_some_iff.1 hw
  apply ext_getElem?
  intro j
  by_cases hij : i = j
  · subst hij
    simp [hi]
  · simp [hij]

variable (hstrict : ∀ t ∈ targets, t.Strict ∧ effectiveGen t.persistSchemaGen = g)
  (h0 : ∀ r, row0 = some r → effectiveGen r.persistSchemaGen ≤ g)

include hstrict h0

variable {s : FenceState β}

section

variable (h : Converging row0 targets s)

include h

/-- Every stored row is of the generation at hand or an older one. -/
theorem Converging.not_regressed {t : PlayerRow β} (ht : t ∈ targets) {r : PlayerRow β}
    (hr : s.row = some r) :
    t.schemaRegressed r = false := by
  have hle : effectiveGen r.persistSchemaGen ≤ g := by
    rcases h.source r hr with hr0 | ⟨hr0, -⟩
    · exact h0 r hr0
    · exact le_of_eq (hstrict r hr0).2
  have ht := (hstrict t ht).2
  simp only [PlayerRow.schemaRegressed, decide_eq_false_iff_not]
  omega

theorem Converging.step (e : WriterEvent) :
    Converging row0 targets (s.step true e) ∧
      ∀ r, s.row = some r → ∃ r', (s.step true e).row = some r' ∧ r.version ≤ r'.version := by
  have hself : ∀ r, s.row = some r → ∃ r', s.row = some r' ∧ r.version ≤ r'.version :=
    fun r hr => ⟨r, hr, le_rfl⟩
  cases e with
  | abort i =>
    simp only [FenceState.step]
    cases hw : s.writers[i]? with
    | none => exact ⟨h, hself⟩
    | some w =>
      cases hpc : w.pc with
      | done o m => simp only [hpc]; exact ⟨h, hself⟩
      | _ =>
        simp only [hpc]
        refine ⟨⟨?_, h.source, h.kept, ?_, ?_⟩, hself⟩
        · exact (map_target_set hw _).trans h.targets_eq
        · intro w' hw' o m ho
          rcases mem_or_eq_of_mem_set hw' with hw' | rfl
          · exact h.done_le w' hw' o m ho
          · cases ho
        · intro w' hw' ho
          rcases mem_or_eq_of_mem_set hw' with hw' | rfl
          · exact h.locked w' hw' ho
          · cases ho
  | advance i =>
    simp only [FenceState.step]
    cases hw : s.writers[i]? with
    | none => exact ⟨h, hself⟩
    | some w =>
      have hmem : w ∈ s.writers := mem_of_getElem? hw
      have htar : w.target ∈ targets := by
        rw [← h.targets_eq]
        exact mem_map_of_mem hmem
      obtain ⟨hrow, hlock, hdone⟩ := @sqlStep_raises _ _ s.row (hstrict _ htar).1 w.pc
      have hmono : ∀ r, s.row = some r → ∃ r', (sqlStep true s.row w.target w.pc).1 = some r' ∧
          r.version ≤ r'.version := by
        intro r hr
        rcases hrow with hrow | ⟨hrow, hlt⟩
        · exact ⟨r, hrow.trans hr, le_rfl⟩
        · exact ⟨_, hrow, le_of_lt (hlt r hr)⟩
      refine ⟨⟨?_, ?_, ?_, ?_, ?_⟩, hmono⟩
      · exact (map_target_set hw _).trans h.targets_eq
      · intro r hr
        rcases hrow with hrow | ⟨hrow, hlt⟩
        · exact h.source r (hrow ▸ hr)
        · obtain rfl := Option.some.inj (hrow.symm.trans hr)
          refine Or.inr ⟨htar, fun r0 hr0 => ?_⟩
          obtain ⟨cur, hcur, hle⟩ := h.kept r0 hr0
          exact hle.trans_lt (hlt cur hcur)
      · intro r0 hr0
        obtain ⟨r, hr, hle⟩ := h.kept r0 hr0
        obtain ⟨r', hr', hle'⟩ := hmono r hr
        exact ⟨r', hr', hle.trans hle'⟩
      · intro w' hw' o m ho
        rcases mem_or_eq_of_mem_set hw' with hw' | rfl
        · obtain ⟨r, hr, hle⟩ := h.done_le w' hw' o m ho
          obtain ⟨r', hr', hle'⟩ := hmono r hr
          exact ⟨r', hr', hle.trans hle'⟩
        · rcases hdone o m ho (.inr fun r hr => h.not_regressed hstrict h0 htar hr) with
            ⟨hpc, hsame⟩ | hr
          · obtain ⟨r, hr, hle⟩ := h.done_le w hmem o m hpc
            exact ⟨r, hsame.trans hr, hle⟩
          · exact hr
      · intro w' hw' ho
        rcases mem_or_eq_of_mem_set hw' with hw' | rfl
        · obtain ⟨r, hr⟩ := Option.isSome_iff_exists.1 (h.locked w' hw' ho)
          obtain ⟨r', hr', -⟩ := hmono r hr
          simp [hr']
        · exact hlock ho

variable (evs : List WriterEvent)

theorem Converging.run : Converging row0 targets (Machine.run (FenceState.step true) s evs) :=
  Machine.run_invariant (fun _ e h => (h.step hstrict h0 e).1) h evs

/-- Between any two states of a run the stored version does not decrease. -/
theorem Converging.version_mono :
    ∀ r, s.row = some r →
      ∃ r', (Machine.run (FenceState.step true) s evs).row = some r' ∧ r.version ≤ r'.version := by
  refine Machine.run_rel (I := Converging row0 targets)
    (R := fun s s' => ∀ r, s.row = some r → ∃ r', s'.row = some r' ∧ r.version ≤ r'.version)
    (fun _ e h => (h.step hstrict h0 e).1) (fun s r hr => ⟨r, hr, le_rfl⟩) ?_
    (fun _ e h => (h.step hstrict h0 e).2) h evs
  intro a b c hab hbc r hr
  obtain ⟨r', hr', hle⟩ := hab r hr
  obtain ⟨r'', hr'', hle'⟩ := hbc r' hr'
  exact ⟨r'', hr'', hle.trans hle'⟩

end

omit hstrict h0 in
/-- When every writer is through, the row is at least as new as every write. -/
theorem Converging.le_of_finished (h : Converging row0 targets s)
    (hf : s.finished = true) {t : PlayerRow β} (ht : t ∈ targets) :
    ∃ r, s.row = some r ∧ t.version ≤ r.version := by
  rw [← h.targets_eq] at ht
  obtain ⟨w, hw, rfl⟩ := mem_map.1 ht
  have hd := all_eq_true.1 hf w hw
  cases hpc : w.pc with
  | done o m => exact h.done_le w hw o m hpc
  | _ => simp [hpc] at hd

/-! ### Every schedule can be completed -/

/-- The SQL steps a writer still has to do, at most. -/
def WriterPc.rank : WriterPc β → Nat
  | .probe => 3
  | .insert => 2
  | .locked => 1
  | .done _ _ => 0

def rank (s : FenceState β) : Nat := (s.writers.map fun w => WriterPc.rank w.pc).sum

omit hstrict h0 in
theorem sum_map_set_lt {α : Type} {f : α → Nat} {l : List α} {i : Nat} {a b : α}
    (hi : l[i]? = some a) (hb : f b < f a) : ((l.set i b).map f).sum < (l.map f).sum := by
  induction l generalizing i with
  | nil => simp at hi
  | cons x l ih =>
    cases i with
    | zero =>
      obtain rfl : x = a := by simpa using hi
      simpa using hb
    | succ i => simpa using ih (by simpa using hi)

theorem Converging.rank_lt (h : Converging row0 targets s)
    {i : Nat} (hw : s.writers[i]? = some w) (hpc : WriterPc.rank w.pc ≠ 0) :
    rank (s.step true (.advance i)) < rank s := by
  simp only [FenceState.step, hw]
  refine sum_map_set_lt hw ?_
  have hmem : w ∈ s.writers := mem_of_getElem? hw
  have hlock := h.locked w hmem
  have htar : w.target ∈ targets := h.targets_eq ▸ mem_map_of_mem hmem
  unfold sqlStep
  cases hp : w.pc with
  | probe =>
    cases hr : s.row with
    | none | some r => simp [WriterPc.rank]
  | insert =>
    cases hr : s.row with
    | none | some r => simp [WriterPc.rank, insertRow]
  | locked =>
    obtain ⟨r, hr⟩ := Option.isSome_iff_exists.1 (hlock hp)
    obtain ⟨o, ho⟩ := saveLocked_strict (hstrict _ htar).1
      (h.not_regressed hstrict h0 htar hr)
    simp [hr, ho, WriterPc.rank]
  | done o m => simp [hp, WriterPc.rank] at hpc

/-- From every state there is a schedule after which every writer is through. -/
theorem Converging.exists_finished (h : Converging row0 targets s) :
    ∃ evs, (Machine.run (FenceState.step true) s evs).finished = true := by
  induction hn : rank s using Nat.strong_induction_on generalizing s with
  | _ n ih =>
    by_cases hf : s.finished = true
    · exact ⟨[], hf⟩
    -- some writer is not through: let it do its next step
    obtain ⟨w, hw, hpc⟩ : ∃ w ∈ s.writers, WriterPc.rank w.pc ≠ 0 := by
      by_contra hall
      push Not at hall
      refine hf (all_eq_true.2 fun w hw => ?_)
      have := hall w hw
      cases hp : w.pc with
      | done o m => rfl
      | _ => simp [hp, WriterPc.rank] at this
    obtain ⟨i, hi⟩ := mem_iff_getElem?.1 hw
    obtain ⟨evs, hevs⟩ := ih _ (hn ▸ h.rank_lt hstrict h0 hi hpc)
      (h.step hstrict h0 (.advance i)).1 rfl
    exact ⟨.advance i :: evs, hevs⟩

end Converge

end FenceState

/-- A strict write task of the row `key` in schema generation `gen`, whose body is a function
of its version. -/
structure RowWrite.StrictOf {β : Type} (key gen : Nat) (body : Nat → Nat → β) (t : RowWrite β) :
    Prop where
  key_eq : t.key = key
  playerId_eq : t.msg.playerId = key
  ownerEpoch_pos : 1 ≤ t.ownerEpoch
  saveSeq_pos : 1 ≤ t.saveSeq
  gen_eq : t.msg.persistSchemaGen = gen
  columns_eq : t.msg.columns = body t.ownerEpoch t.saveSeq

def RowWrite.version {β : Type} (t : RowWrite β) : Nat ×ₗ Nat := toLex (t.ownerEpoch, t.saveSeq)

/-- The row that the write of version `(epoch, seq)` leaves. -/
def versionRow {β : Type} (key gen : Nat) (body : Nat → Nat → β) (epoch seq : Nat) : PlayerRow β :=
  ⟨key, epoch, seq, gen, body epoch seq⟩

section Convergence

variable {β : Type} {key gen : Nat} {body : Nat → Nat → β} {tasks : List (RowWrite β)}

theorem RowWrite.StrictOf.target_eq {t : RowWrite β} (h : t.StrictOf key gen body) :
    t.target true = .ok (versionRow key gen body t.ownerEpoch t.saveSeq) := by
  obtain ⟨hk, hp, he, -, hg, hc⟩ := h
  have he0 : t.ownerEpoch ≠ 0 := by omega
  simp [RowWrite.target, versionRow, hk, hp, he0, ← hg, ← hc]

variable (row0 : Option (PlayerRow β))

/-- In the start state there is one writer for each task. -/
theorem FenceState.start_targets (h : ∀ t ∈ tasks, t.StrictOf key gen body) :
    (FenceState.start true row0 tasks).writers =
      tasks.map fun t => ⟨versionRow key gen body t.ownerEpoch t.saveSeq, .probe⟩ := by
  simp only [FenceState.start]
  induction tasks with
  | nil => rfl
  | cons t tasks ih =>
    rw [filterMap_cons, (h t (by simp)).target_eq, ih fun t ht => h t (by simp [ht])]
    rfl

theorem FenceState.start_converging (h : ∀ t ∈ tasks, t.StrictOf key gen body) :
    FenceState.Converging row0
      (tasks.map fun t => versionRow key gen body t.ownerEpoch t.saveSeq)
      (FenceState.start true row0 tasks) := by
  refine ⟨?_, fun r hr => Or.inl hr, fun r hr => ⟨r, hr, le_rfl⟩, ?_, ?_⟩
  · rw [FenceState.start_targets row0 h, map_map]
    rfl
  all_goals
    rw [FenceState.start_targets row0 h]
    simp

/-- **Convergence of the row fence.** Strict writes of one row, in one schema generation and
with bodies that are functions of their versions, in any order, with any duplicates and any
interleaving of their SQL steps, starting from a row of no newer generation or from none:

* the stored version never decreases between two states of a run;
* when every writer is through, the row is the one of the greatest version among the tasks,
  or still the initial row when that was at least as new;
* every run can be continued to one in which every writer is through. -/
theorem interleaved_writes_converge (row0 : Option (PlayerRow β))
    (hrow0 : ∀ r, row0 = some r → effectiveGen r.persistSchemaGen ≤ effectiveGen gen)
    (htasks : ∀ t ∈ tasks, t.StrictOf key gen body) (evs more : List WriterEvent) :
    let s := Machine.run (FenceState.step true) (FenceState.start true row0 tasks) evs
    let s' := Machine.run (FenceState.step true) s more
    (∀ r, s.row = some r → ∃ r', s'.row = some r' ∧ r.version ≤ r'.version) ∧
    (s.finished = true → ∀ t ∈ tasks, (∀ t' ∈ tasks, t'.version ≤ t.version) →
      ((∀ r0, row0 = some r0 → r0.version < t.version) →
        s.row = some (versionRow key gen body t.ownerEpoch t.saveSeq)) ∧
      ∀ r0, row0 = some r0 → t.version ≤ r0.version → s.row = some r0) ∧
    ∃ rest, (Machine.run (FenceState.step true) s rest).finished = true := by
  intro s s'
  have hstrict : ∀ r ∈ tasks.map fun t => versionRow key gen body t.ownerEpoch t.saveSeq,
      r.Strict ∧ effectiveGen r.persistSchemaGen = effectiveGen gen := by
    intro r hr
    obtain ⟨t, ht, rfl⟩ := mem_map.1 hr
    exact ⟨⟨(htasks t ht).ownerEpoch_pos, (htasks t ht).saveSeq_pos⟩, rfl⟩
  have hs : FenceState.Converging row0 _ s :=
    (FenceState.start_converging row0 htasks).run hstrict hrow0 evs
  refine ⟨hs.version_mono hstrict hrow0 more, ?_, hs.exists_finished hstrict hrow0⟩
  intro hf t ht hmax
  obtain ⟨r, hr, hle⟩ := hs.le_of_finished hf (mem_map_of_mem ht)
  -- a row that is not the initial one is some task's, so its version is at most `t`'s
  rcases hs.source r hr with hr0 | ⟨hmem, hlt⟩
  · refine ⟨fun hlt => absurd hle (not_le.2 (hlt r hr0)), fun r0 hr0' _ => ?_⟩
    rw [hr, ← hr0, hr0']
  obtain ⟨t', ht', rfl⟩ := mem_map.1 hmem
  have heq : (toLex (t'.ownerEpoch, t'.saveSeq) : Nat ×ₗ Nat) = toLex (t.ownerEpoch, t.saveSeq) :=
    le_antisymm (hmax t' ht') hle
  obtain ⟨he, hq⟩ := Prod.mk.injEq .. ▸ toLex.injective heq
  refine ⟨fun _ => by rw [hr, he, hq], fun r0 hr0 hle0 => absurd (hlt r0 hr0) (not_lt.2 ?_)⟩
  exact heq.le.trans hle0

def sampleWrite (seq : Nat) : RowWrite Nat := ⟨7, 1, seq, ⟨7, 0, 0, 1, seq * 10⟩⟩

/-- Two racing first inserts, a duplicate of the older write and an aborted transaction: the
newer body stays. -/
theorem interleaved_writes_converge_race :
    let s := Machine.run (FenceState.step true)
      (FenceState.start true none [sampleWrite 1, sampleWrite 2, sampleWrite 1])
      [.advance 0, .advance 1, .advance 1, .advance 0, .advance 2, .abort 2, .advance 0,
        .advance 2, .advance 2]
    s.finished = true ∧ s.row = some ⟨7, 1, 2, 1, 20⟩ := by
  intro s
  have hf : s.finished = true := by decide
  have htasks : ∀ t ∈ [sampleWrite 1, sampleWrite 2, sampleWrite 1],
      t.StrictOf 7 1 fun _ seq => seq * 10 := by
    intro t ht
    simp only [mem_cons, not_mem_nil, or_false] at ht
    rcases ht with rfl | rfl | rfl <;> constructor <;> decide
  have hmax : ∀ t ∈ [sampleWrite 1, sampleWrite 2, sampleWrite 1],
      t.version ≤ (sampleWrite 2).version := by decide
  have h := (interleaved_writes_converge none (by simp) htasks _ []).2.1 hf (sampleWrite 2)
    (by simp) hmax
  exact ⟨hf, h.1 (by simp)⟩

end Convergence

end Mmorpg.Kafka
