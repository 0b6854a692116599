import Mathlib.Logic.Function.Basic

/-!
# The segment table

`id_segment` holds one row per tag: ids below `max_id` are given out (id_segment_store.go). A
replica of the data service allocates a range by reading the row and advancing it in one
transaction, whose `UPDATE` also compares the version. Every statement may fail, and a statement
may be executed although its reply is lost. Migrations insert missing rows and raise rows that are
behind the ids found in the tables that use them.

The rows here are not locked between the two statements of an allocation: the version alone keeps
two allocations from reading the same row, since every write raises it (`Call.Ok.fresh`).
-/

namespace Mmorpg.IdSegment

open Option Function

/-- `IdSegmentCap`: 2^55. -/
def idSegmentCap : Nat := 36028797018963968

def idSegmentMaxStep : Nat := 10000000

def idSegmentFirstID : Nat := 1

def idSegmentBootstrapStep : Nat := 100

def idSegmentTxAttempts : Nat := 4

/-- A row that passes the `CHECK` of the table. -/
structure IdSegmentRow where
  maxID : Nat
  step : Nat
  version : Nat
  check : maxID < idSegmentCap
deriving DecidableEq

abbrev Table := String → Option IdSegmentRow

/-- `^[a-z0-9_]{1,64}$` -/
def isValidBizTag (tag : String) : Bool :=
  let chars := tag.toList
  1 ≤ chars.length && chars.length ≤ 64 && chars.all fun c => c.isLower || c.isDigit || c = '_'

inductive AllocateError where
  | exhausted
  | invalidStep
  | invalidTag
  | unknownTag
  | attempts
  | version
  | sql
deriving DecidableEq, Repr

/-- What happens to a statement: 1213 and 1205 are errors that `Allocate` tries again. -/
inductive Fault where
  | none
  | lock
  | failed
  | unreported
deriving DecidableEq, Repr

/-! ## Statements -/

def firstRow (step : Nat) : IdSegmentRow := ⟨idSegmentFirstID, step, 0, by decide⟩

def insertIgnore (t : Table) (tag : String) (step : Nat) : Table :=
  update t tag (some ((t tag).getD (firstRow step)))

/-- `UPDATE … WHERE biz_tag = ? AND max_id < ?`, refused by the `CHECK`. -/
def raiseMaxID (t : Table) (tag : String) (floor : Nat) : Table :=
  match t tag with
  | none => t
  | some row =>
    if hfloor : row.maxID < floor ∧ floor < idSegmentCap then
      update t tag (some ⟨floor, row.step, row.version + 1, hfloor.2⟩)
    else t

/-! ## Allocate -/

structure Grant where
  lo : Nat
  hi : Nat
  step : Nat
  check : hi < idSegmentCap
deriving DecidableEq

def planGrant (cur : IdSegmentRow) (reqStep : Nat) : Except AllocateError Grant :=
  let useStep := if reqStep = 0 then cur.step else reqStep
  if useStep = 0 || useStep > idSegmentMaxStep then .error .invalidStep
  else
    let lo := if cur.maxID < idSegmentFirstID then idSegmentFirstID else cur.maxID
    let hi := (lo + useStep) % 18446744073709551616
    if hhi : hi < idSegmentCap then .ok ⟨lo, hi, useStep, hhi⟩ else .error .exhausted

structure Request where
  client : Nat
  fetch : Nat
  tag : String
  step : Nat
deriving DecidableEq, Repr

inductive Phase where
  /-- Before the `SELECT` of an attempt. -/
  | select (attempt : Nat)
  /-- Before the `UPDATE` and the commit. -/
  | advance (attempt : Nat) (cur : IdSegmentRow) (grant : Grant)
  /-- Before the `INSERT IGNORE` of a tag without row. -/
  | seed (attempt : Nat)
  | done (result : Except AllocateError (Nat × Nat))

structure Call where
  req : Request
  allowAutoSeed : Bool
  phase : Phase
  /-- The row before and after every write of this call. -/
  writes : List (Option IdSegmentRow × IdSegmentRow)
  /-- A statement was executed and its reply lost. -/
  unreported : Bool

namespace Call

def start (req : Request) (allowAutoSeed : Bool) : Call :=
  let phase : Phase :=
    if !isValidBizTag req.tag then .done (.error .invalidTag)
    else if req.step > idSegmentMaxStep then .done (.error .invalidStep)
    else .select 1
  ⟨req, allowAutoSeed, phase, [], false⟩

def finish (c : Call) (result : Except AllocateError (Nat × Nat)) : Call :=
  { c with phase := .done result }

def retry (c : Call) (attempt : Nat) : Call :=
  if attempt < idSegmentTxAttempts then { c with phase := .select (attempt + 1) }
  else c.finish (.error .sql)

def seeded (c : Call) (attempt : Nat) : Call :=
  if attempt < idSegmentTxAttempts then { c with phase := .select (attempt + 1) }
  else c.finish (.error .attempts)

def wrote (c : Call) (t : Table) (row : IdSegmentRow) : Call :=
  { c with writes := c.writes ++ [(t c.req.tag, row)] }

/-- The `SELECT`, the checks on the row and what follows if there is none. -/
def select (c : Call) (t : Table) (attempt : Nat) : Call :=
  match t c.req.tag with
  | some cur =>
    match planGrant cur c.req.step with
    | .ok grant => { c with phase := .advance attempt cur grant }
    | .error e => c.finish (.error e)
  | none =>
    if !c.allowAutoSeed then c.finish (.error .unknownTag)
    else if c.req.step = 0 then c.finish (.error .invalidStep)
    else { c with phase := .seed attempt }

/-- The `UPDATE … WHERE biz_tag = ? AND version = ?` and the commit. -/
def advance (c : Call) (t : Table) (cur : IdSegmentRow) (grant : Grant) : Table × Call :=
  match t c.req.tag with
  | some row =>
    if row.version = cur.version then
      let row' : IdSegmentRow := ⟨grant.hi, grant.step, row.version + 1, grant.check⟩
      (update t c.req.tag (some row'),
        (c.wrote t row').finish (.ok (grant.lo, grant.hi)))
    else (t, c.finish (.error .version))
  | none => (t, c.finish (.error .version))

/-- The `INSERT IGNORE` of `Allocate`. -/
def seed (c : Call) (t : Table) : Table × Call :=
  if (t c.req.tag).isSome then (t, c)
  else (insertIgnore t c.req.tag c.req.step, c.wrote t (firstRow c.req.step))

/-- The call ends with an error although its last statement was executed. -/
def lose (c : Call) : Call := { c.finish (.error .sql) with unreported := true }

def granted (c c' : Call) : Option (Nat × Nat) :=
  match c.phase, c'.phase with
  | .done _, _ => none
  | _, .done (.ok r) => some r
  | _, _ => none

def exec (c : Call) (t : Table) (fault : Fault) : Table × Call :=
  match c.phase with
  | .done _ => (t, c)
  | .select attempt =>
    match fault with
    | .none => (t, c.select t attempt)
    | .lock => (t, c.retry attempt)
    | _ => (t, c.finish (.error .sql))
  | .advance attempt cur grant =>
    match fault with
    | .none => c.advance t cur grant
    | .lock => (t, c.retry attempt)
    | .failed => (t, c.finish (.error .sql))
    | .unreported =>
      let (t, c) := c.advance t cur grant
      (t, c.lose)
  | .seed attempt =>
    match fault with
    | .none =>
      let (t, c) := c.seed t
      (t, c.seeded attempt)
    | .unreported =>
      let (t, c) := c.seed t
      (t, c.lose)
    | _ => (t, c.finish (.error .sql))

end Call

/-! ## Migrations -/

/-- `bootstrapIdSegmentRows`, one tag. -/
def bootstrapIdSegmentRow (t : Table) (tag : String) : Table :=
  if isValidBizTag tag then insertIgnore t tag idSegmentBootstrapStep else t

inductive FloorPhase where
  /-- The row was read. -/
  | read (maxID : Nat)
  /-- Before the `UPDATE`. -/
  | update (floor : Nat)
  | done
deriving DecidableEq, Repr

structure FloorRaise where
  tag : String
  phase : FloorPhase
deriving DecidableEq, Repr

namespace FloorRaise

def start (t : Table) (tag : String) : FloorRaise :=
  match t tag with
  | none => ⟨tag, .done⟩
  | some row => ⟨tag, .read row.maxID⟩

/-- The largest id in use below the cap is compared with the row. The second result is the floor
that holds from here on. -/
def compare (f : FloorRaise) (maxID maxConsumed : Nat) : FloorRaise × Option Nat :=
  if maxConsumed < maxID then ({ f with phase := .done }, some (maxConsumed + 1))
  else ({ f with phase := .update (maxConsumed + 1) }, none)

def exec (f : FloorRaise) (t : Table) (maxConsumed : Nat) (fault : Fault) :
    Table × FloorRaise × Option Nat :=
  match f.phase with
  | .done => (t, f, none)
  | .read maxID =>
    if fault = .none && maxConsumed < idSegmentCap then
      let (f, floor) := f.compare maxID maxConsumed
      (t, f, floor)
    else (t, { f with phase := .done }, none)
  | .update floor =>
    if fault = .none || fault = .unreported then
      (raiseMaxID t f.tag floor, { f with phase := .done },
        if floor < idSegmentCap then some floor else none)
    else (t, { f with phase := .done }, none)

end FloorRaise

/-! ## Rows only grow -/

/-- A range starts where the row that was read ends. -/
theorem planGrant_ok {cur : IdSegmentRow} {reqStep : Nat} {g : Grant}
    (h : planGrant cur reqStep = .ok g) : cur.maxID ≤ g.lo ∧ 1 ≤ g.lo ∧ g.lo < g.hi := by
  unfold planGrant at h
  dsimp only at h
  generalize (if reqStep = 0 then cur.step else reqStep) = useStep at h
  generalize hlo : (if cur.maxID < idSegmentFirstID then idSegmentFirstID else cur.maxID) = lo at h
  have hfirst : cur.maxID ≤ lo ∧ 1 ≤ lo ∧ lo < idSegmentCap := by
    rw [← hlo]
    split
    next hzero => exact ⟨Nat.le_of_lt hzero, Nat.le_refl _, by decide⟩
    next hpos => exact ⟨Nat.le_refl _, Nat.not_lt.1 hpos, cur.check⟩
  split at h
  · cases h
  rename_i hstep
  split at h
  · cases h
    simp only [Bool.or_eq_true, decide_eq_true_eq, not_or] at hstep
    simp only [idSegmentMaxStep, idSegmentCap] at hstep hfirst
    refine ⟨hfirst.1, hfirst.2.1, ?_⟩
    dsimp only
    omega
  · cases h

/-- The row is the same, or its version has changed and its ids have grown. -/
def RowLe (row row' : IdSegmentRow) : Prop :=
  row' = row ∨ row.version < row'.version ∧ row.maxID ≤ row'.maxID

variable {row row' : IdSegmentRow} {tag : String}

theorem RowLe.maxID (h : RowLe row row') : row.maxID ≤ row'.maxID := by
  rcases h with rfl | h
  · exact Nat.le_refl _
  · exact h.2

theorem RowLe.trans {a b c : IdSegmentRow} (h : RowLe a b) (h' : RowLe b c) : RowLe a c := by
  rcases h with rfl | h
  · exact h'
  · rcases h' with rfl | h'
    · exact .inr h
    · exact .inr ⟨Nat.lt_trans h.1 h'.1, Nat.le_trans h.2 h'.2⟩

def TableLe (t t' : Table) : Prop :=
  ∀ tag row, t tag = some row → ∃ row', t' tag = some row' ∧ RowLe row row'

theorem TableLe.refl (t : Table) : TableLe t t := fun _ row h => ⟨row, h, .inl rfl⟩

theorem TableLe.update {t : Table} (h : ∀ row, t tag = some row → RowLe row row') :
    TableLe t (update t tag (some row')) := by
  intro tag' row hrow
  by_cases htag : tag' = tag
  · subst htag
    exact ⟨row', update_self .., h row hrow⟩
  · exact ⟨row, by rw [update_of_ne htag, hrow], .inl rfl⟩

theorem insertIgnore_le (t : Table) (tag : String) (step : Nat) :
    TableLe t (insertIgnore t tag step) := by
  refine TableLe.update fun row hrow => ?_
  rw [hrow]
  exact .inl rfl

theorem raiseMaxID_le (t : Table) (tag : String) (floor : Nat) :
    TableLe t (raiseMaxID t tag floor) := by
  unfold raiseMaxID
  split
  · exact .refl t
  rename_i row hrow
  split
  next hfloor =>
    refine TableLe.update fun row₂ hrow₂ => ?_
    obtain rfl : row = row₂ := some.inj (hrow.symm.trans hrow₂)
    exact .inr ⟨Nat.lt_succ_self _, Nat.le_of_lt hfloor.1⟩
  · exact .refl t

/-- After the update the row has reached the floor. -/
theorem raiseMaxID_floor {t : Table} {floor : Nat}
    (hrow : t tag = some row) (hfloor : floor < idSegmentCap) :
    ∃ row', raiseMaxID t tag floor tag = some row' ∧ floor ≤ row'.maxID := by
  unfold raiseMaxID
  rw [hrow]
  dsimp only
  split
  · exact ⟨_, update_self .., Nat.le_refl _⟩
  next hnot => exact ⟨row, hrow, by omega⟩

/-! ## One allocation -/

/-- A write of a call that only gives a tag its first row. -/
def Call.IsSeed (c : Call) (w : Option IdSegmentRow × IdSegmentRow) : Prop :=
  c.allowAutoSeed = true ∧ w = (none, firstRow c.req.step)

/-- What a call knows: the row it has read is older than the row of the table or the same, and
it has written nothing but a first row before its range is committed. -/
structure Call.Ok (t : Table) (c : Call) : Prop where
  fresh : ∀ n cur g, c.phase = .advance n cur g → planGrant cur c.req.step = .ok g ∧
    ∃ row, t c.req.tag = some row ∧ RowLe cur row
  seeding : ∀ n, c.phase = .seed n → c.allowAutoSeed = true
  writes : (∃ r, c.phase = .done (.ok r)) ∨ c.unreported = true ∨ ∀ w ∈ c.writes, c.IsSeed w

namespace Call

variable {t t' : Table} {c : Call}

theorem Ok.start (t : Table) (req : Request) (allowAutoSeed : Bool) :
    (Call.start req allowAutoSeed).Ok t := by
  unfold Call.start
  dsimp only
  refine ⟨fun n cur g h => ?_, fun n h => ?_, .inr (.inr (by simp))⟩
  · split at h
    · cases h
    · split at h <;> cases h
  · split at h
    · cases h
    · split at h <;> cases h

/-- Calls do not mind that rows grow. -/
theorem Ok.mono (h : c.Ok t) (hle : TableLe t t') : c.Ok t' := by
  refine ⟨fun n cur g hphase => ?_, h.seeding, h.writes⟩
  obtain ⟨hplan, row, hrow, hold⟩ := h.fresh n cur g hphase
  obtain ⟨row', hrow', hnew⟩ := hle _ _ hrow
  exact ⟨hplan, row', hrow', hold.trans hnew⟩

/-- What a statement leaves behind: rows that have grown and, if a range was committed and
reported, the range between the old and the new row. -/
structure Effect (c : Call) (t t' : Table) (c' : Call) : Prop where
  req : c'.req = c.req
  le : TableLe t t'
  ok : c'.Ok t'
  result : ∀ r, c'.phase = .done (.ok r) → c.phase = .done (.ok r) ∨ c.granted c' = some r
  range : ∀ lo hi, c.granted c' = some (lo, hi) →
    1 ≤ lo ∧ lo < hi ∧ ∃ row row', t c.req.tag = some row ∧ t' c.req.tag = some row' ∧
      row.maxID ≤ lo ∧ hi ≤ row'.maxID

/-- Statements that write nothing: the call goes on with what it has seen. -/
structure Quiet (c c' : Call) (t : Table) : Prop where
  req : c'.req = c.req
  allowAutoSeed : c'.allowAutoSeed = c.allowAutoSeed
  writes : c'.writes = c.writes
  unreported : c'.unreported = c.unreported
  result : ∀ r, c'.phase ≠ .done (.ok r)
  advance : ∀ n cur g, c'.phase = .advance n cur g →
    planGrant cur c.req.step = .ok g ∧ t c.req.tag = some cur
  seed : ∀ n, c'.phase = .seed n → c.allowAutoSeed = true

theorem finish_error_quiet (c : Call) (t : Table) (e : AllocateError) :
    Quiet c (c.finish (.error e)) t := by
  constructor <;> simp [finish]

theorem retry_quiet (c : Call) (t : Table) (n : Nat) : Quiet c (c.retry n) t := by
  unfold retry
  split
  · constructor <;> simp
  · exact finish_error_quiet c t _

theorem select_quiet (c : Call) (t : Table) (n : Nat) : Quiet c (c.select t n) t := by
  unfold select
  split
  next cur hcur =>
    split
    next g hg =>
      constructor <;> simp
      exact ⟨hg, hcur⟩
    next e he => exact finish_error_quiet c t _
  next hnone =>
    split
    · exact finish_error_quiet c t _
    next hauto =>
      split
      · exact finish_error_quiet c t _
      · constructor <;> simp
        simpa using hauto

variable {c' : Call}

/-- After a statement that wrote nothing the call still knows what it should. -/
theorem Ok.quiet (h : c.Ok t) (hopen : ∀ r, c.phase ≠ .done r) (hq : Quiet c c' t) :
    c'.Ok t := by
  refine ⟨fun n cur g hphase => ?_, fun n hphase => ?_, .inr ?_⟩
  · obtain ⟨hplan, hcur⟩ := hq.advance n cur g hphase
    rw [hq.req]
    exact ⟨hplan, cur, hcur, .inl rfl⟩
  · rw [hq.allowAutoSeed]
    exact hq.seed n hphase
  · rw [hq.unreported, hq.writes]
    refine (h.writes.resolve_left fun ⟨r, hr⟩ => hopen _ hr).imp_right fun hseeds w hw => ?_
    rw [IsSeed, hq.allowAutoSeed, hq.req]
    exact hseeds w hw

theorem granted_eq_some {r : Nat × Nat} (h : c.granted c' = some r) :
    c'.phase = .done (.ok r) := by
  unfold granted at h
  split at h
  · cases h
  · cases h
    assumption
  · cases h

/-- The statement of an open call that inserts the first row or finds one. -/
theorem seed_cases (c : Call) (t : Table) :
    c.seed t = (t, c) ∨
      t c.req.tag = none ∧
        c.seed t = (update t c.req.tag (some (firstRow c.req.step)),
          c.wrote t (firstRow c.req.step)) := by
  unfold seed
  split
  · exact .inl rfl
  next hnone =>
    have hrow : t c.req.tag = none := by simpa using hnone
    refine .inr ⟨hrow, ?_⟩
    rw [insertIgnore, hrow, getD_none]

/-- The update of an open call that has read the row `cur`. -/
theorem advance_cases (c : Call) (t : Table) (cur : IdSegmentRow) (g : Grant) :
    c.advance t cur g = (t, c.finish (.error .version)) ∨
      ∃ row, t c.req.tag = some row ∧ row.version = cur.version ∧
        c.advance t cur g =
          (update t c.req.tag (some ⟨g.hi, g.step, row.version + 1, g.check⟩),
            (c.wrote t ⟨g.hi, g.step, row.version + 1, g.check⟩).finish (.ok (g.lo, g.hi))) := by
  unfold advance
  split
  next row hrow =>
    split
    next hversion => exact .inr ⟨row, hrow, hversion, rfl⟩
    · exact .inl rfl
  · exact .inl rfl

theorem Effect.refl (h : c.Ok t) (hopen : ∀ r, c.phase ≠ .done r) : Effect c t t c where
  req := rfl
  le := .refl t
  ok := h
  result _ hr := .inl hr
  range _ _ hg := absurd (granted_eq_some hg) (hopen _)

theorem Effect.quiet {c'' : Call} (h : Effect c t t' c') (hopen : ∀ r, c'.phase ≠ .done r)
    (hq : Quiet c' c'' t') : Effect c t t' c'' where
  req := hq.req.trans h.req
  le := h.le
  ok := h.ok.quiet hopen hq
  result r hr := absurd hr (hq.result r)
  range _ _ hg := absurd (granted_eq_some hg) (hq.result _)

theorem Effect.lose (h : Effect c t t' c') : Effect c t t' c'.lose := by
  refine ⟨h.req, h.le, ⟨?_, ?_, .inr (.inl rfl)⟩, ?_, fun lo hi hg => ?_⟩
  · simp [Call.lose, finish]
  · simp [Call.lose, finish]
  · simp [Call.lose, finish]
  · cases granted_eq_some hg

theorem Effect.advance (h : c.Ok t) {n : Nat} {cur : IdSegmentRow} {g : Grant}
    (hphase : c.phase = .advance n cur g) :
    Effect c t (c.advance t cur g).1 (c.advance t cur g).2 := by
  have hopen : ∀ r, c.phase ≠ .done r := by simp [hphase]
  obtain ⟨hplan, row, hrow, hold⟩ := h.fresh n cur g hphase
  obtain ⟨hlo, hpos, hlt⟩ := planGrant_ok hplan
  obtain heq | ⟨row₂, hrow₂, hversion, heq⟩ := c.advance_cases t cur g
  · rw [heq]
    exact (Effect.refl h hopen).quiet hopen (finish_error_quiet c t _)
  · obtain rfl : row = row₂ := some.inj (hrow.symm.trans hrow₂)
    -- The version is the one that was read, so the row is the one that was read.
    obtain rfl : row = cur := hold.resolve_right fun hgrown => by omega
    rw [heq]
    refine ⟨rfl, TableLe.update fun row₂ hrow₂ => ?_, ?_, fun r hr => ?_, fun lo hi hg => ?_⟩
    · obtain rfl : row = row₂ := some.inj (hrow.symm.trans hrow₂)
      exact .inr ⟨Nat.lt_succ_self _, Nat.le_trans hlo (Nat.le_of_lt hlt)⟩
    · refine ⟨?_, ?_, .inl ⟨_, rfl⟩⟩ <;> simp [finish]
    · cases hr
      exact .inr (by simp [granted, finish, hphase])
    · simp only [granted, finish, hphase, some.injEq, Prod.mk.injEq] at hg
      obtain ⟨rfl, rfl⟩ := hg
      exact ⟨hpos, hlt, row, _, hrow, update_self .., hlo, Nat.le_refl _⟩

theorem Effect.seed (h : c.Ok t) {n : Nat} (hphase : c.phase = .seed n) :
    Effect c t (c.seed t).1 (c.seed t).2 := by
  have hopen : ∀ r, c.phase ≠ .done r := by simp [hphase]
  obtain heq | ⟨hrow, heq⟩ := c.seed_cases t
  · rw [heq]
    exact .refl h hopen
  · rw [heq]
    have hphase' : (c.wrote t (firstRow c.req.step)).phase = .seed n := hphase
    refine ⟨rfl, TableLe.update fun row hsome => ?_, ⟨?_, fun _ _ => h.seeding n hphase, .inr ?_⟩,
      fun r hr => ?_, fun lo hi hg => ?_⟩
    · rw [hrow] at hsome
      cases hsome
    · simp [hphase']
    · refine (h.writes.resolve_left fun ⟨r, hr⟩ => hopen _ hr).imp_right fun hseeds => ?_
      refine List.forall_mem_append.2 ⟨hseeds, List.forall_mem_singleton.2 ?_⟩
      rw [hrow]
      exact ⟨h.seeding n hphase, rfl⟩
    · rw [hphase'] at hr
      cases hr
    · cases hphase'.symm.trans (granted_eq_some hg)

theorem seed_phase (c : Call) (t : Table) : (c.seed t).2.phase = c.phase := by
  unfold Call.seed
  split <;> rfl

theorem seeded_quiet (c : Call) (t : Table) (n : Nat) : Quiet c (c.seeded n) t := by
  unfold seeded
  split
  · constructor <;> simp
  · exact finish_error_quiet c t _

/-- The writes of a call are all that it does to the table. -/
def Writes (c : Call) (t t' : Table) (c' : Call) : Prop :=
  t' = t ∧ c'.writes = c.writes ∨
    ∃ row, t' = update t c.req.tag (some row) ∧
      c'.writes = c.writes ++ [(t c.req.tag, row)]

theorem Quiet.writes_only (hq : Quiet c c' t) : Writes c t t c' := .inl ⟨rfl, hq.writes⟩

theorem advance_writes (c : Call) (t : Table) (cur : IdSegmentRow) (g : Grant) :
    Writes c t (c.advance t cur g).1 (c.advance t cur g).2 := by
  obtain heq | ⟨row, -, -, heq⟩ := c.advance_cases t cur g
  · rw [heq]
    exact (finish_error_quiet c t _).writes_only
  · rw [heq]
    exact .inr ⟨_, rfl, rfl⟩

theorem seed_writes (c : Call) (t : Table) : Writes c t (c.seed t).1 (c.seed t).2 := by
  obtain heq | ⟨-, heq⟩ := c.seed_cases t
  · rw [heq]
    exact .inl ⟨rfl, rfl⟩
  · rw [heq]
    exact .inr ⟨_, rfl, rfl⟩

theorem exec_writes (c : Call) (t : Table) (fault : Fault) :
    Writes c t (c.exec t fault).1 (c.exec t fault).2 := by
  unfold exec
  split
  · exact .inl ⟨rfl, rfl⟩
  next n hphase =>
    split
    · exact (select_quiet c t n).writes_only
    · exact (retry_quiet c t n).writes_only
    · exact (finish_error_quiet c t _).writes_only
  next n cur g hphase =>
    split
    · exact c.advance_writes t cur g
    · exact (retry_quiet c t n).writes_only
    · exact (finish_error_quiet c t _).writes_only
    · exact c.advance_writes t cur g
  next n hphase =>
    split
    · have hseeded := seeded_quiet (c.seed t).2 (c.seed t).1 n
      rw [Writes, hseeded.writes]
      exact c.seed_writes t
    · exact c.seed_writes t
    · exact (finish_error_quiet c t _).writes_only

theorem exec_effect (h : c.Ok t) (fault : Fault) :
    Effect c t (c.exec t fault).1 (c.exec t fault).2 := by
  unfold exec
  split
  next r hphase =>
    refine ⟨rfl, .refl t, h, fun r hr => .inl hr, fun lo hi hg => ?_⟩
    simp [granted, hphase] at hg
  next n hphase =>
    have hopen : ∀ r, c.phase ≠ .done r := by simp [hphase]
    have hsame := Effect.refl h hopen
    split
    · exact hsame.quiet hopen (select_quiet c t n)
    · exact hsame.quiet hopen (retry_quiet c t n)
    · exact hsame.quiet hopen (finish_error_quiet c t _)
  next n cur g hphase =>
    have hopen : ∀ r, c.phase ≠ .done r := by simp [hphase]
    have hsame := Effect.refl h hopen
    split
    · exact .advance h hphase
    · exact hsame.quiet hopen (retry_quiet c t n)
    · exact hsame.quiet hopen (finish_error_quiet c t _)
    · exact (Effect.advance h hphase).lose
  next n hphase =>
    have hopen : ∀ r, c.phase ≠ .done r := by simp [hphase]
    have hseed := Effect.seed h hphase
    split
    · refine hseed.quiet (fun r hr => ?_) (seeded_quiet _ _ n)
      rw [seed_phase] at hr
      exact hopen r hr
    · exact hseed.lose
    · exact (Effect.refl h hopen).quiet hopen (finish_error_quiet c t _)

end Call

/-! ## Raising a floor -/

namespace FloorRaise

variable {t t' : Table} {f : FloorRaise}

/-- The row that was read is still there and has not shrunk. -/
structure Ok (t : Table) (f : FloorRaise) : Prop where
  read : ∀ maxID, f.phase = .read maxID → ∃ row, t f.tag = some row ∧ maxID ≤ row.maxID
  update : ∀ floor, f.phase = .update floor → ∃ row, t f.tag = some row

theorem Ok.done (t : Table) (tag : String) : Ok t ⟨tag, .done⟩ := by
  constructor <;> simp

theorem Ok.start (t : Table) (tag : String) : (start t tag).Ok t := by
  unfold FloorRaise.start
  split
  · exact .done t tag
  next row hrow =>
    refine ⟨fun maxID h => ?_, by simp⟩
    cases h
    exact ⟨row, hrow, Nat.le_refl _⟩

theorem Ok.mono (h : f.Ok t) (hle : TableLe t t') : f.Ok t' := by
  refine ⟨fun maxID hphase => ?_, fun floor hphase => ?_⟩
  · obtain ⟨row, hrow, hmax⟩ := h.read maxID hphase
    obtain ⟨row', hrow', hgrown⟩ := hle _ _ hrow
    exact ⟨row', hrow', Nat.le_trans hmax hgrown.maxID⟩
  · obtain ⟨row, hrow⟩ := h.update floor hphase
    obtain ⟨row', hrow', -⟩ := hle _ _ hrow
    exact ⟨row', hrow'⟩

/-- What a statement of a floor raise leaves behind. A floor that it reports is reached. -/
structure Effect (f : FloorRaise) (t t' : Table) (f' : FloorRaise) (floor : Option Nat) : Prop where
  le : TableLe t t'
  ok : f'.Ok t'
  floor : ∀ x ∈ floor, ∃ row, t' f.tag = some row ∧ x ≤ row.maxID

theorem exec_effect (h : f.Ok t) (maxConsumed : Nat) (fault : Fault) :
    Effect f t (f.exec t maxConsumed fault).1 (f.exec t maxConsumed fault).2.1
      (f.exec t maxConsumed fault).2.2 := by
  have hdone : Effect f t t { f with phase := .done } none := ⟨.refl t, .done t f.tag, by simp⟩
  unfold exec
  split
  · exact ⟨.refl t, h, by simp⟩
  next maxID hphase =>
    split
    · obtain ⟨row, hrow, hmax⟩ := h.read maxID hphase
      unfold compare
      dsimp only
      split
      next hbehind =>
        refine ⟨.refl t, .done t f.tag, fun x hx => ⟨row, hrow, ?_⟩⟩
        cases hx
        exact Nat.le_trans hbehind hmax
      · refine ⟨.refl t, ⟨by simp, fun floor _ => ⟨row, hrow⟩⟩, by simp⟩
    · exact hdone
  next floor hphase =>
    split
    · refine ⟨raiseMaxID_le t f.tag floor, .done _ f.tag, fun x hx => ?_⟩
      obtain ⟨row, hrow⟩ := h.update floor hphase
      rw [mem_def] at hx
      split at hx
      next hcap =>
        cases hx
        exact raiseMaxID_floor hrow hcap
      · cases hx
    · exact hdone

end FloorRaise

end Mmorpg.IdSegment
