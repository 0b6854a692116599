import Mmorpg.AssetOp.Reconcile
import Mmorpg.Lib.Run

/-!
# The mark of a partial grant

Rounds of `ProcessOne` on one row of the outbox. The reason of a partial answer is the only trace
of it on the row; `carryPartialReason` keeps it there, and `FinalStatus` reads it. One path loses
it: `verifySQLCommit` finds the number decided in the committed ledger, but not the receipt of the
request, and gives an empty result back instead of the answer. `DropsMark` says this of the row and
of what the round reads.
-/

namespace Mmorpg.AssetOp

/-- A round on one row: when it is claimed, the answer of the applier, and the ledgers as read. -/
structure Round where
  cfg : LoopConfig
  nowMs : Nat
  leaseUntilMs : Nat
  token : Nat
  res : Result
  err : Option DoError
  persisted : LedgerRead
  sql : LedgerRead

structure Result.Marked (res : Result) : Prop where
  outcome : res.outcome = .applied
  isPartial : res.isPartial = true
  reason : res.reason = kAssetPartialApplied

section Rounds

variable (digest : AssetOpRequest → Bytes)

/-- `ProcessOne`; a row with a wrong stream is only rescheduled. -/
def Round.settlement (r : Round) (op : Op) : Settlement :=
  match rpcFor op r.nowMs with
  | none => .reschedule (carryPartialReason op .zero)
  | some rpc => processOne digest r.cfg op rpc r.res r.err r.persisted r.sql

def Row.round (row : Row) (r : Round) : Row :=
  match row.claim r.nowMs r.leaseUntilMs r.token with
  | none => row
  | some (row', op) => row'.settle op (r.settlement digest op)

def Row.AnswersPartial (row : Row) (r : Round) : Prop :=
  ∃ row' op, row.claim r.nowMs r.leaseUntilMs r.token = some (row', op) ∧
    rpcFor op r.nowMs ≠ none ∧ r.err ≠ some .transport ∧ r.res.isLocal = false ∧ r.res.Marked

/-- The ledger has the receipt of the request, and the receipt the instances that the operation took
and no others. -/
def Receipted (comp : PlayerAssetOpLedgerComp) (op : Op) (outcome : AssetOpOutcome) : Prop :=
  ∃ receipt, matchingReceipt digest comp op = some receipt ∧
    if outcome = .applied ∧ escrowsInstances op = true then
      receiptSnapshotMatches op receipt.snapshot = true
    else snapshotHasInstances receipt.snapshot = false

/-- The ledger decides the number of the operation without its receipt. -/
def Unreceipted (comp : PlayerAssetOpLedgerComp) (op : Op) : Prop :=
  isSceneTerminal (classifyPersisted comp op.request.key).1 = true ∧
    ¬ Receipted digest comp op (classifyPersisted comp op.request.key).1

/-- The answer is to be checked against the committed ledger, which decides the number without the
receipt. -/
def DropsAnswer (cfg : LoopConfig) (op : Op) (res : Result) (sql : LedgerRead) : Prop :=
  res.sqlCommitted = false ∧ cfg.requireSQLCommit = true ∧ cfg.sqlReader = true ∧
    ∃ comp, sql = .found comp ∧ Unreceipted digest comp op

def Row.DropsMark (row : Row) (r : Round) : Prop :=
  row.lastReason ≠ kAssetPartialApplied ∧ r.err = none ∧
    ∃ row' op, row.claim r.nowMs r.leaseUntilMs r.token = some (row', op) ∧
      DropsAnswer digest r.cfg op r.res r.sql

end Rounds

variable {digest : AssetOpRequest → Bytes} {cfg : LoopConfig} {op : Op} {res : Result}
  {persisted sql : LedgerRead}

theorem classifyPersisted_reason {comp : PlayerAssetOpLedgerComp} {key : OpKey}
    (h : (classifyPersisted comp key).1 = .applied) :
    (classifyPersisted comp key).2.2 = 0 ∨
      (classifyPersisted comp key).2.2 = kAssetPartialApplied := by
  unfold classifyPersisted at h ⊢
  dsimp only at h ⊢
  split at h
  · split
    · exact .inr rfl
    · exact .inl rfl
  · cases h
  · cases h

theorem resultWithReceipt_spec (comp : PlayerAssetOpLedgerComp) (res : Result) :
    (¬ Receipted digest comp op res.outcome ∧ resultWithReceipt digest comp op res = .zero) ∨
    (Receipted digest comp op res.outcome ∧
      ∃ snapshot, resultWithReceipt digest comp op res = { res with snapshot }) := by
  unfold resultWithReceipt Receipted
  cases matchingReceipt digest comp op with
  | none => simp
  | some receipt =>
    by_cases hescrow : res.outcome = .applied ∧ escrowsInstances op = true
    · cases hs : receiptSnapshotMatches op receipt.snapshot with
      | false | true => simp [hescrow, hs]
    · have hguard : (decide (res.outcome = .applied) && escrowsInstances op) = false := by
        simpa using hescrow
      cases hs : snapshotHasInstances receipt.snapshot with
      | false | true => simp [hescrow, hs]

/-- The check of a partial answer keeps its mark. -/
theorem verifySQLCommit_marked (h : res.Marked)
    (hkept : ∀ comp, cfg.sqlReader = true → sql = .found comp → ¬ Unreceipted digest comp op) :
    (verifySQLCommit digest cfg op res sql).1.Marked ∧
      (verifySQLCommit digest cfg op res sql).2 ≠ some .transport := by
  have hunproved : Result.Marked { res with durable := false, snapshot := none } :=
    ⟨h.outcome, h.isPartial, h.reason⟩
  unfold verifySQLCommit
  split
  · exact ⟨hunproved, by simp⟩
  rename_i hreader
  split
  · exact ⟨hunproved, by simp⟩
  · exact ⟨hunproved, by simp⟩
  rename_i comp
  have hreceipt := hkept comp (by simpa using hreader) rfl
  have hreason := @classifyPersisted_reason comp op.request.key
  unfold Unreceipted at hreceipt
  generalize classifyPersisted comp op.request.key = classified at hreceipt hreason ⊢
  obtain ⟨outcome, isPartial, reason⟩ := classified
  dsimp only
  split
  · exact ⟨hunproved, by simp⟩
  rename_i hterminal
  rcases @resultWithReceipt_spec digest op comp
    ⟨outcome, reason, true, true, isPartial, none, false, false⟩
    with ⟨hnot, -⟩ | ⟨-, snapshot, hproved⟩
  · exact absurd ⟨by simpa using hterminal, hnot⟩ hreceipt
  rw [hproved]
  split
  next hnot =>
    simp_all [Result.terminal]
  split
  · exact ⟨hunproved, by simp⟩
  next hflip =>
    have happlied := (not_not.1 hflip).trans h.outcome
    refine ⟨⟨happlied, by simp [h.isPartial], ?_⟩, by simp⟩
    rcases hreason happlied with hr | hr <;> simp only at hr <;> simp [hr, h.reason]

theorem proveOutcome_marked (h : res.Marked) (hlocal : res.isLocal = false)
    (hkept : ¬ DropsAnswer digest cfg op res sql) :
    (proveOutcome digest cfg op res persisted sql).1.Marked ∧
      (proveOutcome digest cfg op res persisted sql).2 ≠ some .transport := by
  unfold proveOutcome
  rw [hlocal, if_neg Bool.false_ne_true]
  dsimp only
  split
  next hcommitted =>
    have huncommitted : res.sqlCommitted = false := by
      simpa using (Bool.and_eq_true_iff.1 hcommitted).1
    split
    next hrequire =>
      exact verifySQLCommit_marked h fun comp hreader hsql hnot =>
        hkept ⟨huncommitted, hrequire, hreader, comp, hsql, hnot⟩
    · exact ⟨⟨h.outcome, h.isPartial, h.reason⟩, by simp⟩
  · exact ⟨h, by simp⟩

/-- An answer that is dropped leaves nothing. -/
theorem DropsAnswer.proveOutcome (hdrops : DropsAnswer digest cfg op res sql) (h : res.Marked)
    (hlocal : res.isLocal = false) :
    proveOutcome digest cfg op res persisted sql = (.zero, none) := by
  obtain ⟨huncommitted, hrequire, hreader, comp, rfl, hterminal, hnot⟩ := hdrops
  have hverify : verifySQLCommit digest cfg op res (.found comp) = (.zero, none) := by
    unfold verifySQLCommit
    rw [hreader]
    dsimp only
    generalize classifyPersisted comp op.request.key = classified at hterminal hnot ⊢
    obtain ⟨outcome, isPartial, reason⟩ := classified
    rcases @resultWithReceipt_spec digest op comp
      ⟨outcome, reason, true, true, isPartial, none, false, false⟩ with ⟨-, hzero⟩ | ⟨hreceipt, -⟩
    · simp [hterminal, hzero, Result.terminal, Result.zero]
    · exact absurd hreceipt hnot
  simp [AssetOp.proveOutcome, hlocal, huncommitted, h.outcome, isSceneTerminal, hrequire, hverify]

/-- What is written leaves the mark on the row, or ends it otherwise than as applied. -/
def Settlement.KeepsMark : Settlement → Prop
  | .finalize status _ => status ≠ .applied ∧ status ≠ .pending
  | .reschedule res => res.reason = kAssetPartialApplied

theorem carryPartialReason_reason
    (h : op.lastReason = kAssetPartialApplied ∨ res.reason = kAssetPartialApplied) :
    (carryPartialReason op res).reason = kAssetPartialApplied := by
  unfold carryPartialReason
  split
  · rfl
  next hnot =>
    rcases h with h | h
    · simpa [h] using hnot
    · exact h

theorem finalStatus_ne_applied {rpc : AssetOpRpc}
    (h : op.lastReason = kAssetPartialApplied ∨ res.isPartial = true) :
    finalStatus rpc res op ≠ .applied := by
  unfold finalStatus
  split
  · rw [if_pos (by rcases h with h | h <;> simp [h])]
    decide
  · split <;> decide
  · decide

/-- The row has the mark, or the answer brings it and the proof of the answer keeps it. -/
theorem processOne_keepsMark {rpc : AssetOpRpc} {err : Option DoError}
    (h : op.lastReason = kAssetPartialApplied ∨ (res.Marked ∧ res.isLocal = false ∧
      err ≠ some .transport ∧
      (err = none → ¬ DropsAnswer digest cfg op res sql))) :
    (processOne digest cfg op rpc res err persisted sql).KeepsMark := by
  unfold processOne
  generalize hp : (if err.isNone then proveOutcome digest cfg op res persisted sql
    else (res, err)) = proved
  obtain ⟨res', err'⟩ := proved
  have hmark : op.lastReason = kAssetPartialApplied ∨ (res'.Marked ∧ err' ≠ some .transport) := by
    refine h.imp_right fun ⟨hres, hlocal, herr, hkept⟩ => ?_
    split at hp
    next hnone =>
      have hproved := @proveOutcome_marked digest cfg op res persisted sql hres hlocal
        (hkept (Option.isNone_iff_eq_none.1 hnone))
      rwa [hp] at hproved
    · obtain ⟨rfl, rfl⟩ := Prod.mk.inj hp
      exact ⟨hres, herr⟩
  have hcarry : (carryPartialReason op res').reason = kAssetPartialApplied :=
    carryPartialReason_reason (hmark.imp_right fun h => h.1.reason)
  dsimp only
  split
  · split
    · exact hcarry
    · exact ⟨finalStatus_ne_applied (hmark.imp_right fun h => h.1.isPartial), ‹_›⟩
  · exact hcarry
  · exact hcarry
  next hretry =>
    -- an answer with the mark is no reason to retry
    refine carryPartialReason_reason (.inl (hmark.resolve_right fun ⟨hres, herr⟩ => ?_))
    unfold decideAction at hretry
    split at hretry
    · cases hretry
    · exact herr rfl
    · rw [hres.outcome] at hretry
      dsimp only at hretry
      split at hretry <;> cases hretry

/-- A row that was answered in part: it has the mark as long as it is pending. -/
structure Row.Marked (row : Row) : Prop where
  status : row.status ≠ .applied
  reason : row.status = .pending → row.lastReason = kAssetPartialApplied

theorem Row.claim_some {row row' : Row} {nowMs leaseUntilMs token : Nat}
    (h : row.claim nowMs leaseUntilMs token = some (row', op)) :
    row'.status = .pending ∧ row'.opId = op.opId ∧ row'.leaseToken = op.leaseToken ∧
      op.lastReason = row.lastReason ∧ row.status = .pending := by
  unfold Row.claim at h
  split at h
  next hguard =>
    cases h
    simp_all
  · cases h

variable {row : Row} {r : Round}

theorem Row.round_marked_of {row' : Row}
    (hclaim : row.claim r.nowMs r.leaseUntilMs r.token = some (row', op))
    (hs : (r.settlement digest op).KeepsMark) : (row.round digest r).Marked := by
  obtain ⟨hpending, hop, htoken, -, -⟩ := Row.claim_some hclaim
  rw [Row.round, hclaim]
  dsimp only
  cases hsettle : r.settlement digest op with
  | finalize status final =>
    rw [hsettle] at hs
    rw [Row.settle, if_pos (by simp [hpending, hop])]
    exact ⟨hs.1, fun h => absurd h hs.2⟩
  | reschedule final =>
    rw [hsettle] at hs
    rw [Row.settle, if_pos (by simp [hpending, hop, htoken])]
    exact ⟨by simp [hpending], fun _ => hs⟩

theorem Row.Marked.round (h : row.Marked) (r : Round) : (row.round digest r).Marked := by
  cases hclaim : row.claim r.nowMs r.leaseUntilMs r.token with
  | none =>
    rw [Row.round, hclaim]
    exact h
  | some claimed =>
    obtain ⟨-, -, -, hreason, hpending⟩ := Row.claim_some hclaim
    have hmark := hreason.trans (h.reason hpending)
    refine Row.round_marked_of hclaim ?_
    unfold Round.settlement
    split
    · exact carryPartialReason_reason (.inl hmark)
    · exact processOne_keepsMark (.inl hmark)

theorem Row.AnswersPartial.round (h : row.AnswersPartial r) (hkept : ¬ row.DropsMark digest r) :
    (row.round digest r).Marked := by
  obtain ⟨row', op, hclaim, hrpc, herr, hlocal, hres⟩ := h
  obtain ⟨-, -, -, hreason, -⟩ := Row.claim_some hclaim
  refine Row.round_marked_of hclaim ?_
  unfold Round.settlement
  split
  next hnone =>
    exact absurd hnone hrpc
  refine processOne_keepsMark ?_
  by_cases hmark : row.lastReason = kAssetPartialApplied
  · exact .inl (hreason.trans hmark)
  · exact .inr ⟨hres, hlocal, herr, fun hnone hdrops =>
      hkept ⟨hmark, hnone, row', op, hclaim, hdrops⟩⟩

/-- A dropped mark leaves a pending row as if no answer had come. -/
theorem Row.AnswersPartial.round_of_dropsMark (h : row.AnswersPartial r)
    (hdrops : row.DropsMark digest r) :
    (row.round digest r).status = .pending ∧ (row.round digest r).lastReason = 0 := by
  obtain ⟨row', op, hclaim, hrpc, -, hlocal, hres⟩ := h
  obtain ⟨hunmarked, hnone, row₁, op₁, hclaim₁, hanswer⟩ := hdrops
  obtain ⟨rfl, rfl⟩ := Prod.mk.inj (Option.some.inj (hclaim.symm.trans hclaim₁))
  obtain ⟨hpending, hop, htoken, hreason, -⟩ := Row.claim_some hclaim
  have hsettle : r.settlement digest op = .reschedule .zero := by
    unfold Round.settlement
    split
    next hrpc' =>
      exact absurd hrpc' hrpc
    simp [processOne, hnone, hanswer.proveOutcome hres hlocal, decideAction, Result.zero,
      carryPartialReason, hreason, hunmarked]
  rw [Row.round, hclaim]
  dsimp only
  rw [hsettle, Row.settle, if_pos (by simp [hpending, hop, htoken])]
  exact ⟨hpending, rfl⟩

/-- **After a partial answer no round ends the row as applied, unless the check against the
committed ledger drops the mark; then the row is pending without it.** -/
theorem partial_never_applied (digest : AssetOpRequest → Bytes) (row : Row) (r : Round)
    (before after : List Round)
    (hanswer : (Machine.run (Row.round digest) row before).AnswersPartial r) :
    (¬ (Machine.run (Row.round digest) row before).DropsMark digest r →
      (Machine.run (Row.round digest) row (before ++ r :: after)).status ≠ .applied) ∧
    ((Machine.run (Row.round digest) row before).DropsMark digest r →
      (Machine.run (Row.round digest) row (before ++ [r])).status = .pending ∧
      (Machine.run (Row.round digest) row (before ++ [r])).lastReason = 0) := by
  rw [Machine.run_append, Machine.run_append]
  exact ⟨fun hkept => (Machine.run_invariant (I := Row.Marked) (fun _ r h => h.round r)
    (hanswer.round hkept) after).status, hanswer.round_of_dropsMark⟩

/-! ## A mark that is dropped -/

def sampleCredit : Row :=
  ⟨1, ⟨5, .tradeCredit, 1, 9, 0, ⟨[], [], [], 0, [], none⟩, 3⟩, 0, 0, 0, 0, 0, .pending⟩

def sampleDigest : Bytes := List.replicate 32 0

def sampleEvidence (receipts : List AssetOpReceipt) : LedgerRead :=
  let bits := 1#64 :: List.replicate 15 0#64
  .found [⟨.tradeCredit, 3, 0, 1, bits, bits, [], [], receipts⟩]

def sampleRound (nowMs : Nat) (isPartial : Bool) (sql : LedgerRead) : Round where
  cfg := ⟨true, true, true, 3⟩
  nowMs := nowMs
  leaseUntilMs := nowMs + 10
  token := nowMs
  res := ⟨.applied, if isPartial then kAssetPartialApplied else 0, true, false, isPartial, none,
    false, false⟩
  err := none
  persisted := .absent
  sql := sql

def sampleReceipt : AssetOpReceipt := ⟨1, 9, sampleDigest, none⟩

/-- The number is not committed yet when the partial answer comes. Neither the ledger without the
receipt nor the answer without the mark takes the mark away later. -/
theorem partial_never_applied_sampleCredit :
    (Machine.run (Row.round fun _ => sampleDigest) sampleCredit
      ([] ++ sampleRound 1 true .absent :: [sampleRound 2 false (sampleEvidence []),
        sampleRound 3 false (sampleEvidence [sampleReceipt])])).status ≠ .applied := by
  refine (partial_never_applied _ sampleCredit (sampleRound 1 true .absent) [] _
    ⟨_, _, rfl, by decide, by decide, rfl, rfl, rfl, rfl⟩).1 ?_
  rintro ⟨-, -, _, _, -, -, -, -, _, hfound, -⟩
  cases hfound

/-- The committed ledger knows the number and has lost the receipt: the partial answer is dropped,
and the next answer, which has no mark, ends the row as applied. -/
theorem partial_mark_dropped :
    sampleCredit.AnswersPartial (sampleRound 1 true (sampleEvidence [])) ∧
      (Machine.run (Row.round fun _ => sampleDigest) sampleCredit
        [sampleRound 1 true (sampleEvidence []),
          sampleRound 2 false (sampleEvidence [sampleReceipt])]).status = .applied :=
  ⟨⟨_, _, rfl, by decide, by decide, rfl, rfl, rfl, rfl⟩, by decide +kernel⟩

end Mmorpg.AssetOp
