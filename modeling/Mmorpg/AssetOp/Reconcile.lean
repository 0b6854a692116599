import Mmorpg.AssetOp.System

/-!
# The caller's side of the asset channel

go/shared/assetop: sequence numbers are allocated under the lock of the row of a player and
stream (seq.go), a pending row of the outbox is claimed, sent and then finalized or rescheduled
(reconcile.go), and what a reply is worth is decided by pure functions (decide.go, classify.go,
receipt_identity.go). The next attempt's time only orders the work and is left out; a store
transaction may fail.

**Only proven outcomes finalize** (`processOne_finalize`): the row is finalized as applied or
rejected only on an answer of the scene that claims durability for this outcome, or on a
persisted ledger that classifies the number so.
-/

namespace Mmorpg.AssetOp

open BitWords BitVec

/-! ## Reading a persisted ledger -/

def bitAt (words : Words) (i : Nat) : Bool :=
  if i / 64 ≥ words.length then false else readWord words (i / 64) &&& (1#64 <<< (i % 64)) != 0#64

/-- `ClassifySeq`: the same decisions as the scene's, and wrong bitmaps are invalid. -/
def classifySeq (ledger : Option AssetOpStreamLedger) (epoch seq : Nat) : AssetOpSeqState :=
  if seq = 0 || epoch = 0 then .invalid
  else
    match ledger with
    | none => if seq ≤ windowBits then .unseen else .jumpTooFar
    | some l =>
      if epoch < l.streamEpoch then .staleEpoch
      else if epoch > l.streamEpoch then if seq ≤ windowBits then .unseen else .jumpTooFar
      else if l.seenBits.length ≠ windowWords || l.appliedBits.length ≠ windowWords then .invalid
      else if l.watermark > uint64Max - windowBits then .invalid
      else if seq ≤ l.watermark then .behindWindow
      else if l.maxSeq ≤ uint64Max - maxSeqJump && seq > l.maxSeq + maxSeqJump then .jumpTooFar
      else if seq > l.watermark + windowBits then .aheadOfWindow
      else if !bitAt l.seenBits (seq - l.watermark - 1) then .unseen
      else if bitAt l.appliedBits (seq - l.watermark - 1) then .applied
      else .rejected

structure Result where
  outcome : AssetOpOutcome
  reason : Nat
  durable : Bool
  sqlCommitted : Bool
  isPartial : Bool
  snapshot : Option AssetSnapshot
  isLocal : Bool
  absent : Bool
deriving DecidableEq, Repr

def Result.zero : Result := ⟨.unknown, 0, false, false, false, none, false, false⟩

def isSceneTerminal : AssetOpOutcome → Bool
  | .applied => true
  | .rejected => true
  | _ => false

def Result.terminal (r : Result) : Bool := r.durable && isSceneTerminal r.outcome

/-- `ClassifyPersisted`: outcome, partial mark and reason. -/
def classifyPersisted (comp : PlayerAssetOpLedgerComp) (op : OpKey) :
    AssetOpOutcome × Bool × Nat :=
  let stream := findAssetOpStream comp op.stream
  match classifySeq stream op.epoch op.seq with
  | .applied =>
    if stream.any (isAssetOpPartial · op.seq) then (.applied, true, kAssetPartialApplied)
    else (.applied, false, 0)
  | .rejected => (.rejected, false, (stream.map (assetOpRejectionReason · op.seq)).getD 0)
  | _ => (.unknown, false, 0)

inductive Status where
  | pending
  | applied
  | rejected
  | aborted
  | appliedPartial
  | abandoned
deriving DecidableEq, Repr

structure Op where
  opId : Nat
  request : AssetOpRequest
  attempts : Nat
  deadlineMs : Nat
  leaseToken : Nat
  lastReason : Nat
deriving DecidableEq, Repr

section Receipts

variable (digest : AssetOpRequest → Bytes)

/-- `receiptDigest`: only for a stream with an owner and a complete identity. -/
def receiptDigest (op : Op) : Option Bytes :=
  if op.request.stream = .unspecified || op.request.playerId = 0 || op.request.streamEpoch = 0
      || op.request.seq = 0 || op.request.correlationId = 0 then none
  else some (digest op.request)

/-- `matchingReceipt`: the only receipt of the number in the only ledger of the stream. -/
def matchingReceipt (comp : PlayerAssetOpLedgerComp) (op : Op) : Option AssetOpReceipt :=
  match receiptDigest digest op with
  | none => none
  | some d =>
    match comp.filter (·.stream = op.request.stream) with
    | [l] =>
      if l.streamEpoch ≠ op.request.streamEpoch then none
      else
        match l.receipts.filter (·.seq = op.request.seq) with
        | [r] => if r.correlationId = op.request.correlationId && r.requestDigest.length = 32
            && r.requestDigest = d then some r else none
        | _ => none
    | _ => none

def escrowsInstances (op : Op) : Bool :=
  op.request.bundle.itemUuids ≠ [] || op.request.bundle.petId ≠ 0

def snapshotHasInstances (snapshot : Option AssetSnapshot) : Bool :=
  snapshot.any fun s => s.items ≠ [] || s.pet.isSome

/-- The loop of `receiptSnapshotMatches`: every item is one of the identities, none twice. -/
def identitiesMatch : List Nat → List AssetItemInstance → Bool
  | ids, [] => ids = []
  | ids, item :: items =>
    item.itemUuid ≠ 0 && ids.contains item.itemUuid && item.instanceProto ≠ [] &&
      identitiesMatch (ids.filter (· ≠ item.itemUuid)) items

def receiptSnapshotMatches (op : Op) (snapshot : Option AssetSnapshot) : Bool :=
  match snapshot with
  | none => false
  | some s =>
    op.request.stream = .tradeDebit && s.items.length = op.request.bundle.itemUuids.length
      && s.pet.isSome == (op.request.bundle.petId ≠ 0)
      && identitiesMatch op.request.bundle.itemUuids.dedup s.items
      && s.pet.all fun pet => pet.petId = op.request.bundle.petId && pet.instanceProto ≠ []

/-- `resultWithReceipt`: a persisted outcome counts only with the receipt of this request. -/
def resultWithReceipt (comp : PlayerAssetOpLedgerComp) (op : Op) (res : Result) : Result :=
  match matchingReceipt digest comp op with
  | none => .zero
  | some receipt =>
    if res.outcome = .applied && escrowsInstances op then
      if !receiptSnapshotMatches op receipt.snapshot then .zero
      else { res with snapshot := receipt.snapshot }
    else if snapshotHasInstances receipt.snapshot then .zero
    else { res with snapshot := none }

def withMatchingReceipt (op : Op) (res : Result) : Result :=
  let snapshot := if res.snapshot.isSome &&
      (!escrowsInstances op || !receiptSnapshotMatches op res.snapshot) then none else res.snapshot
  let awaits := res.outcome = .applied && escrowsInstances op && snapshot.isNone
  { res with snapshot, durable := res.durable && !awaits }

/-! ## Deciding on a result -/

inductive Action where
  | finalize
  | awaitDurable
  | retry
  | alert
deriving DecidableEq, Repr

inductive DoError where
  | outcomeFlip
  | transport
deriving DecidableEq, Repr

/-- `Decide`. -/
def decideAction (res : Result) (err : Option DoError) : Action :=
  match err with
  | some .outcomeFlip => .alert
  | some .transport => .retry
  | none =>
    match res.outcome with
    | .unknown => .alert
    | .applied | .rejected => if res.durable then .finalize else .awaitDurable
    | .retry | .notHere => .retry

def finalStatus (rpc : AssetOpRpc) (res : Result) (op : Op) : Status :=
  match res.outcome with
  | .applied =>
    if res.isPartial || op.lastReason = kAssetPartialApplied ||
        res.reason = kAssetPartialApplied then
      .appliedPartial
    else .applied
  | .rejected => if rpc = .abortDebit && res.reason = 0 then .aborted else .rejected
  | _ => .pending

inductive LedgerRead where
  | error
  | absent
  | found (comp : PlayerAssetOpLedgerComp)

structure LoopConfig where
  requireSQLCommit : Bool
  ledgerAttached : Bool
  sqlReader : Bool
  ledgerReadMinAttempts : Nat

/-- `tryPersistedLedger`: for a request that was not sent. -/
def tryPersistedLedger (cfg : LoopConfig) (op : Op) (res : Result) (read : LedgerRead) : Result :=
  if !cfg.ledgerAttached || op.attempts < cfg.ledgerReadMinAttempts then res
  else if cfg.requireSQLCommit && !cfg.sqlReader then res
  else
    match read with
    | .error | .absent => res
    | .found comp =>
      let (outcome, isPartial, reason) := classifyPersisted comp op.request.key
      if !isSceneTerminal outcome then res
      else resultWithReceipt digest comp op
        ⟨outcome, reason, true, cfg.requireSQLCommit, isPartial, none, false, false⟩

/-- `verifySQLCommit`: the scene's answer does not count, only the committed ledger does. -/
def verifySQLCommit (cfg : LoopConfig) (op : Op) (res : Result) (read : LedgerRead) :
    Result × Option DoError :=
  let unproved := { res with durable := false, snapshot := none }
  if !cfg.sqlReader then (unproved, none)
  else
    match read with
    | .error | .absent => (unproved, none)
    | .found comp =>
      let (outcome, isPartial, reason) := classifyPersisted comp op.request.key
      if !isSceneTerminal outcome then (unproved, none)
      else
        let proved := resultWithReceipt digest comp op
          ⟨outcome, reason, true, true, isPartial, none, false, false⟩
        if !proved.terminal then (proved, none)
        else if outcome ≠ res.outcome then (unproved, some .outcomeFlip)
        else ({ proved with
          isPartial := proved.isPartial || res.isPartial
          reason := if proved.reason = 0 then res.reason else proved.reason }, none)

/-- What `ProcessOne` writes to the store. -/
inductive Settlement where
  | finalize (status : Status) (res : Result)
  | reschedule (res : Result)

/-- `rescheduleTransportFailure` stores a retry. -/
def transportFailure : Result := { Result.zero with outcome := .retry }

def carryPartialReason (op : Op) (res : Result) : Result :=
  if op.lastReason = kAssetPartialApplied && res.reason ≠ kAssetPartialApplied then
    { res with reason := kAssetPartialApplied }
  else res

def proveOutcome (cfg : LoopConfig) (op : Op) (res : Result) (persisted sql : LedgerRead) :
    Result × Option DoError :=
  let res := if res.isLocal then tryPersistedLedger digest cfg op res persisted else res
  if !res.sqlCommitted && isSceneTerminal res.outcome then
    if cfg.requireSQLCommit then verifySQLCommit digest cfg op res sql
    else (withMatchingReceipt op res, none)
  else (res, none)

/-- `ProcessOne` from the answer on. `persisted` and `sql` are the reads of `tryPersistedLedger`
and `verifySQLCommit`. -/
def processOne (cfg : LoopConfig) (op : Op) (rpc : AssetOpRpc) (res : Result)
    (err : Option DoError) (persisted sql : LedgerRead) : Settlement :=
  let (res, err) := if err.isNone then proveOutcome digest cfg op res persisted sql else (res, err)
  match decideAction res err with
  | .finalize =>
    let status := finalStatus rpc res op
    if status = .pending then .reschedule (carryPartialReason op res) else .finalize status res
  | .awaitDurable | .alert => .reschedule (carryPartialReason op res)
  | .retry => .reschedule (carryPartialReason op (if err.isSome then transportFailure else res))

end Receipts

def applyRPCOf : AssetOpStream → Option AssetOpRpc
  | .guildDebit | .tradeDebit => some .debit
  | .guildCredit | .tradeCredit | .systemCredit => some .credit
  | .unspecified => none

/-- `rpcFor`: after the deadline the operation is aborted. -/
def rpcFor (op : Op) (nowMs : Nat) : Option AssetOpRpc :=
  if op.deadlineMs ≠ 0 && nowMs ≥ op.deadlineMs then some .abortDebit
  else applyRPCOf op.request.stream

/-! ## Rows of the outbox -/

structure SeqRow where
  epoch : Nat
  nextSeq : Nat
deriving DecidableEq, Repr

structure Row where
  opId : Nat
  request : AssetOpRequest
  attempts : Nat
  deadlineMs : Nat
  leaseUntilMs : Nat
  leaseToken : Nat
  lastReason : Nat
  status : Status
deriving DecidableEq, Repr

def Row.key (row : Row) : OpKey := row.request.key

structure Limits where
  maxPending : Nat
  maxSpan : Nat

def Limits.valid (lim : Limits) : Bool :=
  !(lim.maxSpan > 512) && !(lim.maxPending = 0 || lim.maxSpan = 0)

/-- `ensureSeqRow`: `INSERT IGNORE` with the time as epoch. -/
def ensureSeqRow (row : Option SeqRow) (nowMs : Nat) : Option SeqRow :=
  if nowMs = 0 then row else some (row.getD ⟨nowMs, 1⟩)

def pendingSeqs (rows : List Row) (stream : AssetOpStream) (epoch : Nat) : List Nat :=
  ((rows.filter fun r => r.request.stream = stream && r.request.streamEpoch = epoch &&
    r.status = .pending).map (·.request.seq)).insertionSort (· ≤ ·)

/-- `AllocateSeq`: the number, and the row with the next one. -/
def allocateSeq (lim : Limits) (rows : List Row) (stream : AssetOpStream) (row : Option SeqRow) :
    Option (Nat × SeqRow) :=
  match row with
  | none => none
  | some row =>
    if !lim.valid || row.epoch = 0 then none
    else
      let pending := (pendingSeqs rows stream row.epoch).take (lim.maxPending + 1)
      if pending.length ≥ lim.maxPending then none
      else if pending.head?.any (fun low => row.nextSeq - low ≥ lim.maxSpan) then none
      else some (row.nextSeq, { row with nextSeq := row.nextSeq + 1 })

/-- `Claim`: a compare-and-set on a pending row whose lease has run out. -/
def Row.claim (row : Row) (nowMs leaseUntilMs token : Nat) : Option (Row × Op) :=
  if row.status = .pending && row.leaseUntilMs < nowMs then
    some ({ row with leaseUntilMs, leaseToken := token },
      ⟨row.opId, row.request, row.attempts, row.deadlineMs, token, row.lastReason⟩)
  else none

/-- `Finalize` and `Reschedule` on the row of the operation. -/
def Row.settle (row : Row) (op : Op) : Settlement → Row
  | .finalize status res =>
    if row.opId = op.opId && row.status = .pending then
      { row with status, lastReason := res.reason, leaseUntilMs := 0 }
    else row
  | .reschedule res =>
    if row.opId = op.opId && row.status = .pending && row.leaseToken = op.leaseToken then
      { row with attempts := row.attempts + 1, lastReason := res.reason, leaseUntilMs := 0 }
    else row

/-! ## What a persisted ledger proves -/

theorem bitAt_eq (words : Words) (i : Nat) : bitAt words i = testBit words i := by
  rw [testBit_eq, bitAt]
  split
  next h => simp [readWord_of_le h]
  generalize readWord words (i / 64) = w
  have hlt : i % 64 < 64 := by omega
  rw [Bool.eq_iff_iff, bne_iff_ne, ne_eq, eq_of_getLsbD_eq_iff]
  constructor
  · intro h
    by_contra hbit
    refine h fun j hj => ?_
    rw [getLsbD_and, getLsbD_shiftLeft, getLsbD_one, getLsbD_zero]
    by_cases hji : j = i % 64
    · simp [hji, hbit]
    · have : ¬ (j - i % 64 = 0 ∧ ¬ j < i % 64) := by omega
      simp only [Bool.and_eq_false_iff, Bool.not_eq_false', decide_eq_true_eq,
        decide_eq_false_iff_not]
      omega
  · intro hbit h
    have := h (i % 64) hlt
    rw [getLsbD_and, hbit, getLsbD_shiftLeft, getLsbD_one] at this
    simp [hlt] at this

/-- On a ledger of the right size, both sides classify alike. -/
theorem classifySeq_eq {ledger : Option AssetOpStreamLedger}
    (h : ∀ l, ledger = some l →
      l.seenBits.length = windowWords ∧ l.appliedBits.length = windowWords)
    (epoch seq : Nat) : classifySeq ledger epoch seq = classifyAssetOpSeq ledger epoch seq := by
  unfold classifySeq classifyAssetOpSeq
  split
  · rfl
  cases ledger with
  | none => rfl
  | some l =>
    obtain ⟨hs, ha⟩ := h l rfl
    have hjump : (decide (l.maxSeq ≤ uint64Max - maxSeqJump) &&
        decide (seq > l.maxSeq + maxSeqJump)) = exceedsJumpCap l.maxSeq seq := by
      unfold exceedsJumpCap
      split
      next hgt => simp [Nat.not_le.2 hgt]
      next hle => simp [Nat.not_lt.1 hle]
    simp only [hs, ha, ne_eq, not_true_eq_false, decide_false, Bool.or_self, Bool.false_eq_true,
      if_false, bitAt_eq, classifyInEpoch, hjump]
    rfl

def outcomeOf (applied : Bool) : AssetOpOutcome := if applied then .applied else .rejected

theorem classifyPersisted_decided {comp : PlayerAssetOpLedgerComp} {decided : Decided}
    (h : LedgerAgrees comp decided) {op : OpKey} {b : Bool}
    (hc : (classifyPersisted comp op).1 = outcomeOf b) :
    ∃ k, k.isApplied = b ∧ (op, k) ∈ decided := by
  refine h.decided_of_seen (s := op.stream) ?_
  rw [← classifySeq_eq fun l hl => ⟨(h.found _ l hl).seen_length, (h.found _ l hl).applied_length⟩]
  simp only [classifyPersisted] at hc
  split at hc
  next happ =>
    rw [happ]
    split at hc <;> cases b <;> first | rfl | cases hc
  next hrej =>
    rw [hrej]
    cases b
    · rfl
    · cases hc
  · cases b <;> cases hc

/-! ## What finalizes a row -/

def Status.verdict : Status → Option Bool
  | .applied | .appliedPartial => some true
  | .rejected | .aborted => some false
  | .pending | .abandoned => none

theorem finalStatus_verdict {rpc : AssetOpRpc} {res : Result} {op : Op}
    (h : finalStatus rpc res op ≠ .pending) :
    ∃ b, res.outcome = outcomeOf b ∧ (finalStatus rpc res op).verdict = some b := by
  unfold finalStatus at h ⊢
  split
  next ho =>
    refine ⟨true, ho, ?_⟩
    split <;> rfl
  next ho =>
    refine ⟨false, ho, ?_⟩
    split <;> rfl
  next hne hne' =>
    refine absurd ?_ h
    split
    · next ho => exact absurd ho hne
    · next ho => exact absurd ho hne'
    · rfl

section Finalize

variable {digest : AssetOpRequest → Bytes} {cfg : LoopConfig} {op : Op} {res : Result}
  {persisted sql : LedgerRead}

theorem resultWithReceipt_cases (comp : PlayerAssetOpLedgerComp) :
    resultWithReceipt digest comp op res = .zero ∨
      ∃ snapshot, resultWithReceipt digest comp op res = { res with snapshot } := by
  unfold resultWithReceipt
  split
  · exact .inl rfl
  split
  · split
    · exact .inl rfl
    · exact .inr ⟨_, rfl⟩
  · split
    · exact .inl rfl
    · exact .inr ⟨_, rfl⟩

/-- A ledger that was read classifies the operation with this outcome. -/
def Proves (persisted sql : LedgerRead) (op : Op) (outcome : AssetOpOutcome) : Prop :=
  ∃ comp, (persisted = .found comp ∨ sql = .found comp) ∧
    (classifyPersisted comp op.request.key).1 = outcome

theorem tryPersistedLedger_cases :
    tryPersistedLedger digest cfg op res persisted = res ∨
      tryPersistedLedger digest cfg op res persisted = .zero ∨
      Proves persisted sql op (tryPersistedLedger digest cfg op res persisted).outcome := by
  unfold tryPersistedLedger
  split
  · exact .inl rfl
  split
  · exact .inl rfl
  split
  · exact .inl rfl
  · exact .inl rfl
  rename_i comp
  dsimp only
  split
  · exact .inl rfl
  · rcases resultWithReceipt_cases comp with h | ⟨snapshot, h⟩
    · exact .inr (.inl h)
    · exact .inr (.inr ⟨comp, .inl rfl, by rw [h]⟩)

theorem verifySQLCommit_durable {res' : Result}
    (h : verifySQLCommit digest cfg op res sql = (res', none)) (hd : res'.durable = true)
    (ht : isSceneTerminal res'.outcome = true) : Proves persisted sql op res'.outcome := by
  unfold verifySQLCommit at h
  split at h
  · obtain rfl := (Prod.mk.inj h).1
    cases hd
  · split at h
    · obtain rfl := (Prod.mk.inj h).1
      cases hd
    · obtain rfl := (Prod.mk.inj h).1
      cases hd
    next comp =>
      dsimp only at h
      split at h
      · obtain rfl := (Prod.mk.inj h).1
        cases hd
      · split at h
        next hterm =>
          obtain rfl := (Prod.mk.inj h).1
          simp [Result.terminal, hd, ht] at hterm
        next hterm =>
          split at h
          · cases (Prod.mk.inj h).2
          obtain rfl := (Prod.mk.inj h).1
          rcases resultWithReceipt_cases comp with hz | ⟨snapshot, ho⟩
          · rw [hz] at hd
            cases hd
          · exact ⟨comp, .inr rfl, by rw [ho]⟩

theorem proveOutcome_durable {res' : Result}
    (h : proveOutcome digest cfg op res persisted sql = (res', none)) (hd : res'.durable = true)
    (ht : isSceneTerminal res'.outcome = true) :
    res.durable = true ∧ res'.outcome = res.outcome ∨ Proves persisted sql op res'.outcome := by
  unfold proveOutcome at h
  generalize hr : (if res.isLocal then tryPersistedLedger digest cfg op res persisted else res) =
    read at h
  have hread : read = res ∨ read = .zero ∨ Proves persisted sql op read.outcome := by
    rw [← hr]
    split
    · exact tryPersistedLedger_cases
    · exact .inl rfl
  dsimp only at h
  -- without SQL evidence the result is the read one, up to its snapshot and durability
  have hkeep : ∀ r : Result, r.outcome = read.outcome → (r.durable = true → read.durable = true) →
      r = res' → res.durable = true ∧ res'.outcome = res.outcome ∨
        Proves persisted sql op res'.outcome := by
    rintro r ho hdur rfl
    rcases hread with rfl | rfl | hp
    · exact .inl ⟨hdur hd, ho⟩
    · cases hdur hd
    · exact .inr (ho ▸ hp)
  split at h
  · split at h
    · exact .inr (verifySQLCommit_durable h hd ht)
    · refine hkeep (withMatchingReceipt op read) rfl (fun hw => ?_) (Prod.mk.inj h).1
      simp only [withMatchingReceipt, Bool.and_eq_true] at hw
      exact hw.1
  · exact hkeep _ rfl id (Prod.mk.inj h).1

/-- A row is finalized only on a durable answer or on a persisted ledger, and the status says
what they say. -/
theorem processOne_finalize {rpc : AssetOpRpc} {err : Option DoError} {status : Status}
    {final : Result}
    (h : processOne digest cfg op rpc res err persisted sql = .finalize status final) :
    ∃ b, status.verdict = some b ∧
      (err = none ∧ res.durable = true ∧ res.outcome = outcomeOf b ∨
        Proves persisted sql op (outcomeOf b)) := by
  unfold processOne at h
  generalize hp : (if err.isNone then proveOutcome digest cfg op res persisted sql
    else (res, err)) = proved at h
  obtain ⟨res', err'⟩ := proved
  dsimp only at h
  split at h
  next hact =>
    split at h
    · cases h
    rename_i hstatus
    obtain ⟨rfl, -⟩ := Settlement.finalize.inj h
    obtain ⟨b, ho, hverdict⟩ := finalStatus_verdict hstatus
    refine ⟨b, hverdict, ?_⟩
    have herr' : err' = none := by
      cases err' with
      | none => rfl
      | some e => cases e <;> cases hact
    subst herr'
    have hterm : isSceneTerminal res'.outcome = true := by
      rw [ho]
      cases b <;> rfl
    have hd : res'.durable = true := by
      cases b <;> simp only [decideAction, ho, outcomeOf] at hact <;> simpa using hact
    split at hp
    next hnone =>
      rcases proveOutcome_durable hp hd hterm with ⟨hdur, hout⟩ | hprove
      · exact .inl ⟨Option.isNone_iff_eq_none.1 hnone, hdur, hout ▸ ho⟩
      · exact .inr (ho ▸ hprove)
    next hsome =>
      have : err = none := (Prod.mk.inj hp).2
      simp [this] at hsome
  · cases h
  · cases h
  · cases h

end Finalize

end Mmorpg.AssetOp
