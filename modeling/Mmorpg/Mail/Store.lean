import Mmorpg.Lib.Table

/-!
# The tables of the mail service

The transactions of the mail database (claim.go, inbox.go, asset_store.go, sweep.go) over three
tables: the messages, the state of a mail for a player, and the asset operations that claims
create. Every transaction of a player first locks the player's row of `mail_box` and then the
rows it changes, so it is one function from tables to tables; a transaction that fails is rolled
back.

A transaction reads the message before it locks the state row. What it read is an argument here,
since a sweep, which takes no lock of `mail_box`, may have deleted the message in between; the
argument is absent when the message is not visible to the player.
-/

namespace Mmorpg.Mail

abbrev PlayerId := Nat
abbrev MailId := Nat
abbrev OpId := Nat
abbrev Bytes := List UInt8

/-- `MailClaimState` -/
inductive ClaimState where
  | none
  | unclaimed
  | pending
  | claimed
  | manual
deriving DecidableEq, Repr

/-- `MailAssetOpStatus`; `manual` is a partially applied operation. -/
inductive OpStatus where
  | pending
  | applied
  | rejected
  | manual
  | abandoned
deriving DecidableEq, Repr

inductive Err where
  | invalid
  | notFound
  | expired
  | conflict
  | attachment
  | protectedMail
  | leaseLost
  | noSqlProof
  | sql
deriving DecidableEq, Repr

structure Message where
  ownerPlayerId : PlayerId
  kind : Nat
  campaignId : Nat
  attachments : Bytes
  expireMs : Nat
deriving DecidableEq, Repr

structure MailState where
  readMs : Nat
  deletedMs : Nat
  claimState : ClaimState
  currentOpId : OpId
  claimVersion : Nat
  reasonTipId : Nat
  updatedMs : Nat
deriving DecidableEq, Repr

structure AssetOp where
  playerId : PlayerId
  seq : Nat
  streamEpoch : Nat
  mailId : MailId
  claimVersion : Nat
  status : OpStatus
  payload : Bytes
  attempts : Nat
  nextAttemptMs : Nat
  leaseUntilMs : Nat
  leaseToken : Nat
  lastOutcome : Nat
  lastReason : Nat
  durable : Bool
  reasonTipId : Nat
  createdMs : Nat
  updatedMs : Nat
  lastSendMs : Nat
deriving DecidableEq, Repr

structure Tables where
  messages : Table MailId Message
  state : Table (PlayerId × MailId) MailState
  ops : Table OpId AssetOp

def hasAttachments (payload : Bytes) : Bool := payload.length > 0

def maxUint64 : Nat := 18446744073709551615

def kMailClaimManual : Nat := 17007

def kMailClaimPending : Nat := 17006

/-! ## Reading and claiming -/

def freshState (m : Message) (now : Nat) : MailState :=
  ⟨0, 0, if hasAttachments m.attachments then .unclaimed else .none, 0, 0, 0, now⟩

/-- `materialize`: the state row, created on demand while the mail is not expired. -/
def materialize (t : Tables) (found : Option Message) (player : PlayerId) (id : MailId)
    (now : Nat) : Except Err (Message × MailState × Tables) :=
  match found with
  | none => .error .notFound
  | some m =>
    match t.state.get (player, id) with
    | some s => if s.deletedMs ≠ 0 then .error .notFound else .ok (m, s, t)
    | none =>
      if m.expireMs ≤ now then .error .expired
      else
        let s := freshState m now
        .ok (m, s, { t with state := t.state.put (player, id) s })

/-- `MailActionResult` -/
structure ActionResult where
  claimState : ClaimState
  assetOpId : OpId
  errorTipId : Nat
deriving DecidableEq, Repr

def claimedOp (m : Message) (player : PlayerId) (id : MailId) (version now : Nat)
    (alloc : Nat × Nat) : AssetOp :=
  ⟨player, alloc.1, alloc.2, id, version, .pending, m.attachments, 0, now, 0, 0, 0, 0, false, 0,
    now, now, 0⟩

def claimingState (s : MailState) (opId : OpId) (now : Nat) : MailState :=
  { s with claimState := .pending, currentOpId := opId, claimVersion := s.claimVersion + 1,
           reasonTipId := 0, readMs := if s.readMs = 0 then now else s.readMs, updatedMs := now }

/-- `Claim`. `decodes` tells which attachments are well-formed, `alloc` is the sequence number
and epoch that `AllocateSeq` gave, if it gave one. -/
def claim (decodes : Bytes → Bool) (t : Tables) (found : Option Message) (player : PlayerId)
    (id : MailId) (opId : OpId) (now : Nat) (alloc : Option (Nat × Nat)) :
    Except Err (Tables × ActionResult) :=
  if player = 0 || id = 0 then .error .invalid
  else
    match materialize t found player id now with
    | .error e => .error e
    | .ok (m, s, t) =>
      if s.claimState ≠ .unclaimed then .ok (t, ⟨s.claimState, s.currentOpId, 0⟩)
      else if m.expireMs ≤ now then .error .expired
      else if !hasAttachments m.attachments then .error .attachment
      else if s.claimVersion = maxUint64 then .error .conflict
      else if !decodes m.attachments then .error .attachment
      else
        match alloc with
        | none => .error .sql
        | some alloc =>
          -- the primary key of the operation
          if (t.ops.get opId).isSome then .error .sql
          else
            .ok ({ t with
              ops := t.ops.put opId (claimedOp m player id (s.claimVersion + 1) now alloc)
              state := t.state.put (player, id) (claimingState s opId now) },
              ⟨.pending, opId, kMailClaimPending⟩)

def expires (c : ClaimState) : Bool := c = .none || c = .unclaimed || c = .claimed

def read (t : Tables) (found : Option Message) (player : PlayerId) (id : MailId) (now : Nat) :
    Except Err Tables :=
  if player = 0 || id = 0 then .error .invalid
  else
    match materialize t found player id now with
    | .error e => .error e
    | .ok (m, s, t) =>
      if m.expireMs ≤ now && expires s.claimState then .error .expired
      else
        let s := { s with readMs := if s.readMs = 0 then now else s.readMs, updatedMs := now }
        .ok { t with state := t.state.put (player, id) s }

/-! ## Deleting -/

structure Deleted where
  deleted : List MailId
  protectedMails : List MailId
deriving DecidableEq, Repr

/-- The loop of `Delete` over its targets; `seen` are those that it has passed. -/
def deleteLoop (found : MailId → Option Message) (player : PlayerId) (now : Nat) :
    List MailId → List MailId → Tables → Deleted → Except Err (Tables × Deleted)
  | [], _, t, d => .ok (t, d)
  | id :: ids, seen, t, d =>
    if id = 0 || id ∈ seen then deleteLoop found player now ids seen t d
    else
      match materialize t (found id) player id now with
      | .error .notFound => deleteLoop found player now ids (id :: seen) t d
      | .error .expired => deleteLoop found player now ids (id :: seen) t d
      | .error e => .error e
      | .ok (m, s, t) =>
        if !expires s.claimState || s.claimState = .unclaimed && m.expireMs > now then
          deleteLoop found player now ids (id :: seen) t
            { d with protectedMails := d.protectedMails ++ [id] }
        else
          let s := { s with deletedMs := now, updatedMs := now }
          deleteLoop found player now ids (id :: seen)
            { t with state := t.state.put (player, id) s } { d with deleted := d.deleted ++ [id] }

/-- The mails that clearing the read ones is about, out of the ids that the query scans. -/
def clearTargets (t : Tables) (found : MailId → Option Message) (player : PlayerId)
    (scanned : List MailId) : List MailId :=
  (scanned.filter fun id => (found id).isSome &&
    (t.state.get (player, id)).any fun s => s.readMs > 0 && s.deletedMs = 0).take 1000

def delete (t : Tables) (found : MailId → Option Message) (player : PlayerId)
    (ids : List MailId) (clear : Bool) (scanned : List MailId) (now : Nat) :
    Except Err (Tables × Deleted) :=
  if (!clear && (ids.length = 0 || ids.length > 100)) || player = 0 then .error .invalid
  else
    let targets := if clear then clearTargets t found player scanned else ids
    deleteLoop found player now targets [] t ⟨[], []⟩

/-! ## Leases and results of operations -/

/-- `assetop.Result` -/
structure Result where
  outcome : Nat
  reason : Nat
  durable : Bool
  sqlCommitted : Bool
  local_ : Bool
  isPartial : Bool
deriving DecidableEq, Repr

/-- The operation as a worker holds it: its number, the player and the lease. -/
structure LeasedOp where
  opId : OpId
  playerId : PlayerId
  leaseToken : Nat
deriving DecidableEq, Repr

def reschedule (t : Tables) (op : LeasedOp) (next : Nat) (res : Result) (now : Nat) :
    Except Err Tables :=
  match t.ops.get op.opId with
  | none => .error .sql
  | some p =>
    if p.status ≠ .pending || p.leaseToken ≠ op.leaseToken then .error .leaseLost
    else
      let lastSend := if res.local_ then 0 else now
      let p := { p with attempts := p.attempts + 1, nextAttemptMs := next, leaseUntilMs := 0,
                        durable := res.durable, lastOutcome := res.outcome,
                        lastReason := res.reason, updatedMs := now,
                        lastSendMs := max p.lastSendMs lastSend }
      .ok { t with ops := t.ops.put op.opId p }

/-- `ClaimOp`; a payload that cannot be read is put off at once. -/
def claimOp (decodes : Bytes → Bool) (t : Tables) (id : OpId) (now until_ poison token : Nat) :
    Except Err Tables :=
  match t.ops.get id with
  | none => .error .sql
  | some p =>
    if p.status ≠ .pending || ¬ p.leaseUntilMs < now then .error .leaseLost
    else
      let leased := { p with lastSendMs := max p.lastSendMs p.leaseUntilMs,
                             leaseUntilMs := until_, leaseToken := token }
      let t := { t with ops := t.ops.put id leased }
      if decodes p.payload then .ok t
      else reschedule t ⟨id, p.playerId, token⟩ poison ⟨0, 0, false, false, false, false⟩ now

/-- `assetop.Status` -/
inductive Status where
  | pending
  | applied
  | rejected
  | aborted
  | appliedPartial
  | abandoned
deriving DecidableEq, Repr

/-- What a result makes of the operation and of the mail: status, claim state and reason. -/
def finalOf (status : Status) (res : Result) : Except Err (OpStatus × ClaimState × Nat) :=
  match status with
  | .applied =>
    if res.isPartial then .error .protectedMail else .ok (.applied, .claimed, res.reason)
  | .rejected | .aborted => .ok (.rejected, .unclaimed, res.reason)
  | .appliedPartial => .ok (.manual, .manual, kMailClaimManual)
  | .pending | .abandoned => .error .invalid

/-- `Finalize`; the answer tells whether this call has finished the operation. -/
def finalize (t : Tables) (op : LeasedOp) (status : Status) (res : Result) (now : Nat) :
    Except Err (Tables × Bool) :=
  if !res.sqlCommitted then .error .noSqlProof
  else
    match finalOf status res with
    | .error e => .error e
    | .ok (final, claim, reason) =>
      if op.playerId = 0 then .error .invalid
      else
        match t.ops.get op.opId with
        | none => .error .sql
        | some p =>
          match t.state.get (op.playerId, p.mailId) with
          | none => .error .sql
          | some s =>
            if p.status ≠ .pending then .ok (t, false)
            else if s.currentOpId ≠ op.opId || s.claimVersion ≠ p.claimVersion ||
                s.claimState ≠ .pending then .error .conflict
            else
              let p' := { p with status := final, durable := true, lastOutcome := res.outcome,
                                 lastReason := res.reason, nextAttemptMs := now,
                                 leaseUntilMs := 0, updatedMs := now, reasonTipId := reason }
              let s := { s with claimState := claim, reasonTipId := reason, updatedMs := now }
              .ok ({ t with ops := t.ops.put op.opId p',
                            state := t.state.put (op.playerId, p.mailId) s }, true)

/-! ## Sweeping -/

def eligible (t : Tables) (id : MailId) (cutoff : Nat) : Bool :=
  (t.messages.get id).any fun m =>
    m.expireMs > 0 && m.expireMs < cutoff && m.campaignId = 0 && (m.kind ∈ [1, 2, 3]) &&
    (t.state.rows.all fun r => r.1.2 ≠ id || expires r.2.claimState) &&
    t.ops.rows.all fun r => r.2.mailId ≠ id || r.2.status ∈ [.applied, .rejected, .abandoned]

/-- The players whose state of a mail may be deleted. -/
def collectable (t : Tables) (id : MailId) : List PlayerId :=
  (t.state.rows.filter fun r => r.1.2 = id && expires r.2.claimState).map (·.1.1)

/-- The deletions of `Sweep` for one candidate whose message is locked: the rows that the limited
`DELETE` picks, and the message itself if the budget is not used up. -/
def sweepDelete (t : Tables) (id : MailId) (cutoff remaining : Nat) (picked : List PlayerId) :
    Tables :=
  let t := { t with state := t.state.delAll (picked.map fun p => (p, id)) }
  if picked.length < remaining && (t.messages.get id).any (fun m => m.expireMs > 0 &&
      m.expireMs < cutoff && m.campaignId = 0) && (t.state.rows.all fun r => r.1.2 ≠ id) &&
      t.ops.rows.all (fun r => r.2.mailId ≠ id || r.2.status ∈ [.applied, .rejected, .abandoned])
  then { t with messages := t.messages.del id }
  else t

/-- The choice of rows that a `DELETE` with a limit may make. -/
def mayPick (t : Tables) (id : MailId) (remaining : Nat) (picked : List PlayerId) : Bool :=
  picked.Nodup && (picked.all fun p => p ∈ collectable t id) &&
    picked.length = min remaining (collectable t id).length

/-! ## Sending -/

/-- The transaction of `Send`, as far as the tables are concerned. -/
def send (t : Tables) (id : MailId) (m : Message) (now : Nat) : Except Err Tables :=
  if (t.messages.get id).isSome then .error .conflict
  else
    let t := { t with messages := t.messages.put id m }
    if m.ownerPlayerId = 0 then .ok t
    else if (t.state.get (m.ownerPlayerId, id)).isSome then .error .conflict
    else .ok { t with state := t.state.put (m.ownerPlayerId, id) (freshState m now) }

/-! ## What a transaction has done when it succeeds -/

section Specs

variable {decodes : Bytes → Bool} {t t' t₁ : Tables} {found : Option Message} {player : PlayerId}
  {id : MailId} {now : Nat} {m : Message} {s : MailState}

theorem materialize_ok (h : materialize t found player id now = .ok (m, s, t₁)) :
    found = some m ∧ s.deletedMs = 0 ∧
      (t.state.get (player, id) = some s ∧ t₁ = t ∨
        t.state.get (player, id) = none ∧ now < m.expireMs ∧ s = freshState m now ∧
          t₁ = { t with state := t.state.put (player, id) s }) := by
  unfold materialize at h
  split at h
  · cases h
  split at h
  next hget =>
    split at h
    · cases h
    next hdel =>
      cases h
      exact ⟨rfl, not_not.1 hdel, .inl ⟨hget, rfl⟩⟩
  next hget =>
    split at h
    · cases h
    next hexp =>
      cases h
      exact ⟨rfl, rfl, .inr ⟨hget, not_le.1 hexp, rfl, rfl⟩⟩

theorem claim_ok {opId : OpId} {alloc : Option (Nat × Nat)} {res : ActionResult}
    (h : claim decodes t found player id opId now alloc = .ok (t', res)) :
    ∃ m s t₁, materialize t found player id now = .ok (m, s, t₁) ∧
      (t' = t₁ ∨ s.claimState = .unclaimed ∧ now < m.expireMs ∧ t₁.ops.get opId = none ∧
        ∃ a, t' = { t₁ with
          ops := t₁.ops.put opId (claimedOp m player id (s.claimVersion + 1) now a)
          state := t₁.state.put (player, id) (claimingState s opId now) }) := by
  rw [claim] at h
  split at h
  · cases h
  split at h
  · cases h
  rename_i m s t₁ hm
  refine ⟨m, s, t₁, hm, ?_⟩
  split at h
  · cases h
    exact .inl rfl
  rename_i hstate
  split at h
  · cases h
  rename_i hexp
  iterate 4
    split at h
    · cases h
  split at h
  · cases h
  rename_i hkey
  cases h
  refine .inr ⟨not_not.1 hstate, not_le.1 hexp, ?_, _, rfl⟩
  exact Option.not_isSome_iff_eq_none.1 hkey

theorem read_ok (h : read t found player id now = .ok t') :
    ∃ m s t₁, materialize t found player id now = .ok (m, s, t₁) ∧
      ∃ s' : MailState, s'.claimState = s.claimState ∧ s'.currentOpId = s.currentOpId ∧
        s'.claimVersion = s.claimVersion ∧ s'.deletedMs = s.deletedMs ∧
        t' = { t₁ with state := t₁.state.put (player, id) s' } := by
  rw [read] at h
  split at h
  · cases h
  split at h
  · cases h
  rename_i m s t₁ hm
  refine ⟨m, s, t₁, hm, ?_⟩
  split at h
  · cases h
  cases h
  exact ⟨{ s with readMs := if s.readMs = 0 then now else s.readMs, updatedMs := now },
    rfl, rfl, rfl, rfl, rfl⟩

variable {res : Result}

theorem reschedule_ok {op : LeasedOp} {next : Nat}
    (h : reschedule t op next res now = .ok t') :
    ∃ p p' : AssetOp, t.ops.get op.opId = some p ∧ p'.playerId = p.playerId ∧
      p'.mailId = p.mailId ∧ p'.claimVersion = p.claimVersion ∧ p'.status = p.status ∧
      t' = { t with ops := t.ops.put op.opId p' } := by
  rw [reschedule] at h
  split at h
  · cases h
  rename_i p hp
  split at h
  · cases h
  cases h
  refine ⟨p, _, hp, ?_, ?_, ?_, ?_, rfl⟩ <;> rfl

theorem finalOf_ok {status : Status} {final : OpStatus} {c : ClaimState}
    {reason : Nat} (h : finalOf status res = .ok (final, c, reason)) :
    final = .applied ∧ c = .claimed ∨ final = .rejected ∧ c = .unclaimed ∨
      final = .manual ∧ c = .manual := by
  unfold finalOf at h
  split at h
  · split at h
    · cases h
    · cases h
      exact .inl ⟨rfl, rfl⟩
  · cases h
    exact .inr (.inl ⟨rfl, rfl⟩)
  · cases h
    exact .inr (.inl ⟨rfl, rfl⟩)
  · cases h
    exact .inr (.inr ⟨rfl, rfl⟩)
  · cases h
  · cases h

theorem finalize_ok {op : LeasedOp} {status : Status} {done : Bool}
    (h : finalize t op status res now = .ok (t', done)) :
    t' = t ∨ ∃ (p p' : AssetOp) (s s' : MailState), t.ops.get op.opId = some p ∧
      t.state.get (op.playerId, p.mailId) = some s ∧ p.status = .pending ∧
      s.currentOpId = op.opId ∧ s.claimState = .pending ∧
      p'.playerId = p.playerId ∧ p'.mailId = p.mailId ∧ p'.claimVersion = p.claimVersion ∧
      s'.deletedMs = s.deletedMs ∧ s'.currentOpId = op.opId ∧
      (p'.status = .applied ∧ s'.claimState = .claimed ∨
        p'.status = .rejected ∧ s'.claimState = .unclaimed ∨
        p'.status = .manual ∧ s'.claimState = .manual) ∧
      t' = { t with ops := t.ops.put op.opId p',
                    state := t.state.put (op.playerId, p.mailId) s' } := by
  rw [finalize] at h
  split at h
  · cases h
  split at h
  · cases h
  rename_i final c reason hfinal
  split at h
  · cases h
  split at h
  · cases h
  rename_i p hp
  split at h
  · cases h
  rename_i s hs
  split at h
  · cases h
    exact .inl rfl
  rename_i hstatus
  split at h
  · cases h
  rename_i hcond
  cases h
  simp only [ne_eq, Bool.or_eq_true, decide_eq_true_eq, not_or, not_not] at hcond
  refine .inr ⟨p, _, s, _, hp, hs, not_not.1 hstatus, hcond.1.1, hcond.2, ?_, ?_, ?_, ?_, ?_, ?_,
    rfl⟩
  case refine_5 => exact hcond.1.1
  case refine_6 => exact finalOf_ok hfinal
  all_goals rfl

theorem send_ok (h : send t id m now = .ok t') :
    t'.messages = t.messages.put id m ∧ t'.ops = t.ops ∧
      (t'.state = t.state ∨ ∃ player, t.state.get (player, id) = none ∧
        t'.state = t.state.put (player, id) (freshState m now)) := by
  rw [send] at h
  split at h
  · cases h
  dsimp only at h
  split at h
  · cases h
    exact ⟨rfl, rfl, .inl rfl⟩
  split at h
  · cases h
  rename_i hnone
  cases h
  exact ⟨rfl, rfl, .inr ⟨m.ownerPlayerId, Option.not_isSome_iff_eq_none.1 hnone, rfl⟩⟩

theorem eligible_ok {cutoff : Nat} (h : eligible t id cutoff = true) :
    ∃ m, t.messages.get id = some m ∧ m.expireMs < cutoff := by
  obtain ⟨m, hm, hcond⟩ := Option.any_eq_true .. |>.1 h
  simp only [Bool.and_eq_true, decide_eq_true_eq] at hcond
  exact ⟨m, hm, hcond.1.1.1.1.2⟩

theorem mem_collectable {p : PlayerId} (h : p ∈ collectable t id) :
    ∃ r, t.state.get (p, id) = some r ∧ expires r.claimState = true := by
  obtain ⟨⟨⟨q, i⟩, r⟩, hmem, rfl⟩ := List.mem_map.1 h
  obtain ⟨hrow, hcond⟩ := List.mem_filter.1 hmem
  simp only [Bool.and_eq_true, decide_eq_true_eq] at hcond
  obtain ⟨rfl, hexp⟩ := hcond
  exact ⟨r, Table.mem_rows.1 hrow, hexp⟩

theorem mem_of_mayPick {remaining : Nat} {picked : List PlayerId}
    (h : mayPick t id remaining picked = true) {p : PlayerId} (hp : p ∈ picked) :
    p ∈ collectable t id := by
  simp only [mayPick, Bool.and_eq_true, List.all_eq_true, decide_eq_true_eq] at h
  exact h.1.2 p hp

theorem sweepDelete_spec (t : Tables) (id : MailId) (cutoff remaining : Nat)
    (picked : List PlayerId) :
    (sweepDelete t id cutoff remaining picked).state =
        t.state.delAll (picked.map fun p => (p, id)) ∧
      (sweepDelete t id cutoff remaining picked).ops = t.ops ∧
      ((sweepDelete t id cutoff remaining picked).messages = t.messages ∨
        (sweepDelete t id cutoff remaining picked).messages = t.messages.del id) := by
  rw [sweepDelete]
  dsimp only
  split
  · exact ⟨rfl, rfl, .inr rfl⟩
  · exact ⟨rfl, rfl, .inl rfl⟩

end Specs

end Mmorpg.Mail
