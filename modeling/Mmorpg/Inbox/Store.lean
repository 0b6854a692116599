import Mathlib.Data.List.Sort
import Mmorpg.Inbox.Ledger

/-!
# The inbox store

The transactions of the inbox service on the rows of one player and domain: enqueueing,
fetching, acknowledging and the normal admin void, as decide.go, fence.go, seq.go and the
`store_*.go` files have them. A transaction holds the player's lock from its first statement,
so each one is a function of the stored rows. A transaction that fails (a lost connection, an
admission that is not confirmed) is rolled back and is not a step.

`Row.Next` is what any transaction may do to a row; a row that is not pending stays as it is.
-/

namespace Mmorpg.Inbox

open List

/-- `PlayerInboxItemState`; only `pending` is not terminal. -/
inductive ItemState where
  | unspecified
  | pending
  | applied
  | rejected
  | voided
  | settledUnknown
deriving DecidableEq, Repr

inductive VoidReason where
  | unspecified
  | cancelled
  | quarantined
deriving DecidableEq, Repr

def VoidReason.number : VoidReason → Nat
  | unspecified => 0
  | cancelled => 1
  | quarantined => 2

inductive Finalizer where
  | unspecified
  | consumer
  | admin
deriving DecidableEq, Repr

/-- `PLAYER_INBOX_PRODUCER_GM` and `PLAYER_INBOX_PRODUCER_MATCH`. -/
inductive Producer where
  | gm
  | matchService
deriving DecidableEq, Repr

abbrev Payload := List UInt8

/-- `PlayerInboxItemRow`. -/
structure Row where
  seq : Nat
  msgType : MsgType
  producer : Producer
  requestId : Nat
  contentSha256 : List UInt8
  payload : Payload
  state : ItemState
  directive : Directive
  voidReason : VoidReason
  deliveryCount : Nat
  lastDeliveredEpoch : Nat
  outcomeReason : Nat
  finalizedBy : Finalizer
  decidedEpoch : Nat
deriving DecidableEq, Repr

/-- `PlayerInboxStream`. -/
structure Stream where
  nextSeq : Nat
  openCount : Nat
  fenceEpoch : Nat
deriving DecidableEq, Repr

structure Store where
  stream : Option Stream
  rows : List Row
deriving DecidableEq, Repr

/-- The domain, and the digest `ContentSHA256` of type, issue time and payload. -/
structure InboxConfig where
  domain : InboxDomain
  contentSha256 : MsgType → Nat → Payload → List UInt8

/-- `max_pending` of the option `OptionPlayerInboxDomain`. -/
def InboxDomain.maxPending : InboxDomain → Nat
  | gmSanction => 64
  | battleSettlement => 1

/-! ## Enqueue -/

def seqClockShift : Nat := 12

/-- `1 << (63 - seqClockShift)`. -/
def maxSeqClockMs : Nat := 2251799813685248

/-- `NextSeq`; `none` is `ErrSeqClockInvalid`. -/
def nextSeq (next nowMs : Nat) : Option Nat :=
  if nowMs = 0 || nowMs ≥ maxSeqClockMs then none
  else some (max (max next (nowMs <<< seqClockShift)) 1)

def raiseNextSeq (next consumerDecidedThrough : Nat) : Nat × Bool :=
  if consumerDecidedThrough < next then (next, false) else (consumerDecidedThrough + 1, true)

/-- Seven days and five minutes, in milliseconds. -/
def issuedAtMaxPast : Nat := 604800000
def issuedAtMaxFuture : Nat := 300000

def issuedWithinWindow (issuedAtMs nowMs : Nat) : Bool :=
  if issuedAtMs > nowMs + issuedAtMaxFuture then false
  else nowMs < issuedAtMaxPast || issuedAtMs ≥ nowMs - issuedAtMaxPast

/-- `fromMatch` says that the signed entry for battle settlements is used. -/
structure EnqueueParams where
  msgType : MsgType
  producer : Producer
  requestId : Nat
  issuedAtMs : Nat
  payload : Payload
  fromMatch : Bool
deriving DecidableEq, Repr

inductive EnqueueResult where
  | created (seq : Nat)
  | duplicate (seq : Nat) (state : ItemState)
  | invalidParameter
  | idempotencyConflict
  | issuedOutOfWindow
  | full
  | clockInvalid
deriving DecidableEq, Repr

/-- `decideExisting` and `resultForExisting`. -/
def resultForExisting (row : Row) (digest : List UInt8) : EnqueueResult :=
  if row.contentSha256.length = 32 && row.contentSha256 = digest then .duplicate row.seq row.state
  else .idempotencyConflict

def readItemByRequest (rows : List Row) (producer : Producer) (requestId : Nat) : Option Row :=
  KeyedList.find (fun r : Row => (r.producer, r.requestId)) rows (producer, requestId)

def EnqueueParams.row (p : EnqueueParams) (digest : List UInt8) (seq : Nat) : Row :=
  ⟨seq, p.msgType, p.producer, p.requestId, digest, p.payload, .pending, .none, .unspecified, 0, 0,
    0, .unspecified, 0⟩

/-- `decideEnqueueLocked` and the insertion, on the locked stream. -/
def insertItem (cfg : InboxConfig) (st : Store) (stream : Stream) (p : EnqueueParams)
    (digest : List UInt8) (txNowMs : Nat) : Store × EnqueueResult :=
  if stream.openCount ≥ cfg.domain.maxPending then (st, .full)
  else match nextSeq stream.nextSeq txNowMs with
    | none => (st, .clockInvalid)
    | some seq =>
      ({ stream := some { stream with nextSeq := seq + 1, openCount := stream.openCount + 1 }
         rows := st.rows ++ [p.row digest seq] }, .created seq)

/-- `enqueue` of a type of this domain: a request that has a row gets the answer of that row,
before window and capacity are looked at. -/
def enqueue (cfg : InboxConfig) (st : Store) (p : EnqueueParams) (nowMs txNowMs : Nat) :
    Store × EnqueueResult :=
  if p.requestId = 0 || p.issuedAtMs = 0 || p.msgType.domain ≠ some cfg.domain
      || (p.producer = .matchService || p.msgType = .battleSettlement) ≠ p.fromMatch then
    (st, .invalidParameter)
  else
    let digest := cfg.contentSha256 p.msgType p.issuedAtMs p.payload
    match readItemByRequest st.rows p.producer p.requestId with
    | some existing => (st, resultForExisting existing digest)
    | none =>
      if (!p.fromMatch && !issuedWithinWindow p.issuedAtMs nowMs)
          || (p.fromMatch && p.issuedAtMs > nowMs + issuedAtMaxFuture) then
        (st, .issuedOutOfWindow)
      else
        -- ensureStreamTx: a new stream starts at 1
        let stream := st.stream.getD ⟨1, 0, 0⟩
        let st := { st with stream := some stream }
        insertItem cfg st stream p digest txNowMs

/-! ## Owner fence -/

inductive FenceVerdict where
  | noStream
  | first
  | matched
  | advance
  | stale
  | epochRequired
  | epochAhead
deriving DecidableEq, Repr

def decideFence (req fence r : Nat) : FenceVerdict :=
  if req = 0 then .epochRequired
  else if req < fence then .stale
  else if req = fence then .matched
  else if req > r then .epochAhead
  else if fence = 0 then .first
  else .advance

def FenceVerdict.allows (v : FenceVerdict) : Bool := v = .matched || v = .first || v = .advance
def FenceVerdict.writes (v : FenceVerdict) : Bool := v = .first || v = .advance

inductive Tip where
  | invalidParameter
  | staleOwner
  | epochRequired
  | epochAhead
deriving DecidableEq, Repr

def fenceRejectTip : FenceVerdict → Option Tip
  | .stale => some .staleOwner
  | .epochRequired => some .epochRequired
  | .epochAhead => some .epochAhead
  | _ => none

/-! ## Fetch -/

structure FetchRequest where
  ownerEpoch : Nat
  correlationId : Nat
  maxItems : Nat
  consumerDecidedThrough : Nat
deriving DecidableEq, Repr

structure Item where
  seq : Nat
  msgType : MsgType
  directive : Directive
  voidReason : VoidReason
  requestId : Nat
  deliveryCount : Nat
  payload : Payload
deriving DecidableEq, Repr

structure FetchResponse where
  correlationId : Nat
  fence : FenceVerdict
  error : Option Tip
  items : List Item
  hasMore : Bool
deriving DecidableEq, Repr

def fetchDefaultItems : Nat := 16
def fetchMaxItems : Nat := 16

def clampFetchItems (requested : Nat) : Nat :=
  if requested = 0 then fetchDefaultItems else min requested fetchMaxItems

def deliveredItem (row : Row) : Item where
  seq := row.seq
  msgType := row.msgType
  directive := row.directive
  voidReason := row.voidReason
  requestId := row.requestId
  deliveryCount := row.deliveryCount + 1
  payload := if row.directive = .none then row.payload else []

def pendingRows (rows : List Row) : List Row :=
  (rows.filter (·.state = .pending)).insertionSort (fun a b => a.seq ≤ b.seq)

/-- `f` on the pending row of this number. -/
def updatePending (rows : List Row) (seq : Nat) (f : Row → Row) : List Row :=
  rows.map fun r => if r.seq = seq && r.state = .pending then f r else r

def markDelivered (epoch : Nat) (row : Row) : Row :=
  { row with deliveryCount := row.deliveryCount + 1, lastDeliveredEpoch := epoch }

def Store.fetch (st : Store) (req : FetchRequest) : Store × FetchResponse :=
  let reply (fence : FenceVerdict) (error : Option Tip) : FetchResponse :=
    ⟨req.correlationId, fence, error, [], false⟩
  if req.ownerEpoch = 0 then (st, reply .epochRequired (some .epochRequired))
  else match st.stream with
    | none => (st, reply .noStream none)
    | some stream =>
      let verdict := decideFence req.ownerEpoch stream.fenceEpoch req.ownerEpoch
      if !verdict.allows then (st, reply verdict (fenceRejectTip verdict))
      else
        let maxItems := clampFetchItems req.maxItems
        let (next, raised) := raiseNextSeq stream.nextSeq req.consumerDecidedThrough
        let read := (pendingRows st.rows).take (maxItems + 1)
        let page := read.take maxItems
        let rows := page.foldl
          (fun rows row => updatePending rows row.seq (markDelivered req.ownerEpoch)) st.rows
        let fence := if verdict.writes then req.ownerEpoch else stream.fenceEpoch
        let stream := if verdict.writes || raised then
            { stream with fenceEpoch := fence, nextSeq := next } else stream
        (⟨some stream, rows⟩,
          ⟨req.correlationId, verdict, none, page.map deliveredItem, read.length > maxItems⟩)

/-! ## Ack -/

/-- `PlayerInboxDecisionReport`. -/
structure Report where
  seq : Nat
  outcome : Outcome
  reason : Nat
  requestId : Nat
deriving DecidableEq, Repr

structure AckRequest where
  ownerEpoch : Nat
  correlationId : Nat
  decisions : List Report
deriving DecidableEq, Repr

inductive AckResult where
  | finalized
  | alreadySame
  | conflict
  | unknownSeq
  | notDelivered
  | skipNotRequested
  | mismatch
deriving DecidableEq, Repr

/-- `PlayerInboxAckItem`. -/
structure AckItem where
  seq : Nat
  result : AckResult
  state : ItemState
deriving DecidableEq, Repr

structure AckResponse where
  correlationId : Nat
  fence : Option FenceVerdict
  error : Option Tip
  results : List AckItem
deriving DecidableEq, Repr

def ackMaxDecisions : Nat := 32

def outcomeToState : Outcome → ItemState
  | .applied => .applied
  | .rejected => .rejected
  | .skipped => .voided
  | .unknown => .settledUnknown
  | .unspecified => .unspecified

def sameOutcome (state : ItemState) (stateReason : Nat) (outcome : Outcome) (reason : Nat) : Bool :=
  let want := outcomeToState outcome
  if want = .unspecified || state ≠ want then false
  else want ≠ .rejected || stateReason = reason

structure AckDecision where
  result : AckResult
  finalize : Bool
  newState : ItemState
  state : ItemState
deriving DecidableEq, Repr

def decideAck (row : Option Row) (report : Report) : AckDecision :=
  match row with
  | none => ⟨.unknownSeq, false, .unspecified, .unspecified⟩
  | some row =>
    if row.requestId ≠ report.requestId then ⟨.mismatch, false, .unspecified, row.state⟩
    else
      let want := outcomeToState report.outcome
      if row.state = .pending then
        if row.deliveryCount = 0 then ⟨.notDelivered, false, .unspecified, row.state⟩
        else if report.outcome = .skipped && row.directive ≠ .void then
          ⟨.skipNotRequested, false, .unspecified, row.state⟩
        else ⟨.finalized, true, want, want⟩
      else if sameOutcome row.state row.outcomeReason report.outcome report.reason then
        ⟨.alreadySame, false, .unspecified, row.state⟩
      else ⟨.conflict, false, .unspecified, row.state⟩

def ackOutcomeReason (report : Report) : Nat :=
  if report.outcome = .rejected || report.outcome = .skipped then report.reason else 0

def validateAckReports (reports : List Report) (maxReports : Nat) : Bool :=
  reports ≠ [] && reports.length ≤ maxReports
    && reports.all (fun r => r.seq ≠ 0 && outcomeToState r.outcome ≠ .unspecified)
    && reports.Pairwise (·.seq < ·.seq)

def finalizeRow (epoch : Nat) (newState : ItemState) (report : Report) (row : Row) : Row :=
  { row with
    state := newState
    finalizedBy := .consumer
    decidedEpoch := epoch
    outcomeReason := ackOutcomeReason report }

/-- One report of the loop of `Ack`; `read` are the rows as read before it. A battle settlement
is closed by `APPLIED` only. -/
def ackReport (epoch : Nat) (read : List Row) (acc : List Row × Nat × List AckItem)
    (report : Report) : List Row × Nat × List AckItem :=
  let row := KeyedList.find Row.seq read report.seq
  let d := decideAck row report
  let refused := row.any fun r => r.msgType = .battleSettlement && report.outcome ≠ .applied
  if refused then
    (acc.1, acc.2.1, acc.2.2 ++ [⟨report.seq, .conflict, (row.map (·.state)).getD .unspecified⟩])
  else if d.finalize then
    (updatePending acc.1 report.seq (finalizeRow epoch d.newState report), acc.2.1 + 1,
      acc.2.2 ++ [⟨report.seq, d.result, d.state⟩])
  else (acc.1, acc.2.1, acc.2.2 ++ [⟨report.seq, d.result, d.state⟩])

def Store.ack (st : Store) (req : AckRequest) : Store × AckResponse :=
  if !validateAckReports req.decisions ackMaxDecisions then
    (st, ⟨req.correlationId, none, some .invalidParameter, []⟩)
  else if req.ownerEpoch = 0 then
    (st, ⟨req.correlationId, some .epochRequired, some .epochRequired, []⟩)
  else match st.stream with
    | none =>
      (st, ⟨req.correlationId, some .noStream, none,
        req.decisions.map fun r => ⟨r.seq, .unknownSeq, .unspecified⟩⟩)
    | some stream =>
      let verdict := decideFence req.ownerEpoch stream.fenceEpoch req.ownerEpoch
      if !verdict.allows then (st, ⟨req.correlationId, some verdict, fenceRejectTip verdict, []⟩)
      else
        let (rows, finalized, results) :=
          req.decisions.foldl (ackReport req.ownerEpoch st.rows) (st.rows, 0, [])
        let stream := if finalized = 0 && !verdict.writes then stream else
          { stream with
            openCount := stream.openCount - finalized
            fenceEpoch := if verdict.writes then req.ownerEpoch else stream.fenceEpoch }
        (⟨some stream, rows⟩, ⟨req.correlationId, some verdict, none, results⟩)

/-! ## Void -/

inductive VoidAction where
  | notFound
  | terminal
  | direct
  | directive
  | alreadyRequested
deriving DecidableEq, Repr

def decideVoid (row : Option Row) : VoidAction :=
  match row with
  | none => .notFound
  | some row =>
    if row.state ≠ .pending then .terminal
    else if row.deliveryCount = 0 then .direct
    else if row.directive = .void then .alreadyRequested
    else .directive

/-- `Void` in the normal mode: what was never delivered is voided at once, what was delivered
gets the directive. Battle settlements are not voided. -/
def Store.void (cfg : InboxConfig) (st : Store) (seq : Nat) (reason : VoidReason) :
    Store × Option VoidAction :=
  if cfg.domain = .battleSettlement || seq = 0 || reason = .unspecified then (st, none)
  else match st.stream with
    | none => (st, some .notFound)
    | some stream =>
      let action := decideVoid (KeyedList.find Row.seq st.rows seq)
      let st' : Store := match action with
        | .direct =>
          { stream := some { stream with openCount := stream.openCount - 1 }
            rows := updatePending st.rows seq fun r =>
              { r with state := .voided, finalizedBy := .admin, voidReason := reason } }
        | .directive =>
          { st with rows := updatePending st.rows seq fun r =>
              { r with directive := .void, voidReason := reason } }
        | _ => st
      (st', some action)

/-! ## What a transaction does to the rows -/

/-- Everything that may happen to a row; `reports` are those of an Ack. -/
inductive Row.Step (reports : List Report) (r : Row) : Row → Prop
  | same : Row.Step reports r r
  | deliver {count epoch : Nat} (hp : r.state = .pending) (hc : r.deliveryCount ≤ count) :
    Row.Step reports r { r with deliveryCount := count, lastDeliveredEpoch := epoch }
  | void {reason : VoidReason} (hp : r.state = .pending) (hc : r.deliveryCount = 0) :
    Row.Step reports r { r with state := .voided, finalizedBy := .admin, voidReason := reason }
  | direct {reason : VoidReason} (hp : r.state = .pending) :
    Row.Step reports r { r with directive := .void, voidReason := reason }
  | ack {epoch : Nat} {report : Report} (hp : r.state = .pending) (hmem : report ∈ reports)
    (hseq : r.seq = report.seq) (hc : r.deliveryCount ≠ 0) :
    Row.Step reports r (finalizeRow epoch (outcomeToState report.outcome) report r)

structure Row.Next (r r' : Row) : Prop where
  seq : r'.seq = r.seq
  msgType : r'.msgType = r.msgType
  request : (r'.producer, r'.requestId) = (r.producer, r.requestId)
  payload : r'.payload = r.payload
  frozen : r.state ≠ .pending → r' = r
  delivered : r.deliveryCount ≠ 0 → r'.deliveryCount ≠ 0
  voided : r.directive = .void → r'.directive = .void

variable {r : Row}

theorem Row.Step.next {reports : List Report} {r' : Row} (h : r.Step reports r') : r.Next r' := by
  cases h with
  | same => exact ⟨rfl, rfl, rfl, rfl, fun _ => rfl, id, id⟩
  | deliver hp hc => exact ⟨rfl, rfl, rfl, rfl, fun hne => absurd hp hne, fun h0 => by
      simp only []
      omega, id⟩
  | void hp | ack hp => exact ⟨rfl, rfl, rfl, rfl, fun hne => absurd hp hne, id, id⟩
  | direct hp => exact ⟨rfl, rfl, rfl, rfl, fun hne => absurd hp hne, id, fun _ => rfl⟩

theorem Row.Step.pending {reports : List Report} {r' : Row} (h : r.Step reports r')
    (hp : r'.state = .pending) : r.state = .pending := by
  by_contra hne
  rw [h.next.frozen hne] at hp
  exact hne hp

def Open (rows : List Row) (seq : Nat) : Prop := ∃ r ∈ rows, r.seq = seq ∧ r.state = .pending

instance (rows : List Row) (seq : Nat) : Decidable (Open rows seq) :=
  inferInstanceAs (Decidable (∃ r ∈ rows, _))

/-- The rows in the order of their numbers below `next_seq`, one for a request. -/
structure Store.Ok (cfg : InboxConfig) (st : Store) : Prop where
  ordered : st.rows.Pairwise (·.seq < ·.seq)
  below : ∀ r ∈ st.rows, r.seq ≠ 0 ∧ ∃ stream, st.stream = some stream ∧ r.seq < stream.nextSeq
  requests : st.rows.Pairwise fun a b => (a.producer, a.requestId) ≠ (b.producer, b.requestId)
  domain : ∀ r ∈ st.rows, r.msgType.domain = some cfg.domain

variable {cfg : InboxConfig} {st : Store}

theorem Store.Ok.eq_of_seq (h : st.Ok cfg) {a b : Row}
    (ha : a ∈ st.rows) (hb : b ∈ st.rows) (hseq : a.seq = b.seq) : a = b :=
  KeyedList.eq_of_key (h.ordered.imp fun hlt => Nat.ne_of_lt hlt) ha hb hseq

theorem Store.Ok.eq_of_request (h : st.Ok cfg) {a b : Row}
    (ha : a ∈ st.rows) (hb : b ∈ st.rows)
    (hreq : (a.producer, a.requestId) = (b.producer, b.requestId)) : a = b :=
  @KeyedList.eq_of_key _ _ _ (fun r : Row => (r.producer, r.requestId)) _ _ h.requests _ ha hb hreq

/-- A transaction: every row makes a step, new rows are pending and behind all others. -/
structure Transacts (cfg : InboxConfig) (reports : List Report) (st st' : Store) : Prop where
  ok : st'.Ok cfg
  step : ∀ r ∈ st.rows, ∃ r' ∈ st'.rows, r.Step reports r'
  back : ∀ r' ∈ st'.rows, (∃ r ∈ st.rows, r.Step reports r') ∨
    (r'.state = .pending ∧ ∀ r ∈ st.rows, r.seq < r'.seq)

namespace Transacts

variable {cfg : InboxConfig} {reports : List Report} {st st' : Store}

theorem refl (h : st.Ok cfg) : Transacts cfg reports st st :=
  ⟨h, fun r hr => ⟨r, hr, .same⟩, fun r hr => .inl ⟨r, hr, .same⟩⟩

/-- A transaction that only changes rows and does not lower `next_seq`. -/
theorem map (h : st.Ok cfg) {f : Row → Row} (hf : ∀ r ∈ st.rows, r.Step reports (f r))
    {stream : Option Stream}
    (hstream : ∀ old, st.stream = some old → ∃ new, stream = some new ∧ old.nextSeq ≤ new.nextSeq) :
    Transacts cfg reports st ⟨stream, st.rows.map f⟩ where
  ok :=
    { ordered := by
        refine pairwise_map.2 (h.ordered.imp_of_mem fun ha hb hlt => ?_)
        rw [(hf _ ha).next.seq, (hf _ hb).next.seq]
        exact hlt
      below := forall_mem_map.2 fun r hr => by
        obtain ⟨hne, old, hold, hlt⟩ := h.below r hr
        obtain ⟨new, hnew, hle⟩ := hstream old hold
        rw [(hf r hr).next.seq]
        exact ⟨hne, new, hnew, hlt.trans_le hle⟩
      requests := by
        refine pairwise_map.2 (h.requests.imp_of_mem fun ha hb hne => ?_)
        rw [(hf _ ha).next.request, (hf _ hb).next.request]
        exact hne
      domain := forall_mem_map.2 fun r hr => by
        rw [(hf r hr).next.msgType]
        exact h.domain r hr }
  step r hr := ⟨f r, mem_map_of_mem hr, hf r hr⟩
  back := forall_mem_map.2 fun r hr => .inl ⟨r, hr, hf r hr⟩

/-- A number up to that of a row is only pending if it was. -/
theorem open_of_open (h : Transacts cfg reports st st') {seq : Nat}
    (hold : ∃ r ∈ st.rows, seq ≤ r.seq) (hopen : Open st'.rows seq) : Open st.rows seq := by
  obtain ⟨r', hr', hseq, hstate⟩ := hopen
  rcases h.back r' hr' with ⟨r, hr, hstep⟩ | ⟨-, hnew⟩
  · exact ⟨r, hr, hstep.next.seq.symm.trans hseq, hstep.pending hstate⟩
  · obtain ⟨r, hr, hle⟩ := hold
    have := hnew r hr
    omega

/-- A delivered row is closed by reports only. -/
theorem open_of_delivered (h : Transacts cfg [] st st') {r : Row} (hr : r ∈ st.rows)
    (hdelivered : r.deliveryCount ≠ 0) (hstate : r.state = .pending) : Open st'.rows r.seq := by
  obtain ⟨r', hr', hstep⟩ := h.step r hr
  refine ⟨r', hr', hstep.next.seq, ?_⟩
  cases hstep with
  | same | deliver | direct => exact hstate
  | void _ hc => exact absurd hc hdelivered
  | ack _ hmem => cases hmem

end Transacts

/-! ### Enqueue -/

theorem nextSeq_ge {next nowMs seq : Nat} (h : nextSeq next nowMs = some seq) :
    next ≤ seq ∧ seq ≠ 0 := by
  unfold nextSeq at h
  split at h
  · cases h
  · cases h
    omega

theorem insertItem_transacts {stream : Stream}
    (h : st.Ok cfg) (hstream : st.stream = some stream) {p : EnqueueParams}
    (hnone : readItemByRequest st.rows p.producer p.requestId = none)
    (hdomain : p.msgType.domain = some cfg.domain) (digest : List UInt8) (txNowMs : Nat) :
    Transacts cfg [] st (insertItem cfg st stream p digest txNowMs).1 := by
  unfold insertItem
  split
  · exact .refl h
  cases hseq : nextSeq stream.nextSeq txNowMs with
  | none => exact .refl h
  | some seq =>
    obtain ⟨hge, hne⟩ := nextSeq_ge hseq
    have hbehind : ∀ r ∈ st.rows, r.seq < seq := fun r hr => by
      obtain ⟨-, stream', hstream', hlt⟩ := h.below r hr
      obtain rfl := Option.some.inj (hstream'.symm.trans hstream)
      omega
    have hother : ∀ r ∈ st.rows, (r.producer, r.requestId) ≠ (p.producer, p.requestId) := by
      simpa [readItemByRequest, KeyedList.find] using hnone
    refine ⟨⟨?_, ?_, ?_, ?_⟩, ?_, ?_⟩
    · refine pairwise_append.2 ⟨h.ordered, pairwise_singleton _ _, fun a ha b hb => ?_⟩
      obtain rfl := mem_singleton.1 hb
      exact hbehind a ha
    · refine forall_mem_append.2 ⟨fun r hr => ?_, forall_mem_singleton.2 ?_⟩
      · exact ⟨(h.below r hr).1, _, rfl, (hbehind r hr).trans (Nat.lt_succ_self seq)⟩
      · exact ⟨hne, _, rfl, Nat.lt_succ_self seq⟩
    · refine pairwise_append.2 ⟨h.requests, pairwise_singleton _ _, fun a ha b hb => ?_⟩
      obtain rfl := mem_singleton.1 hb
      exact hother a ha
    · exact forall_mem_append.2 ⟨h.domain, forall_mem_singleton.2 hdomain⟩
    · exact fun r hr => ⟨r, mem_append_left _ hr, .same⟩
    · refine forall_mem_append.2 ⟨fun r hr => .inl ⟨r, hr, .same⟩, ?_⟩
      exact forall_mem_singleton.2 (.inr ⟨rfl, hbehind⟩)

theorem enqueue_transacts (h : st.Ok cfg) (p : EnqueueParams)
    (nowMs txNowMs : Nat) : Transacts cfg [] st (enqueue cfg st p nowMs txNowMs).1 := by
  unfold enqueue
  split
  · exact .refl h
  rename_i hvalid
  simp only [Bool.or_eq_true, decide_eq_true_eq, not_or, not_not] at hvalid
  obtain ⟨⟨-, hdomain⟩, -⟩ := hvalid
  dsimp only
  cases hread : readItemByRequest st.rows p.producer p.requestId with
  | some existing => exact .refl h
  | none =>
    dsimp only
    split
    · exact .refl h
    have hok : Store.Ok cfg { st with stream := some (st.stream.getD ⟨1, 0, 0⟩) } := by
      refine ⟨h.ordered, fun r hr => ?_, h.requests, h.domain⟩
      obtain ⟨hne, stream, hstream, hlt⟩ := h.below r hr
      exact ⟨hne, stream, by simp [hstream], hlt⟩
    have htrans := insertItem_transacts hok rfl hread hdomain
      (cfg.contentSha256 p.msgType p.issuedAtMs p.payload) txNowMs
    exact ⟨htrans.ok, htrans.step, htrans.back⟩

/-! ### Fetch -/

theorem pendingRows_eq (h : st.Ok cfg) :
    pendingRows st.rows = st.rows.filter (·.state = .pending) :=
  (h.ordered.imp fun hlt => Nat.le_of_lt hlt).filter _ |>.insertionSort_eq

theorem foldl_markDelivered (epoch : Nat) {page : List Row}
    (hpage : page.Pairwise (fun a b : Row => a.seq ≠ b.seq)) (rows : List Row) :
    page.foldl (fun rows row => updatePending rows row.seq (markDelivered epoch)) rows =
      rows.map fun r =>
        if r.state = .pending ∧ r.seq ∈ page.map Row.seq then markDelivered epoch r else r := by
  induction page generalizing rows with
  | nil => simp
  | cons p page ih =>
    obtain ⟨hp, hpage⟩ := pairwise_cons.1 hpage
    have hnot : p.seq ∉ page.map Row.seq := fun hmem => by
      obtain ⟨q, hq, hseq⟩ := mem_map.1 hmem
      exact hp q hq hseq.symm
    have hkeep (r : Row) : (markDelivered epoch r).seq = r.seq := rfl
    rw [foldl_cons, ih hpage, updatePending, map_map]
    refine map_congr_left fun r _ => ?_
    by_cases hstate : r.state = .pending
    · by_cases hseq : r.seq = p.seq
      · have hmark : (if r.seq = p.seq && r.state = .pending then markDelivered epoch r else r) =
            markDelivered epoch r := if_pos (by simp [hseq, hstate])
        rw [Function.comp_apply, hmark, if_neg, if_pos ⟨hstate, by simp [hseq]⟩]
        rw [hkeep, hseq]
        exact fun h => hnot h.2
      · simp [hstate, hseq]
    · simp [hstate]

theorem raiseNextSeq_ge (next through : Nat) : next ≤ (raiseNextSeq next through).1 := by
  unfold raiseNextSeq
  split <;> simp only [] <;> omega

/-- What a fetch may do: nothing with no items, or a page of the first pending rows. -/
theorem Store.fetch_cases (h : st.Ok cfg) (req : FetchRequest) :
    ((st.fetch req).1 = st ∧ (st.fetch req).2.items = []) ∨
      ∃ stream,
        let page := (st.rows.filter (·.state = .pending)).take (clampFetchItems req.maxItems)
        (st.fetch req).1 = ⟨some stream, st.rows.map fun r =>
          if r.state = .pending ∧ r.seq ∈ page.map Row.seq then markDelivered req.ownerEpoch r
          else r⟩ ∧
        (st.fetch req).2.items = page.map deliveredItem ∧
        ∀ old, st.stream = some old → old.nextSeq ≤ stream.nextSeq := by
  unfold Store.fetch
  dsimp only
  split
  · exact .inl ⟨rfl, rfl⟩
  cases hstream : st.stream with
  | none => exact .inl ⟨rfl, rfl⟩
  | some stream =>
    dsimp only
    split
    · exact .inl ⟨rfl, rfl⟩
    have hpage : ((st.rows.filter (·.state = .pending)).take
        (clampFetchItems req.maxItems)).Pairwise (fun a b : Row => a.seq ≠ b.seq) :=
      ((h.ordered.imp fun hlt => Nat.ne_of_lt hlt).filter _).take
    rw [pendingRows_eq h, take_take, Nat.min_eq_left (Nat.le_succ _),
      foldl_markDelivered _ hpage]
    refine .inr ⟨_, rfl, rfl, fun old hold => ?_⟩
    cases hold
    have hge := raiseNextSeq_ge stream.nextSeq req.consumerDecidedThrough
    split
    · exact hge
    · exact le_rfl

theorem Store.fetch_transacts (h : st.Ok cfg)
    (req : FetchRequest) : Transacts cfg [] st (st.fetch req).1 := by
  rcases st.fetch_cases h req with ⟨hst, -⟩ | ⟨stream, hst, -, hnext⟩
  · rw [hst]
    exact .refl h
  rw [hst]
  refine .map h (fun r _ => ?_) fun old hold => ⟨stream, rfl, hnext old hold⟩
  split
  next hr => exact .deliver hr.1 (Nat.le_succ _)
  · exact .same

/-! ### Ack -/

def Report.Closes (report : Report) (r : Row) : Prop :=
  r.seq = report.seq ∧ r.requestId = report.requestId ∧ r.state = .pending ∧ r.deliveryCount ≠ 0 ∧
    (report.outcome = .skipped → r.directive = .void) ∧
    (r.msgType = .battleSettlement → report.outcome = .applied)

theorem outcomeToState_ne_pending (o : Outcome) : outcomeToState o ≠ .pending := by
  cases o <;> decide

theorem decideAck_finalize {report : Report} :
    (decideAck (some r) report).finalize = true ↔ r.requestId = report.requestId ∧
      r.state = .pending ∧ r.deliveryCount ≠ 0 ∧
      (report.outcome = .skipped → r.directive = .void) := by
  simp only [decideAck]
  split_ifs <;> simp_all

theorem decideAck_newState {report : Report}
    (h : (decideAck (some r) report).finalize = true) :
    (decideAck (some r) report).newState = outcomeToState report.outcome := by
  obtain ⟨hreq, hstate, hcount, hskip⟩ := decideAck_finalize.1 h
  simp only [decideAck] at h ⊢
  split_ifs <;> simp_all

/-- A report updates the row that it closes, and no other. -/
theorem ackReport_rows (h : st.Ok cfg) (epoch : Nat)
    (acc : List Row × Nat × List AckItem) (report : Report) :
    ((∃ r ∈ st.rows, report.Closes r) ∧ (ackReport epoch st.rows acc report).1 =
        updatePending acc.1 report.seq
          (finalizeRow epoch (outcomeToState report.outcome) report)) ∨
      ((∀ r ∈ st.rows, ¬ report.Closes r) ∧ (ackReport epoch st.rows acc report).1 = acc.1) := by
  simp only [ackReport]
  cases hfind : KeyedList.find Row.seq st.rows report.seq with
  | none =>
    refine .inr ⟨fun r hr hcl => ?_, by simp [decideAck]⟩
    have := List.find?_eq_none.1 hfind r hr
    simp [hcl.1] at this
  | some r =>
    obtain ⟨hr, hseq⟩ := KeyedList.mem_of_find hfind
    have hother : ¬ report.Closes r → ∀ q ∈ st.rows, ¬ report.Closes q := fun hcl q hq hclq =>
      hcl (by rwa [h.eq_of_seq hr hq (hseq.trans hclq.1.symm)])
    split
    next hrefused =>
      simp only [Option.any_some, Bool.and_eq_true, decide_eq_true_eq] at hrefused
      exact .inr ⟨hother fun hcl => hrefused.2 (hcl.2.2.2.2.2 hrefused.1), rfl⟩
    next hrefused =>
      simp only [Option.any_some, Bool.and_eq_true, decide_eq_true_eq, not_and_not_right]
        at hrefused
      split
      next hfin =>
        obtain ⟨hreq, hstate, hcount, hskip⟩ := decideAck_finalize.1 hfin
        exact .inl ⟨⟨r, hr, hseq, hreq, hstate, hcount, hskip, hrefused⟩, by
          rw [decideAck_newState hfin]⟩
      next hfin =>
        refine .inr ⟨hother fun hcl => hfin (decideAck_finalize.2 ?_), rfl⟩
        exact ⟨hcl.2.1, hcl.2.2.1, hcl.2.2.2.1, hcl.2.2.2.2.1⟩

/-- The rows after the reports: a row is closed by a report that closes it. -/
theorem foldl_ackReport (h : st.Ok cfg) (epoch : Nat)
    (reports : List Report) (n : Nat) (items : List AckItem) :
    ∃ f : Row → Row,
      (reports.foldl (ackReport epoch st.rows) (st.rows, n, items)).1 = st.rows.map f ∧
      ∀ r ∈ st.rows, (f r = r ∧ ∀ report ∈ reports, ¬ report.Closes r) ∨
        ∃ report ∈ reports, report.Closes r ∧
          f r = finalizeRow epoch (outcomeToState report.outcome) report r := by
  induction reports using List.reverseRecOn with
  | nil => exact ⟨id, by simp, fun r _ => .inl ⟨rfl, by simp⟩⟩
  | append_singleton reports report ih =>
    obtain ⟨f, hf, hstep⟩ := ih
    rw [foldl_append, foldl_cons, foldl_nil]
    rcases ackReport_rows h epoch
      (reports.foldl (ackReport epoch st.rows) (st.rows, n, items)) report with
      ⟨⟨q, hq, hcl⟩, hrows⟩ | ⟨hnone, hrows⟩
    · refine ⟨fun r => if (f r).seq = report.seq && (f r).state = .pending then
        finalizeRow epoch (outcomeToState report.outcome) report (f r) else f r, ?_, ?_⟩
      · rw [hrows, hf, updatePending, map_map]
        rfl
      · intro r hr
        dsimp only
        rcases hstep r hr with ⟨hsame, hno⟩ | ⟨earlier, hmem, hclr, hfin⟩
        · rw [hsame]
          by_cases hseq : r.seq = report.seq
          · obtain rfl := h.eq_of_seq hr hq (hseq.trans hcl.1.symm)
            refine .inr ⟨report, by simp, hcl, ?_⟩
            rw [if_pos (by simp [hseq, hcl.2.2.1])]
          · refine .inl ⟨by simp [hseq], forall_mem_append.2 ⟨hno, ?_⟩⟩
            exact forall_mem_singleton.2 fun hc => hseq hc.1
        · refine .inr ⟨earlier, mem_append_left _ hmem, hclr, ?_⟩
          have hclosed : (f r).state ≠ .pending := by
            rw [hfin]
            exact outcomeToState_ne_pending _
          rw [if_neg (by simp [hclosed]), hfin]
    · refine ⟨f, by rw [hrows, hf], fun r hr => ?_⟩
      rcases hstep r hr with ⟨hsame, hno⟩ | ⟨earlier, hmem, hclr, hfin⟩
      · refine .inl ⟨hsame, forall_mem_append.2 ⟨hno, ?_⟩⟩
        exact forall_mem_singleton.2 (hnone r hr)
      · exact .inr ⟨earlier, mem_append_left _ hmem, hclr, hfin⟩

/-- An Ack that is not refused closes every row that one of its reports closes. -/
theorem Store.ack_cases (h : st.Ok cfg) (req : AckRequest) :
    (st.ack req).1 = st ∨
      ∃ stream f, (st.ack req).1 = ⟨some stream, st.rows.map f⟩ ∧
        (∀ old, st.stream = some old → old.nextSeq ≤ stream.nextSeq) ∧
        ∀ r ∈ st.rows, (f r = r ∧ ∀ report ∈ req.decisions, ¬ report.Closes r) ∨
          ∃ report ∈ req.decisions, report.Closes r ∧
            f r = finalizeRow req.ownerEpoch (outcomeToState report.outcome) report r := by
  unfold Store.ack
  split
  · exact .inl rfl
  split
  · exact .inl rfl
  cases hstream : st.stream with
  | none => exact .inl rfl
  | some stream =>
    dsimp only
    split
    · exact .inl rfl
    obtain ⟨f, hf, hrows⟩ := foldl_ackReport h req.ownerEpoch req.decisions 0 []
    rw [hf]
    refine .inr ⟨_, f, rfl, fun old hold => ?_, hrows⟩
    cases hold
    split <;> exact le_rfl

theorem Store.ack_transacts (h : st.Ok cfg) (req : AckRequest) :
    Transacts cfg req.decisions st (st.ack req).1 := by
  rcases st.ack_cases h req with hst | ⟨stream, f, hst, hnext, hrows⟩
  · rw [hst]
    exact .refl h
  rw [hst]
  refine .map h (fun r hr => ?_) fun old hold => ⟨stream, rfl, hnext old hold⟩
  rcases hrows r hr with ⟨hsame, -⟩ | ⟨report, hmem, hcl, hfin⟩
  · rw [hsame]
    exact .same
  · rw [hfin]
    exact .ack hcl.2.2.1 hmem hcl.1 hcl.2.2.2.1

/-! ### Void -/

theorem Store.void_transacts (h : st.Ok cfg) (seq : Nat)
    (reason : VoidReason) : Transacts cfg [] st (st.void cfg seq reason).1 := by
  unfold Store.void
  split
  · exact .refl h
  cases hstream : st.stream with
  | none => exact .refl h
  | some stream =>
    dsimp only
    cases hfind : KeyedList.find Row.seq st.rows seq with
    | none => exact .refl h
    | some row =>
      obtain ⟨hrow, hseq⟩ := KeyedList.mem_of_find hfind
      simp only [decideVoid]
      split_ifs with hstate hcount hdirective
      · exact .refl h
      · refine .map h (fun r hr => ?_) fun old hold => ⟨_, rfl, ?_⟩
        · split
          next hr' =>
            simp only [Bool.and_eq_true, decide_eq_true_eq] at hr'
            obtain rfl := h.eq_of_seq hr hrow (hr'.1.trans hseq.symm)
            exact .void hr'.2 hcount
          · exact .same
        · obtain rfl := Option.some.inj (hold.symm.trans hstream)
          exact le_rfl
      · exact .refl h
      · refine .map h (fun r hr => ?_) fun old hold => ⟨old, hstream.symm.trans hold, le_rfl⟩
        split
        next hr' =>
          simp only [Bool.and_eq_true, decide_eq_true_eq] at hr'
          exact .direct hr'.2
        · exact .same

end Mmorpg.Inbox
