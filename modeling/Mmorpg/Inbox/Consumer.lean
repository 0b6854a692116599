import Mmorpg.Inbox.Store

/-!
# The inbox consumer

The scene side of one player and domain, as player_inbox_system.cpp has it: a round fetches a
batch, applies it in the order of `seq`, waits until the decisions are in a persisted copy and
acknowledges them; the next batch is fetched after that. `PlayerInbox` puts it together with
the store, the requests and replies on the way, and the copies of the player's record.

What only decides when something happens next (timers, back-off, `hasMore`, notifications) is
not modelled: every event may happen at any time. Requests and replies stay on the way for
ever, so they may be lost, late or repeated. The correlation numbers of all processes are
counted by one counter, since a reply reaches only the process that sent the request. A save
is a copy of the record on the way; a crash takes the memory and what is on the way, and goes
back to the copy that was persisted last.
-/

namespace Mmorpg.Inbox

inductive Phase where
  | idle
  | fetching
  | applying
  | awaitDurable
  | acking
deriving DecidableEq, Repr

inductive HaltReason where
  | epochRequired
  | epochAhead
  | unknownType
  | replayMismatch
  | batchMalformed
  | ledgerWrite
  | ackAnomaly
  | versionSkew
deriving DecidableEq, Repr

/-- `PlayerInboxDomainState`. -/
structure Runtime where
  phase : Phase
  correlationId : Nat
  pendingItems : List Item
  ackQueue : List Decision
  halted : Option HaltReason
deriving DecidableEq, Repr

structure Effect where
  seq : Nat
  requestId : Nat
  msgType : MsgType
  payload : Payload
deriving DecidableEq, Repr

def Item.effect (item : Item) : Effect := ⟨item.seq, item.requestId, item.msgType, item.payload⟩

def Row.effect (row : Row) : Effect := ⟨row.seq, row.requestId, row.msgType, row.payload⟩

/-- A copy of the player's record: the ledger and the effects its assets have. `decided` is the
history of the domain, all decisions that were ever recorded. -/
structure Copy where
  ledger : Ledger
  effects : List Effect
  decided : List Decision
deriving DecidableEq, Repr

/-- `PlayerInboxExecResult`, or no executor for the type in this binary. -/
inductive ExecResult where
  | applied
  | rejected (reason : Nat)
  | versionSkew
  | defer
  | noExecutor
deriving DecidableEq, Repr

/-- What `CheckApplyGate` and the exit tag say; `ledgerUsable` is false for a ledger that is
missing or marked as invalid. -/
structure Gate where
  passes : Bool
  exiting : Bool
  ledgerUsable : Bool
deriving DecidableEq, Repr

def isBattleDomain (domain : InboxDomain) : Bool := domain = .battleSettlement

/-! ## Rounds -/

section Round

variable (domain : InboxDomain)

def finishRound (rt : Runtime) : Runtime :=
  { rt with
    phase := .idle
    correlationId := 0
    pendingItems := if isBattleDomain domain then [] else rt.pendingItems }

def halt (rt : Runtime) (reason : HaltReason) : Runtime :=
  { rt with halted := some reason, pendingItems := [] }

def enterAwaitDurable (rt : Runtime) : Runtime :=
  { rt with phase := .awaitDurable, correlationId := 0 }

def afterBatchDecided (rt : Runtime) : Runtime :=
  if rt.ackQueue = [] then finishRound domain rt else enterAwaitDurable rt

/-- `DropPendingForRefetch`, with its result. -/
def dropPendingForRefetch (rt : Runtime) : Runtime × Bool :=
  let rt := { rt with
    pendingItems := if !isBattleDomain domain || rt.ackQueue = [] then [] else rt.pendingItems }
  if rt.ackQueue = [] then ({ rt with phase := .idle }, false) else (rt, true)

def unknownDecisionFor (item : Item) : Decision :=
  ⟨item.seq, .unknown, 0, item.requestId, item.msgType⟩

/-- The loop of `QueueDecidedPrefixOnExit`: the decisions it queues and the classes it saw. -/
def decidedPrefix (ledger : Ledger) : List Item → List Decision × List DeliveryClass
  | [] => ([], [])
  | item :: rest =>
    let (cls, replayed) :=
      classifyDelivery (findCursor ledger domain) item.seq item.requestId item.msgType
    let action := planItem cls item.directive
    let (queued, classes) := decidedPrefix ledger rest
    if isBattleDomain domain && (item.msgType ≠ .battleSettlement || item.directive ≠ .none
        || action ≠ .replay || replayed.outcome ≠ .applied) then ([], [cls])
    else match action with
      | .replay => (replayed :: queued, cls :: classes)
      | .ackUnknown => (unknownDecisionFor item :: queued, cls :: classes)
      | _ => ([], [cls])

def queueDecidedPrefixOnExit (ledger : Ledger) (rt : Runtime) : Runtime × List DeliveryClass :=
  let (queued, classes) := decidedPrefix domain ledger rt.pendingItems
  ({ rt with
    ackQueue := rt.ackQueue ++ queued
    pendingItems := if isBattleDomain domain then rt.pendingItems
      else rt.pendingItems.drop queued.length }, classes)

/-- `RecordDecision` on the cursor of the domain, with its result. -/
def Copy.record (copy : Copy) (decision : Decision) : Copy × Bool :=
  let recorded := (recordDecision (mutableCursor copy.ledger domain) decision).isSome
  ({ copy with
    ledger := modifyCursor copy.ledger domain fun c => (recordDecision c decision).getD c
    decided := if recorded then copy.decided ++ [decision] else copy.decided }, recorded)

inductive ItemStep where
  | next (copy : Copy) (decision : Decision)
  | halt (reason : HaltReason) (copy : Copy)
  | mismatch
  | defer

def recordStep (copy : Copy) (decision : Decision) : ItemStep :=
  match copy.record domain decision with
  | (copy, true) => .next copy decision
  | (copy, false) => .halt .ledgerWrite copy

def applyItem (exec : Item → ExecResult) (copy : Copy) (item : Item) : DeliveryClass × ItemStep :=
  let (cls, replayed) :=
    classifyDelivery (findCursor copy.ledger domain) item.seq item.requestId item.msgType
  let action := planItem cls item.directive
  let decision (outcome : Outcome) (reason : Nat) : Decision :=
    ⟨item.seq, outcome, reason, item.requestId, item.msgType⟩
  if isBattleDomain domain && (item.msgType ≠ .battleSettlement || item.directive ≠ .none
      || action = .ackUnknown || (action = .replay && replayed.outcome ≠ .applied)) then
    (cls, .halt .versionSkew copy)
  else (cls, match action with
    | .replay => .next copy replayed
    | .ackUnknown => .next copy (unknownDecisionFor item)
    | .haltMismatch => .mismatch
    | .skipVoided => recordStep domain copy (decision .skipped item.voidReason.number)
    | .haltUnknownDirective => .halt .unknownType copy
    | .execute =>
      match exec item with
      | .noExecutor => .halt .unknownType copy
      | .applied =>
        recordStep domain { copy with effects := copy.effects ++ [item.effect] }
          (decision .applied 0)
      | .rejected reason => recordStep domain copy (decision .rejected reason)
      | .versionSkew => .halt .versionSkew copy
      | .defer => .defer)

inductive Stop where
  | done
  | halt (reason : HaltReason)
  | mismatch
  | defer (rest : List Item)

structure Applied where
  copy : Copy
  ackQueue : List Decision
  classes : List DeliveryClass
  stop : Stop

def applyItems (exec : Item → ExecResult) : List Item → Copy → List Decision → Applied
  | [], copy, queue => ⟨copy, queue, [], .done⟩
  | item :: rest, copy, queue =>
    match applyItem domain exec copy item with
    | (cls, .next copy decision) =>
      let r := applyItems exec rest copy (queue ++ [decision])
      { r with classes := cls :: r.classes }
    | (cls, .halt reason copy) => ⟨copy, queue, [cls], .halt reason⟩
    | (cls, .mismatch) => ⟨copy, queue, [cls], .mismatch⟩
    | (cls, .defer) => ⟨copy, queue, [cls], .defer (item :: rest)⟩

def applyPending (gate : Gate) (exec : Item → ExecResult) (rt : Runtime) (copy : Copy) :
    Runtime × Copy × List DeliveryClass :=
  if rt.halted.isSome then (afterBatchDecided domain { rt with pendingItems := [] }, copy, [])
  else if !gate.passes then
    let (rt, classes) := if gate.exiting && gate.ledgerUsable then
        queueDecidedPrefixOnExit domain copy.ledger rt else (rt, [])
    let (rt, refetch) := dropPendingForRefetch domain rt
    (if refetch then afterBatchDecided domain rt else rt, copy, classes)
  else
    let r := applyItems domain exec rt.pendingItems copy rt.ackQueue
    let rt' := { rt with ackQueue := r.ackQueue }
    let rt' := match r.stop with
      | .done => afterBatchDecided domain
          { rt' with pendingItems := if isBattleDomain domain then rt.pendingItems else [] }
      | .halt reason => afterBatchDecided domain (halt rt' reason)
      | .mismatch => finishRound domain (halt { rt' with ackQueue := [] } .replayMismatch)
      | .defer rest => { rt' with pendingItems := rest }
    (rt', r.copy, r.classes)

end Round

/-! ## The whole system -/

structure PlayerInbox where
  store : Store
  /-- The memory of the scene that has the player. -/
  live : Copy
  runtime : Runtime
  ownerEpoch : Nat
  correlationSeq : Nat
  /-- `PlayerLastPersistedSnapshotComp`. -/
  snapshot : Option Copy
  /-- Saves on the way, oldest first. -/
  saving : List Copy
  /-- Saves that are persisted and not yet reported to the scene, oldest first. -/
  landed : List Copy
  persisted : Copy
  fetches : List FetchRequest
  acks : List AckRequest
  fetchReplies : List FetchResponse
  ackReplies : List AckResponse
  /-- How every delivery was classified. -/
  classes : List DeliveryClass

inductive InboxEvent where
  | enqueue (params : EnqueueParams) (nowMs txNowMs : Nat)
  | void (seq : Nat) (reason : VoidReason)
  /-- The store executes a request that was sent. -/
  | fetch (request : Nat)
  | ack (request : Nat)
  /-- Something is due: a fetch from `idle`, the rest of a batch in `applying`. -/
  | tick (gate : Gate) (sent : Bool) (exec : Item → ExecResult)
  | fetchReply (reply : Nat) (gate : Gate) (exec : Item → ExecResult)
  | ackReply (reply : Nat)
  /-- A request failed, got an error of the service, or timed out. -/
  | lost
  /-- SQL has the snapshot: the decisions are acknowledged if they are in it. -/
  | confirmed (settled sent : Bool)
  | leaving
  | landedAgain (epoch : Nat)
  | save
  | land
  | dropSave (save : Nat)
  | saved
  /-- A consumer of another domain records a decision in the same ledger. -/
  | elsewhere (domain : InboxDomain) (decision : Decision)
  | crash (epoch : Nat)

namespace PlayerInbox

variable (cfg : InboxConfig)

def emptyCopy : Copy := ⟨[], [], []⟩

def freshRuntime : Runtime := ⟨.idle, 0, [], [], none⟩

def start : PlayerInbox where
  store := ⟨none, []⟩
  live := emptyCopy
  runtime := freshRuntime
  ownerEpoch := 0
  correlationSeq := 0
  snapshot := none
  saving := []
  landed := []
  persisted := emptyCopy
  fetches := []
  acks := []
  fetchReplies := []
  ackReplies := []
  classes := []

def applied (s : PlayerInbox) (r : Runtime × Copy × List DeliveryClass) : PlayerInbox :=
  { s with runtime := r.1, live := r.2.1, classes := s.classes ++ r.2.2 }

def startFetch (s : PlayerInbox) (gate : Gate) (sent : Bool) : PlayerInbox :=
  if s.runtime.ackQueue ≠ [] then
    { s with runtime := afterBatchDecided cfg.domain s.runtime }
  else if !gate.passes || !sent then s
  else
    let request : FetchRequest := ⟨s.ownerEpoch, s.correlationSeq + 1, kFetchBatchMax,
      ((findCursor s.live.ledger cfg.domain).map (·.decidedThrough)).getD 0⟩
    { s with
      runtime := { s.runtime with phase := .fetching, correlationId := s.correlationSeq + 1 }
      correlationSeq := s.correlationSeq + 1
      fetches := s.fetches ++ [request] }

/-- What `Tick` does when something is due; `TryAck` asks for the confirmation, or has nothing
to acknowledge. -/
def tick (s : PlayerInbox) (gate : Gate) (sent : Bool) (exec : Item → ExecResult) : PlayerInbox :=
  match s.runtime.phase with
  | .idle => if s.runtime.halted.isSome then s else s.startFetch cfg gate sent
  | .applying =>
    if s.runtime.halted.isSome then s
    else s.applied (applyPending cfg.domain gate exec s.runtime s.live)
  | .awaitDurable =>
    if s.runtime.ackQueue = [] then { s with runtime := finishRound cfg.domain s.runtime } else s
  | _ => s

def malformedBatch (items : List Item) : Bool :=
  items.length > kFetchBatchMax || !items.all (·.seq ≠ 0) ||
    !decide (items.Pairwise (·.seq < ·.seq))

def onFetchReply (s : PlayerInbox) (reply : FetchResponse) (gate : Gate)
    (exec : Item → ExecResult) : PlayerInbox :=
  if s.runtime.phase ≠ .fetching || reply.correlationId = 0
      || s.runtime.correlationId ≠ reply.correlationId then s
  else
    let rt := { s.runtime with phase := .idle, correlationId := 0 }
    let finish (rt : Runtime) : PlayerInbox := { s with runtime := finishRound cfg.domain rt }
    if reply.fence = .stale then { s with runtime := rt }
    else if reply.fence = .epochRequired then finish (halt rt .epochRequired)
    else if reply.fence = .epochAhead then finish (halt rt .epochAhead)
    else if reply.error.isSome then { s with runtime := rt }
    else if reply.fence = .noStream || reply.items = [] then finish rt
    else if !reply.fence.allows then { s with runtime := rt }
    else if malformedBatch reply.items then finish (halt rt .batchMalformed)
    else if isBattleDomain cfg.domain && reply.items.length > 1 then
      finish (halt rt .batchMalformed)
    else
      let rt := { rt with pendingItems := reply.items, phase := .applying }
      s.applied (applyPending cfg.domain gate exec rt s.live)

/-- Something in the results of an Ack is not `FINALIZED` or `ALREADY_SAME` in the order asked. -/
def ackAnomaly (results : List AckItem) (queue : List Decision) : Bool :=
  results.length ≠ queue.length || (results.zip queue).any fun (r, d) =>
    r.seq ≠ d.seq || (r.result ≠ .finalized && r.result ≠ .alreadySame)

def onAckReply (s : PlayerInbox) (reply : AckResponse) : PlayerInbox :=
  if s.runtime.phase ≠ .acking || reply.correlationId = 0
      || s.runtime.correlationId ≠ reply.correlationId then s
  else
    let rt := { s.runtime with phase := .awaitDurable, correlationId := 0 }
    let finish (rt : Runtime) : PlayerInbox :=
      { s with runtime := finishRound cfg.domain { rt with ackQueue := [] } }
    if reply.fence = some .stale then finish rt
    else if reply.fence = some .epochRequired then finish (halt rt .epochRequired)
    else if reply.fence = some .epochAhead then finish (halt rt .epochAhead)
    else if reply.error = some .invalidParameter then finish (halt rt .ackAnomaly)
    else if reply.error.isSome then { s with runtime := rt }
    else if ackAnomaly reply.results rt.ackQueue then finish (halt rt .ackAnomaly)
    else finish rt

/-- `HandleInflightTimeout`, `OnFetchFailed` and `OnAckFailed`. -/
def lost (s : PlayerInbox) : PlayerInbox :=
  match s.runtime.phase with
  | .fetching => { s with runtime := { s.runtime with phase := .idle, correlationId := 0 } }
  | .acking => { s with runtime := { s.runtime with phase := .awaitDurable, correlationId := 0 } }
  | _ => s

def decisionsInPersistedSnapshot (s : PlayerInbox) : Bool :=
  match s.snapshot with
  | none => false
  | some copy =>
    s.runtime.ackQueue.all fun d => classifyDurability copy.ledger cfg.domain d = .durable

def Decision.report (d : Decision) : Report := ⟨d.seq, d.outcome, d.reason, d.requestId⟩

def sendAck (s : PlayerInbox) (sent : Bool) : PlayerInbox :=
  if s.ownerEpoch = 0 || !sent then s
  else
    { s with
      runtime := { s.runtime with phase := .acking, correlationId := s.correlationSeq + 1 }
      correlationSeq := s.correlationSeq + 1
      acks := s.acks ++
        [⟨s.ownerEpoch, s.correlationSeq + 1, s.runtime.ackQueue.map Decision.report⟩] }

/-- The reply to the question whether SQL has the snapshot, as `RequestSqlConfirmedAck` handles
it. A battle round needs `APPLIED` decisions on the fetched items, and `settled` is what
`CompleteInboxSettlement` says of them. -/
def confirmed (s : PlayerInbox) (settled sent : Bool) : PlayerInbox :=
  let rt := s.runtime
  if rt.phase ≠ .awaitDurable || rt.ackQueue = [] || !s.decisionsInPersistedSnapshot cfg then s
  else if isBattleDomain cfg.domain && !(settled && rt.ackQueue.all fun d =>
      d.outcome = .applied && rt.pendingItems.any fun item =>
        item.seq = d.seq && item.requestId = d.requestId && item.msgType = d.msgType) then s
  else s.sendAck sent

/-- `OnPlayerLeaving`. -/
def leaving (s : PlayerInbox) : PlayerInbox :=
  if s.runtime.phase = .applying && s.runtime.ackQueue ≠ [] then
    { s with runtime := enterAwaitDurable (dropPendingForRefetch cfg.domain s.runtime).1 }
  else s

/-- `OnPlayerLanded` on an entity that has landed before, with another epoch. -/
def landedAgain (s : PlayerInbox) (epoch : Nat) : PlayerInbox :=
  let s := { s with ownerEpoch := epoch }
  if s.runtime.halted.isSome || s.runtime.phase ≠ .applying then s
  else
    let (rt, refetch) := dropPendingForRefetch cfg.domain s.runtime
    { s with runtime := if refetch then enterAwaitDurable rt else rt }

def land (s : PlayerInbox) : PlayerInbox :=
  match s.saving with
  | [] => s
  | copy :: rest => { s with persisted := copy, saving := rest, landed := s.landed ++ [copy] }

/-- `HandlePlayerAsyncSaved` replaces the snapshot. -/
def saved (s : PlayerInbox) : PlayerInbox :=
  match s.landed with
  | [] => s
  | copy :: rest => { s with snapshot := some copy, landed := rest }

/-- A decision of another domain goes to that domain's cursor. -/
def elsewhere (s : PlayerInbox) (domain : InboxDomain) (decision : Decision) : PlayerInbox :=
  if domain = cfg.domain then s
  else
    { s with live := { s.live with
        ledger := modifyCursor s.live.ledger domain fun c => (recordDecision c decision).getD c } }

def crash (s : PlayerInbox) (epoch : Nat) : PlayerInbox :=
  { s with
    live := s.persisted
    runtime := freshRuntime
    ownerEpoch := epoch
    snapshot := none
    saving := []
    landed := [] }

def step (s : PlayerInbox) : InboxEvent → PlayerInbox
  | .enqueue params nowMs txNowMs =>
    { s with store := (enqueue cfg s.store params nowMs txNowMs).1 }
  | .void seq reason => { s with store := (s.store.void cfg seq reason).1 }
  | .fetch i =>
    match s.fetches[i]? with
    | none => s
    | some request =>
      { s with
        store := (s.store.fetch request).1
        fetchReplies := s.fetchReplies ++ [(s.store.fetch request).2] }
  | .ack i =>
    match s.acks[i]? with
    | none => s
    | some request =>
      { s with
        store := (s.store.ack request).1
        ackReplies := s.ackReplies ++ [(s.store.ack request).2] }
  | .tick gate sent exec => s.tick cfg gate sent exec
  | .fetchReply i gate exec =>
    match s.fetchReplies[i]? with
    | none => s
    | some reply => s.onFetchReply cfg reply gate exec
  | .ackReply i =>
    match s.ackReplies[i]? with
    | none => s
    | some reply => s.onAckReply cfg reply
  | .lost => s.lost
  | .confirmed settled sent => s.confirmed cfg settled sent
  | .leaving => s.leaving cfg
  | .landedAgain epoch => s.landedAgain cfg epoch
  | .save => { s with saving := s.saving ++ [s.live] }
  | .land => s.land
  | .dropSave i => { s with saving := s.saving.eraseIdx i }
  | .saved => s.saved
  | .elsewhere domain decision => s.elsewhere cfg domain decision
  | .crash epoch => s.crash epoch

end PlayerInbox

end Mmorpg.Inbox
