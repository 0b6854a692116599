import Mmorpg.AssetOp.Reconcile

/-!
# The asset channel

One player's outbox rows, the workers that claim and settle them, the requests and replies on
the way, and the scene: its memory, the saves on the way and what is persisted. Requests stay
deliverable for ever and may be delivered any number of times; a crash takes the memory, any
save on the way may be lost, and the record is loaded again once none is on the way; ledgers
are read from any copy that was ever persisted.

Next to assets and ledger a `Copy` carries its history: every change of the assets with the
operation that made it, and every recorded outcome.
-/

namespace Mmorpg.AssetOp

structure Change (A : Type) where
  op : Option AssetOpRequest
  before : A
  after : A

structure Copy (A : Type) where
  player : Player A
  changes : List (Change A)
  decided : Decided

structure Worker where
  op : Op
  rpc : Option AssetOpRpc
deriving DecidableEq, Repr

structure Message where
  rpc : AssetOpRpc
  request : AssetOpRequest
deriving DecidableEq, Repr

structure Channel (A : Type) where
  seqRows : AssetOpStream → Option SeqRow
  rows : List Row
  workers : List Worker
  sent : List Message
  replies : List (Message × AssetOpResponse)
  /-- The memory of the scene that has the player. -/
  live : Option (Copy A)
  /-- `PlayerLastPersistedSnapshotComp`. -/
  snapshot : Option (Copy A)
  /-- Saves on the way, oldest first. -/
  saving : List (Copy A)
  disk : Copy A
  /-- Everything that was ever persisted. -/
  written : List (Copy A)

structure ChannelConfig (A : Type) where
  services : AssetServices A
  loop : LoopConfig
  limits : Limits
  playerId : Nat

/-- What `Caller.Do` came back with: one of the scene's replies, a local refusal, an error. -/
inductive DoOutcome where
  | reply (i : Nat)
  | notSent (absent : Bool)
  | failed (err : DoError)

inductive ReadChoice where
  | error
  | absent
  | copy (i : Nat)

inductive ChannelEvent (A : Type) where
  | ensureSeqRow (stream : AssetOpStream) (nowMs : Nat)
  | enqueue (opId : Nat) (stream : AssetOpStream) (txType : Nat) (bundle : AssetBundle)
      (deadlineMs : Nat)
  | claim (row nowMs leaseUntilMs token : Nat)
  | send (worker nowMs : Nat)
  | deliver (message : Nat) (env : SceneEnv)
  | settle (worker : Nat) (outcome : DoOutcome) (persisted sql : ReadChoice)
  | load (known : Bool)
  | crash
  | play (assets : A)
  | save
  | lose (copy : Nat)
  | write
  | saved (copy : Nat)

namespace Copy

variable {A : Type}

def after (c : Copy A) (request : AssetOpRequest) (d : Decision A) : Copy A :=
  match d.recorded with
  | none => { c with player := d.player }
  | some kind =>
    ⟨d.player,
      if kind.isApplied then c.changes ++ [⟨some request, c.player.assets, d.player.assets⟩]
        else c.changes,
      c.decided ++ [(request.key, kind)]⟩

def play (c : Copy A) (assets : A) : Copy A :=
  { c with
    player := { c.player with assets }
    changes := c.changes ++ [⟨none, c.player.assets, assets⟩] }

end Copy

def Result.ofResponse (r : AssetOpResponse) : Result :=
  ⟨r.outcome, r.reason, r.durable, false, r.isPartial, r.snapshot, false, false⟩

namespace Channel

variable {A : Type}

def start (assets : A) : Channel A :=
  ⟨fun _ => none, [], [], [], [], none, none, [], ⟨⟨assets, []⟩, [], []⟩, []⟩

def enqueue (cfg : ChannelConfig A) (t : Channel A) (opId : Nat) (stream : AssetOpStream)
    (txType : Nat) (bundle : AssetBundle) (deadlineMs : Nat) : Channel A :=
  match t.seqRows stream with
  | none => t
  | some seqRow =>
    if t.rows.any (·.opId = opId) then t
    else
      match allocateSeq cfg.limits t.rows stream (some seqRow) with
      | none => t
      | some (seq, next) =>
        { t with
          seqRows := fun s => if s = stream then some next else t.seqRows s
          rows := t.rows ++ [⟨opId,
            ⟨cfg.playerId, stream, seq, opId, txType, bundle, seqRow.epoch⟩,
            0, deadlineMs, 0, 0, 0, .pending⟩] }

def claim (t : Channel A) (i nowMs leaseUntilMs token : Nat) : Channel A :=
  match t.rows[i]? with
  | none => t
  | some row =>
    match row.claim nowMs leaseUntilMs token with
    | none => t
    | some (row', op) => { t with rows := t.rows.set i row', workers := t.workers ++ [⟨op, none⟩] }

def send (t : Channel A) (i nowMs : Nat) : Channel A :=
  match t.workers[i]? with
  | none => t
  | some worker =>
    match rpcFor worker.op nowMs with
    | none => t
    | some rpc =>
      { t with
        workers := t.workers.set i ⟨worker.op, some rpc⟩
        sent := t.sent ++ [⟨rpc, worker.op.request⟩] }

/-- A scene without the player answers that it is not here. -/
def deliver (cfg : ChannelConfig A) (t : Channel A) (m : Message) (env : SceneEnv) : Channel A :=
  match t.live with
  | none => { t with replies := t.replies ++ [(m, answer .notHere kAssetPlayerNotHere)] }
  | some c =>
    let persisted := t.snapshot.map (·.player.ledger)
    let d := decideAssetOp cfg.services env persisted c.player m.rpc m.request
    { t with
      live := some (c.after m.request d)
      replies := t.replies ++ [(m, d.response)] }

/-- The result and error that `Do` returned, if this outcome is possible. -/
def doResult (t : Channel A) (op : Op) (rpc : AssetOpRpc) :
    DoOutcome → Option (Result × Option DoError)
  | .reply i =>
    match t.replies[i]? with
    | none => none
    | some (m, r) => if m = ⟨rpc, op.request⟩ then some (.ofResponse r, none) else none
  | .notSent absent => some (⟨.notHere, 0, false, false, false, none, true, absent⟩, none)
  | .failed err => some (.zero, some err)

def read (t : Channel A) : ReadChoice → LedgerRead
  | .error => .error
  | .absent => .absent
  | .copy i =>
    match t.written[i]? with
    | none => .absent
    | some c => .found c.player.ledger

def settle (cfg : ChannelConfig A) (t : Channel A) (i : Nat) (outcome : DoOutcome)
    (persisted sql : ReadChoice) : Channel A :=
  match t.workers[i]? with
  | none => t
  | some ⟨op, none⟩ =>
    { t with rows := t.rows.map (·.settle op (.reschedule (carryPartialReason op .zero))) }
  | some ⟨op, some rpc⟩ =>
    match t.doResult op rpc outcome with
    | none => t
    | some (res, err) =>
      let s := processOne cfg.services.digest cfg.loop op rpc res err (t.read persisted)
        (t.read sql)
      { t with rows := t.rows.map (·.settle op s) }

def step (cfg : ChannelConfig A) (t : Channel A) : ChannelEvent A → Channel A
  | .ensureSeqRow stream nowMs =>
    { t with seqRows := fun s =>
        if s = stream then ensureSeqRow (t.seqRows s) nowMs else t.seqRows s }
  | .enqueue opId stream txType bundle deadlineMs =>
    t.enqueue cfg opId stream txType bundle deadlineMs
  | .claim i nowMs leaseUntilMs token => t.claim i nowMs leaseUntilMs token
  | .send i nowMs => t.send i nowMs
  | .deliver i env =>
    match t.sent[i]? with
    | none => t
    | some m => t.deliver cfg m env
  | .settle i outcome persisted sql => t.settle cfg i outcome persisted sql
  | .load known =>
    match t.live, t.saving with
    | none, [] => { t with live := some t.disk, snapshot := if known then some t.disk else none }
    | _, _ => t
  | .crash => { t with live := none, snapshot := none }
  | .play assets =>
    match t.live with
    | none => t
    | some c => { t with live := some (c.play assets) }
  | .save => { t with saving := t.saving ++ t.live.toList }
  | .lose i => { t with saving := t.saving.eraseIdx i }
  | .write =>
    match t.saving with
    | [] => t
    | c :: rest => { t with disk := c, written := t.written ++ [c], saving := rest }
  | .saved i =>
    match t.live, t.written[i]? with
    | some _, some c => { t with snapshot := some c }
    | _, _ => t

end Channel

end Mmorpg.AssetOp
