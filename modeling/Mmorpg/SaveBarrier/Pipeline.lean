import Mmorpg.Kafka.RowFence
import Mmorpg.SaveBarrier.Reconcile
import Mmorpg.SaveBarrier.Scripts

/-!
# The save pipeline of a player

The scene saves a snapshot with the strict script and then hands the two tasks of the same
save to Kafka; go/db takes tasks, runs the SQL steps of `savePlayerRow`, publishes the row with
its ACK and advances its cursors; the outbox worker claims stored intents and hands their tasks
to Kafka again. Every script and every SQL step is one event, so events of any number of
processes interleave in any way and a process that stops between two of its events has crashed.
A message that was handed to Kafka may be taken any number of times, at any time, or never.

`accepted` is the history of accepted saves. Whether a task is taken at all is left open, so
that the guards in front of the SQL steps can only drop runs.
-/

namespace Mmorpg.SaveBarrier

open Decimal Kafka

structure DBTask (β : Type) where
  key : Nat
  msgType : Table
  body : PlayerRow β
  taskId : Text
  ownerEpoch : Nat
  saveSeq : Nat
deriving DecidableEq, Repr

/-- The part of a task that `savePlayerRow` reads. -/
def DBTask.rowWrite {β : Type} (task : DBTask β) : RowWrite β :=
  ⟨task.key, task.ownerEpoch, task.saveSeq, task.body⟩

/-- Serialization: tasks, rows and the evidence that is derived from a row. -/
structure Codec (β P : Type) where
  encode : DBTask β → P
  decode : P → Option (DBTask β)
  decode_encode : ∀ task, decode (encode task) = some task
  size : P → Nat
  row : PlayerRow β → P
  evidence : DBTask β → PlayerRow β → P

structure SaveCall (β P : Type) where
  ownerEpoch : Nat
  saveSeq : Nat
  parent : P
  first : PlayerRow β
  second : PlayerRow β
  firstId : Text
  secondId : Text
  homeZone : Nat
  generation : Nat
  outputGen : Nat
  loadGen : Nat
  mode : Text
  writer : Text
deriving DecidableEq, Repr

namespace SaveCall

variable {β P : Type}

/-- The task of a table: both carry the version of the save. -/
def task (player : Nat) (c : SaveCall β P) : Table → DBTask β
  | .playerDatabase => ⟨player, .playerDatabase, c.first, c.firstId, c.ownerEpoch, c.saveSeq⟩
  | .playerDatabase1 => ⟨player, .playerDatabase1, c.second, c.secondId, c.ownerEpoch, c.saveSeq⟩

def topic (c : SaveCall β P) : Text :=
  "db_task_zone_".toList ++ Nat.toDigits 10 c.homeZone ++
    if c.generation ≤ 1 then [] else "_g".toList ++ Nat.toDigits 10 c.generation

def version (c : SaveCall β P) : Text := SaveBarrier.version c.ownerEpoch c.saveSeq

def intent (codec : Codec β P) (player : Nat) (c : SaveCall β P) : Intent P :=
  ⟨c.version, c.topic, codec.encode (c.task player .playerDatabase),
    codec.encode (c.task player .playerDatabase1)⟩

def args (codec : Codec β P) (player : Nat) (c : SaveCall β P) : SaveArgs P where
  index := ⟨Nat.toDigits 10 c.homeZone, Nat.toDigits 10 (player % 64)⟩
  parent := c.parent
  owner := Nat.toDigits 10 c.ownerEpoch
  version := c.version
  topic := c.topic
  first := (c.intent codec player).first
  second := (c.intent codec player).second
  player := Nat.toDigits 10 player
  outputGen := Nat.toDigits 10 c.outputGen
  loadGen := Nat.toDigits 10 c.loadGen
  mode := c.mode
  writer := c.writer

end SaveCall

structure Worker (β : Type) where
  task : DBTask β
  target : PlayerRow β
  pc : WriterPc β
deriving DecidableEq, Repr

/-- The arguments that `publishDBWriteResult` builds. -/
def publishArgs {β P : Type} (codec : Codec β P) (task : DBTask β) (msg : PlayerRow β)
    (token lockTTL cacheTTL : Nat) : PublishArgs P :=
  let strict := task.ownerEpoch ≠ 0 && task.saveSeq ≠ 0
  { token, lockTTL, cacheTTL
    raw := codec.row msg
    version := if strict then version task.ownerEpoch task.saveSeq else []
    evidence := if strict && task.msgType = .playerDatabase then some (codec.evidence task msg)
      else none
    hasBarrier := strict }

/-- An accepted save, and whether both tables had its version already. -/
structure Accepted (β P : Type) where
  call : SaveCall β P
  settled : Bool
deriving DecidableEq, Repr

structure Pipeline (β P : Type) where
  redis : Redis P
  rows : Table → Option (PlayerRow β)
  kafka : List P
  claimed : List (Intent P)
  workers : List (Worker β)
  accepted : List (Accepted β P)

inductive PipelineEvent (β P : Type) where
  | mint
  | save (call : SaveCall β P)
  | take (message : Nat)
  | sql (worker : Nat)
  | abort (worker : Nat)
  | publish (worker token lockTTL cacheTTL : Nat)
  | advance (worker token lockTTL : Nat) (cursor : Text)
  | lock (table : Table) (token : Option Nat)
  | claim (index : IndexKey) (schedule : Schedule) (now : Nat)
  | replay (intent : Nat) (second : Bool)
  | confirm (version attempts : Text)
  | migrate (others : Bool) (oldIndex newIndex : IndexKey) (version topic : Text)
  | terminal (version reason : Text)
  | noteRetry (stamp : Text)

/-- What the player starts with: the rows in SQL, whatever the parent key holds, and an owner
counter above the owner epochs of the rows. -/
structure Origin (β P : Type) where
  rows : Table → Option (PlayerRow β)
  parent : Option P
  owner : Nat
  fresh : ∀ t r, rows t = some r → r.fenceOwnerEpoch < owner
  bounded : ∀ t r, rows t = some r → r.fenceOwnerEpoch < 2 ^ 64 ∧ r.fenceSaveSeq < 2 ^ 64

namespace Pipeline

variable {β P : Type} [DecidableEq P] (codec : Codec β P) (player : Nat)

def start (origin : Origin β P) : Pipeline β P where
  redis :=
    { parent := origin.parent
      owner := some (Nat.toDigits 10 origin.owner)
      barrier := .empty
      index := fun _ => none
      lock := fun _ => none
      cache := fun _ => none
      evidenceVersion := none
      evidenceData := none
      appliedSeq := fun _ => none
      appliedEpoch := fun _ => none }
  rows := origin.rows
  kafka := []
  claimed := []
  workers := []
  accepted := []

def setRow (s : Pipeline β P) (t : Table) (row : Option (PlayerRow β)) :
    Table → Option (PlayerRow β) :=
  fun t' => if t' = t then row else s.rows t'

/-- The script, and the two tasks for Kafka if the save was accepted. -/
def save (s : Pipeline β P) (c : SaveCall β P) : Pipeline β P :=
  let intent := c.intent codec player
  match saveWithCommitBarrier codec.size (Nat.toDigits 10 player) s.redis (c.args codec player) with
  | (reply, redis) =>
    if reply.accepted then
      { s with
        redis
        kafka := s.kafka ++ [intent.first, intent.second]
        accepted := s.accepted ++ [⟨c, s.redis.barrier.ack .playerDatabase = some c.version &&
          s.redis.barrier.ack .playerDatabase1 = some c.version⟩] }
    else { s with redis }

/-- A message is decoded and passes the checks before the first SQL statement. -/
def take (s : Pipeline β P) (i : Nat) : Pipeline β P :=
  match (s.kafka[i]?).bind codec.decode with
  | none => s
  | some task =>
    match task.rowWrite.target true with
    | .error _ => s
    | .ok target => { s with workers := s.workers ++ [⟨task, target, .probe⟩] }

def sql (s : Pipeline β P) (i : Nat) : Pipeline β P :=
  match s.workers[i]? with
  | none => s
  | some w =>
    match sqlStep true (s.rows w.task.msgType) w.target w.pc with
    | (row, pc) =>
      { s with rows := s.setRow w.task.msgType row, workers := s.workers.set i { w with pc } }

def abort (s : Pipeline β P) (i : Nat) : Pipeline β P :=
  match s.workers[i]? with
  | none => s
  | some w => { s with workers := s.workers.set i { w with pc := .probe } }

def publish (s : Pipeline β P) (i token lockTTL cacheTTL : Nat) : Pipeline β P :=
  match s.workers[i]? with
  | some ⟨task, _, .done outcome msg⟩ =>
    if outcome.publishes then
      { s with redis := (playerCachePublish s.redis task.msgType
          (publishArgs codec task msg token lockTTL cacheTTL)).2 }
    else s
  | _ => s

def advance (s : Pipeline β P) (i token lockTTL : Nat) (cursor : Text) : Pipeline β P :=
  match s.workers[i]? with
  | none => s
  | some w =>
    let epoch := Nat.toDigits 10 w.task.ownerEpoch
    { s with redis := appliedAdvance s.redis w.task.msgType token lockTTL cursor epoch }

def claim (s : Pipeline β P) (q : IndexKey) (schedule : Schedule) (now : Nat) : Pipeline β P :=
  match claimScript codec.size schedule s.redis q now with
  | (.intent i _, redis) => { s with redis, claimed := s.claimed ++ [i] }
  | (_, redis) => { s with redis }

def step (s : Pipeline β P) : PipelineEvent β P → Pipeline β P
  | .mint => { s with redis := { s.redis with
      owner := some (Nat.toDigits 10 ((s.redis.owner.map value).getD 0 + 1)) } }
  | .save c => s.save codec player c
  | .take i => s.take codec i
  | .sql i => s.sql i
  | .abort i => s.abort i
  | .publish i token lockTTL cacheTTL => s.publish codec i token lockTTL cacheTTL
  | .advance i token lockTTL cursor => s.advance i token lockTTL cursor
  | .lock t token => { s with redis := { s.redis with
      lock := fun t' => if t' = t then token else s.redis.lock t' } }
  | .claim q schedule now => s.claim codec q schedule now
  | .replay i second =>
    match s.claimed[i]? with
    | none => s
    | some intent => { s with kafka := s.kafka ++ [if second then intent.second else intent.first] }
  | .confirm version attempts => { s with redis := confirmAttempt s.redis version attempts }
  | .migrate others oldq newq version topic =>
    { s with redis := SaveBarrier.migrate s.redis others oldq newq version topic }
  | .terminal version reason => { s with redis := markTerminal s.redis version reason }
  | .noteRetry stamp => { s with redis := SaveBarrier.noteRetry s.redis stamp }

end Pipeline

end Mmorpg.SaveBarrier
