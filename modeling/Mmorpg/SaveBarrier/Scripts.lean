import Mmorpg.SaveBarrier.Version

/-!
# The scripts of the save barrier

Everything that writes the hash `player:{pid}:save_barrier` of one player: the strict save of
the scene (redis_client.h, `kSaveWithCommitBarrierLuaScript`), the scripts of the save outbox
(go/db/internal/saveoutbox/scripts.go) and the publication of a written row
(go/db/internal/kafka/player_cache_publish.go). A script is a function from the keys it reads
to its reply and the keys after it. Byte strings are of any type `P`; the keys have the types
that the scripts expect of them.
-/

namespace Mmorpg.SaveBarrier

open Decimal List

inductive Table where
  | playerDatabase
  | playerDatabase1
deriving DecidableEq, Repr

/-- The hash `player:{pid}:save_barrier`. The ACKs are the fields `player_database` and
`player_database_1`. -/
structure Barrier (P : Type) where
  pending : Option Text
  ack : Table → Option Text
  outboxVersion : Option Text
  outboxTopic : Option Text
  outboxFirst : Option P
  outboxSecond : Option P
  attemptVersion : Option Text
  attempts : Option Text
  terminal : Option Text
  terminalReason : Option Text
  retryMs : Option Text
  schemaGen : Option Text
  schemaWriter : Option Text
  schemaRegressed : Option Text

def Barrier.empty {P : Type} : Barrier P :=
  ⟨none, fun _ => none, none, none, none, none, none, none, none, none, none, none, none, none⟩

/-- The captures of an index key `player:save_pending:zone:bucket`. -/
structure IndexKey where
  zone : Text
  bucket : Text
deriving DecidableEq, Repr

/-- The keys of one player. An index has the player as a member with a score, or not. -/
structure Redis (P : Type) where
  parent : Option P
  owner : Option Text
  barrier : Barrier P
  index : IndexKey → Option Nat
  lock : Table → Option Nat
  cache : Table → Option P
  evidenceVersion : Option Text
  evidenceData : Option P
  appliedSeq : Table → Option Text
  appliedEpoch : Table → Option Text

namespace Redis

variable {P : Type}

def zadd (r : Redis P) (q : IndexKey) (score : Nat) : Redis P :=
  { r with index := fun k => if k = q then some score else r.index k }

def zrem (r : Redis P) (q : IndexKey) : Redis P :=
  { r with index := fun k => if k = q then none else r.index k }

end Redis

/-! ## The strict save -/

/-- `num_gt`: longer is greater, then byte by byte. -/
def numGt (a b : Text) : Bool := bytecmp a b = .gt

def isOwner (s : Text) : Bool :=
  !(s.length = 0 || s.length > 20 || s.head? = some '0' || !s.all Char.isDigit) &&
    (s.length < 20 || !versionGt s maxUint64)

def isU32 (s : Text) : Bool :=
  isOwner s && (s.length < 10 || s.length = 10 && !versionGt s "4294967295".toList)

def isZone (s : Text) : Bool := isOwner s && s.length ≤ 6

/-- `topic_zone`: the zone of `db_task_zone_Z` or of `db_task_zone_Z_gG` with `G` above 1. -/
def topicZone (topic : Text) : Option Text :=
  if !"db_task_zone_".toList.isPrefixOf topic then none
  else
    match (topic.drop 13).span Char.isDigit with
    | (zone, []) => if isZone zone then some zone else none
    | (zone, '_' :: 'g' :: generation) =>
      if !isZone zone || !isU32 generation || generation = ['1'] then none else some zone
    | _ => none

/-- The digit loop that computes the player's number modulo 64. -/
def bucketOf (player : Text) : Nat :=
  player.foldl (fun bucket c => (bucket * 10 + c.toNat - 48) % 64) 0

theorem bucketOf_eq {s : Text} (hd : Digits s) : bucketOf s = value s % 64 := by
  have hloop : ∀ a, s.foldl (fun bucket c => (bucket * 10 + c.toNat - 48) % 64) (a % 64) =
      Nat.ofDigitChars 10 s a % 64 := by
    induction s with
    | nil => exact fun a => rfl
    | cons c s ih =>
      intro a
      obtain ⟨hc, -⟩ := digit_le c (hd c mem_cons_self)
      have hstep : (a % 64 * 10 + c.toNat - 48) % 64 = (10 * a + (c.toNat - '0'.toNat)) % 64 := by
        change _ = (10 * a + (c.toNat - 48)) % 64
        omega
      rw [foldl_cons, hstep, ih fun x hx => hd x (mem_cons_of_mem _ hx),
        Nat.ofDigitChars_cons]
  exact hloop 0

/-- The arguments of the strict save; `index` is `KEYS[4]`. -/
structure SaveArgs (P : Type) where
  index : IndexKey
  parent : P
  owner : Text
  version : Text
  topic : Text
  first : P
  second : P
  player : Text
  outputGen : Text
  loadGen : Text
  mode : Text
  writer : Text

inductive SaveReply where
  | error (message : String)
  | counterBehind (stored : Text)
  | deposed
  | written
  | warned
  | regressed
deriving DecidableEq, Repr

def SaveReply.accepted : SaveReply → Bool
  | .written | .warned => true
  | _ => false

section Save

variable {P : Type} [DecidableEq P] (size : P → Nat)

/-- The checks of the arguments. `player` stands for the number in the names of the keys. -/
def SaveArgs.refusal (player : Text) (a : SaveArgs P) : Option String :=
  if !isOwner a.owner || !isVersion a.version
      || a.version.take 20 ≠ replicate (20 - a.owner.length) '0' ++ a.owner
      || a.version.drop 21 = replicate 20 '0' then
    some "SAVE_BARRIER invalid version"
  else if !isOwner a.player || !isZone a.index.zone || topicZone a.topic ≠ some a.index.zone
      || size a.parent = 0 || size a.first = 0 || size a.second = 0 then
    some "SAVE_BARRIER invalid outbox"
  else if a.player ≠ player then some "SAVE_BARRIER player key mismatch"
  else if a.index.bucket ≠ Nat.toDigits 10 (bucketOf a.player) then
    some "SAVE_BARRIER invalid bucket"
  else if !isU32 a.outputGen || !isU32 a.loadGen || numGt a.loadGen a.outputGen
      || (a.mode ≠ "warn".toList && a.mode ≠ "enforce".toList)
      || a.writer.length = 0 || a.writer.length > 64
      || !a.writer.all (fun c => c.isAlphanum || c = ':' || c = '-') then
    some "SAVE_BARRIER invalid schema argument"
  else none

/-- No outbox, or a complete one of the pending version. -/
def Barrier.outboxValid (b : Barrier P) : Bool :=
  if b.outboxVersion.isNone && b.outboxTopic.isNone && b.outboxFirst.isNone
      && b.outboxSecond.isNone then true
  else b.outboxVersion.any isVersion && b.outboxVersion = b.pending
    && b.outboxTopic.any (fun topic => (topicZone topic).isSome)
    && b.outboxFirst.any (size · ≠ 0) && b.outboxSecond.any (size · ≠ 0)

/-- The content differs from what is stored under the same version. -/
def sameVersionConflict (r : Redis P) (a : SaveArgs P) : Bool :=
  r.barrier.pending = some a.version &&
    (r.parent ≠ some a.parent || r.barrier.outboxVersion.isSome &&
      (r.barrier.outboxTopic ≠ some a.topic || r.barrier.outboxFirst ≠ some a.first
        || r.barrier.outboxSecond ≠ some a.second))

/-- Somebody else wrote last, with a generation above the one that was loaded. -/
def schemaRegression (b : Barrier P) (a : SaveArgs P) : Bool :=
  match b.schemaGen with
  | none => false
  | some stored =>
    if b.pending ≠ some a.version && b.schemaWriter ≠ some a.writer then
      !isU32 stored || numGt stored a.loadGen
    else false

/-- The generation only rises. -/
def nextSchemaGen (b : Barrier P) (a : SaveArgs P) : Text :=
  match b.schemaGen with
  | some stored => if isU32 stored && numGt stored a.outputGen then stored else a.outputGen
  | none => a.outputGen

def Redis.saved (r : Redis P) (a : SaveArgs P) : Redis P :=
  { r with
    parent := some a.parent
    barrier := { r.barrier with
      pending := some a.version
      outboxVersion := some a.version
      outboxTopic := some a.topic
      outboxFirst := some a.first
      outboxSecond := some a.second
      schemaGen := some (nextSchemaGen r.barrier a)
      schemaWriter := some a.writer
      schemaRegressed := if schemaRegression r.barrier a then some a.writer
        else r.barrier.schemaRegressed } }.zadd a.index 0

/-- `kSaveWithCommitBarrierLuaScript`. -/
def saveWithCommitBarrier (player : Text) (r : Redis P) (a : SaveArgs P) : SaveReply × Redis P :=
  match r.owner with
  | none => (.error "SAVE_BARRIER invalid key type or missing owner", r)
  | some owner =>
    match a.refusal size player with
    | some message => (.error message, r)
    | none =>
      if !isOwner owner || r.barrier.pending.any (!isVersion ·) then
        (.error "SAVE_BARRIER invalid stored version", r)
      else if !r.barrier.outboxValid size then (.error "SAVE_BARRIER invalid stored outbox", r)
      else if numGt a.owner owner then (.counterBehind owner, r)
      else if owner ≠ a.owner then (.deposed, r)
      else if r.barrier.pending.any (versionGt · a.version) then
        (.error "SAVE_BARRIER version regression", r)
      else if sameVersionConflict r a then (.error "SAVE_BARRIER same version conflict", r)
      else if schemaRegression r.barrier a && a.mode = "enforce".toList then (.regressed, r)
      else
        let warned := schemaRegression r.barrier a || r.barrier.schemaRegressed = some a.writer
        (if warned then .warned else .written, r.saved a)

end Save

/-! ## The save outbox -/

/-- The schedule of `claimScript` in milliseconds. -/
structure Schedule where
  grace : Nat
  base : Nat
  cap : Nat
  maxAttempts : Nat
  jitter : Nat
  window : Nat
  recheck : Nat
deriving DecidableEq, Repr

def Schedule.valid (c : Schedule) : Bool :=
  0 < c.grace && 0 < c.base && c.base ≤ c.cap && 1 ≤ c.maxAttempts && 0 < c.window && 0 < c.recheck

structure Intent (P : Type) where
  version : Text
  topic : Text
  first : P
  second : P
deriving DecidableEq, Repr

inductive ClaimReply (P : Type) where
  | error (message : String)
  | notDue
  | intent (i : Intent P) (attempts : Nat)
  | completed
  | invalid
  | terminal (reason : Text)
  | exhausted (attempts : Nat)
  | observed
  | inflight
deriving DecidableEq, Repr

/-- The waiting time doubles with every attempt up to the cap. -/
def retryDelay (cap : Nat) : Nat → Nat → Nat
  | delay, 0 => min delay cap
  | delay, n + 1 => if delay * 2 ≥ cap then cap else retryDelay cap (delay * 2) n

section Outbox

variable {P : Type} (size : P → Nat)

namespace Barrier

def absent (b : Barrier P) : Bool :=
  b.outboxVersion.isNone && b.outboxTopic.isNone && b.outboxFirst.isNone && b.outboxSecond.isNone

def full (b : Barrier P) : Option (Intent P) :=
  match b.outboxVersion, b.outboxTopic, b.outboxFirst, b.outboxSecond with
  | some version, some topic, some first, some second =>
    if isVersion version && b.pending = some version && topic ≠ [] && size first ≠ 0
        && size second ≠ 0 then some ⟨version, topic, first, second⟩
    else none
  | _, _, _, _ => none

/-- A pending version with an owner epoch and a sequence number. -/
def strictVersion (b : Barrier P) : Bool :=
  b.pending.any fun v => isVersion v && v.take 20 ≠ replicate 20 '0'
    && v.drop 21 ≠ replicate 20 '0'

def complete (b : Barrier P) : Bool :=
  b.strictVersion && b.ack .playerDatabase = b.pending && b.ack .playerDatabase1 = b.pending

/-- Everything about the outbox is deleted, `pending` and the ACKs stay. -/
def cleared (b : Barrier P) : Barrier P :=
  { b with
    outboxVersion := none, outboxTopic := none, outboxFirst := none, outboxSecond := none
    attemptVersion := none, attempts := none, terminal := none, terminalReason := none
    retryMs := none }

def attemptsOf (b : Barrier P) (version : Text) : Option Nat :=
  match b.attempts with
  | none => none
  | some n =>
    if b.attemptVersion = some version && n.length ≤ 4 && n ≠ [] && n.all Char.isDigit then
      some (value n)
    else none

end Barrier

/-- What `claimScript` does about a retry on the way: postpone, forget the stamp, or nothing. -/
inductive RetryStamp where
  | none
  | forget
  | recent
deriving DecidableEq, Repr

def retryStamp (window now : Nat) (stamp : Option Text) : RetryStamp :=
  match stamp with
  | .none => .none
  | some s =>
    if s.length > 16 || s = [] || !s.all Char.isDigit || value s > now + window then .forget
    else if now < window + value s then .recent
    else .none

/-- The end of `claimScript`, for an intent whose attempts are counted. -/
def claimCounted (c : Schedule) (r : Redis P) (q : IndexKey) (now : Nat) (i : Intent P)
    (n : Nat) : ClaimReply P × Redis P :=
  if n ≥ c.maxAttempts then (.exhausted n, r.zadd q (now + c.recheck))
  else
    let due := now + retryDelay c.cap c.base n + c.jitter
    match retryStamp c.window now r.barrier.retryMs with
    | .recent => (.inflight, r.zadd q due)
    | .forget =>
      (.intent i n, { r with barrier := { r.barrier with retryMs := none } }.zadd q due)
    | .none => (.intent i n, r.zadd q due)

/-- `claimScript` for an intent that is not terminal: the first time it is only noted. -/
def claimIntent (c : Schedule) (r : Redis P) (q : IndexKey) (now : Nat) (i : Intent P) :
    ClaimReply P × Redis P :=
  match r.barrier.attemptsOf i.version with
  | none =>
    (.observed, { r with barrier := { r.barrier with
      attemptVersion := some i.version, attempts := some ['0'] } }.zadd q
        (now + c.grace + c.jitter))
  | some n => claimCounted c r q now i n

def claimScript (c : Schedule) (r : Redis P) (q : IndexKey) (now : Nat) :
    ClaimReply P × Redis P :=
  if now = 0 || !c.valid then (.error "save outbox invalid schedule", r)
  else if (r.index q).all (· > now) then (.notDue, r)
  else
    let b := r.barrier
    if !b.strictVersion || (b.ack .playerDatabase).any (!isVersion ·)
        || (b.ack .playerDatabase1).any (!isVersion ·) || (!b.absent && (b.full size).isNone) then
      (.invalid, r.zadd q (now + c.recheck))
    else if b.complete then (.completed, { r with barrier := b.cleared }.zrem q)
    else
      match b.full size with
      | none => (.invalid, r.zadd q (now + c.recheck))
      | some i =>
        if b.terminal = some i.version then
          (.terminal (b.terminalReason.getD []), r.zadd q (now + c.recheck))
        else if b.terminal.isSome then
          claimIntent c { r with barrier := { b with terminal := none, terminalReason := none } } q
            now i
        else claimIntent c r q now i

end Outbox

section Notes

variable {P : Type}

def confirmAttempt (r : Redis P) (version attempts : Text) : Redis P :=
  if attempts.length = 0 || attempts.length > 4 || !attempts.all Char.isDigit then r
  else if r.barrier.attemptVersion ≠ some version || r.barrier.attempts ≠ some attempts then r
  else { r with barrier := { r.barrier with
    attempts := some (Nat.toDigits 10 (value attempts + 1)) } }

/-- `migrateScript`. The old index also exists when it has other members. -/
def migrate (r : Redis P) (others : Bool) (oldq newq : IndexKey) (version topic : Text) :
    Redis P :=
  if oldq = newq || !(others || (r.index oldq).isSome) then r
  else if r.barrier.pending ≠ some version || r.barrier.outboxVersion ≠ some version
      || r.barrier.outboxTopic ≠ some topic then r
  else (r.zadd newq 0).zrem oldq

def markTerminal (r : Redis P) (version reason : Text) : Redis P :=
  if !isVersion version || reason.length = 0 || reason.length > 64 then r
  else if r.barrier.outboxVersion ≠ some version || r.barrier.pending ≠ some version then r
  else { r with barrier := { r.barrier with
    terminal := some version, terminalReason := some reason } }

def noteRetry (r : Redis P) (stamp : Text) : Redis P :=
  if stamp.length = 0 || stamp.length > 16 || !stamp.all Char.isDigit then r
  else if r.barrier.outboxVersion.isNone then r
  else { r with barrier := { r.barrier with retryMs := some stamp } }

end Notes

/-! ## Publishing a written row -/

/-- The arguments of `playerCachePublishLua` that `publishDBWriteResult` builds. Without a
version there is neither evidence nor an ACK. -/
structure PublishArgs (P : Type) where
  token : Nat
  lockTTL : Nat
  raw : P
  cacheTTL : Nat
  version : Text
  evidence : Option P
  hasBarrier : Bool

/-- The integer reply: lock lost, evidence conflict, or written with the two digits. -/
inductive PublishReply where
  | error (message : String)
  | notOwner
  | evidenceConflict
  | published (evidenceAhead : Bool) (ackAhead : Nat)
deriving DecidableEq, Repr

inductive EvidencePlan where
  | malformed (message : String)
  | conflict
  | keep (ahead : Bool)
  | store
deriving DecidableEq, Repr

section Publish

variable {P : Type} [DecidableEq P]

def evidencePlan (r : Redis P) (a : PublishArgs P) : EvidencePlan :=
  match a.evidence with
  | none => .keep false
  | some data =>
    if !isVersion a.version then .malformed "asset sql commit version is malformed"
    else
      match r.evidenceVersion with
      | none => .store
      | some old =>
        if !isVersion old then .malformed "stored asset sql commit version is malformed"
        else if old = a.version then
          if r.evidenceData ≠ some data then .conflict else .keep false
        else if versionGt a.version old then .store
        else .keep true

/-- Refusal of the ACK, or whether it is written and how far it is ahead of `pending`. -/
def ackPlan (b : Barrier P) (t : Table) (a : PublishArgs P) : Except String (Bool × Nat) :=
  if !a.hasBarrier then .ok (false, 0)
  else if !isVersion a.version then .error "save barrier version is malformed"
  else if (b.ack t).any (!isVersion ·) then .error "stored save barrier version is malformed"
  else if b.pending.any (!isVersion ·) then .error "stored save barrier pending is malformed"
  else
    let write := (b.ack t).all (versionGt a.version ·)
    match b.pending with
    | none => .ok (write, if write then 20 else 0)
    | some pending => .ok (write, if write && versionGt a.version pending then 10 else 0)

def Redis.published (r : Redis P) (t : Table) (a : PublishArgs P) (storeEvidence ack : Bool) :
    Redis P :=
  { r with
    cache := fun t' => if t' = t then some a.raw else r.cache t'
    evidenceVersion := if storeEvidence then some a.version else r.evidenceVersion
    evidenceData := if storeEvidence then a.evidence else r.evidenceData
    barrier := if ack then
        { r.barrier with ack := fun t' => if t' = t then some a.version else r.barrier.ack t' }
      else r.barrier }

/-- `playerCachePublishLua`. -/
def playerCachePublish (r : Redis P) (t : Table) (a : PublishArgs P) : PublishReply × Redis P :=
  if r.lock t ≠ some a.token then (.notOwner, r)
  else if a.lockTTL = 0 || a.cacheTTL = 0 then (.error "invalid publish TTL", r)
  else
    match evidencePlan r a with
    | .malformed message => (.error message, r)
    | .conflict => (.evidenceConflict, r)
    | plan =>
      match ackPlan r.barrier t a with
      | .error message => (.error message, r)
      | .ok (ack, ahead) =>
        (.published (plan = .keep true) ahead, r.published t a (plan = .store) ack)

/-- `dec_gt`, written as `num_gt` is. -/
def decGt : Text → Text → Bool := numGt

/-- `is_dec` and the range of a 64-bit number. -/
def isDecimal (s : Text) : Bool :=
  (s = ['0'] || s ≠ [] && s.head? ≠ some '0' && s.all Char.isDigit) && !numGt s maxUint64

/-- **Versions and epochs compare like numbers**: the bytes of two versions as the pairs, `Parse`
reads exactly the versions, the scripts take the same texts for versions and order them in the
same way, and `num_gt` and `dec_gt` are the order of numbers without leading zeros. -/
theorem versions_compare_like_numbers :
    (∀ e q e' q', e < 2 ^ 64 → q < 2 ^ 64 → e' < 2 ^ 64 → q' < 2 ^ 64 →
      (version e q < version e' q' ↔ toLex (e, q) < toLex (e', q'))) ∧
    (∀ s e q, parse s = some (e, q) ↔ e < 2 ^ 64 ∧ q < 2 ^ 64 ∧ s = version e q) ∧
    (∀ s, isVersion s = true ↔ (parse s).isSome = true) ∧
    (∀ s t p p', parse s = some p → parse t = some p' →
      (versionGt s t = true ↔ toLex p' < toLex p)) ∧
    ∀ m n, (numGt (Nat.toDigits 10 m) (Nat.toDigits 10 n) = true ↔ n < m) ∧
      (decGt (Nat.toDigits 10 m) (Nat.toDigits 10 n) = true ↔ n < m) := by
  have hgt : ∀ s t p p', parse s = some p → parse t = some p' →
      (versionGt s t = true ↔ toLex p' < toLex p) := by
    rintro s t ⟨e, q⟩ ⟨e', q'⟩ hs ht
    obtain ⟨he, hq, rfl⟩ := parse_eq_some.1 hs
    obtain ⟨he', hq', rfl⟩ := parse_eq_some.1 ht
    rw [versionGt_iff (isVersion_version he hq) (isVersion_version he' hq'), order_version he,
      order_version he']
  refine ⟨fun e q e' q' he hq he' hq' => ?_, fun _ _ _ => parse_eq_some, fun _ => isVersion_iff,
    hgt, fun m n => ?_⟩
  · have hl := (length_version he' hq').trans (length_version he hq).symm
    rw [← bytecmpSame_eq_gt_iff hl, ← hgt _ _ _ _ (parse_eq_some.2 ⟨he', hq', rfl⟩)
      (parse_eq_some.2 ⟨he, hq, rfl⟩), versionGt, decide_eq_true_eq]
  · have hnum : numGt (Nat.toDigits 10 m) (Nat.toDigits 10 n) = true ↔ n < m := by
      rw [numGt, decide_eq_true_eq, bytecmp_toDigits, compare_gt_iff_gt]
    exact ⟨hnum, hnum⟩

/-- `appliedAdvanceLua`: the cursor is set, the owner epoch only rises. -/
def appliedAdvance (r : Redis P) (t : Table) (token lockTTL : Nat) (cursor epoch : Text) :
    Redis P :=
  if r.lock t ≠ some token then r
  else if !isDecimal epoch then r
  else if epoch ≠ ['0'] && (r.appliedEpoch t).any (!isDecimal ·) then r
  else if lockTTL = 0 then r
  else { r with
    appliedSeq := fun t' => if t' = t && cursor ≠ [] then some cursor else r.appliedSeq t'
    appliedEpoch := fun t' =>
      if t' = t && epoch ≠ ['0'] && (r.appliedEpoch t).all (numGt epoch ·) then some epoch
      else r.appliedEpoch t' }

end Publish

/-! ## What the scripts can do -/

section Effects

variable {P : Type}

def Barrier.outbox (b : Barrier P) : Option Text × Option Text × Option P × Option P :=
  (b.outboxVersion, b.outboxTopic, b.outboxFirst, b.outboxSecond)

def Redis.Listed (r : Redis P) : Prop := ∃ q, (r.index q).isSome = true

/-- Parent, owner, `pending`, ACKs and outbox stay, and the player is not taken off the lists. -/
structure Redis.Keeps (r r' : Redis P) : Prop where
  parent : r'.parent = r.parent
  owner : r'.owner = r.owner
  pending : r'.barrier.pending = r.barrier.pending
  ack : r'.barrier.ack = r.barrier.ack
  outbox : r'.barrier.outbox = r.barrier.outbox
  listed : r.Listed → r'.Listed

namespace Redis

theorem listed_zadd (r : Redis P) (q : IndexKey) (score : Nat) : (r.zadd q score).Listed :=
  ⟨q, by simp [zadd]⟩

theorem Keeps.refl (r : Redis P) : r.Keeps r := ⟨rfl, rfl, rfl, rfl, rfl, id⟩

theorem Keeps.zadd {r r' : Redis P} (h : r.Keeps r') (q : IndexKey) (score : Nat) :
    r.Keeps (r'.zadd q score) :=
  { h with listed := fun _ => listed_zadd r' q score }

end Redis

/-- What a claim can do: note something in the schedule, hand out the stored intent, or clear
away the outbox of a complete barrier. -/
inductive ClaimOf (size : P → Nat) (r : Redis P) (q : IndexKey) : ClaimReply P × Redis P → Prop
  | note {reply : ClaimReply P} {r' : Redis P} (hkeep : r.Keeps r')
      (hreply : ∀ i n, reply ≠ .intent i n) : ClaimOf size r q (reply, r')
  | hand {i : Intent P} {n : Nat} {r' : Redis P} (hkeep : r.Keeps r')
      (hfull : r.barrier.full size = some i) : ClaimOf size r q (.intent i n, r')
  | clear (hcomplete : r.barrier.complete = true) :
    ClaimOf size r q (.completed, { r with barrier := r.barrier.cleared }.zrem q)

section Claim

variable {size : P → Nat} {c : Schedule} {r : Redis P} {q : IndexKey} {now : Nat} {i : Intent P}

theorem ClaimOf.ite {p : Prop} [Decidable p] {d e : ClaimReply P × Redis P}
    (hd : ClaimOf size r q d) (he : ClaimOf size r q e) :
    ClaimOf size r q (if p then d else e) := by
  split
  · exact hd
  · exact he

theorem ClaimOf.later {reply : ClaimReply P} (score : Nat) (hreply : ∀ i n, reply ≠ .intent i n) :
    ClaimOf size r q (reply, r.zadd q score) :=
  .note ((Redis.Keeps.refl r).zadd q score) hreply

theorem claimCounted_of (hfull : r.barrier.full size = some i) (n : Nat) :
    ClaimOf size r q (claimCounted c r q now i n) := by
  unfold claimCounted
  refine .ite (.later _ (by simp)) ?_
  dsimp only
  split
  · exact .later _ (by simp)
  · refine .hand (Redis.Keeps.zadd ?_ q _) hfull
    exact ⟨rfl, rfl, rfl, rfl, rfl, id⟩
  · exact .hand ((Redis.Keeps.refl r).zadd q _) hfull

theorem claimIntent_of (hfull : r.barrier.full size = some i) :
    ClaimOf size r q (claimIntent c r q now i) := by
  unfold claimIntent
  split
  · refine .note (Redis.Keeps.zadd ?_ q _) (by simp)
    exact ⟨rfl, rfl, rfl, rfl, rfl, id⟩
  next n _ => exact claimCounted_of hfull n

theorem claimScript_of : ClaimOf size r q (claimScript size c r q now) := by
  unfold claimScript
  refine .ite (.note (.refl r) (by simp)) (.ite (.note (.refl r) (by simp)) ?_)
  dsimp only
  refine .ite (.later _ (by simp)) ?_
  split
  next hcomplete => exact .clear hcomplete
  split
  · exact .later _ (by simp)
  rename_i i hfull
  refine .ite (.later _ (by simp)) (.ite ?_ (claimIntent_of hfull))
  -- the terminal mark of an older version is deleted first
  generalize hr' : ({ r with barrier := { r.barrier with
    terminal := none, terminalReason := none } } : Redis P) = r'
  have hfull' : r'.barrier.full size = some i := hr' ▸ hfull
  generalize hd : claimIntent c r' q now i = d
  have h : ClaimOf size r' q d := hd ▸ claimIntent_of hfull'
  subst hr'
  cases h with
  | note hk hreply =>
    exact .note { hk with } hreply
  | hand hk hf =>
    exact .hand { hk with } hf
  | clear hcomplete => exact .clear hcomplete

end Claim

section Notes

variable (r : Redis P)

theorem confirmAttempt_keeps (version attempts : Text) :
    r.Keeps (confirmAttempt r version attempts) := by
  unfold confirmAttempt
  repeat' split
  all_goals exact ⟨rfl, rfl, rfl, rfl, rfl, id⟩

theorem markTerminal_keeps (version reason : Text) : r.Keeps (markTerminal r version reason) := by
  unfold markTerminal
  repeat' split
  all_goals exact ⟨rfl, rfl, rfl, rfl, rfl, id⟩

theorem noteRetry_keeps (stamp : Text) : r.Keeps (noteRetry r stamp) := by
  unfold noteRetry
  repeat' split
  all_goals exact ⟨rfl, rfl, rfl, rfl, rfl, id⟩

theorem migrate_keeps (others : Bool) (oldq newq : IndexKey) (version topic : Text) :
    r.Keeps (migrate r others oldq newq version topic) := by
  unfold migrate
  split
  · exact .refl r
  rename_i hne
  split
  · exact .refl r
  have hdiff : newq ≠ oldq := by
    rintro rfl
    simp at hne
  exact ⟨rfl, rfl, rfl, rfl, rfl, fun _ => ⟨newq, by simp [Redis.zrem, Redis.zadd, hdiff]⟩⟩

theorem appliedAdvance_keeps (t : Table) (token lockTTL : Nat) (cursor epoch : Text) :
    r.Keeps (appliedAdvance r t token lockTTL cursor epoch) := by
  unfold appliedAdvance
  repeat' split
  all_goals exact ⟨rfl, rfl, rfl, rfl, rfl, id⟩

end Notes

theorem ackPlan_write {b : Barrier P} {t : Table} {a : PublishArgs P} {ahead : Nat}
    (h : ackPlan b t a = .ok (true, ahead)) :
    a.hasBarrier = true ∧ ∀ old, b.ack t = some old → versionGt a.version old = true := by
  unfold ackPlan at h
  split at h
  · cases (Prod.mk.inj (Except.ok.inj h)).1
  rename_i hbarrier
  refine ⟨by simpa using hbarrier, fun old hold => ?_⟩
  split at h
  · cases h
  split at h
  · cases h
  split at h
  · cases h
  dsimp only at h
  split at h
  all_goals
    have hwrite := (Prod.mk.inj (Except.ok.inj h)).1
    simpa [hold] using hwrite

section Writes

variable [DecidableEq P]

structure SaveGuards (size : P → Nat) (player : Text) (r : Redis P) (a : SaveArgs P) : Prop where
  args : a.refusal size player = none
  owner : r.owner = some a.owner
  outbox : r.barrier.outboxValid size = true
  notBehind : ∀ v, r.barrier.pending = some v → isVersion v = true ∧ versionGt v a.version = false
  noConflict : sameVersionConflict r a = false

/-- A save that is not accepted changes nothing. -/
theorem saveWithCommitBarrier_cases (size : P → Nat) (player : Text) (r : Redis P)
    (a : SaveArgs P) :
    (saveWithCommitBarrier size player r a).1.accepted = false ∧
        (saveWithCommitBarrier size player r a).2 = r ∨
      (saveWithCommitBarrier size player r a).1.accepted = true ∧ SaveGuards size player r a ∧
        (saveWithCommitBarrier size player r a).2 = r.saved a := by
  unfold saveWithCommitBarrier
  split
  · exact .inl ⟨rfl, rfl⟩
  rename_i owner howner
  split
  · exact .inl ⟨rfl, rfl⟩
  rename_i hargs
  split
  · exact .inl ⟨rfl, rfl⟩
  rename_i hstored
  split
  · exact .inl ⟨rfl, rfl⟩
  rename_i houtbox
  split
  · exact .inl ⟨rfl, rfl⟩
  split
  · exact .inl ⟨rfl, rfl⟩
  rename_i hsame
  split
  · exact .inl ⟨rfl, rfl⟩
  rename_i hregression
  split
  · exact .inl ⟨rfl, rfl⟩
  rename_i hconflict
  split
  · exact .inl ⟨rfl, rfl⟩
  refine .inr ⟨?_, ⟨hargs, ?_, by simpa using houtbox, ?_, ?_⟩, rfl⟩
  · dsimp only
    split <;> rfl
  · rw [howner, not_not.1 hsame]
  · intro v hv
    simp only [hv, Option.any_some, Bool.or_eq_true, Bool.not_eq_true', not_or,
      Bool.not_eq_false] at hstored hregression
    exact ⟨hstored.2, by simpa using hregression⟩
  · simpa using hconflict

/-- A publication sets at most the ACK of its table, and only to a greater version. -/
theorem playerCachePublish_cases (r : Redis P) (t : Table) (a : PublishArgs P) :
    r.Keeps (playerCachePublish r t a).2 ∨
      a.hasBarrier = true ∧ (∀ old, r.barrier.ack t = some old → versionGt a.version old = true) ∧
        ∃ storeEvidence, (playerCachePublish r t a).2 = r.published t a storeEvidence true := by
  unfold playerCachePublish
  split
  · exact .inl (.refl r)
  split
  · exact .inl (.refl r)
  split
  · exact .inl (.refl r)
  · exact .inl (.refl r)
  rename_i plan _ _
  split
  · exact .inl (.refl r)
  rename_i ack ahead hplan
  cases ack with
  | false => exact .inl ⟨rfl, rfl, rfl, rfl, rfl, id⟩
  | true =>
    obtain ⟨hbarrier, hgreater⟩ := ackPlan_write hplan
    exact .inr ⟨hbarrier, hgreater, _, rfl⟩

end Writes

end Effects

end Mmorpg.SaveBarrier
