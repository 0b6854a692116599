import Mathlib.Logic.Function.Basic
import Mmorpg.Lib.Run
import Mmorpg.Team.Rules

/-!
# The team store

All teams live in one Redis (scripts.go): a versioned record per team, and per player an index
entry with the team and an epoch that tells clients which view is newer. Servers read a record and
an index (`S_READ`), compute a decision and commit it with the version they have read
(`S_COMMIT`). Any number of servers work on reads that may be stale; a request may be executed any
number of times. Orphan entries are healed (`S_HEAL_ORPHAN`), keys expire. The scripts compute
versions and epochs as Lua numbers, which are exact below 2^53; the natural numbers here stand for
them as long as the clock and the number of changes stay below that bound.

**A player is in at most one team** (`Ok.listed`): the entry of everyone a stored record lists
points to that record. The script refuses a request if somebody who joins or stays has an entry
of another team, so other teams' members are never touched. **Epochs** (`IndexStep`): an entry
that is there gets a larger epoch with every change of its team. A lost entry starts again from
the clock, so across a loss the epochs only grow if the clock has passed the last one.
-/

namespace Mmorpg.Team

open Function Option Machine List

structure IndexEntry where
  tid : Nat
  epoch : Nat
deriving DecidableEq, Repr

/-- The hash `team:rec`. -/
structure Stored where
  ver : Nat
  record : TeamRecord
deriving DecidableEq, Repr

/-- The projection that scenes read. -/
structure TeamInfo where
  teamId : Nat
  leaderId : Nat
  members : List Nat
deriving DecidableEq, Repr

def projectionOf (record : TeamRecord) : TeamInfo :=
  ⟨record.teamId, record.leaderId, memberIds record⟩

/-- The invitations of a player are pairs of a team and the time at which they expire. -/
structure Redis where
  records : Nat → Option Stored
  projections : Nat → Option TeamInfo
  index : Nat → Option IndexEntry
  invites : Nat → List (Nat × Nat)

def maxPendingInvitesPerInvitee : Nat := 10

/-- The result of one `S_READ`. -/
structure Snapshot where
  playerId : Nat
  playerTeamId : Nat
  playerEpoch : Nat
  teamId : Nat
  version : Nat
  record : Option TeamRecord
  nowMs : Nat
deriving DecidableEq, Repr

/-- Without an expected version the team is created. -/
structure CommitRequest where
  teamId : Nat
  expectedVer : Option Nat
  change : Change
deriving DecidableEq, Repr

inductive CommitReply where
  | committed (ver : Nat) (entries : List (Option IndexEntry))
  | conflict
  | memberInTeam (i : Nat)
  | indexMismatch (i : Nat)
  | inviteLimit (i : Nat)
deriving DecidableEq, Repr

namespace Redis

def empty : Redis := ⟨fun _ => none, fun _ => none, fun _ => none, fun _ => []⟩

/-- `S_READ`. A missing entry is reported with the time as epoch. -/
def read (r : Redis) (playerId teamId nowMs : Nat) : Snapshot :=
  let entry := r.index playerId
  let stored := r.records teamId
  ⟨playerId, (entry.map (·.tid)).getD 0, (entry.map (·.epoch)).getD nowMs, teamId,
    (stored.map (·.ver)).getD 0, stored.map (·.record), nowMs⟩

def nextEpoch (epoch nowMs : Nat) : Nat := if epoch = 0 then nowMs + 1 else epoch + 1

def setIdx (v nowMs : Nat) (entry : Option IndexEntry) : IndexEntry :=
  match entry with
  | none => ⟨v, nextEpoch 0 nowMs⟩
  | some x => if x.tid = v then x else ⟨v, nextEpoch x.epoch nowMs⟩

/-- The entry of somebody who leaves: cleared if it is missing or of this team. -/
def clearIdx (tid nowMs : Nat) (entry : Option IndexEntry) : Option IndexEntry :=
  if entry.all (·.tid = tid) then some (setIdx 0 nowMs entry) else entry

def updateEach (f : Option IndexEntry → Option IndexEntry) (players : List Nat)
    (index : Nat → Option IndexEntry) : Nat → Option IndexEntry :=
  players.foldl (fun index p => update index p (f (index p))) index

/-- `ZREM` and `ZADD` on the invitations of `S_COMMIT`. -/
def updateInvites (tid nowMs : Nat) (c : Change) (invites : Nat → List (Nat × Nat)) :
    Nat → List (Nat × Nat) :=
  let invites := c.invitesRemoved.foldl
    (fun invites p => update invites p ((invites p).filter (·.1 ≠ tid))) invites
  c.invitesAdded.foldl (fun invites a => update invites a.inviteeId
    ((invites a.inviteeId).filter (fun i => i.2 > nowMs && i.1 ≠ tid) ++ [(tid, a.expireAtMs)]))
    invites

def fits (r : Redis) (req : CommitRequest) : Bool :=
  (r.records req.teamId).map (·.ver) = req.expectedVer

/-- The checks of `S_COMMIT`. Players are counted from one. -/
def refusal (r : Redis) (req : CommitRequest) (nowMs : Nat) : Option CommitReply :=
  if !r.fits req then some .conflict
  else
    match req.change.joined.findIdx? fun p =>
        (r.index p).any (fun x => x.tid ≠ 0 && x.tid ≠ req.teamId) with
    | some i => some (.memberInTeam (i + 1))
    | none =>
      match req.change.kept.findIdx? fun p => (r.index p).any (·.tid ≠ req.teamId) with
      | some i => some (.indexMismatch (i + 1))
      | none =>
        match req.change.invitesAdded.findIdx? fun a =>
            let pending := r.invites a.inviteeId
            !pending.any (·.1 = req.teamId) &&
              (pending.filter (·.2 > nowMs)).length ≥ maxPendingInvitesPerInvitee with
        | some i => some (.inviteLimit (i + 1))
        | none => none

/-- `S_COMMIT`. -/
def commit (r : Redis) (req : CommitRequest) (nowMs : Nat) : CommitReply × Redis :=
  match r.refusal req nowMs with
  | some reply => (reply, r)
  | none =>
    let c := req.change
    let newVer := ((r.records req.teamId).map (·.ver)).getD 0 + 1
    let index := updateEach (fun x => some (setIdx req.teamId nowMs x)) (c.joined ++ c.kept) r.index
    let index := updateEach (clearIdx req.teamId nowMs) c.left index
    (.committed newVer ((c.joined ++ c.kept ++ c.left).map index),
      { records := update r.records req.teamId (c.record.map (⟨newVer, ·⟩))
        projections := update r.projections req.teamId (c.record.map projectionOf)
        index := index
        invites := updateInvites req.teamId nowMs c r.invites })

/-- `S_TOUCH`: only the projection is written, if it is missing; keys live on. -/
def touch (r : Redis) (snap : Snapshot) : Redis :=
  match snap.record with
  | none => r
  | some record =>
    if (r.records record.teamId).map (·.ver) = some snap.version then
      { r with
        projections := update r.projections record.teamId
          (some ((r.projections record.teamId).getD (projectionOf record))) }
    else r

/-- `S_HEAL_ORPHAN`. -/
def healOrphan (r : Redis) (playerId tid nowMs : Nat) : Redis :=
  if (r.records tid).isSome then r
  else
    match r.index playerId with
    | none => r
    | some x =>
      if x.tid ≠ tid then r
      else
        { r with
          index := update r.index playerId (some ⟨0, nextEpoch x.epoch nowMs⟩) }

/-- `S_INVITE_LIST` drops what has expired. -/
def inviteList (r : Redis) (playerId nowMs : Nat) : Redis :=
  { r with
    invites := update r.invites playerId ((r.invites playerId).filter (·.2 > nowMs)) }

/-- `S_INVITE_PRUNE`. -/
def invitePrune (r : Redis) (playerId tid score : Nat) : Redis :=
  { r with
    invites := update r.invites playerId
      ((r.invites playerId).filter (· ≠ (tid, score))) }

/-- The record that the player's entry points to lists the player. -/
def isListed (r : Redis) (playerId : Nat) : Bool :=
  ((r.index playerId).bind fun x => r.records x.tid).any
    (fun stored => playerId ∈ memberIds stored.record)

end Redis

/-! ## Servers -/

inductive BindMode where
  | caller
  | target
  | create
deriving DecidableEq, Repr

/-- The request of a decision, if its sets are valid. -/
def requestOf (teamId : Nat) (expectedVer : Option Nat) : Decision → Option CommitRequest
  | .change c => if validateCommitSets teamId c then some ⟨teamId, expectedVer, c⟩ else none
  | _ => none

/-- One round of `Mutate` from a read up to the commit. -/
def mutate (snap : Snapshot) (mode : BindMode) (op : Op) (sessions : Sessions)
    (allowCrossZone : Bool) : Option CommitRequest :=
  let decision := applyOp { op with callerTeamId := snap.playerTeamId } snap.record snap.nowMs
    sessions allowCrossZone
  if mode = .caller && (snap.teamId = 0 || snap.playerTeamId ≠ snap.teamId) then none
  else
    match mode, snap.record with
    | .create, some _ => none
    | .create, none => requestOf snap.teamId none decision
    | _, none => none
    | _, some _ => requestOf snap.teamId (some snap.version) decision

/-- The servers and the store. What was read or requested stays, to be used at any time. -/
structure Teams where
  redis : Redis
  snaps : List Snapshot
  requests : List CommitRequest
  /-- The newest entry that a player's index ever had. -/
  last : Nat → Option IndexEntry

inductive Event where
  | read (playerId teamId nowMs : Nat)
  | mutate (snap : Nat) (mode : BindMode) (op : Op) (sessions : Sessions) (allowCrossZone : Bool)
  | repair (snap : Nat) (playerIds : List Nat) (sessions : Sessions)
  | lock (snap : Nat) (caller : Nat) (token : String) (roster : List Nat) (expireAtMs : Nat)
  | release (snap : Nat) (token : String) (ok : Bool) (sessions : Sessions)
  | commit (request : Nat) (nowMs : Nat)
  | touch (snap : Nat)
  | heal (playerId tid nowMs : Nat)
  | inviteList (playerId nowMs : Nat)
  | invitePrune (playerId tid score : Nat)
  | expireRecord (tid : Nat)
  | expireProjection (tid : Nat)
  /-- The entry of a player outlives every record that lists the player. -/
  | expireIndex (playerId : Nat)
  | expireInvites (playerId : Nat)

/-- The time at which an event may start entries. -/
def Event.clock : Event → Option Nat
  | .commit _ nowMs => some nowMs
  | _ => none

namespace Teams

def start : Teams := ⟨.empty, [], [], fun _ => none⟩

/-- The store after a script, with the newest entries noted. -/
def setRedis (t : Teams) (r : Redis) : Teams :=
  { t with redis := r, last := fun p => (r.index p).or (t.last p) }

def ask (t : Teams) (req : Option CommitRequest) : Teams :=
  { t with requests := t.requests ++ req.toList }

/-- What a server does with one of its reads. -/
def onSnap (t : Teams) (i : Nat) (decide : Snapshot → Option CommitRequest) : Teams :=
  t.ask (t.snaps[i]?.bind decide)

def step (t : Teams) : Event → Teams
  | .read playerId teamId nowMs =>
    { t with snaps := t.snaps ++ [t.redis.read playerId teamId nowMs] }
  | .mutate i mode op sessions allowCrossZone =>
    t.onSnap i fun snap => Team.mutate snap mode op sessions allowCrossZone
  | .repair i playerIds sessions =>
    t.onSnap i fun snap => requestOf snap.teamId (some snap.version)
      (repairRemoveMembers snap.record playerIds snap.nowMs sessions)
  | .lock i caller token roster expireAtMs =>
    t.onSnap i fun snap => snap.record.bind fun record =>
      requestOf snap.teamId (some snap.version)
        (lockMatch record caller token roster expireAtMs snap.nowMs)
  | .release i token ok sessions =>
    t.onSnap i fun snap => snap.record.bind fun record =>
      requestOf snap.teamId (some snap.version)
        (releaseMatchLock record token ok snap.nowMs sessions)
  | .commit j nowMs =>
    match t.requests[j]? with
    | none => t
    | some req => t.setRedis (t.redis.commit req nowMs).2
  | .touch i =>
    match t.snaps[i]? with
    | none => t
    | some snap => t.setRedis (t.redis.touch snap)
  | .heal playerId tid nowMs =>
    if tid = 0 then t else t.setRedis (t.redis.healOrphan playerId tid nowMs)
  | .inviteList playerId nowMs => t.setRedis (t.redis.inviteList playerId nowMs)
  | .invitePrune playerId tid score => t.setRedis (t.redis.invitePrune playerId tid score)
  | .expireRecord tid =>
    t.setRedis { t.redis with records := update t.redis.records tid none }
  | .expireProjection tid =>
    t.setRedis { t.redis with projections := update t.redis.projections tid none }
  | .expireIndex playerId =>
    if t.redis.isListed playerId then t
    else t.setRedis { t.redis with index := update t.redis.index playerId none }
  | .expireInvites playerId =>
    t.setRedis { t.redis with invites := update t.redis.invites playerId [] }

end Teams

/-! ## What a script does to an entry -/

/-- An entry stays, moves to another team with the next epoch, or starts from the clock if the
script may start entries. -/
inductive IndexStep (clock : Option Nat) : Option IndexEntry → Option IndexEntry → Prop
  | keep (x : Option IndexEntry) : IndexStep clock x x
  | seed (v nowMs : Nat) (hclock : clock = some nowMs) :
      IndexStep clock none (some ⟨v, nowMs + 1⟩)
  | move (x : IndexEntry) (v : Nat) (hv : v ≠ x.tid) :
      IndexStep clock (some x) (some ⟨v, x.epoch + 1⟩)

def HasEpoch (x : Option IndexEntry) : Prop := ∀ e ∈ x, e.epoch ≠ 0

namespace Redis

theorem nextEpoch_of_ne {epoch nowMs : Nat} (h : epoch ≠ 0) : nextEpoch epoch nowMs = epoch + 1 :=
  if_neg h

theorem setIdx_tid (v nowMs : Nat) (x : Option IndexEntry) : (setIdx v nowMs x).tid = v := by
  unfold setIdx
  split
  · rfl
  · split
    next h => exact h
    · rfl

variable {x : Option IndexEntry}

theorem setIdx_step (v nowMs : Nat) (h : HasEpoch x) :
    IndexStep (some nowMs) x (some (setIdx v nowMs x)) := by
  cases x with
  | none => exact .seed v nowMs rfl
  | some x =>
    unfold setIdx
    dsimp only
    split
    · exact .keep _
    next hne =>
      rw [nextEpoch_of_ne (h x rfl)]
      exact .move x v (Ne.symm hne)

theorem clearIdx_step (tid nowMs : Nat) (h : HasEpoch x) :
    IndexStep (some nowMs) x (clearIdx tid nowMs x) := by
  unfold clearIdx
  split
  · exact setIdx_step 0 nowMs h
  · exact .keep _

theorem updateEach_apply {f : Option IndexEntry → Option IndexEntry} {players : List Nat}
    (hnodup : players.Nodup) (index : Nat → Option IndexEntry) (p : Nat) :
    updateEach f players index p = if p ∈ players then f (index p) else index p := by
  induction players generalizing index with
  | nil => rfl
  | cons q players ih =>
    obtain ⟨hq, hnodup⟩ := nodup_cons.1 hnodup
    rw [updateEach, foldl_cons, ← updateEach, ih hnodup]
    by_cases hpq : p = q
    · subst hpq
      simp [hq]
    · simp [hpq]

end Redis

theorem HasEpoch.step {clock : Option Nat} {x y : Option IndexEntry} (h : HasEpoch x)
    (hstep : IndexStep clock x y) : HasEpoch y := by
  cases hstep with
  | keep => exact h
  | seed v nowMs | move x v hv => simp [HasEpoch]

/-! ## The invariant -/

/-- What `validateCommitSets` has checked of a request. -/
structure CommitRequest.Valid (req : CommitRequest) : Prop where
  team : req.teamId ≠ 0
  nodup : (req.change.joined ++ req.change.kept ++ req.change.left).Nodup
  members : ∀ record ∈ req.change.record, ∀ p ∈ memberIds record,
    p ∈ req.change.joined ++ req.change.kept

variable {req : CommitRequest}

theorem requestOf_valid {teamId : Nat} {expectedVer : Option Nat} {d : Decision}
    (h : requestOf teamId expectedVer d = some req) : req.Valid := by
  cases d with
  | reject | unchanged => cases h
  | change c =>
    simp only [requestOf] at h
    split at h
    next hvalid =>
      cases h
      simp only [validateCommitSets, Bool.and_eq_true, decide_eq_true_eq] at hvalid
      obtain ⟨⟨⟨⟨⟨⟨⟨hteam, -⟩, hnodup⟩, hrecord⟩, -⟩, -⟩, -⟩, -⟩ := hvalid
      refine ⟨hteam, hnodup, fun record hr p hp => ?_⟩
      rw [mem_def.1 hr] at hrecord
      simp only [Bool.and_eq_true, isPerm_iff] at hrecord
      exact hrecord.1.1.2.mem_iff.1 hp
    · cases h

theorem mutate_valid {snap : Snapshot} {mode : BindMode} {op : Op} {sessions : Sessions}
    {allowCrossZone : Bool} (h : mutate snap mode op sessions allowCrossZone = some req) :
    req.Valid := by
  unfold mutate at h
  dsimp only at h
  split at h
  · cases h
  split at h
  · cases h
  · exact requestOf_valid h
  · cases h
  · exact requestOf_valid h

variable {r : Redis}

namespace Redis

/-- Who joins an accepted request is free or in the team, and who stays is in the team. -/
theorem refusal_eq_none {nowMs : Nat} (h : r.refusal req nowMs = none) :
    (∀ p ∈ req.change.joined, ∀ x, r.index p = some x → x.tid = 0 ∨ x.tid = req.teamId) ∧
      ∀ p ∈ req.change.kept, ∀ x, r.index p = some x → x.tid = req.teamId := by
  unfold refusal at h
  dsimp only at h
  split at h
  · cases h
  split at h
  · cases h
  rename_i hjoined
  split at h
  · cases h
  next hkept =>
    rw [List.findIdx?_eq_none_iff] at hjoined hkept
    refine ⟨fun p hp x hx => ?_, fun p hp x hx => ?_⟩
    · simpa [hx, or_iff_not_imp_left] using hjoined p hp
    · simpa [hx] using hkept p hp

/-- The entries after a commit: everyone in the request is written once. -/
theorem commitIndex_apply (h : req.Valid) (index : Nat → Option IndexEntry) (nowMs p : Nat) :
    updateEach (clearIdx req.teamId nowMs) req.change.left
        (updateEach (fun x => some (setIdx req.teamId nowMs x))
          (req.change.joined ++ req.change.kept) index) p =
      if p ∈ req.change.joined ++ req.change.kept then some (setIdx req.teamId nowMs (index p))
      else if p ∈ req.change.left then clearIdx req.teamId nowMs (index p) else index p := by
  obtain ⟨hin, hleft, hdisjoint⟩ := nodup_append.1 h.nodup
  rw [updateEach_apply hleft, updateEach_apply hin]
  by_cases hp : p ∈ req.change.joined ++ req.change.kept
  · have hnot : p ∉ req.change.left := fun hl => hdisjoint p hp p hl rfl
    rw [if_neg hnot, if_pos hp, if_pos hp]
  · rw [if_neg hp, if_neg hp]

end Redis

namespace Teams

structure Ok (t : Teams) : Prop where
  requests : ∀ req ∈ t.requests, req.Valid
  team : t.redis.records 0 = none
  /-- The entry of a member points to the record that lists it. -/
  listed : ∀ tid stored, t.redis.records tid = some stored →
    ∀ p ∈ memberIds stored.record, (t.redis.index p).map (·.tid) = some tid
  epoch : ∀ p, HasEpoch (t.redis.index p)
  last : ∀ p x, t.redis.index p = some x → t.last p = some x

/-- The clock has reached the epochs of the entries that were lost. -/
def ClockPast (t : Teams) (e : Event) : Prop :=
  ∀ nowMs ∈ e.clock, ∀ p x, t.redis.index p = none → t.last p = some x → x.epoch ≤ nowMs

namespace Ok

variable {t : Teams}

theorem start : Teams.start.Ok := by
  constructor <;> simp [Teams.start, Redis.empty, HasEpoch]

theorem ask (h : t.Ok) {req : Option CommitRequest} (hreq : ∀ r ∈ req, r.Valid) :
    (t.ask req).Ok := by
  refine { h with requests := fun r hr => ?_ }
  rcases mem_append.1 hr with hr | hr
  · exact h.requests r hr
  · exact hreq r (by simpa using hr)

theorem onSnap (h : t.Ok) {i : Nat} {decide : Snapshot → Option CommitRequest}
    (hvalid : ∀ snap req, decide snap = some req → req.Valid) : (t.onSnap i decide).Ok := by
  refine h.ask fun req hreq => ?_
  obtain ⟨snap, -, hreq⟩ := bind_eq_some_iff.1 hreq
  exact hvalid snap req hreq

end Ok

/-- What the execution of a script leaves: members keep their entries, and every entry is lost or
takes a step. -/
structure Script (t : Teams) (clock : Option Nat) (r : Redis) : Prop where
  team : r.records 0 = none
  listed : ∀ tid stored, r.records tid = some stored →
    ∀ p ∈ memberIds stored.record, (r.index p).map (·.tid) = some tid
  index : ∀ p, r.index p = none ∨ IndexStep clock (t.redis.index p) (r.index p)

variable {t : Teams}

theorem Ok.setRedis (h : t.Ok) {clock : Option Nat} (hr : t.Script clock r) :
    (t.setRedis r).Ok := by
  refine ⟨h.requests, hr.team, hr.listed, fun p => ?_, fun p x hx => ?_⟩
  · rcases hr.index p with hnone | hstep
    · simp only [Teams.setRedis, hnone]
      simp [HasEpoch]
    · exact (h.epoch p).step hstep
  · simp only [Teams.setRedis] at hx ⊢
    rw [hx, some_or]

namespace Script

variable {t : Teams} {clock : Option Nat} (h : t.Ok)

include h

/-- Scripts that leave records and entries alone. -/
theorem same (hrecords : r.records = t.redis.records) (hindex : r.index = t.redis.index) :
    t.Script clock r := by
  refine ⟨by rw [hrecords]; exact h.team, fun tid stored hs p hp => ?_, fun p => ?_⟩
  · rw [hindex]
    exact h.listed tid stored (hrecords ▸ hs) p hp
  · rw [hindex]
    exact .inr (.keep _)

theorem touch (snap : Snapshot) : t.Script clock (t.redis.touch snap) := by
  unfold Redis.touch
  split
  · exact same h rfl rfl
  · split
    · exact same h rfl rfl
    · exact same h rfl rfl

theorem expireRecord (tid : Nat) :
    t.Script clock { t.redis with records := update t.redis.records tid none } := by
  have hold : ∀ tid' stored, update t.redis.records tid none tid' = some stored →
      t.redis.records tid' = some stored := by
    intro tid' stored hs
    by_cases ht : tid' = tid
    · subst ht
      simp at hs
    · rwa [update_of_ne ht] at hs
  refine ⟨?_, fun tid' stored hs => h.listed tid' stored (hold tid' stored hs),
    fun p => .inr (.keep _)⟩
  refine eq_none_iff_forall_ne_some.2 fun stored hs => ?_
  have hzero := hold 0 stored hs
  rw [h.team] at hzero
  cases hzero

/-- A write to the entry of somebody whom no record lists. -/
theorem setEntry {playerId : Nat} {y : Option IndexEntry}
    (hfree : ∀ tid stored, t.redis.records tid = some stored → playerId ∉ memberIds stored.record)
    (hy : y = none ∨ IndexStep clock (t.redis.index playerId) y) :
    t.Script clock { t.redis with index := update t.redis.index playerId y } := by
  refine ⟨h.team, fun tid stored hs p hp => ?_, fun p => ?_⟩
  · have hpp : p ≠ playerId := by
      rintro rfl
      exact hfree tid stored hs hp
    dsimp only
    rw [update_of_ne hpp]
    exact h.listed tid stored hs p hp
  · dsimp only
    by_cases hpp : p = playerId
    · subst hpp
      rwa [update_self]
    · rw [update_of_ne hpp]
      exact .inr (.keep _)

theorem expireIndex {playerId : Nat} (hlisted : t.redis.isListed playerId = false) :
    t.Script clock { t.redis with index := update t.redis.index playerId none } := by
  refine setEntry h (fun tid stored hs hp => ?_) (.inl rfl)
  obtain ⟨x, hx, rfl⟩ := map_eq_some_iff.1 (h.listed tid stored hs playerId hp)
  simp [Redis.isListed, hx, hs, hp] at hlisted

theorem healOrphan (playerId nowMs : Nat) {tid : Nat} (hzero : tid ≠ 0) :
    t.Script clock (t.redis.healOrphan playerId tid nowMs) := by
  unfold Redis.healOrphan
  split
  · exact same h rfl rfl
  next hmissing =>
  split
  · exact same h rfl rfl
  next x hx =>
  split
  · exact same h rfl rfl
  next htid =>
  rw [ne_eq, Decidable.not_not] at htid
  subst htid
  refine setEntry h (fun tid stored hs hp => ?_) (.inr ?_)
  · have hmember := h.listed tid stored hs playerId hp
    rw [hx] at hmember
    obtain rfl : x.tid = tid := some.inj hmember
    exact hmissing (isSome_of_mem hs)
  · rw [hx, Redis.nextEpoch_of_ne (h.epoch playerId x hx)]
    exact .move x 0 hzero.symm

theorem commit (hreq : req.Valid) (nowMs : Nat) :
    t.Script (some nowMs) (t.redis.commit req nowMs).2 := by
  unfold Redis.commit
  split
  · exact same h rfl rfl
  next haccept =>
  obtain ⟨hjoined, hkept⟩ := Redis.refusal_eq_none haccept
  have hindex := Redis.commitIndex_apply hreq t.redis.index nowMs
  refine ⟨?_, fun tid stored hs p hp => ?_, fun p => .inr ?_⟩
  · dsimp only
    rw [update_of_ne hreq.team.symm]
    exact h.team
  · dsimp only at hs ⊢
    rw [hindex p]
    by_cases htid : tid = req.teamId
    · subst htid
      rw [update_self] at hs
      obtain ⟨record, hrecord, rfl⟩ := map_eq_some_iff.1 hs
      rw [if_pos (hreq.members record hrecord p hp), map_some, Redis.setIdx_tid]
    · -- Members of other teams do not join or stay, and leaving does not clear their entry.
      rw [update_of_ne htid] at hs
      obtain ⟨x, hx, rfl⟩ := map_eq_some_iff.1 (h.listed tid stored hs p hp)
      have hteam : x.tid ≠ 0 := by
        intro hzero
        rw [hzero, h.team] at hs
        cases hs
      have hout : p ∉ req.change.joined ++ req.change.kept := by
        intro hp
        rcases mem_append.1 hp with hp | hp
        · exact (hjoined p hp x hx).elim hteam htid
        · exact htid (hkept p hp x hx)
      rw [if_neg hout, hx]
      split
      · simp [Redis.clearIdx, htid]
      · rfl
  · dsimp only
    rw [hindex p]
    split
    · exact Redis.setIdx_step _ _ (h.epoch p)
    · split
      · exact Redis.clearIdx_step _ _ (h.epoch p)
      · exact .keep _

end Script

/-- A step asks for something or executes a script. -/
theorem Ok.step_cases (h : t.Ok) (e : Event) :
    ((t.step e).Ok ∧ (t.step e).redis = t.redis ∧ (t.step e).last = t.last) ∨
      ∃ r, t.Script e.clock r ∧ t.step e = t.setRedis r := by
  cases e with
  | read playerId teamId nowMs => exact .inl ⟨{ h with }, rfl, rfl⟩
  | mutate i mode op sessions allowCrossZone =>
    exact .inl ⟨h.onSnap fun snap req hreq => mutate_valid hreq, rfl, rfl⟩
  | repair i playerIds sessions =>
    exact .inl ⟨h.onSnap fun snap req hreq => requestOf_valid hreq, rfl, rfl⟩
  | lock i caller token roster expireAtMs | release i token ok sessions =>
    refine .inl ⟨h.onSnap fun snap req hreq => ?_, rfl, rfl⟩
    obtain ⟨record, -, hreq⟩ := bind_eq_some_iff.1 hreq
    exact requestOf_valid hreq
  | commit j nowMs =>
    dsimp only [step]
    split
    · exact .inl ⟨h, rfl, rfl⟩
    next req hreq =>
      exact .inr ⟨_, .commit h (h.requests req (List.mem_of_getElem? hreq)) nowMs, rfl⟩
  | touch i =>
    dsimp only [step]
    split
    · exact .inl ⟨h, rfl, rfl⟩
    next snap _ => exact .inr ⟨_, .touch h snap, rfl⟩
  | heal playerId tid nowMs =>
    dsimp only [step]
    split
    · exact .inl ⟨h, rfl, rfl⟩
    next hzero => exact .inr ⟨_, .healOrphan h playerId nowMs hzero, rfl⟩
  | inviteList playerId nowMs =>
    exact .inr ⟨t.redis.inviteList playerId nowMs, .same h rfl rfl, rfl⟩
  | invitePrune playerId tid score =>
    exact .inr ⟨t.redis.invitePrune playerId tid score, .same h rfl rfl, rfl⟩
  | expireRecord tid => exact .inr ⟨_, .expireRecord h tid, rfl⟩
  | expireProjection tid =>
    exact .inr ⟨{ t.redis with projections := update t.redis.projections tid none },
      .same h rfl rfl, rfl⟩
  | expireIndex playerId =>
    dsimp only [step]
    split
    · exact .inl ⟨h, rfl, rfl⟩
    next hlisted => exact .inr ⟨_, .expireIndex h (Bool.eq_false_iff.2 hlisted), rfl⟩
  | expireInvites playerId =>
    exact .inr ⟨{ t.redis with invites := update t.redis.invites playerId [] },
      .same h rfl rfl, rfl⟩

theorem Ok.step (h : t.Ok) (e : Event) : (t.step e).Ok := by
  obtain ⟨hok, -, -⟩ | ⟨r, hr, heq⟩ := h.step_cases e
  · exact hok
  · rw [heq]
    exact h.setRedis hr

theorem Ok.run (h : t.Ok) (evs : List Event) : (run Teams.step t evs).Ok :=
  run_invariant (I := Ok) (fun _ e hs => hs.step e) h evs

/-! ## Epochs -/

/-- Whoever had an entry has one that is not older, and of the same team if the epoch is the
same. -/
def LastLe (t t' : Teams) : Prop :=
  ∀ p x, t.last p = some x →
    ∃ y, t'.last p = some y ∧ x.epoch ≤ y.epoch ∧ (x.epoch = y.epoch → x.tid = y.tid)

theorem LastLe.refl (t : Teams) : t.LastLe t :=
  fun _ x hx => ⟨x, hx, Nat.le_refl _, fun _ => rfl⟩

theorem LastLe.trans {t' t'' : Teams} (h : t.LastLe t') (h' : t'.LastLe t'') : t.LastLe t'' := by
  intro p x hx
  obtain ⟨y, hy, hle, heq⟩ := h p x hx
  obtain ⟨z, hz, hle', heq'⟩ := h' p y hy
  exact ⟨z, hz, Nat.le_trans hle hle',
    fun hxz => (heq (by omega)).trans (heq' (by omega))⟩

/-- An entry that stays there through a step is the same or newer, and of another team. -/
theorem Ok.index_step (h : t.Ok) (e : Event) {p : Nat} {x y : IndexEntry}
    (hx : t.redis.index p = some x) (hy : (t.step e).redis.index p = some y) :
    x = y ∨ x.tid ≠ y.tid ∧ x.epoch < y.epoch := by
  obtain ⟨-, hredis, -⟩ | ⟨r, hr, heq⟩ := h.step_cases e
  · rw [hredis, hx] at hy
    exact .inl (some.inj hy)
  · rw [heq] at hy
    change r.index p = some y at hy
    have hstep := (hr.index p).resolve_left (by simp [hy])
    rw [hx, hy] at hstep
    cases hstep with
    | keep => exact .inl rfl
    | move x v hv => exact .inr ⟨hv.symm, Nat.lt_succ_self _⟩

theorem LastLe.step (h : t.Ok) {e : Event} (hclock : t.ClockPast e) :
    t.LastLe (t.step e) := by
  obtain ⟨-, -, hlast⟩ | ⟨r, hr, heq⟩ := h.step_cases e
  · intro p x hx
    exact ⟨x, hlast ▸ hx, Nat.le_refl _, fun _ => rfl⟩
  · intro p x hx
    have hindex : (t.step e).redis.index p = r.index p := by rw [heq]; rfl
    have hnew : (t.step e).last p = (r.index p).or (t.last p) := by rw [heq]; rfl
    cases hy : r.index p with
    | none => exact ⟨x, by rw [hnew, hy, hx, none_or], Nat.le_refl _, fun _ => rfl⟩
    | some y =>
      refine ⟨y, by rw [hnew, hy, some_or], ?_⟩
      cases hold : t.redis.index p with
      | none =>
        have hstep := (hr.index p).resolve_left (by simp [hy])
        rw [hold, hy] at hstep
        cases hstep with
        | seed v nowMs hseed =>
          have hlt := Nat.lt_succ_of_le (hclock nowMs hseed p x hold hx)
          exact ⟨Nat.le_of_lt hlt, fun heq => absurd heq (Nat.ne_of_lt hlt)⟩
      | some x' =>
        obtain rfl : x' = x := some.inj ((h.last p x' hold).symm.trans hx)
        rcases h.index_step e hold (hindex.trans hy) with rfl | ⟨-, hlt⟩
        · exact ⟨Nat.le_refl _, fun _ => rfl⟩
        · exact ⟨Nat.le_of_lt hlt, fun heq => absurd heq (Nat.ne_of_lt hlt)⟩

theorem LastLe.run (h : t.Ok) {evs : List Event}
    (hclock : Admits Teams.step ClockPast t evs) :
    t.LastLe (run Teams.step t evs) :=
  (run_invariant_of_admits (I := fun t' => t'.Ok ∧ t.LastLe t')
    (fun _ e hs ha => ⟨hs.1.step e, hs.2.trans (.step hs.1 ha)⟩) ⟨h, .refl t⟩ hclock).2

/-- In every run the entry of a member points to the team that lists it, so nobody is in two
teams. An entry that stays gets a larger epoch with every change of its team, and no smaller one
later on, as long as the clock has reached the epochs of lost entries when new ones start. -/
theorem player_in_one_team (evs : List Event) :
    let t := Machine.run Teams.step start evs
    (∀ tid stored p, t.redis.records tid = some stored → p ∈ memberIds stored.record →
      (t.redis.index p).map (·.tid) = some tid) ∧
    (∀ tid tid' stored stored' p, t.redis.records tid = some stored →
      t.redis.records tid' = some stored' → p ∈ memberIds stored.record →
      p ∈ memberIds stored'.record → tid = tid') ∧
    (∀ e p x y, t.redis.index p = some x → (t.step e).redis.index p = some y →
      x = y ∨ x.tid ≠ y.tid ∧ x.epoch < y.epoch) ∧
    ∀ evs', Machine.Admits Teams.step ClockPast t evs' → ∀ p x y, t.redis.index p = some x →
      (Machine.run Teams.step t evs').redis.index p = some y →
      x.epoch ≤ y.epoch ∧ (x.epoch = y.epoch → x.tid = y.tid) := by
  intro t
  have h : t.Ok := Ok.start.run evs
  refine ⟨fun tid stored p hs hp => h.listed tid stored hs p hp,
    fun tid tid' stored stored' p hs hs' hp hp' => ?_,
    fun e p x y hx hy => h.index_step e hx hy, fun evs' hclock p x y hx hy => ?_⟩
  · have hentry := h.listed tid stored hs p hp
    exact some.inj (hentry.symm.trans (h.listed tid' stored' hs' p hp'))
  · obtain ⟨z, hz, hle⟩ := LastLe.run h hclock p x (h.last p x hx)
    obtain rfl : y = z := some.inj (((h.run evs').last p y hy).symm.trans hz)
    exact hle

/-- Player 1 creates team 100 and disbands it. -/
def createAndDisband : List Event :=
  [.read 1 100 1000,
    .mutate 0 .create ⟨.create, 1, 0, 1, 0, 0, 100, false⟩ (fun _ => .online) false,
    .commit 0 1000,
    .read 1 100 1000,
    .mutate 1 .caller ⟨.disband, 1, 0, 1, 0, 0, 0, false⟩ (fun _ => .online) false,
    .commit 1 1000]

/-- The entry is lost and player 1 creates team 200. -/
def createAgain (nowMs : Nat) : List Event :=
  [.expireIndex 1,
    .read 1 200 nowMs,
    .mutate 2 .create ⟨.create, 1, 0, 1, 0, 0, 200, false⟩ (fun _ => .online) false,
    .commit 2 nowMs]

/-- Two milliseconds later team 200 gets a larger epoch than the entry had before. -/
theorem later_team_gets_later_epoch :
    let t := Machine.run Teams.step start createAndDisband
    t.redis.index 1 = some ⟨0, 1002⟩ ∧
      (Machine.run Teams.step t (createAgain 1002)).redis.index 1 = some ⟨200, 1003⟩ ∧
      1002 ≤ 1003 ∧ (1002 = 1003 → 0 = 200) := by
  intro t
  have hx : t.redis.index 1 = some ⟨0, 1002⟩ := by decide +kernel
  have hy : (Machine.run Teams.step t (createAgain 1002)).redis.index 1 = some ⟨200, 1003⟩ := by
    decide +kernel
  have hclock : Machine.Admits Teams.step ClockPast t (createAgain 1002) := by
    refine ⟨by simp [ClockPast, Event.clock], by simp [ClockPast, Event.clock],
      by simp [ClockPast, Event.clock], ?_, trivial⟩
    intro nowMs hnow p x _ hlast
    cases hnow
    match p with
    | 0 => cases hlast
    | 1 => cases hlast; decide
    | p + 2 => cases hlast
  exact ⟨hx, hy, (player_in_one_team createAndDisband).2.2.2 _ hclock 1 _ _ hx hy⟩

/-- Within one millisecond the epochs repeat: 1001 means team 100 first and then team 200. -/
theorem lost_entry_repeats_epoch :
    let t := Machine.run Teams.step start (createAndDisband.take 3)
    t.redis.index 1 = some ⟨100, 1001⟩ ∧
      (Machine.run Teams.step t (createAndDisband.drop 3 ++ createAgain 1000)).redis.index 1 =
        some ⟨200, 1001⟩ := by
  decide +kernel

end Teams

end Mmorpg.Team
