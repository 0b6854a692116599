import Mathlib.Algebra.Order.Ring.Nat
import Mathlib.Data.List.Sort
import Mmorpg.Lib.KeyedList

/-!
# The rules of a team

The pure part of the team store (rules.go): from the record that was read, the clock and the
sessions of the members, each operation computes a decision: an error, nothing to do, or a change
with the new record and the sets of players that join, stay and leave. The decision is made on a
read that may be stale; `validateCommitSets` checks its sets before it is sent, and the commit
script has the last word.
-/

namespace Mmorpg.Team

structure TeamMemberRecord where
  playerId : Nat
  zoneId : Nat
  joinedAtMs : Nat
  joinSeq : Nat
deriving DecidableEq, Repr

structure TeamApplicationRecord where
  playerId : Nat
  zoneId : Nat
  appliedAtMs : Nat
  expireAtMs : Nat
deriving DecidableEq, Repr

structure TeamInviteRecord where
  inviteeId : Nat
  inviterId : Nat
  zoneId : Nat
  invitedAtMs : Nat
  expireAtMs : Nat
deriving DecidableEq, Repr

structure TeamRecord where
  teamId : Nat
  leaderId : Nat
  zoneId : Nat
  createdAtMs : Nat
  members : List TeamMemberRecord
  applications : List TeamApplicationRecord
  invites : List TeamInviteRecord
  nextJoinSeq : Nat
  matchLockToken : String
  matchLockExpireAtMs : Nat
  matchLockRoster : List Nat
deriving DecidableEq, Repr

def capacity : Nat := 5
def applicationTTLMs : Nat := 120000
def maxApplications : Nat := 10
def inviteTTLMs : Nat := 60000
def maxInvitesPerTeam : Nat := 10

/-- The session of a player as the rules see it; only `absent` counts as offline. -/
inductive SessionState where
  | unknown
  | absent
  | present
  | online
deriving DecidableEq, Repr

abbrev Sessions := Nat → SessionState

inductive OpKind where
  | create
  | refresh
  | apply
  | handleApplication
  | invite
  | respondInvite
  | leave
  | kick
  | transferLeader
  | disband
deriving DecidableEq, Repr

structure Op where
  kind : OpKind
  caller : Nat
  callerTeamId : Nat
  callerZone : Nat
  target : Nat
  targetZone : Nat
  newTeamId : Nat
  accept : Bool
deriving DecidableEq, Repr

inductive TeamError where
  | playerId
  | membersFull
  | memberInTeam
  | memberNotInTeam
  | kickSelf
  | kickNotLeader
  | appointSelf
  | appointNotLeader
  | applicationNotFound
  | noTeam
  | disbandNotLeader
  | notLeader
  | homeZoneUnknown
  | crossZoneDenied
  | inviteNotFound
  | inMatch
  | memberOffline
  | stateChanged
  | internal
deriving DecidableEq, Repr

inductive TeamChangeReason where
  | created
  | memberJoined
  | memberLeft
  | memberKicked
  | leaderTransferred
  | leaderOfflineTransferred
  | disbanded
  | applicationChanged
  | inviteChanged
  | matchStarted
  | matchEnded
  | matchFailed
  | healed
deriving DecidableEq, Repr

structure InviteIndexAdd where
  inviteeId : Nat
  expireAtMs : Nat
deriving DecidableEq, Repr

/-- A decision that has to be committed; without a record the team is dissolved. -/
structure Change where
  record : Option TeamRecord
  joined : List Nat
  kept : List Nat
  left : List Nat
  invitesAdded : List InviteIndexAdd
  invitesRemoved : List Nat
  invitesExpired : List Nat
  expiryOnly : Bool
  reason : TeamChangeReason
  actor : Nat
  leaderOfflineTransferred : Bool
  revokedInvitees : List Nat
  rejectedApplicant : Nat
  invitedPlayer : Nat
deriving DecidableEq, Repr

inductive Decision where
  | reject (code : TeamError) (param : Nat)
  | unchanged
  | change (c : Change)
deriving DecidableEq, Repr

/-! ## Records -/

def matchLockActive (record : TeamRecord) (nowMs : Nat) : Bool :=
  record.matchLockToken ≠ "" &&
    (record.matchLockExpireAtMs = 0 || nowMs < record.matchLockExpireAtMs)

def findMember (record : TeamRecord) (playerId : Nat) : Option TeamMemberRecord :=
  record.members.find? (·.playerId = playerId)

def memberBefore (a b : TeamMemberRecord) : Prop :=
  a.joinSeq < b.joinSeq ∨ a.joinSeq = b.joinSeq ∧ a.playerId ≤ b.playerId

instance : DecidableRel memberBefore := fun a b =>
  inferInstanceAs (Decidable (a.joinSeq < b.joinSeq ∨ a.joinSeq = b.joinSeq ∧
    a.playerId ≤ b.playerId))

/-- `sortMembers`: by `join_seq`. -/
def sortMembers (members : List TeamMemberRecord) : List TeamMemberRecord :=
  members.insertionSort memberBefore

def memberIds (record : TeamRecord) : List Nat := (sortMembers record.members).map (·.playerId)

def findApplication (record : TeamRecord) (playerId : Nat) : Option TeamApplicationRecord :=
  record.applications.find? (·.playerId = playerId)

def removeApplication (record : TeamRecord) (playerId : Nat) : TeamRecord :=
  { record with applications := record.applications.filter (·.playerId ≠ playerId) }

def findInvite (record : TeamRecord) (inviteeId : Nat) : Option TeamInviteRecord :=
  record.invites.find? (·.inviteeId = inviteeId)

def removeInvite (record : TeamRecord) (inviteeId : Nat) : TeamRecord :=
  { record with invites := record.invites.filter (·.inviteeId ≠ inviteeId) }

/-- The place of the oldest entry, the first one of several, without those that are kept. -/
def oldest {α : Type} (older : α → α → Bool) (keep : α → Bool) (entries : List α) : Option Nat :=
  let best := entries.zipIdx.foldl (fun (best : Option (α × Nat)) entry =>
    if keep entry.1 then best
    else if best.all (fun o => older entry.1 o.1) then some entry else best) none
  best.map (·.2)

/-- `evictOldestApplications` and `evictOldestInvites`: drops the oldest entries beyond the limit,
never those that are kept. Each round drops one, so the number of entries bounds the rounds. -/
def evictOldest {α : Type} (limit : Nat) (older : α → α → Bool) (keep : α → Bool) :
    Nat → List α → List α
  | 0, entries => entries
  | rounds + 1, entries =>
    if entries.length > limit then
      match oldest older keep entries with
      | none => entries
      | some i => evictOldest limit older keep rounds (entries.eraseIdx i)
    else entries

def evictOldestApplications (record : TeamRecord) (keep : Nat) : TeamRecord :=
  { record with
    applications := evictOldest maxApplications
      (fun a o => a.appliedAtMs < o.appliedAtMs ||
        (a.appliedAtMs = o.appliedAtMs && a.playerId < o.playerId))
      (·.playerId = keep) record.applications.length record.applications }

def evictOldestInvites (record : TeamRecord) (keep : Nat) : TeamRecord :=
  { record with
    invites := evictOldest maxInvitesPerTeam
      (fun a o => a.invitedAtMs < o.invitedAtMs ||
        (a.invitedAtMs = o.invitedAtMs && a.inviteeId < o.inviteeId))
      (·.inviteeId = keep) record.invites.length record.invites }

/-- `pickLeader`: zero if there is nobody to pick. -/
def pickLeader (candidates : List TeamMemberRecord) (sessions : Sessions) (onlineOnly : Bool) :
    Nat :=
  let sorted := sortMembers candidates
  match sorted.find? (fun m => sessions m.playerId = .online) with
  | some m => m.playerId
  | none => if onlineOnly then 0 else ((sorted.head?).map (·.playerId)).getD 0

/-! ## The context of one operation -/

structure RuleCtx where
  op : Op
  record : TeamRecord
  now : Nat
  sessions : Sessions
  allowCrossZone : Bool
  error : Option (TeamError × Nat)
  appsExpired : Bool
  invitesExpired : Bool
  transferred : Bool
  /-- The reason and the actor, once the operation has changed something. -/
  marked : Option (TeamChangeReason × Nat)
  disbanded : Bool
  revoked : List Nat
  extraLeft : List Nat
  added : List InviteIndexAdd
  rejected : Nat
  invited : Nat

namespace RuleCtx

def pruneExpired (c : RuleCtx) : RuleCtx :=
  { c with
    record := { c.record with
      applications := c.record.applications.filter (·.expireAtMs > c.now)
      invites := c.record.invites.filter (·.expireAtMs > c.now) }
    appsExpired := c.record.applications.any (·.expireAtMs ≤ c.now)
    invitesExpired := c.record.invites.any (·.expireAtMs ≤ c.now) }

def lazyTransferLeader (c : RuleCtx) : RuleCtx :=
  let leader := c.record.leaderId
  if (findMember c.record leader).isNone || c.sessions leader ≠ .absent then c
  else
    let next := pickLeader (c.record.members.filter (·.playerId ≠ leader)) c.sessions true
    if next = 0 then c
    else { c with record := { c.record with leaderId := next }, transferred := true }

def start (op : Op) (record : TeamRecord) (now : Nat) (sessions : Sessions)
    (allowCrossZone : Bool) : RuleCtx :=
  pruneExpired ⟨op, record, now, sessions, allowCrossZone, none, false, false, false, none, false,
    [], [], [], 0, 0⟩

def fail (c : RuleCtx) (code : TeamError) (param : Nat) : RuleCtx :=
  { c with error := c.error.or (some (code, param)) }

def markOp (c : RuleCtx) (reason : TeamChangeReason) (actor : Nat) : RuleCtx :=
  { c with marked := some (reason, actor) }

def isLeader (c : RuleCtx) (playerId : Nat) : Bool :=
  playerId ≠ 0 && c.record.leaderId = playerId

def full (c : RuleCtx) : Bool := c.record.members.length ≥ capacity

def locked (c : RuleCtx) : Bool := matchLockActive c.record c.now

def zoneCheck (c : RuleCtx) (zone : Nat) : Option TeamError :=
  if zone = 0 then some .homeZoneUnknown
  else if !c.allowCrossZone && zone ≠ c.record.zoneId then some .crossZoneDenied
  else none

def dissolve (c : RuleCtx) : RuleCtx :=
  { c with
    disbanded := true
    revoked := c.revoked ++ c.record.invites.map (·.inviteeId)
    record := { c.record with invites := [], applications := [] } }

/-- `addMember`. Join sequence numbers are `uint32`. -/
def addMember (c : RuleCtx) (playerId zone : Nat) : RuleCtx :=
  let seq := c.record.members.foldl
    (fun seq m => if m.joinSeq ≥ seq then (m.joinSeq + 1) % 2 ^ 32 else seq) c.record.nextJoinSeq
  let seq := if seq = 0 then 1 else seq
  let record := { c.record with
    members := sortMembers (c.record.members ++ [⟨playerId, zone, c.now, seq⟩])
    nextJoinSeq := (seq + 1) % 2 ^ 32 }
  { c with record := removeInvite (removeApplication record playerId) playerId }

def removeMember (c : RuleCtx) (playerId : Nat) : RuleCtx :=
  let kept := c.record.members.filter (·.playerId ≠ playerId)
  let c := { c with record := { c.record with members := kept } }
  if kept.isEmpty then c.dissolve
  else if c.record.leaderId = playerId then
    { c with record := { c.record with leaderId := pickLeader kept c.sessions false } }
  else c

def apply (c : RuleCtx) : RuleCtx :=
  let caller := c.op.caller
  if (findMember c.record caller).isSome || c.op.callerTeamId ≠ 0 then c.fail .memberInTeam 0
  else
    match c.zoneCheck c.op.callerZone with
    | some code => c.fail code 0
    | none =>
      if c.full then c.fail .membersFull 0
      else
        let renew (a : TeamApplicationRecord) : TeamApplicationRecord :=
          { a with expireAtMs := c.now + applicationTTLMs, zoneId := c.op.callerZone }
        let record :=
          match KeyedList.modifyFirst (·.playerId) caller renew c.record.applications with
          | some applications => { c.record with applications }
          | none =>
            evictOldestApplications { c.record with
              applications := c.record.applications ++
                [⟨caller, c.op.callerZone, c.now, c.now + applicationTTLMs⟩] } caller
        { c with record }.markOp .applicationChanged caller

def handleApplication (c : RuleCtx) : RuleCtx :=
  let applicant := c.op.target
  if !c.isLeader c.op.caller then c.fail .notLeader 0
  else
    match c.op.accept, findApplication c.record applicant with
    | false, none => c
    | false, some _ =>
      { c with record := removeApplication c.record applicant, rejected := applicant }.markOp
        .applicationChanged applicant
    | true, app =>
      if (findMember c.record applicant).isSome then c
      else
        match app with
        | none => c.fail .applicationNotFound 0
        | some app =>
          if c.locked then c.fail .inMatch 0
          else if c.full then c.fail .membersFull 0
          else
            match c.zoneCheck app.zoneId with
            | some code => c.fail code 0
            | none => (c.addMember applicant app.zoneId).markOp .memberJoined applicant

def invite (c : RuleCtx) : RuleCtx :=
  let target := c.op.target
  if !c.isLeader c.op.caller then c.fail .notLeader 0
  else if target = 0 || target = c.op.caller then c.fail .playerId 0
  else if (findMember c.record target).isSome then c.fail .memberInTeam target
  else
    match c.zoneCheck c.op.targetZone with
    | some code => c.fail code 0
    | none =>
      if c.full then c.fail .membersFull 0
      else
        let expire := c.now + inviteTTLMs
        let renew (i : TeamInviteRecord) : TeamInviteRecord :=
          { i with expireAtMs := expire, inviterId := c.op.caller, zoneId := c.op.targetZone }
        let record :=
          match KeyedList.modifyFirst (·.inviteeId) target renew c.record.invites with
          | some invites => { c.record with invites }
          | none =>
            evictOldestInvites { c.record with
              invites := c.record.invites ++
                [⟨target, c.op.caller, c.op.targetZone, c.now, expire⟩] } target
        let add : InviteIndexAdd := ⟨target, expire⟩
        { c with record, added := c.added ++ [add], invited := target }.markOp
          .inviteChanged target

def respondInvite (c : RuleCtx) : RuleCtx :=
  let caller := c.op.caller
  match c.op.accept, findInvite c.record caller with
  | false, none => c
  | false, some _ =>
    { c with record := removeInvite c.record caller }.markOp .inviteChanged caller
  | true, inv =>
    if (findMember c.record caller).isSome then c
    else
      match inv with
      | none => c.fail .inviteNotFound 0
      | some inv =>
        if c.locked then c.fail .inMatch 0
        else if c.op.callerTeamId ≠ 0 && c.op.callerTeamId ≠ c.record.teamId then
          c.fail .memberInTeam 0
        else if c.full then c.fail .membersFull 0
        else
          match c.zoneCheck inv.zoneId with
          | some code => c.fail code 0
          | none => (c.addMember caller inv.zoneId).markOp .memberJoined caller

def leave (c : RuleCtx) : RuleCtx :=
  let caller := c.op.caller
  if (findMember c.record caller).isNone then
    -- the index points here but the record does not list the caller: only the index is cleared
    if c.op.callerTeamId = c.record.teamId then
      { c with extraLeft := c.extraLeft ++ [caller] }.markOp .memberLeft caller
    else c
  else if c.locked then c.fail .inMatch 0
  else (c.removeMember caller).markOp .memberLeft caller

def kick (c : RuleCtx) : RuleCtx :=
  let target := c.op.target
  if !c.isLeader c.op.caller then c.fail .kickNotLeader 0
  else if target = c.op.caller then c.fail .kickSelf 0
  else if (findMember c.record target).isNone then c.fail .memberNotInTeam target
  else if c.locked then c.fail .inMatch 0
  else (c.removeMember target).markOp .memberKicked target

def transferLeader (c : RuleCtx) : RuleCtx :=
  let target := c.op.target
  if target = 0 then c.fail .playerId 0
  else if target = c.op.caller then c.fail .appointSelf 0
  else if c.isLeader target then c
  else if !c.isLeader c.op.caller then c.fail .appointNotLeader 0
  else if (findMember c.record target).isNone then c.fail .memberNotInTeam target
  else if c.sessions target ≠ .online then c.fail .memberOffline target
  else if c.locked then c.fail .inMatch 0
  else { c with record := { c.record with leaderId := target } }.markOp .leaderTransferred target

def disband (c : RuleCtx) : RuleCtx :=
  if !c.isLeader c.op.caller then c.fail .disbandNotLeader 0
  else if c.locked then c.fail .inMatch 0
  else
    ({ c with record := { c.record with members := [] } }.dissolve).markOp .disbanded c.op.caller

/-- The reason and the actor of a change, if there is one. -/
def changeReason (c : RuleCtx) : Option (TeamChangeReason × Nat) :=
  match c.marked with
  | some marked => some marked
  | none =>
    if c.transferred then some (.leaderOfflineTransferred, c.record.leaderId)
    else if c.appsExpired then some (.applicationChanged, 0)
    else if c.invitesExpired then some (.inviteChanged, 0)
    else none

/-- The invitees of the old record whose invitation is gone and was not renewed. -/
def invitesRemoved (c : RuleCtx) (orig : TeamRecord) : List Nat :=
  ((orig.invites.map (·.inviteeId)).filter fun id =>
    !(c.record.invites.any (·.inviteeId = id)) && !(c.added.any (·.inviteeId = id))).eraseDups

/-- `finish`: the differences between the record that was read and the new one. -/
def finish (c : RuleCtx) (orig : TeamRecord) : Decision :=
  match c.error with
  | some (code, param) => .reject code param
  | none =>
    match c.changeReason with
    | none => .unchanged
    | some (reason, actor) =>
      let record := { c.record with
        members := if c.disbanded then c.record.members else sortMembers c.record.members }
      let newMembers := if c.disbanded then [] else memberIds record
      let removed := c.invitesRemoved orig
      .change {
        record := if c.disbanded then none else some record
        joined := (memberIds record).filter (· ∉ memberIds orig)
        kept := (memberIds record).filter (· ∈ memberIds orig)
        left := (memberIds orig).filter (· ∉ newMembers) ++
          c.extraLeft.filter fun id => id ∉ newMembers && id ∉ memberIds orig
        invitesAdded := c.added
        invitesRemoved := removed
        invitesExpired := removed.filter fun id =>
          !(orig.invites.any fun i => i.inviteeId = id && i.expireAtMs > c.now)
        expiryOnly := c.marked.isNone && !c.transferred
        reason := reason
        actor := actor
        leaderOfflineTransferred := c.transferred
        revokedInvitees := if c.disbanded then c.revoked else []
        rejectedApplicant := c.rejected
        invitedPlayer := c.invited }

end RuleCtx

/-! ## Decisions -/

def applyCreate (op : Op) (record : Option TeamRecord) (nowMs : Nat) : Decision :=
  if record.isSome || op.newTeamId = 0 || op.caller = 0 then .reject .internal 0
  else if op.callerZone = 0 then .reject .homeZoneUnknown 0
  else if op.callerTeamId ≠ 0 then .reject .memberInTeam 0
  else
    .change {
      record := some ⟨op.newTeamId, op.caller, op.callerZone, nowMs,
        [⟨op.caller, op.callerZone, nowMs, 1⟩], [], [], 2, "", 0, []⟩
      joined := [op.caller]
      kept := []
      left := []
      invitesAdded := []
      invitesRemoved := []
      invitesExpired := []
      expiryOnly := false
      reason := .created
      actor := op.caller
      leaderOfflineTransferred := false
      revokedInvitees := []
      rejectedApplicant := 0
      invitedPlayer := 0 }

/-- `Apply`. -/
def applyOp (op : Op) (record : Option TeamRecord) (nowMs : Nat) (sessions : Sessions)
    (allowCrossZone : Bool) : Decision :=
  if op.kind = .create then applyCreate op record nowMs
  else
    match record with
    | none => .reject .noTeam 0
    | some record =>
      let c := (RuleCtx.start op record nowMs sessions allowCrossZone).lazyTransferLeader
      let c := match op.kind with
        | .create => c
        | .refresh => c
        | .apply => c.apply
        | .handleApplication => c.handleApplication
        | .invite => c.invite
        | .respondInvite => c.respondInvite
        | .leave => c.leave
        | .kick => c.kick
        | .transferLeader => c.transferLeader
        | .disband => c.disband
      c.finish record

def Op.none : Op := ⟨.refresh, 0, 0, 0, 0, 0, 0, false⟩

/-- `RepairRemoveMembers`: takes out members whose index points to another team. -/
def repairRemoveMembers (record : Option TeamRecord) (playerIds : List Nat) (nowMs : Nat)
    (sessions : Sessions) : Decision :=
  match record with
  | none => .reject .noTeam 0
  | some record =>
    let c := (RuleCtx.start .none record nowMs sessions false).lazyTransferLeader
    let (c, actor) := playerIds.foldl (fun (c, actor) pid =>
      if pid = 0 || (findMember c.record pid).isNone then (c, actor)
      else
        let c : RuleCtx := c.removeMember pid
        let roster := c.record.matchLockRoster.filter (· ≠ pid)
        ({ c with record := { c.record with matchLockRoster := roster } },
          if actor = 0 then pid else actor)) (c, 0)
    (if actor ≠ 0 then c.markOp .healed actor else c).finish record

def checkMatchStart (record : TeamRecord) (caller nowMs : Nat) : Option TeamError :=
  if caller = 0 || record.leaderId ≠ caller then some .notLeader
  else if matchLockActive record nowMs then some .inMatch
  else none

/-- `LockMatch`. The roster has to be the members, each as often. -/
def lockMatch (record : TeamRecord) (caller : Nat) (token : String) (roster : List Nat)
    (expireAtMs nowMs : Nat) : Decision :=
  match checkMatchStart record caller nowMs with
  | some code => .reject code 0
  | none =>
    if token = "" || expireAtMs ≤ nowMs then .reject .internal 0
    else if !roster.isPerm (memberIds record) then .reject .stateChanged 0
    else
      let c := RuleCtx.start { Op.none with caller } record nowMs (fun _ => .unknown) false
      let c := { c with record := { c.record with
        matchLockToken := token
        matchLockExpireAtMs := expireAtMs
        matchLockRoster := roster } }
      (c.markOp .matchStarted caller).finish record

def releaseMatchLock (record : TeamRecord) (token : String) (ok : Bool) (nowMs : Nat)
    (sessions : Sessions) : Decision :=
  if token = "" || record.matchLockToken ≠ token || !matchLockActive record nowMs then .unchanged
  else
    let c := (RuleCtx.start .none record nowMs sessions false).lazyTransferLeader
    let c := { c with record := { c.record with
      matchLockToken := ""
      matchLockExpireAtMs := 0
      matchLockRoster := [] } }
    (c.markOp (if ok then .matchEnded else .matchFailed) 0).finish record

def validateCommitSets (teamId : Nat) (c : Change) : Bool :=
  let people := c.joined ++ c.kept ++ c.left
  let added := c.invitesAdded.map (·.inviteeId)
  teamId ≠ 0 && !people.contains 0 && decide people.Nodup &&
    (match c.record with
    | none => (c.joined ++ c.kept).isEmpty
    | some record => record.teamId = teamId && (memberIds record).isPerm (c.joined ++ c.kept) &&
        (findMember record record.leaderId).isSome && record.members.length ≤ capacity) &&
    !added.contains 0 && decide added.Nodup &&
    c.invitesRemoved.all (fun id => id ≠ 0 && !added.contains id) && decide c.invitesRemoved.Nodup

end Mmorpg.Team
