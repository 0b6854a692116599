import Mathlib.Data.Finset.Card
import Mathlib.Data.List.AList
import Mathlib.Data.List.Sort
import Mathlib.Data.List.Nodup
import Mmorpg.Lib.Run

/-!
# The result of a battle is sent after its settlements are staged

When a battle ends, its result is frozen together with the settlement of every member
(`FreezeBattleSettlementSource`, result_commit.h). The node then stages the settlements in rounds
(`ResultCommit`): a round writes every member that has no conclusion yet, its replies are counted by
a tally of its own (`StagingRoundTally`), and the last reply hands the settled members over. Only
when no member is left may the result be sent.

Replies come late, twice or from earlier rounds. `Ok` says why that is harmless: all rounds but the
last are complete, and a complete round counts nothing any more.
-/

namespace Mmorpg.Battle

open List Machine

abbrev PlayerId := Nat

/-! ## Freezing the source -/

/-- `eBattleOutcome`; a number that the enumeration does not have is kept as it came. -/
inductive BattleOutcome where
  | ongoing
  | sideAWin
  | sideBWin
  | draw
  | unknown (number : Nat)
deriving DecidableEq, Repr

def BattleOutcome.isValid : BattleOutcome → Bool
  | .unknown _ => false
  | _ => true

/-- `BattleSettlementData`; `gains` are the values that the scene applies. -/
structure BattleSettlementData (α : Type) where
  battleId : Nat
  playerId : PlayerId
  outcome : BattleOutcome
  playerTeamIndex : Nat
  totalRounds : Nat
  gains : α
deriving DecidableEq, Repr

structure BattleResultTeam where
  teamIndex : Nat
  playerIds : List PlayerId
deriving DecidableEq, Repr

structure BattleResultEvent (α : Type) where
  battleId : Nat
  outcome : BattleOutcome
  teams : List BattleResultTeam
  totalRounds : Nat
  settlements : List (BattleSettlementData α)
  settlementFormatVersion : Nat
deriving DecidableEq, Repr

abbrev Bytes := List UInt8

/-- `kMaxCompleteResultBytes` -/
def maxCompleteResultBytes : Nat := 960 * 1024

abbrev Members := AList fun _ : PlayerId => Nat

def addPlayers (teamIndex : Nat) : List PlayerId → Members → Option Members
  | [], members => some members
  | playerId :: playerIds, members =>
    if playerId = 0 || playerId ∈ members then none
    else addPlayers teamIndex playerIds (members.insert playerId teamIndex)

def addTeams : List BattleResultTeam → List Nat → Members → Option Members
  | [], _, members => some members
  | team :: teams, seen, members =>
    if team.playerIds = [] || team.teamIndex ∈ seen then none
    else
      match addPlayers team.teamIndex team.playerIds members with
      | none => none
      | some members => addTeams teams (team.teamIndex :: seen) members

section Freeze

variable {α : Type}

def checkSettlements (event : BattleResultEvent α) (members : Members) :
    PlayerId → List (BattleSettlementData α) → Bool
  | _, [] => true
  | previous, settlement :: settlements =>
    match members.lookup settlement.playerId with
    | none => false
    | some teamIndex =>
      if settlement.playerId = previous || teamIndex ≠ settlement.playerTeamIndex ||
          settlement.totalRounds ≠ event.totalRounds ||
          (settlement.battleId ≠ 0 && settlement.battleId ≠ event.battleId) then false
      else checkSettlements event members settlement.playerId settlements

def stamp (event : BattleResultEvent α) (settlement : BattleSettlementData α) :
    BattleSettlementData α :=
  { settlement with battleId := event.battleId, outcome := event.outcome }

/-- `FreezeBattleSettlementSource`: the frozen event, or none if the event is refused. -/
def freezeBattleSettlementSource (byteSize : BattleResultEvent α → Nat)
    (event : BattleResultEvent α) (settlements : List (BattleSettlementData α)) :
    Option (BattleResultEvent α) :=
  if event.battleId = 0 || !event.outcome.isValid || event.outcome = .ongoing ||
      settlements.isEmpty || event.settlementFormatVersion ≠ 0 ||
      !event.settlements.isEmpty then none
  else
    match addTeams event.teams [] ∅ with
    | none => none
    | some members =>
      if members.keys.length ≠ settlements.length then none
      else
        let sorted := settlements.insertionSort (fun a b => a.playerId ≤ b.playerId)
        if !checkSettlements event members 0 sorted then none
        else
          let frozen := { event with
            settlements := event.settlements ++ sorted.map (stamp event)
            settlementFormatVersion := 1 }
          if byteSize frozen > maxCompleteResultBytes then none else some frozen

def BattleResultEvent.players (event : BattleResultEvent α) : List PlayerId :=
  event.teams.flatMap (·.playerIds)

theorem addPlayers_spec {teamIndex : Nat} (playerIds : List PlayerId) :
    ∀ {members members' : Members}, addPlayers teamIndex playerIds members = some members' →
      members'.keys.Perm (playerIds ++ members.keys) := by
  induction playerIds with
  | nil =>
    intro members members' h
    cases h
    exact .refl _
  | cons playerId playerIds ih =>
    intro members members' h
    unfold addPlayers at h
    split at h
    · cases h
    rename_i hcheck
    simp only [Bool.or_eq_true, decide_eq_true_eq, not_or] at hcheck
    refine (ih h).trans ?_
    rw [AList.keys_insert, erase_of_not_mem hcheck.2]
    exact perm_middle

theorem addTeams_spec (teams : List BattleResultTeam) :
    ∀ {seen : List Nat} {members members' : Members}, addTeams teams seen members = some members' →
      members'.keys.Perm (teams.flatMap (·.playerIds) ++ members.keys) := by
  induction teams with
  | nil =>
    intro seen members members' h
    cases h
    exact .refl _
  | cons team teams ih =>
    intro seen members members' h
    unfold addTeams at h
    split at h
    · cases h
    split at h
    · cases h
    rename_i members'' hplayers
    have hperm := addPlayers_spec _ hplayers
    refine (ih h).trans ?_
    rw [flatMap_cons, append_assoc]
    refine ((hperm.append_left _).trans ?_)
    rw [← append_assoc, ← append_assoc]
    exact (perm_append_comm).append_right _

variable {event committed : BattleResultEvent α} {serialize : BattleSettlementData α → Option Bytes}

variable (settlements : List (BattleSettlementData α))

/-- Checked settlements in order are of different members. -/
theorem checkSettlements_spec {members : Members} :
    ∀ {previous : PlayerId}, (∀ s ∈ settlements, previous ≤ s.playerId) →
      settlements.Pairwise (fun a b => a.playerId ≤ b.playerId) →
      checkSettlements event members previous settlements = true →
      (∀ s ∈ settlements, s.playerId ∈ members ∧ previous < s.playerId) ∧
      (settlements.map (·.playerId)).Nodup := by
  induction settlements with
  | nil => exact fun _ _ _ => ⟨fun _ h => absurd h not_mem_nil, nodup_nil⟩
  | cons settlement settlements ih =>
    intro previous hle hsorted hcheck
    obtain ⟨hfirst, hrest⟩ := pairwise_cons.1 hsorted
    unfold checkSettlements at hcheck
    split at hcheck
    · cases hcheck
    rename_i teamIndex hlookup
    split at hcheck
    · cases hcheck
    rename_i hfields
    simp only [Bool.or_eq_true, decide_eq_true_eq, not_or] at hfields
    have hlt : previous < settlement.playerId :=
      Nat.lt_of_le_of_ne (hle _ mem_cons_self) fun heq => hfields.1.1.1 heq.symm
    have hmem : settlement.playerId ∈ members := AList.lookup_isSome.1 (hlookup ▸ rfl)
    obtain ⟨hall, hnodup⟩ := ih hfirst hrest hcheck
    refine ⟨fun s hs => ?_, ?_⟩
    · rcases mem_cons.1 hs with rfl | hs
      · exact ⟨hmem, hlt⟩
      · exact ⟨(hall s hs).1, Nat.lt_trans hlt (hall s hs).2⟩
    · rw [map_cons, nodup_cons]
      refine ⟨fun hin => ?_, hnodup⟩
      obtain ⟨s, hs, heq⟩ := mem_map.1 hin
      exact Nat.ne_of_gt (hall s hs).2 heq

/-- What a frozen event is: one settlement of each member, stamped with the battle. -/
structure Frozen (event : BattleResultEvent α) (settlements : List (BattleSettlementData α))
    (frozen : BattleResultEvent α) : Prop where
  players : (frozen.settlements.map (·.playerId)).Perm event.players
  nodup : event.players.Nodup
  stamped : frozen.settlements.Perm (settlements.map (stamp event))
  teams : frozen.teams = event.teams
  battleId : frozen.battleId = event.battleId
  outcome : frozen.outcome = event.outcome
  version : frozen.settlementFormatVersion = 1

/-- **Freezing yields one settlement for each member, or nothing.** -/
theorem freeze_spec {byteSize : BattleResultEvent α → Nat} {frozen : BattleResultEvent α}
    {settlements : List (BattleSettlementData α)}
    (h : freezeBattleSettlementSource byteSize event settlements = some frozen) :
    Frozen event settlements frozen := by
  unfold freezeBattleSettlementSource at h
  split at h
  · cases h
  rename_i hheader
  split at h
  · cases h
  rename_i members hmembers
  split at h
  · cases h
  rename_i hlen
  dsimp only at h
  split at h
  · cases h
  rename_i hcheck
  split at h
  · cases h
  cases h
  have hempty : event.settlements = [] := by
    simp only [Bool.or_eq_true, Bool.not_eq_true', not_or, Bool.not_eq_false,
      List.isEmpty_iff] at hheader
    exact hheader.2
  have hkeys : members.keys.Perm event.players := by
    have hperm := addTeams_spec event.teams hmembers
    rwa [show (∅ : Members).keys = [] from rfl, List.append_nil] at hperm
  have hsort : (settlements.insertionSort fun a b => a.playerId ≤ b.playerId).Perm settlements :=
    perm_insertionSort _ _
  have : Std.Total fun a b : BattleSettlementData α => a.playerId ≤ b.playerId :=
    ⟨fun a b => Nat.le_total _ _⟩
  have : IsTrans (BattleSettlementData α) fun a b => a.playerId ≤ b.playerId :=
    ⟨fun a b c hab hbc => Nat.le_trans hab hbc⟩
  obtain ⟨hall, hnodup⟩ := checkSettlements_spec _ (fun _ _ => Nat.zero_le _)
    (pairwise_insertionSort _ _) (Bool.not_eq_false _ |>.mp (by simpa using hcheck))
  have hids : ((settlements.insertionSort fun a b => a.playerId ≤ b.playerId).map
      (·.playerId)).Perm members.keys := by
    refine (subperm_of_subset hnodup fun playerId hmem => ?_).perm_of_length_le ?_
    · obtain ⟨s, hs, rfl⟩ := mem_map.1 hmem
      exact (hall s hs).1
    · rw [length_map, hsort.length_eq]
      exact Nat.le_of_eq (not_not.1 hlen)
  refine ⟨?_, hkeys.nodup_iff.1 members.keys_nodup, ?_, rfl, rfl, rfl, rfl⟩
  · rw [hempty, nil_append, map_map]
    exact hids.trans hkeys
  · rw [hempty, nil_append]
    exact hsort.map _

/-! ## Personal payloads -/

def addPayloads (serialize : BattleSettlementData α → Option Bytes)
    (committed : BattleResultEvent α) :
    List (BattleSettlementData α) → (AList fun _ : PlayerId => Bytes) →
      Option (AList fun _ : PlayerId => Bytes)
  | [], payloads => some payloads
  | settlement :: settlements, payloads =>
    if settlement.playerId = 0 || settlement.battleId ≠ committed.battleId ||
        settlement.outcome ≠ committed.outcome then none
    else
      match serialize settlement with
      | none => none
      | some payload =>
        if settlement.playerId ∈ payloads then none
        else
          addPayloads serialize committed settlements (payloads.insert settlement.playerId payload)

def buildPersonalSettlementPayloads (serialize : BattleSettlementData α → Option Bytes)
    (committed : BattleResultEvent α) : Option (AList fun _ : PlayerId => Bytes) :=
  if committed.settlementFormatVersion ≠ 1 || committed.settlements.isEmpty then none
  else addPayloads serialize committed committed.settlements ∅

theorem addPayloads_spec :
    ∀ {payloads payloads' : AList fun _ : PlayerId => Bytes},
      addPayloads serialize committed settlements payloads = some payloads' →
      payloads'.keys.Perm (settlements.map (·.playerId) ++ payloads.keys) := by
  induction settlements with
  | nil =>
    intro payloads payloads' h
    cases h
    exact .refl _
  | cons settlement settlements ih =>
    intro payloads payloads' h
    unfold addPayloads at h
    split at h
    · cases h
    split at h
    · cases h
    split at h
    · cases h
    rename_i hnew
    refine (ih h).trans ?_
    rw [AList.keys_insert, erase_of_not_mem hnew]
    exact perm_middle

theorem build_spec {payloads : AList fun _ : PlayerId => Bytes}
    (h : buildPersonalSettlementPayloads serialize committed = some payloads) :
    payloads.keys.Perm (committed.settlements.map (·.playerId)) := by
  unfold buildPersonalSettlementPayloads at h
  split at h
  · cases h
  · have hperm := addPayloads_spec _ h
    rwa [show (∅ : AList fun _ : PlayerId => Bytes).keys = [] from rfl, append_nil] at hperm

end Freeze

/-! ## Committing the result -/

/-- Points of the steady clock, in nanoseconds. -/
abbrev TimePoint := Int

def seconds (n : Nat) : Int := n * 1000000000

/-- `kFastStagingRounds` -/
def fastStagingRounds : Nat := 24

/-- `kSlowStagingRetryInterval`: five minutes. -/
def slowStagingRetryInterval : Int := seconds 300

/-- `kMaxStagingSpan`: six hours. -/
def maxStagingSpan : Int := seconds 21600

def uint32Max : Nat := 4294967295

def uint64Range : Nat := 18446744073709551616

def saturatingSucc (n : Nat) : Nat := if n ≠ uint32Max then n + 1 else n

structure ResultCommit where
  payload : Bytes
  inFlight : Nat
  failures : Nat
  confirmed : Bool
  retryAt : TimePoint
  staged : Bool
  unstaged : Finset PlayerId
  stagingExhausted : Bool
  stagingAttempt : Nat
  stagingSeq : Nat
  stagingFailures : Nat
  stagingRetryAt : TimePoint
  stagingStartedAt : Option TimePoint
deriving DecidableEq

namespace ResultCommit

def new (payload : Bytes) (stagingMembers : Finset PlayerId) : ResultCommit :=
  ⟨payload, 0, 0, false, 0, false, stagingMembers, false, 0, 0, 0, 0, none⟩

def backoffAfter (failures : Nat) : Int := seconds (min (1 <<< min failures 5) 30)

def stagingRetryDelayAfter (failedRounds : Nat) : Int :=
  if failedRounds < fastStagingRounds then backoffAfter (failedRounds - 1)
  else slowStagingRetryInterval

def anchorStagingSpan (c : ResultCommit) (now : TimePoint) : ResultCommit :=
  if c.stagingStartedAt.isNone then { c with stagingStartedAt := some now } else c

def stagingSpanReached (c : ResultCommit) (now : TimePoint) : Bool :=
  c.stagingStartedAt.any fun startedAt => now - startedAt ≥ maxStagingSpan

def exhaustStagingIfOverdue (c : ResultCommit) (now : TimePoint) : Bool × ResultCommit :=
  let c := c.anchorStagingSpan now
  if c.staged || c.stagingExhausted || c.stagingAttempt ≠ 0 || !c.stagingSpanReached now then
    (false, c)
  else (true, { c with stagingExhausted := true })

/-- The number of the round, zero if none is opened. -/
def beginStaging (c : ResultCommit) (now : TimePoint) : Nat × ResultCommit :=
  let c := c.anchorStagingSpan now
  if c.staged || c.stagingExhausted || c.unstaged = ∅ || c.stagingAttempt ≠ 0 ||
      now < c.stagingRetryAt || c.stagingSpanReached now then (0, c)
  else
    let seq := (c.stagingSeq + 1) % uint64Range
    (seq, { c with stagingSeq := seq, stagingAttempt := seq })

def finishStaging (c : ResultCommit) (attempt : Nat) (settledMembers : Finset PlayerId)
    (now : TimePoint) : Bool × ResultCommit :=
  if attempt = 0 || attempt ≠ c.stagingAttempt || c.staged then (false, c)
  else
    let c := { c with stagingAttempt := 0, unstaged := c.unstaged \ settledMembers }
    if c.unstaged = ∅ then (true, { c with staged := true })
    else
      let failures := saturatingSucc c.stagingFailures
      (false, { c with
        stagingFailures := failures, stagingRetryAt := now + stagingRetryDelayAfter failures })

def canSend (c : ResultCommit) (now : TimePoint) : Bool :=
  c.staged && !c.confirmed && c.inFlight = 0 && now ≥ c.retryAt

/-- `Begin` -/
def beginSend (c : ResultCommit) (correlation : Nat) (now : TimePoint) : Bool × ResultCommit :=
  if correlation = 0 || !c.canSend now then (false, c)
  else (true, { c with inFlight := correlation })

def deliver (c : ResultCommit) (correlation : Nat) (allAcknowledged : Bool) (now : TimePoint) :
    Bool × ResultCommit :=
  if correlation = 0 || correlation ≠ c.inFlight || c.confirmed then (false, c)
  else
    let c := { c with inFlight := 0 }
    if allAcknowledged then (true, { c with confirmed := true })
    else
      let delay := backoffAfter c.failures
      (false, { c with failures := saturatingSucc c.failures, retryAt := now + delay })

end ResultCommit

structure StagingRoundTally where
  members : Finset PlayerId
  replied : Finset PlayerId
  settled : Finset PlayerId
deriving DecidableEq

namespace StagingRoundTally

def new (members : Finset PlayerId) : StagingRoundTally := ⟨members, ∅, ∅⟩

def counts (t : StagingRoundTally) (member : PlayerId) : Bool :=
  member ∈ t.members && member ∉ t.replied

/-- Whether this was the last reply of the round. -/
def record (t : StagingRoundTally) (member : PlayerId) (settled : Bool) :
    Bool × StagingRoundTally :=
  if !t.counts member then (false, t)
  else
    let t := { t with
      replied := insert member t.replied
      settled := if settled then insert member t.settled else t.settled }
    (t.replied.card = t.members.card, t)

end StagingRoundTally

/-- `BeginResultCommit`: the members to stage are those with a payload. A result that cannot be
written, or whose payloads are not those of the room's players, gets a commit without members. -/
def beginResultCommit {α : Type} (serializeResult : BattleResultEvent α → Option Bytes)
    (serialize : BattleSettlementData α → Option Bytes) (pendingResult : BattleResultEvent α)
    (players : Finset PlayerId) : ResultCommit :=
  if pendingResult.settlementFormatVersion ≠ 1 then .new [] ∅
  else
    match serializeResult pendingResult,
        buildPersonalSettlementPayloads serialize pendingResult with
    | some payload, some payloads =>
      if payloads.keys.length = players.card && decide (∀ playerId ∈ players, playerId ∈ payloads)
      then .new payload payloads.keys.toFinset
      else .new [] ∅
    | _, _ => .new [] ∅

/-! ## Rounds and replies -/

structure Round where
  attempt : Nat
  tally : StagingRoundTally
deriving DecidableEq

/-- The commit with all rounds so far, whose replies may still come. `counted` are the replies that
a tally has counted, with the number of the round in the list. -/
structure Staging where
  commit : ResultCommit
  rounds : List Round
  counted : List (Nat × PlayerId × Bool)
deriving DecidableEq

namespace Staging

inductive Event where
  | exhaust (now : TimePoint)
  | openRound (now : TimePoint)
  | reply (round : Nat) (member : PlayerId) (settled : Bool) (now : TimePoint)
  | send (correlation : Nat) (now : TimePoint)
  | deliver (correlation : Nat) (allAcknowledged : Bool) (now : TimePoint)
deriving DecidableEq, Repr

def start (payload : Bytes) (stagingMembers : Finset PlayerId) : Staging :=
  ⟨.new payload stagingMembers, [], []⟩

/-- `StagePersonalSettlements`: a round that was opened gets its tally. -/
def openRound (s : Staging) (now : TimePoint) : Staging :=
  let (attempt, commit) := s.commit.beginStaging now
  if attempt = 0 then { s with commit := commit }
  else
    { s with commit := commit, rounds := s.rounds ++ [⟨attempt, .new commit.unstaged⟩] }

/-- The callback of a member's write: the last reply of a round finishes it. -/
def onReply (s : Staging) (i : Nat) (member : PlayerId) (settled : Bool) (now : TimePoint) :
    Staging :=
  match s.rounds[i]? with
  | none => s
  | some round =>
    let (complete, tally) := round.tally.record member settled
    let s := { s with
      rounds := s.rounds.set i ⟨round.attempt, tally⟩
      counted := if round.tally.counts member then s.counted ++ [(i, member, settled)]
        else s.counted }
    if complete then
      { s with commit := (s.commit.finishStaging round.attempt tally.settled now).2 }
    else s

def step (s : Staging) : Event → Staging
  | .exhaust now => { s with commit := (s.commit.exhaustStagingIfOverdue now).2 }
  | .openRound now => s.openRound now
  | .reply round member settled now => s.onReply round member settled now
  | .send correlation now => { s with commit := (s.commit.beginSend correlation now).2 }
  | .deliver correlation allAcknowledged now =>
    { s with commit := (s.commit.deliver correlation allAcknowledged now).2 }

end Staging

/-! ## What the operations do to the staging -/

namespace ResultCommit

variable {c : ResultCommit} {now : TimePoint}

structure SameStaging (c c' : ResultCommit) : Prop where
  staged : c'.staged = c.staged
  unstaged : c'.unstaged = c.unstaged
  attempt : c'.stagingAttempt = c.stagingAttempt

structure SameSending (c c' : ResultCommit) : Prop where
  confirmed : c'.confirmed = c.confirmed
  inFlight : c'.inFlight = c.inFlight
  retryAt : c'.retryAt = c.retryAt

section

variable (c : ResultCommit)

theorem anchorStagingSpan_same (now : TimePoint) :
    SameStaging c (c.anchorStagingSpan now) ∧ SameSending c (c.anchorStagingSpan now) := by
  unfold anchorStagingSpan
  split <;> exact ⟨⟨rfl, rfl, rfl⟩, ⟨rfl, rfl, rfl⟩⟩

theorem exhaustStagingIfOverdue_same (now : TimePoint) :
    SameStaging c (c.exhaustStagingIfOverdue now).2 ∧
    SameSending c (c.exhaustStagingIfOverdue now).2 := by
  obtain ⟨hstaging, hsending⟩ := c.anchorStagingSpan_same now
  unfold exhaustStagingIfOverdue
  dsimp only
  split
  · exact ⟨hstaging, hsending⟩
  · exact ⟨⟨hstaging.staged, hstaging.unstaged, hstaging.attempt⟩,
      ⟨hsending.confirmed, hsending.inFlight, hsending.retryAt⟩⟩

theorem beginSend_same (correlation : Nat) (now : TimePoint) :
    SameStaging c (c.beginSend correlation now).2 := by
  unfold beginSend
  split <;> exact ⟨rfl, rfl, rfl⟩

theorem deliver_same (correlation : Nat) (acked : Bool) (now : TimePoint) :
    SameStaging c (c.deliver correlation acked now).2 := by
  unfold deliver
  split
  · exact ⟨rfl, rfl, rfl⟩
  · dsimp only
    split <;> exact ⟨rfl, rfl, rfl⟩

/-- A round is opened only when none is open and some member is left. -/
theorem beginStaging_cases (now : TimePoint) :
    ((c.beginStaging now).1 = 0 ∧ SameStaging c (c.beginStaging now).2) ∨
    ((c.beginStaging now).1 ≠ 0 ∧ c.stagingAttempt = 0 ∧ c.staged = false ∧ c.unstaged ≠ ∅ ∧
      (c.beginStaging now).2.staged = false ∧ (c.beginStaging now).2.unstaged = c.unstaged ∧
      (c.beginStaging now).2.stagingAttempt = (c.beginStaging now).1) := by
  obtain ⟨hstaging, -⟩ := c.anchorStagingSpan_same now
  unfold beginStaging
  dsimp only
  split
  · exact .inl ⟨rfl, hstaging⟩
  rename_i hguard
  simp only [Bool.or_eq_true, decide_eq_true_eq, not_or, hstaging.staged, hstaging.unstaged,
    hstaging.attempt, ne_eq, not_not] at hguard
  obtain ⟨⟨⟨⟨⟨hstaged, -⟩, hleft⟩, hattempt⟩, -⟩, -⟩ := hguard
  rw [Bool.not_eq_true] at hstaged
  by_cases hseq : ((c.anchorStagingSpan now).stagingSeq + 1) % uint64Range = 0
  · exact .inl ⟨hseq, hstaging.staged, hstaging.unstaged, hseq.trans hattempt.symm⟩
  · exact .inr ⟨hseq, hattempt, hstaged, hleft, hstaging.staged.trans hstaged, hstaging.unstaged,
      rfl⟩

theorem beginStaging_sending (now : TimePoint) : SameSending c (c.beginStaging now).2 := by
  obtain ⟨-, hsending⟩ := c.anchorStagingSpan_same now
  unfold beginStaging
  dsimp only
  split
  · exact hsending
  · exact ⟨hsending.confirmed, hsending.inFlight, hsending.retryAt⟩

end

/-- The open round takes the settled members off the list. -/
theorem finishStaging_open {attempt : Nat} (hzero : attempt ≠ 0) (heq : c.stagingAttempt = attempt)
    (hstaged : c.staged = false) (settled : Finset PlayerId) (now : TimePoint) :
    (c.finishStaging attempt settled now).2.unstaged = c.unstaged \ settled ∧
    (c.finishStaging attempt settled now).2.staged = decide (c.unstaged \ settled = ∅) ∧
    (c.finishStaging attempt settled now).2.stagingAttempt = 0 := by
  unfold finishStaging
  rw [if_neg (by simp [hzero, heq, hstaged])]
  dsimp only
  split
  next hempty =>
    exact ⟨rfl, (decide_eq_true hempty).symm, rfl⟩
  next hleft =>
    exact ⟨rfl, hstaged.trans (decide_eq_false hleft).symm, rfl⟩

theorem finishStaging_sending (c : ResultCommit) (attempt : Nat) (settled : Finset PlayerId)
    (now : TimePoint) : SameSending c (c.finishStaging attempt settled now).2 := by
  unfold finishStaging
  split
  · exact ⟨rfl, rfl, rfl⟩
  · dsimp only
    split <;> exact ⟨rfl, rfl, rfl⟩

theorem finishStaging_staged (h : c.staged = true) (attempt : Nat) (settled : Finset PlayerId)
    (now : TimePoint) : c.finishStaging attempt settled now = (false, c) := by
  unfold finishStaging
  rw [if_pos (by simp [h])]

end ResultCommit

namespace StagingRoundTally

variable {t : StagingRoundTally} {member : PlayerId} {settled : Bool}

def add (t : StagingRoundTally) (member : PlayerId) (settled : Bool) : StagingRoundTally :=
  { t with
    replied := insert member t.replied
    settled := if settled then insert member t.settled else t.settled }

theorem record_of_counts (h : t.counts member = true) :
    t.record member settled =
      (decide ((t.add member settled).replied.card = t.members.card), t.add member settled) := by
  unfold record
  rw [h]
  rfl

theorem record_of_not_counts (h : t.counts member = false) :
    t.record member settled = (false, t) := by
  unfold record
  rw [h]
  rfl

theorem counts_iff : t.counts member = true ↔ member ∈ t.members ∧ member ∉ t.replied := by
  simp [counts]

theorem complete_iff (h : t.replied ⊆ t.members) :
    t.replied.card = t.members.card ↔ t.replied = t.members :=
  ⟨fun hcard => Finset.eq_of_subset_of_card_le h hcard.ge, fun heq => congrArg Finset.card heq⟩

theorem mem_settled_add {m : PlayerId} :
    m ∈ (t.add member settled).settled ↔ m ∈ t.settled ∨ (m = member ∧ settled = true) := by
  cases settled with
  | false => simp [add]
  | true => simp [add, or_comm]

end StagingRoundTally

namespace Staging

/-! ## The books of the rounds -/

/-- The tallies hold what was counted, each reply once. -/
structure Books (rounds : List Round) (counted : List (Nat × PlayerId × Bool)) : Prop where
  within : ∀ (i : Nat) (r : Round), rounds[i]? = some r → r.tally.replied ⊆ r.tally.members
  replied : ∀ (i : Nat) (r : Round), rounds[i]? = some r →
    ∀ m, m ∈ r.tally.replied ↔ ∃ b, (i, m, b) ∈ counted
  settled : ∀ (i : Nat) (r : Round), rounds[i]? = some r →
    ∀ m, m ∈ r.tally.settled ↔ (i, m, true) ∈ counted
  known : ∀ e ∈ counted, ∃ r, rounds[e.1]? = some r
  once : (counted.map fun e => (e.1, e.2.1)).Nodup

variable {rounds : List Round} {counted : List (Nat × PlayerId × Bool)} {i : Nat} {r : Round}
  {member : PlayerId} {r' x : Round}

variable {j : Nat}

theorem getElem?_set_cases (h : (rounds.set i x)[j]? = some r') :
    (j = i ∧ r' = x) ∨ (j ≠ i ∧ rounds[j]? = some r') := by
  rw [List.getElem?_set] at h
  split at h
  next heq =>
    split at h
    · cases h
      exact .inl ⟨heq.symm, rfl⟩
    · cases h
  next hne =>
    exact .inr ⟨fun heq => hne heq.symm, h⟩

theorem exists_getElem?_set (h : rounds[j]? = some r') :
    ∃ r'', (rounds.set i x)[j]? = some r'' := by
  rw [List.getElem?_set]
  split
  next heq =>
    subst heq
    rw [if_pos (List.getElem?_eq_some_iff.1 h).1]
    exact ⟨x, rfl⟩
  · exact ⟨r', h⟩

theorem getElem?_append_cases (h : (rounds ++ [x])[j]? = some r') :
    rounds[j]? = some r' ∨ (j = rounds.length ∧ r' = x) := by
  rcases Nat.lt_or_ge j rounds.length with hlt | hge
  · rw [List.getElem?_append_left hlt] at h
    exact .inl h
  rw [List.getElem?_append_right hge, List.getElem?_singleton] at h
  split at h
  · cases h
    exact .inr ⟨by omega, rfl⟩
  · cases h

/-- A reply that counts is entered once. -/
theorem Books.count (h : Books rounds counted) (hr : rounds[i]? = some r)
    (hcounts : r.tally.counts member = true) (settled : Bool) :
    Books (rounds.set i ⟨r.attempt, r.tally.add member settled⟩)
      (counted ++ [(i, member, settled)]) := by
  obtain ⟨hmember, hnew⟩ := StagingRoundTally.counts_iff.1 hcounts
  have hfresh : ∀ b, (i, member, b) ∉ counted := fun b hb =>
    hnew ((h.replied i r hr member).2 ⟨b, hb⟩)
  refine ⟨fun j r' hj => ?_, fun j r' hj m => ?_, fun j r' hj m => ?_,
    forall_mem_append.2 ⟨fun e he => ?_, ?_⟩, ?_⟩
  · rcases getElem?_set_cases hj with ⟨rfl, rfl⟩ | ⟨-, hj⟩
    · exact Finset.insert_subset hmember (h.within j r hr)
    · exact h.within j r' hj
  · rcases getElem?_set_cases hj with ⟨rfl, rfl⟩ | ⟨hne, hj⟩
    · simp only [mem_append, mem_singleton, Prod.mk.injEq, true_and, exists_or]
      change m ∈ insert member r.tally.replied ↔ _
      rw [Finset.mem_insert, h.replied j r hr m, or_comm]
      exact or_congr_right ⟨fun heq => ⟨settled, heq, rfl⟩, fun hex => hex.choose_spec.1⟩
    · rw [h.replied j r' hj m]
      refine exists_congr fun b => ?_
      rw [mem_append, mem_singleton]
      exact ⟨.inl, fun hor => hor.resolve_right fun heq => hne (congrArg Prod.fst heq)⟩
  · rcases getElem?_set_cases hj with ⟨rfl, rfl⟩ | ⟨hne, hj⟩
    · rw [StagingRoundTally.mem_settled_add, h.settled j r hr m, mem_append,
        mem_singleton, Prod.mk.injEq, Prod.mk.injEq]
      exact or_congr_right ⟨fun ⟨hm, hs⟩ => ⟨rfl, hm, hs.symm⟩, fun ⟨_, hm, hs⟩ => ⟨hm, hs.symm⟩⟩
    · rw [h.settled j r' hj m, mem_append, mem_singleton]
      exact ⟨.inl, fun hor => hor.resolve_right fun heq => hne (congrArg Prod.fst heq)⟩
  · obtain ⟨r', hr'⟩ := h.known e he
    exact exists_getElem?_set hr'
  · exact forall_mem_singleton.2 (exists_getElem?_set hr)
  · rw [map_append, map_singleton]
    refine nodup_append'.2 ⟨h.once, nodup_singleton _, fun key hkey hmem => ?_⟩
    obtain ⟨e, he, rfl⟩ := mem_map.1 hkey
    obtain ⟨rfl, rfl⟩ := Prod.mk.inj (mem_singleton.1 hmem)
    exact hfresh e.2.2 he

theorem Books.open (h : Books rounds counted) (attempt : Nat) (members : Finset PlayerId) :
    Books (rounds ++ [⟨attempt, .new members⟩]) counted := by
  have hfresh : ∀ m b, (rounds.length, m, b) ∉ counted := by
    intro m b hmem
    obtain ⟨r', hr'⟩ := h.known _ hmem
    exact Nat.lt_irrefl _ (List.getElem?_eq_some_iff.1 hr').1
  refine ⟨fun j r' hj => ?_, fun j r' hj m => ?_, fun j r' hj m => ?_, fun e he => ?_, h.once⟩
  · rcases getElem?_append_cases hj with hj | ⟨-, rfl⟩
    · exact h.within j r' hj
    · exact Finset.empty_subset _
  · rcases getElem?_append_cases hj with hj | ⟨rfl, rfl⟩
    · exact h.replied j r' hj m
    · exact ⟨fun hm => absurd hm (Finset.notMem_empty m),
        fun ⟨b, hb⟩ => absurd hb (hfresh m b)⟩
  · rcases getElem?_append_cases hj with hj | ⟨rfl, rfl⟩
    · exact h.settled j r' hj m
    · exact ⟨fun hm => absurd hm (Finset.notMem_empty m), fun hb => absurd hb (hfresh m true)⟩
  · obtain ⟨r', hr'⟩ := h.known e he
    exact ⟨r', by rw [List.getElem?_append_left (List.getElem?_eq_some_iff.1 hr').1]; exact hr'⟩

/-! ## The invariant -/

def Round.Complete (r : Round) : Prop := r.tally.replied = r.tally.members

structure Current (s : Staging) (i : Nat) (r : Round) : Prop where
  last : i + 1 = s.rounds.length
  attempt : s.commit.stagingAttempt = r.attempt
  nonzero : r.attempt ≠ 0
  members : r.tally.members = s.commit.unstaged
  staged : s.commit.staged = false

structure Ok (members : Finset PlayerId) (s : Staging) : Prop where
  books : Books s.rounds s.counted
  current : ∀ (i : Nat) (r : Round), s.rounds[i]? = some r → Round.Complete r ∨ s.Current i r
  unstaged : s.commit.unstaged ⊆ members
  left : ∀ m ∈ members, m ∉ s.commit.unstaged → ∃ i, (i, m, true) ∈ s.counted
  gone : ∀ (i : Nat) (r : Round), s.rounds[i]? = some r → Round.Complete r →
    ∀ m, (i, m, true) ∈ s.counted → m ∉ s.commit.unstaged
  settledOnce : ((s.counted.filter (·.2.2)).map (·.2.1)).Nodup
  staged : s.commit.staged = true → s.commit.unstaged = ∅ ∧ s.rounds ≠ []
  nonempty : s.rounds ≠ [] → members.Nonempty

namespace Ok

variable {members : Finset PlayerId} {s : Staging} {settled : Bool} {now : TimePoint}

theorem start (payload : Bytes) (members : Finset PlayerId) :
    (start payload members).Ok members where
  books :=
    { within := fun _ _ h => nomatch h
      replied := fun _ _ h => nomatch h
      settled := fun _ _ h => nomatch h
      known := fun _ h => nomatch h
      once := nodup_nil }
  current _ _ h := nomatch h
  unstaged := Finset.Subset.refl _
  left _ hm hout := absurd hm hout
  gone _ _ h := nomatch h
  settledOnce := nodup_nil
  staged h := nomatch h
  nonempty h := absurd rfl h

variable (h : s.Ok members)

include h

/-- Operations of the sending leave the staging as it is. -/
theorem same {c : ResultCommit} (hc : s.commit.SameStaging c) :
    Ok members { s with commit := c } where
  __ := h
  current i r hr := (h.current i r hr).imp_right fun hcur =>
    ⟨hcur.last, hc.attempt.trans hcur.attempt, hcur.nonzero, hcur.members.trans hc.unstaged.symm,
      hc.staged.trans hcur.staged⟩
  unstaged := by
    rw [hc.unstaged]
    exact h.unstaged
  left m hm hout := h.left m hm (hc.unstaged ▸ hout)
  gone i r hr hcomplete m hmem := by
    rw [hc.unstaged]
    exact h.gone i r hr hcomplete m hmem
  staged hstaged := by
    rw [hc.unstaged]
    exact h.staged (hc.staged ▸ hstaged)

theorem openRound (now : TimePoint) : (s.openRound now).Ok members := by
  unfold Staging.openRound
  dsimp only
  rcases s.commit.beginStaging_cases now with ⟨hzero, hsame⟩ |
    ⟨hne, hattempt, hstaged, hleft, hstaged', hunstaged', hattempt'⟩
  · rw [if_pos hzero]
    exact h.same hsame
  rw [if_neg hne]
  -- no round was open, so all of them are complete
  have hall : ∀ (i : Nat) (r : Round), s.rounds[i]? = some r → Round.Complete r := by
    intro i r hr
    refine (h.current i r hr).resolve_right fun hcur => hcur.nonzero ?_
    rw [← hcur.attempt, hattempt]
  refine ⟨h.books.open _ _, fun i r hr => ?_, ?_, fun m hm hout => ?_,
    fun i r hr hcomplete m hm => ?_, h.settledOnce, fun hs => ?_, fun _ => ?_⟩
  · rcases getElem?_append_cases hr with hr | ⟨rfl, rfl⟩
    · exact .inl (hall i r hr)
    · exact .inr ⟨by simp, hattempt', hne, rfl, hstaged'⟩
  · change (s.commit.beginStaging now).2.unstaged ⊆ members
    rw [hunstaged']
    exact h.unstaged
  · exact h.left m hm (hunstaged' ▸ hout)
  · change m ∉ (s.commit.beginStaging now).2.unstaged
    rw [hunstaged']
    rcases getElem?_append_cases hr with hr | ⟨rfl, rfl⟩
    · exact h.gone i r hr hcomplete m hm
    · obtain ⟨r', hr'⟩ := h.books.known _ hm
      exact absurd (List.getElem?_eq_some_iff.1 hr').1 (Nat.lt_irrefl _)
  · have hs : (s.commit.beginStaging now).2.staged = true := hs
    rw [hstaged'] at hs
    cases hs
  · obtain ⟨m, hm⟩ := Finset.nonempty_iff_ne_empty.2 hleft
    exact ⟨m, h.unstaged hm⟩

/-- A reply that counts belongs to the current round. -/
theorem current_of_counts (hr : s.rounds[i]? = some r) (hcounts : r.tally.counts member = true) :
    s.Current i r := by
  obtain ⟨hmember, hnew⟩ := StagingRoundTally.counts_iff.1 hcounts
  exact (h.current i r hr).resolve_left fun hcomplete => hnew (hcomplete ▸ hmember)

theorem complete_of_ne (hcur : s.Current i r) {r' : Round} (hj : s.rounds[j]? = some r')
    (hne : j ≠ i) : Round.Complete r' := by
  refine (h.current j r' hj).resolve_right fun hcur' => hne ?_
  have hlast := hcur.last
  have hlast' := hcur'.last
  omega

variable (hr : s.rounds[i]? = some r) (hcounts : r.tally.counts member = true)

include hr hcounts

/-- A member that is on the list was settled by no round. -/
theorem settled_fresh (j : Nat) : (j, member, true) ∉ s.counted := by
  obtain ⟨hmember, hnew⟩ := StagingRoundTally.counts_iff.1 hcounts
  have hcur := h.current_of_counts hr hcounts
  intro hmem
  obtain ⟨r', hr'⟩ := h.books.known _ hmem
  by_cases hj : j = i
  · subst hj
    exact hnew ((h.books.replied j r hr member).2 ⟨true, hmem⟩)
  · exact h.gone j r' hr' (h.complete_of_ne hcur hr' hj) member hmem (hcur.members ▸ hmember)

theorem settledOnce_count (settled : Bool) :
    (((s.counted ++ [(i, member, settled)]).filter (·.2.2)).map (·.2.1)).Nodup := by
  rw [filter_append, map_append]
  cases settled with
  | false => exact (append_nil _).symm ▸ h.settledOnce
  | true =>
    refine nodup_append'.2 ⟨h.settledOnce, nodup_singleton _, fun m hm hmem => ?_⟩
    obtain ⟨⟨j, m', b⟩, he, rfl⟩ := mem_map.1 hm
    obtain ⟨he, hb⟩ := mem_filter.1 he
    have hb : b = true := hb
    have hm : m' = member := mem_singleton.1 hmem
    rw [hb, hm] at he
    exact h.settled_fresh hr hcounts j he

theorem count (hopen : (r.tally.add member settled).replied ≠ r.tally.members) :
    Ok members
      { s with
        rounds := s.rounds.set i ⟨r.attempt, r.tally.add member settled⟩
        counted := s.counted ++ [(i, member, settled)] } := by
  have hcur := h.current_of_counts hr hcounts
  refine ⟨h.books.count hr hcounts settled, fun j r' hj => ?_, h.unstaged, fun m hm hout => ?_,
    fun j r' hj hcomplete m hm => ?_, h.settledOnce_count hr hcounts settled, fun hs => ?_, ?_⟩
  · rcases getElem?_set_cases hj with ⟨rfl, rfl⟩ | ⟨hne, hj⟩
    · refine .inr { hcur with last := ?_ }
      rw [length_set]
      exact hcur.last
    · exact .inl (h.complete_of_ne hcur hj hne)
  · obtain ⟨j, hj⟩ := h.left m hm hout
    exact ⟨j, mem_append_left _ hj⟩
  · rcases getElem?_set_cases hj with ⟨rfl, rfl⟩ | ⟨hne, hj⟩
    · exact absurd hcomplete hopen
    · rcases mem_append.1 hm with hm | hm
      · exact h.gone j r' hj hcomplete m hm
      · exact absurd (congrArg Prod.fst (mem_singleton.1 hm)) hne
  · exact absurd hs (by rw [hcur.staged]; decide)
  · intro _
    exact h.nonempty (ne_nil_of_mem (mem_of_getElem? hr))

/-- **The last reply of a round** takes the members that it settled off the list. -/
theorem finish (hcomplete : (r.tally.add member settled).replied = r.tally.members)
    (now : TimePoint) :
    Ok members
      { commit := (s.commit.finishStaging r.attempt (r.tally.add member settled).settled now).2
        rounds := s.rounds.set i ⟨r.attempt, r.tally.add member settled⟩
        counted := s.counted ++ [(i, member, settled)] } := by
  have hcur := h.current_of_counts hr hcounts
  have hbooks := h.books.count hr hcounts settled
  obtain ⟨hunstaged, hstaged, hattempt⟩ := ResultCommit.finishStaging_open hcur.nonzero hcur.attempt
    hcur.staged (r.tally.add member settled).settled now
  have hself : (s.rounds.set i ⟨r.attempt, r.tally.add member settled⟩)[i]? =
      some ⟨r.attempt, r.tally.add member settled⟩ := by
    rw [List.getElem?_set_self (List.getElem?_eq_some_iff.1 hr).1]
  have hall : ∀ (j : Nat) (r' : Round),
      (s.rounds.set i ⟨r.attempt, r.tally.add member settled⟩)[j]? = some r' →
      Round.Complete r' := by
    intro j r' hj
    rcases getElem?_set_cases hj with ⟨rfl, rfl⟩ | ⟨hne, hj⟩
    · exact hcomplete
    · exact h.complete_of_ne hcur hj hne
  refine ⟨hbooks, fun j r' hj => .inl (hall j r' hj), ?_, fun m hm hout => ?_,
    fun j r' hj _ m hm => ?_, h.settledOnce_count hr hcounts settled, fun hs => ?_, ?_⟩
  · rw [hunstaged]
    exact Finset.sdiff_subset.trans h.unstaged
  · by_cases hin : m ∈ s.commit.unstaged
    · have hout : m ∉ s.commit.unstaged \ (r.tally.add member settled).settled := hunstaged ▸ hout
      rw [Finset.mem_sdiff, not_and, not_not] at hout
      exact ⟨i, (hbooks.settled i _ hself m).1 (hout hin)⟩
    · obtain ⟨j, hj⟩ := h.left m hm hin
      exact ⟨j, mem_append_left _ hj⟩
  · rw [hunstaged, Finset.mem_sdiff, not_and, not_not]
    intro hin
    by_cases hji : j = i
    · rw [hji] at hm
      exact (hbooks.settled i _ hself m).2 hm
    · rcases mem_append.1 hm with hm | hm
      · obtain ⟨r'', hr''⟩ := h.books.known _ hm
        exact absurd hin (h.gone j r'' hr'' (h.complete_of_ne hcur hr'' hji) m hm)
      · exact absurd (congrArg Prod.fst (mem_singleton.1 hm)) hji
  · have hs : (s.commit.finishStaging r.attempt (r.tally.add member settled).settled now).2.staged =
        true := hs
    rw [hstaged] at hs
    refine ⟨hunstaged.trans (of_decide_eq_true hs), ne_nil_of_mem (mem_of_getElem? hself)⟩
  · intro _
    exact h.nonempty (ne_nil_of_mem (mem_of_getElem? hr))

end Ok

/-- A reply that does not count changes nothing. -/
theorem onReply_of_not_counts {s : Staging} {i : Nat} {member : PlayerId}
    (h : ∀ r, s.rounds[i]? = some r → r.tally.counts member = false) (settled : Bool)
    (now : TimePoint) : s.onReply i member settled now = s := by
  unfold onReply
  split
  · rfl
  rename_i r hr
  have hcounts := h r hr
  have hset : s.rounds.set i r = s.rounds := by
    obtain ⟨hlt, rfl⟩ := List.getElem?_eq_some_iff.1 hr
    exact set_getElem_self hlt
  simp only [StagingRoundTally.record_of_not_counts hcounts, hcounts, Bool.false_eq_true,
    if_false]
  rw [hset]

namespace Ok

variable {members : Finset PlayerId} {s : Staging}

theorem onReply (h : s.Ok members) (i : Nat) (member : PlayerId) (settled : Bool)
    (now : TimePoint) : (s.onReply i member settled now).Ok members := by
  cases hr : s.rounds[i]? with
  | none =>
    rw [onReply_of_not_counts fun r hr' => absurd (hr.symm.trans hr') nofun]
    exact h
  | some r =>
    cases hcounts : r.tally.counts member with
    | false =>
      rw [onReply_of_not_counts fun r' hr' => by cases hr.symm.trans hr'; exact hcounts]
      exact h
    | true =>
      have hwithin := (h.books.count hr hcounts settled).within i
        ⟨r.attempt, r.tally.add member settled⟩
        (List.getElem?_set_self (List.getElem?_eq_some_iff.1 hr).1)
      have hcomplete := StagingRoundTally.complete_iff hwithin
      unfold Staging.onReply
      rw [hr]
      simp only [StagingRoundTally.record_of_counts hcounts, hcounts, if_true]
      split
      next hcard =>
        exact h.finish hr hcounts (hcomplete.1 (of_decide_eq_true hcard)) now
      next hcard =>
        exact h.count hr hcounts fun heq => hcard (decide_eq_true (hcomplete.2 heq))

theorem step (h : s.Ok members) (e : Event) : (s.step e).Ok members := by
  cases e with
  | exhaust now => exact h.same (s.commit.exhaustStagingIfOverdue_same now).1
  | openRound now => exact h.openRound now
  | reply round member settled now => exact h.onReply round member settled now
  | send correlation now => exact h.same (s.commit.beginSend_same correlation now)
  | deliver correlation acked now => exact h.same (s.commit.deliver_same correlation acked now)

theorem run (payload : Bytes) (members : Finset PlayerId) (evs : List Event) :
    (run Staging.step (Staging.start payload members) evs).Ok members :=
  run_invariant (fun _ e h => h.step e) (start payload members) evs

end Ok

/-! ## What follows -/

def Event.isStaging : Event → Bool
  | .exhaust _ | .openRound _ | .reply _ _ _ _ => true
  | .send _ _ | .deliver _ _ _ => false

variable {s : Staging}

theorem commit_onReply (s : Staging) (i : Nat) (member : PlayerId) (settled : Bool)
    (now : TimePoint) : (s.onReply i member settled now).commit = s.commit ∨
    ∃ attempt done, (s.onReply i member settled now).commit =
      (s.commit.finishStaging attempt done now).2 := by
  unfold onReply
  split
  · exact .inl rfl
  · dsimp only
    split
    · exact .inr ⟨_, _, rfl⟩
    · exact .inl rfl

theorem commit_openRound (s : Staging) (now : TimePoint) :
    (s.openRound now).commit = (s.commit.beginStaging now).2 := by
  unfold openRound
  dsimp only
  split <;> rfl

theorem staged_step (h : s.commit.staged = true) (e : Event) :
    (s.step e).commit.staged = true := by
  cases e with
  | exhaust now => exact (s.commit.exhaustStagingIfOverdue_same now).1.staged.trans h
  | openRound now =>
    change (s.openRound now).commit.staged = true
    rw [commit_openRound]
    rcases s.commit.beginStaging_cases now with ⟨-, hsame⟩ | ⟨-, -, hstaged, -⟩
    · exact hsame.staged.trans h
    · rw [h] at hstaged
      cases hstaged
  | reply round member settled now =>
    change (s.onReply round member settled now).commit.staged = true
    rcases s.commit_onReply round member settled now with heq | ⟨attempt, done, heq⟩
    · rw [heq]
      exact h
    · rw [heq, ResultCommit.finishStaging_staged h]
      exact h
  | send correlation now => exact (s.commit.beginSend_same correlation now).staged.trans h
  | deliver correlation acked now =>
    exact (s.commit.deliver_same correlation acked now).staged.trans h

variable {e : Event}

/-- The staging leaves the sending alone. -/
theorem sending_step (he : e.isStaging = true) :
    s.commit.SameSending (s.step e).commit := by
  cases e with
  | exhaust now => exact (s.commit.exhaustStagingIfOverdue_same now).2
  | openRound now =>
    change s.commit.SameSending (s.openRound now).commit
    rw [commit_openRound]
    exact s.commit.beginStaging_sending now
  | reply round member settled now =>
    change s.commit.SameSending (s.onReply round member settled now).commit
    rcases s.commit_onReply round member settled now with heq | ⟨attempt, done, heq⟩
    · rw [heq]
      exact ⟨rfl, rfl, rfl⟩
    · rw [heq]
      exact s.commit.finishStaging_sending attempt done now
  | send correlation now | deliver correlation acked now => cases he

theorem canSend_iff {c : ResultCommit} {now : TimePoint} : c.canSend now = true ↔
    c.staged = true ∧ c.confirmed = false ∧ c.inFlight = 0 ∧ c.retryAt ≤ now := by
  simp [ResultCommit.canSend, and_assoc]

theorem canSend_step (he : e.isStaging = true) {now : TimePoint}
    (h : s.commit.canSend now = true) : (s.step e).commit.canSend now = true := by
  obtain ⟨hstaged, hconfirmed, hflight, hretry⟩ := canSend_iff.1 h
  have hsame := sending_step (s := s) he
  exact canSend_iff.2 ⟨staged_step hstaged e, hsame.confirmed.trans hconfirmed,
    hsame.inFlight.trans hflight, hsame.retryAt ▸ hretry⟩

theorem counted_step {x : Nat × PlayerId × Bool} (h : x ∈ (s.step e).counted) :
    x ∈ s.counted ∨ ∃ now, e = .reply x.1 x.2.1 x.2.2 now := by
  cases e with
  | reply i member settled now =>
    have h : x ∈ (s.onReply i member settled now).counted := h
    unfold onReply at h
    split at h
    · exact .inl h
    have hx : x ∈ s.counted ++ [(i, member, settled)] := by
      dsimp only at h
      split at h <;> split at h
      · exact h
      · exact mem_append_left _ h
      · exact h
      · exact mem_append_left _ h
    refine (mem_append.1 hx).imp_right fun hx => ⟨now, ?_⟩
    rw [mem_singleton.1 hx]
  | openRound now =>
    have h : x ∈ (s.openRound now).counted := h
    unfold openRound at h
    dsimp only at h
    split at h <;> exact .inl h
  | exhaust now | send correlation now | deliver correlation acked now => exact .inl h

theorem counted_run (evs : List Event) : ∀ {s : Staging} {x : Nat × PlayerId × Bool},
    x ∈ (run Staging.step s evs).counted →
    x ∈ s.counted ∨ ∃ now, .reply x.1 x.2.1 x.2.2 now ∈ evs := by
  induction evs with
  | nil => exact fun h => .inl h
  | cons e evs ih =>
    intro s x h
    rcases ih h with h | ⟨now, h⟩
    · rcases counted_step h with h | ⟨now, rfl⟩
      · exact .inl h
      · exact .inr ⟨now, mem_cons_self⟩
    · exact .inr ⟨now, mem_cons_of_mem _ h⟩

theorem Ok.reply_older {members : Finset PlayerId} (h : s.Ok members) {i : Nat}
    (hold : i + 1 < s.rounds.length) (member : PlayerId) (settled : Bool) (now : TimePoint) :
    s.step (.reply i member settled now) = s := by
  refine onReply_of_not_counts (fun r hr => ?_) settled now
  rw [← Bool.not_eq_true]
  intro hcounts
  have hlast := (h.current_of_counts hr hcounts).last
  omega

end Staging

/-- The members to stage are the players of the frozen battle, or there are none. -/
theorem beginResultCommit_unstaged {α : Type} {event frozen : BattleResultEvent α}
    {settlements : List (BattleSettlementData α)} (h : Frozen event settlements frozen)
    (serializeResult : BattleResultEvent α → Option Bytes)
    (serialize : BattleSettlementData α → Option Bytes) (players : Finset PlayerId) :
    (beginResultCommit serializeResult serialize frozen players).unstaged = ∅ ∨
    (beginResultCommit serializeResult serialize frozen players).unstaged =
      event.players.toFinset := by
  unfold beginResultCommit
  split
  · exact .inl rfl
  split
  next payload payloads _ hpayloads =>
    split
    · refine .inr ?_
      change payloads.keys.toFinset = _
      exact toFinset_eq_of_perm _ _ ((build_spec hpayloads).trans h.players)
    · exact .inl rfl
  · exact .inl rfl

/-- **A result is sent after every settlement is staged.** Whatever replies come: the commit allows
sending only when each member's staging was confirmed, older rounds do not count, nobody counts
twice, and what is allowed stays allowed. A battle is frozen with one settlement for each member,
or not at all, and these are the members of the commit. -/
theorem sent_after_staged (payload : Bytes) (members : Finset PlayerId)
    (evs : List Staging.Event) (s : Staging)
    (hs : s = Machine.run Staging.step (.start payload members) evs) :
    (∀ now, s.commit.canSend now = true → s.commit.staged = true) ∧
    (s.commit.staged = true → members.Nonempty ∧
      ∀ m ∈ members, ∃ i now', (i, m, true) ∈ s.counted ∧ .reply i m true now' ∈ evs) ∧
    (∀ i m settled now, i + 1 < s.rounds.length → s.step (.reply i m settled now) = s) ∧
    (s.counted.map fun e => (e.1, e.2.1)).Nodup ∧
    ((s.counted.filter (·.2.2)).map (·.2.1)).Nodup ∧
    (∀ evs', s.commit.staged = true → (Machine.run Staging.step s evs').commit.staged = true) ∧
    (∀ now now' evs', s.commit.canSend now = true → now ≤ now' →
      (∀ e ∈ evs', e.isStaging = true) →
      (Machine.run Staging.step s evs').commit.canSend now' = true) ∧
    ∀ (α : Type) (byteSize : BattleResultEvent α → Nat) event settlements frozen,
      freezeBattleSettlementSource byteSize event settlements = some frozen →
      Frozen event settlements frozen ∧
      ∀ serializeResult serialize players,
        (beginResultCommit serializeResult serialize frozen players).unstaged = ∅ ∨
        (beginResultCommit serializeResult serialize frozen players).unstaged =
          event.players.toFinset := by
  have hok : s.Ok members := hs ▸ Staging.Ok.run payload members evs
  refine ⟨fun now hsend => (Staging.canSend_iff.1 hsend).1, fun hstaged => ?_,
    fun i m settled now hold => hok.reply_older hold m settled now,
    hok.books.once, hok.settledOnce, fun evs' hstaged => ?_, fun now now' evs' hsend hle hevs => ?_,
    fun α byteSize event settlements frozen hfreeze => ?_⟩
  · obtain ⟨hempty, hrounds⟩ := hok.staged hstaged
    refine ⟨hok.nonempty hrounds, fun m hm => ?_⟩
    obtain ⟨i, hi⟩ := hok.left m hm (by rw [hempty]; exact Finset.notMem_empty m)
    have hcame := Staging.counted_run evs (hs ▸ hi)
    obtain ⟨now', hnow'⟩ := hcame.resolve_left fun h => nomatch h
    exact ⟨i, now', hi, hnow'⟩
  · exact Machine.run_invariant (I := fun s : Staging => s.commit.staged = true)
      (fun _ e h => Staging.staged_step h e) hstaged evs'
  · have hlater : s.commit.canSend now' = true := by
      obtain ⟨hstaged, hconfirmed, hflight, hretry⟩ := Staging.canSend_iff.1 hsend
      exact Staging.canSend_iff.2 ⟨hstaged, hconfirmed, hflight, le_trans hretry hle⟩
    clear hs hok hsend
    induction evs' generalizing s with
    | nil => exact hlater
    | cons e evs' ih =>
      exact ih _ (fun e' he' => hevs e' (mem_cons_of_mem _ he'))
        (Staging.canSend_step (hevs e mem_cons_self) hlater)
  · have hfrozen := freeze_spec hfreeze
    exact ⟨hfrozen, beginResultCommit_unstaged hfrozen⟩

/-- Two members: the second is settled in the second round, after a reply that came twice. -/
theorem sent_after_staged_sample :
    let evs : List Staging.Event :=
      [.openRound 0, .reply 0 7 true 0, .reply 0 7 true 0, .reply 0 8 false 0,
        .openRound (seconds 1), .reply 0 8 true 0, .reply 1 8 true 0]
    let s := Machine.run Staging.step (.start [1] {7, 8}) evs
    s.commit.canSend 0 = true ∧
    ∀ m ∈ ({7, 8} : Finset PlayerId), ∃ i, (i, m, true) ∈ s.counted := by
  intro evs s
  have hsend : s.commit.canSend 0 = true := by decide
  refine ⟨hsend, fun m hm => ?_⟩
  obtain ⟨hstaged, hall, -⟩ := sent_after_staged [1] {7, 8} evs s rfl
  obtain ⟨i, -, hi, -⟩ := (hall (hstaged 0 hsend)).2 m hm
  exact ⟨i, hi⟩

end Mmorpg.Battle
