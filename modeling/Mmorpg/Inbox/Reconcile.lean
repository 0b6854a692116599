import Mmorpg.Inbox.Store

/-!
# Reconciliation

The comparison of closed rows with the persisted ledger, in decide.go. A row that the consumer
closed must be in the history behind the ledger. Of that history the ledger has the watermark
and a ring, which lost entries only if it is full (`IsHistory.mem_ring`), so whatever is not
older than a full ring can be checked.
-/

namespace Mmorpg.Inbox

open List

def isTerminalState : ItemState → Bool
  | .applied | .rejected | .voided | .settledUnknown => true
  | .unspecified | .pending => false

inductive LedgerGap where
  | none
  | beyondWatermark
  | missingInRing
  | ringMismatch
deriving DecidableEq, Repr

/-- The row as a `FinalizedRef`, which has some of its columns; a cursor that is nil reads as an
empty one. -/
def finalizedLedgerGap (f : Row) (cursor : Cursor) : LedgerGap :=
  if f.finalizedBy ≠ .consumer || !isTerminalState f.state then .none
  else if f.seq > cursor.decidedThrough then .beyondWatermark
  -- an unknown outcome is in no ring
  else if f.state = .settledUnknown then .none
  else if cursor.recent.length ≥ kRecentCapacity
      && cursor.recent.head?.any (f.seq < ·.seq) then .none
  else match findRecent cursor f.seq with
    | none => .missingInRing
    | some d =>
      if d.requestId ≠ f.requestId || d.msgType ≠ f.msgType
          || !sameOutcome f.state f.outcomeReason d.outcome d.reason then .ringMismatch
      else .none

/-- The periodic reconciliation of a player. -/
def ledgerMismatches (refs : List (InboxDomain × Row)) (ledger : Ledger) :
    List ((InboxDomain × Row) × LedgerGap) :=
  (refs.map fun f => (f, finalizedLedgerGap f.2 (mutableCursor ledger f.1))).filter (·.2 ≠ .none)

inductive ReconcileDiffKind where
  | unspecified
  | finalNotInLedger
  | pendingButDecided
deriving DecidableEq, Repr

/-- What `reconcileReport` lists for a row. -/
def reconcileDiff (row : Row) (cursor : Cursor) : ReconcileDiffKind :=
  if row.state = .pending then
    if row.seq ≤ cursor.decidedThrough then .pendingButDecided else .unspecified
  else if finalizedLedgerGap row cursor ≠ .none then .finalNotInLedger
  else .unspecified

/-! ## Rows and histories -/

def Decision.Closed (d : Decision) (row : Row) : Prop :=
  ∃ epoch r, r.seq = d.seq ∧ r.requestId = d.requestId ∧ r.msgType = d.msgType ∧
    row = finalizeRow epoch (outcomeToState d.outcome) ⟨d.seq, d.outcome, d.reason, d.requestId⟩ r

/-- The same decision for all that a closed row shows: the reason counts for rejections only. -/
def Decision.Same (d d' : Decision) : Prop :=
  d'.seq = d.seq ∧ d'.requestId = d.requestId ∧ d'.msgType = d.msgType ∧
    d'.outcome = d.outcome ∧ (d.outcome = .rejected → d.reason = d'.reason)

/-- The full ring starts after the number. -/
def Cursor.Passed (c : Cursor) (seq : Nat) : Prop :=
  c.recent.length = kRecentCapacity ∧ ∀ a ∈ c.recent, seq < a.seq

variable {domain : InboxDomain} {history : List Decision} {c : Cursor} {d : Decision} {row : Row}

theorem recordDecision_some {c' : Cursor} (h : recordDecision c d = some c') :
    isRecordableOutcome d.outcome = true ∧ c.decidedThrough < d.seq := by
  unfold recordDecision at h
  split at h
  · cases h
  next hout =>
    split at h
    · cases h
    next hseq =>
      simp only [Bool.or_eq_true, decide_eq_true_eq, not_or, not_le] at hseq
      exact ⟨by simpa using hout, hseq.2⟩

theorem records_of_calls (h : history.foldlM recordDecision (emptyCursor domain) = some c) :
    IsHistory history ∧ c.Records history := by
  induction history using List.reverseRecOn generalizing c with
  | nil =>
    cases h
    exact ⟨⟨.nil, by simp⟩, rfl, rfl⟩
  | append_singleton history d ih =>
    rw [foldlM_append] at h
    obtain ⟨before, hbefore, hcall⟩ := Option.bind_eq_some_iff.1 h
    obtain ⟨hh, hrec⟩ := ih hbefore
    have hcall : recordDecision before d = some c := by simpa using hcall
    obtain ⟨hout, hseq⟩ := recordDecision_some hcall
    rw [hrec.through] at hseq
    obtain ⟨c', hc', hrec'⟩ := recordDecision_records hrec hout hseq
    obtain rfl := Option.some.inj (hcall.symm.trans hc')
    exact ⟨hh.concat hout hseq, hrec'⟩

section Ring

variable (hh : IsHistory history) (hc : c.Records history)

include hh hc

theorem IsHistory.ring_ordered : c.recent.Pairwise (·.seq < ·.seq) :=
  hc.ring ▸ hh.ordered.sublist (drop_sublist _ _)

/-- A decision is in the ring unless the ring is full and starts after it. -/
theorem IsHistory.mem_ring (hd : d ∈ history) : d ∈ c.recent ∨ c.Passed d.seq := by
  have hsplit := take_append_drop (history.length - kRecentCapacity) history
  have hordered := hh.ordered
  rw [← hsplit] at hd hordered
  rw [Cursor.Passed, hc.ring, List.rtake]
  refine (mem_append.1 hd).symm.imp_right fun htake =>
    ⟨?_, (pairwise_append.1 hordered).2.2 d htake⟩
  have hpos := length_pos_of_mem htake
  rw [length_take] at hpos
  rw [length_drop]
  omega

theorem IsHistory.passed_iff {seq : Nat} :
    (c.recent.length ≥ kRecentCapacity && c.recent.head?.any (seq < ·.seq)) = true ↔
      c.Passed seq := by
  have hlen : c.recent.length ≤ kRecentCapacity := by
    rw [hc.ring, List.rtake, length_drop]
    omega
  have hordered := hh.ring_ordered hc
  cases hring : c.recent with
  | nil => simp [Cursor.Passed, hring, kRecentCapacity]
  | cons a rest =>
    rw [hring] at hlen hordered
    simp only [Cursor.Passed, hring, List.head?_cons, Option.any_some, Bool.and_eq_true,
      decide_eq_true_eq, forall_mem_cons]
    exact and_congr (by omega) ⟨fun hlt =>
      ⟨hlt, fun b hb => hlt.trans ((pairwise_cons.1 hordered).1 b hb)⟩, And.left⟩

end Ring

theorem sameOutcome_closed {d' : Decision} (hout : isRecordableOutcome d.outcome = true) :
    sameOutcome (outcomeToState d.outcome)
        (ackOutcomeReason ⟨d.seq, d.outcome, d.reason, d.requestId⟩) d'.outcome d'.reason = true ↔
      d'.outcome = d.outcome ∧ (d.outcome = .rejected → d.reason = d'.reason) := by
  cases hd : d.outcome <;> cases hd' : d'.outcome <;>
    simp_all [sameOutcome, outcomeToState, ackOutcomeReason, isRecordableOutcome]

theorem Decision.Closed.columns (hrow : d.Closed row) :
    row.seq = d.seq ∧ row.requestId = d.requestId ∧ row.msgType = d.msgType ∧
      row.state = outcomeToState d.outcome ∧ row.finalizedBy = .consumer ∧
      row.outcomeReason = ackOutcomeReason ⟨d.seq, d.outcome, d.reason, d.requestId⟩ := by
  obtain ⟨epoch, r, hseq, hreq, htype, rfl⟩ := hrow
  exact ⟨hseq, hreq, htype, rfl, rfl, rfl⟩

/-- A row closed by a decision is without a gap exactly if the decision is up to the watermark
and the ring either has it or is past it. -/
theorem finalizedLedgerGap_eq_none (hh : IsHistory history) (hc : c.Records history)
    (hout : isRecordableOutcome d.outcome = true) (hrow : d.Closed row) :
    finalizedLedgerGap row c = .none ↔
      d.seq ≤ c.decidedThrough ∧
        (c.Passed d.seq ∨ ∃ d', findRecent c d.seq = some d' ∧ d.Same d') := by
  obtain ⟨hseq, hreq, htype, hstate, hby, hreason⟩ := hrow.columns
  have hterminal : isTerminalState (outcomeToState d.outcome) = true ∧
      outcomeToState d.outcome ≠ .settledUnknown := by
    cases hd : d.outcome <;> simp_all [isRecordableOutcome, outcomeToState, isTerminalState]
  rw [finalizedLedgerGap, hseq, hreq, htype, hstate, hby, hreason, if_neg (by simp [hterminal.1])]
  by_cases hle : d.seq ≤ c.decidedThrough
  · rw [if_neg hle.not_gt, if_neg hterminal.2]
    by_cases hpassed : c.Passed d.seq
    · rw [if_pos ((hh.passed_iff hc).2 hpassed)]
      simp [hle, hpassed]
    rw [if_neg (hpassed ∘ (hh.passed_iff hc).1)]
    cases hfind : findRecent c d.seq with
    | none => simp [hpassed]
    | some d' =>
      have hseq' := (KeyedList.mem_of_find hfind).2
      simp [Decision.Same, ← sameOutcome_closed hout]
      tauto
  · rw [if_pos (not_le.1 hle)]
    simp [hle]

theorem Decision.Closed.reconcileDiff (hrow : d.Closed row) (c : Cursor) :
    reconcileDiff row c =
      if finalizedLedgerGap row c = .none then .unspecified else .finalNotInLedger := by
  rw [Inbox.reconcileDiff, if_neg (hrow.columns.2.2.2.1 ▸ outcomeToState_ne_pending _), ite_not]

theorem mem_ledgerMismatches {refs : List (InboxDomain × Row)} {ledger : Ledger}
    {f : InboxDomain × Row} {gap : LedgerGap} :
    (f, gap) ∈ ledgerMismatches refs ledger ↔
      f ∈ refs ∧ finalizedLedgerGap f.2 (mutableCursor ledger f.1) = gap ∧ gap ≠ .none := by
  simp only [ledgerMismatches, mem_filter, mem_map, Prod.mk.injEq, decide_eq_true_eq]
  constructor
  · rintro ⟨⟨f', hf, rfl, hgap⟩, hne⟩
    exact ⟨hf, hgap, hne⟩
  · rintro ⟨hf, hgap, hne⟩
    exact ⟨⟨f, hf, rfl, hgap⟩, hne⟩

/-- A row closed by a saved decision raises no alarm against a later ledger of the history. It
raises one against any history that lacks the decision, unless the full ring is past it. -/
theorem reconciliation_alarms {saved history : List Decision} {save : Cursor} (ledger : Ledger)
    (hsaved : saved.foldlM recordDecision (emptyCursor domain) = some save) (hd : d ∈ saved)
    (hrow : d.Closed row)
    (hledger : history.foldlM recordDecision (emptyCursor domain) =
      some (mutableCursor ledger domain)) :
    (saved <+: history →
      reconcileDiff row (mutableCursor ledger domain) = .unspecified ∧
      ∀ refs gap, ((domain, row), gap) ∉ ledgerMismatches refs ledger) ∧
    ((∀ d' ∈ history, ¬ d.Same d') →
      (mutableCursor ledger domain).decidedThrough < d.seq ∨
        ¬ (mutableCursor ledger domain).Passed d.seq →
      reconcileDiff row (mutableCursor ledger domain) = .finalNotInLedger ∧
      ∀ refs, (domain, row) ∈ refs →
        ∃ gap, ((domain, row), gap) ∈ ledgerMismatches refs ledger) := by
  obtain ⟨hh, hc⟩ := records_of_calls hledger
  have hout := ((records_of_calls hsaved).1.recordable d hd).1
  have hnone := finalizedLedgerGap_eq_none hh hc hout hrow
  rw [hrow.reconcileDiff]
  refine ⟨fun hlater => ?_, fun hlost hrecent => ?_⟩
  · have hmem := hlater.subset hd
    have hfind : d ∈ (mutableCursor ledger domain).recent →
        findRecent (mutableCursor ledger domain) d.seq = some d :=
      KeyedList.find_of_mem ((hh.ring_ordered hc).imp fun hlt => Nat.ne_of_lt hlt)
    have hgap := hnone.2 ⟨hc.through ▸ hh.seq_le_last hmem, (hh.mem_ring hc hmem).symm.imp_right
      fun hring => ⟨d, hfind hring, rfl, rfl, rfl, rfl, fun _ => rfl⟩⟩
    refine ⟨if_pos hgap, fun refs gap hlisted => ?_⟩
    obtain ⟨-, rfl, hne⟩ := mem_ledgerMismatches.1 hlisted
    exact hne hgap
  · have hgap : finalizedLedgerGap row (mutableCursor ledger domain) ≠ .none := by
      rw [Ne, hnone]
      rintro ⟨hle, hpassed | ⟨d', hfind, hsame⟩⟩
      · exact hrecent.elim hle.not_gt fun hnot => hnot hpassed
      · have hring := (KeyedList.mem_of_find hfind).1
        rw [hc.ring] at hring
        exact hlost d' (mem_of_mem_drop hring) hsame
    exact ⟨if_neg hgap, fun refs href => ⟨_, mem_ledgerMismatches.2 ⟨href, rfl, hgap⟩⟩⟩

def sampleDecision (reason seq : Nat) : Decision := ⟨seq, .applied, reason, 7, .battleSettlement⟩

def sampleHistory (n : Nat) : List Decision := (range n).map fun i => sampleDecision 0 (i + 1)

/-- The last decision is another one. -/
def otherHistory : List Decision := sampleHistory 33 ++ [⟨34, .rejected, 3, 7, .battleSettlement⟩]

def sampleLedger (history : List Decision) : Ledger :=
  [⟨.battleSettlement, history.length, history.drop (history.length - kRecentCapacity)⟩]

def sampleClosedRow (seq : Nat) : Row :=
  ⟨seq, .battleSettlement, .matchService, 7, [], [], .applied, .none, .unspecified, 1, 1, 0,
    .consumer, 1⟩

theorem sampleDecision_closed (seq : Nat) : (sampleDecision 0 seq).Closed (sampleClosedRow seq) :=
  ⟨1, { sampleClosedRow seq with state := .pending }, rfl, rfl, rfl, rfl⟩

/-- The ring of a later ledger is past the first decision, and another ledger's ring has another
decision for the last number. -/
theorem reconciliation_alarms_sampleLedger :
    reconcileDiff (sampleClosedRow 1)
        (mutableCursor (sampleLedger (sampleHistory 34)) .battleSettlement) = .unspecified ∧
      reconcileDiff (sampleClosedRow 34)
        (mutableCursor (sampleLedger otherHistory) .battleSettlement) = .finalNotInLedger := by
  have hone : (sampleHistory 1).foldlM recordDecision (emptyCursor .battleSettlement) =
      some (mutableCursor (sampleLedger (sampleHistory 1)) .battleSettlement) := by decide
  have hall : (sampleHistory 34).foldlM recordDecision (emptyCursor .battleSettlement) =
      some (mutableCursor (sampleLedger (sampleHistory 34)) .battleSettlement) := by decide +kernel
  have hother : otherHistory.foldlM recordDecision (emptyCursor .battleSettlement) =
      some (mutableCursor (sampleLedger otherHistory) .battleSettlement) := by decide +kernel
  constructor
  · exact ((reconciliation_alarms _ hone (by decide) (sampleDecision_closed 1) hall).1
      (by decide)).1
  · refine ((reconciliation_alarms _ hall (by decide +kernel) (sampleDecision_closed 34) hother).2
      ?_ (.inr fun h => ?_)).1
    · unfold Decision.Same
      decide +kernel
    · exact absurd (h.2 ⟨34, .rejected, 3, 7, .battleSettlement⟩ (by decide +kernel)) (by decide)

/-- A ledger with the same application for another reason raises no alarm. -/
theorem applied_reason_not_compared :
    [sampleDecision 5 1].foldlM recordDecision (emptyCursor .battleSettlement) =
        some (mutableCursor (sampleLedger [sampleDecision 5 1]) .battleSettlement) ∧
      (sampleDecision 0 1).Closed (sampleClosedRow 1) ∧ sampleDecision 0 1 ∉ [sampleDecision 5 1] ∧
      ¬ (mutableCursor (sampleLedger [sampleDecision 5 1]) .battleSettlement).Passed 1 ∧
      finalizedLedgerGap (sampleClosedRow 1)
        (mutableCursor (sampleLedger [sampleDecision 5 1]) .battleSettlement) = .none :=
  ⟨rfl, sampleDecision_closed 1, by decide, fun h => absurd h.1 (by decide), by decide⟩

end Mmorpg.Inbox
