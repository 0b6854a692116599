import Mathlib.Data.List.Infix
import Mmorpg.Lib.KeyedList

/-!
# The consumer ledger of the player inbox

The pure rules of player_inbox_rules.cpp: a cursor per domain with the watermark
`decided_through_seq` and a ring of the last 32 decisions, the classification of a delivery
against it, the plan for an item, and whether a decision is in a persisted ledger.

A ledger is the trace of a history, the list of all decisions recorded in a domain. The
watermark is the last one's number and the ring its last 32 entries (`Cursor.Records`), so the
questions the rules answer are questions about the history.
-/

namespace Mmorpg.Inbox

open List Option

inductive InboxDomain where
  | gmSanction
  | battleSettlement
deriving DecidableEq, Repr

def InboxDomain.number : InboxDomain → Nat
  | gmSanction => 1
  | battleSettlement => 2

inductive MsgType where
  | unspecified
  | gmBlockCurrencyGain
  | gmUnblockCurrencyGain
  | gmAttachCurrencyDebt
  | battleSettlement
deriving DecidableEq, Repr

/-- The domain of the option `OptionPlayerInboxType`. -/
def MsgType.domain : MsgType → Option InboxDomain
  | unspecified => none
  | gmBlockCurrencyGain | gmUnblockCurrencyGain | gmAttachCurrencyDebt => some .gmSanction
  | battleSettlement => some .battleSettlement

inductive Outcome where
  | unspecified
  | applied
  | rejected
  | skipped
  | unknown
deriving DecidableEq, Repr

structure Decision where
  seq : Nat
  outcome : Outcome
  reason : Nat
  requestId : Nat
  msgType : MsgType
deriving DecidableEq, Repr

def Decision.default : Decision := ⟨0, .unspecified, 0, 0, .unspecified⟩

structure Cursor where
  domain : InboxDomain
  decidedThrough : Nat
  recent : List Decision
deriving DecidableEq, Repr

abbrev Ledger := List Cursor

def kRecentCapacity : Nat := 32
def kFetchBatchMax : Nat := 16

def findCursor (ledger : Ledger) (domain : InboxDomain) : Option Cursor :=
  KeyedList.find Cursor.domain ledger domain

def emptyCursor (domain : InboxDomain) : Cursor := ⟨domain, 0, []⟩

/-- `MutableCursor`, followed by `f` on the cursor that it gives. -/
def modifyCursor (ledger : Ledger) (domain : InboxDomain) (f : Cursor → Cursor) : Ledger :=
  KeyedList.upsert Cursor.domain (fun c => domain.number < c.domain.number) domain f
    (emptyCursor domain) ledger

def mutableCursor (ledger : Ledger) (domain : InboxDomain) : Cursor :=
  (findCursor ledger domain).getD (emptyCursor domain)

def isRecordableOutcome (outcome : Outcome) : Bool :=
  outcome = .applied || outcome = .rejected || outcome = .skipped

/-- `RecordDecision`; `none` is the result false, with nothing changed. -/
def recordDecision (cursor : Cursor) (decision : Decision) : Option Cursor :=
  if !isRecordableOutcome decision.outcome then none
  else if decision.seq = 0 || decision.seq ≤ cursor.decidedThrough then none
  else
    let recent := cursor.recent ++ [decision]
    some { cursor with
      recent := if recent.length > kRecentCapacity then
          recent.drop (recent.length - kRecentCapacity)
        else recent
      decidedThrough := decision.seq }

def findRecent (cursor : Cursor) (seq : Nat) : Option Decision :=
  KeyedList.find Decision.seq cursor.recent seq

inductive DeliveryClass where
  | new
  | replay
  | mismatch
  | unknown
deriving DecidableEq, Repr

/-- `ClassifyDelivery`, with what it leaves in `replayed`. -/
def classifyDelivery (cursor : Option Cursor) (seq requestId : Nat) (msgType : MsgType) :
    DeliveryClass × Decision :=
  match cursor with
  | none => (.new, .default)
  | some c =>
    if seq > c.decidedThrough then (.new, .default)
    else match findRecent c seq with
      | none => (.unknown, .default)
      | some recorded =>
        if recorded.requestId ≠ requestId || recorded.msgType ≠ msgType then (.mismatch, recorded)
        else (.replay, recorded)

/-- `other` is a directive that the binary does not know. -/
inductive Directive where
  | none
  | void
  | other
deriving DecidableEq, Repr

inductive ItemAction where
  | execute
  | skipVoided
  | replay
  | ackUnknown
  | haltMismatch
  | haltUnknownDirective
deriving DecidableEq, Repr

def planItem (deliveryClass : DeliveryClass) (directive : Directive) : ItemAction :=
  match deliveryClass with
  | .replay => .replay
  | .unknown => .ackUnknown
  | .mismatch => .haltMismatch
  | .new =>
    match directive with
    | .void => .skipVoided
    | .other => .haltUnknownDirective
    | .none => .execute

inductive Durability where
  | durable
  | notYet
  | outcomeDiffers
  | ringMissing
deriving DecidableEq, Repr

def classifyDurability (persisted : Ledger) (domain : InboxDomain) (decision : Decision) :
    Durability :=
  match findCursor persisted domain with
  | none => .notYet
  | some cursor =>
    if cursor.decidedThrough < decision.seq then .notYet
    else if decision.outcome = .unknown then .durable
    else match findRecent cursor decision.seq with
      | none => .ringMissing
      | some onDisk =>
        if onDisk.outcome ≠ decision.outcome || onDisk.reason ≠ decision.reason
            || onDisk.requestId ≠ decision.requestId || onDisk.msgType ≠ decision.msgType then
          .outcomeDiffers
        else .durable

/-! ## Histories -/

def lastSeq (history : List Decision) : Nat := (history.getLast?.map (·.seq)).getD 0

/-- Decisions in the order of their numbers, each of an outcome that may be recorded. -/
structure IsHistory (history : List Decision) : Prop where
  ordered : history.Pairwise (·.seq < ·.seq)
  recordable : ∀ d ∈ history, isRecordableOutcome d.outcome = true ∧ d.seq ≠ 0

@[simp] theorem lastSeq_nil : lastSeq [] = 0 := rfl

@[simp] theorem lastSeq_concat (history : List Decision) (d : Decision) :
    lastSeq (history ++ [d]) = d.seq := by
  simp [lastSeq]

variable {history : List Decision} {d : Decision}

theorem IsHistory.seq_le_last (h : IsHistory history)
    (hd : d ∈ history) : d.seq ≤ lastSeq history := by
  obtain rfl | ⟨front, last, rfl⟩ := eq_nil_or_concat' history
  · cases hd
  · rw [lastSeq_concat]
    rcases mem_append.1 hd with hd | hd
    · exact ((pairwise_append.1 h.ordered).2.2 d hd last (by simp)).le
    · rw [mem_singleton.1 hd]

theorem IsHistory.concat (h : IsHistory history)
    (hd : isRecordableOutcome d.outcome = true) (hlast : lastSeq history < d.seq) :
    IsHistory (history ++ [d]) := by
  refine ⟨pairwise_append.2 ⟨h.ordered, pairwise_singleton _ _, ?_⟩, ?_⟩
  · intro a ha b hb
    obtain rfl := mem_singleton.1 hb
    exact (h.seq_le_last ha).trans_lt hlast
  · intro a ha
    rcases mem_append.1 ha with ha | ha
    · exact h.recordable a ha
    · obtain rfl := mem_singleton.1 ha
      exact ⟨hd, by omega⟩

variable {early : List Decision} {n : Nat} {cursor : Cursor} {decision : Decision}

/-- A decision up to the end of an earlier history is in it. -/
theorem IsHistory.mem_of_le (h : IsHistory history)
    (he : early <+: history) (hd : d ∈ history) (hle : d.seq ≤ lastSeq early) :
    d ∈ early := by
  obtain ⟨later, rfl⟩ := he
  rcases mem_append.1 hd with hearly | hlater
  · exact hearly
  obtain rfl | ⟨front, last, rfl⟩ := eq_nil_or_concat' early
  · exact absurd (Nat.le_zero.1 hle) (h.recordable d hd).2
  · rw [lastSeq_concat] at hle
    have hlt := (pairwise_append.1 h.ordered).2.2 last (by simp) d hlater
    omega

theorem IsHistory.eq_of_seq (h : IsHistory history) {a b : Decision}
    (ha : a ∈ history) (hb : b ∈ history) (hseq : a.seq = b.seq) : a = b :=
  KeyedList.eq_of_key (h.ordered.imp fun hlt => Nat.ne_of_lt hlt) ha hb hseq

/-- The last entries of a history that are in an earlier one are its last entries. -/
theorem IsHistory.mem_rtake (h : IsHistory history) (he : early <+: history) (hd : d ∈ early)
    (hlast : d ∈ history.rtake n) : d ∈ early.rtake n := by
  obtain ⟨later, rfl⟩ := he
  have hnot : d ∉ later := fun hl =>
    Nat.lt_irrefl _ ((pairwise_append.1 h.ordered).2.2 d hd d hl)
  rw [List.rtake, drop_append, mem_append] at hlast
  rcases hlast with hlast | hlast
  · refine (drop_suffix_drop_left early ?_).subset hlast
    rw [length_append]
    omega
  · exact absurd (mem_of_mem_drop hlast) hnot

theorem mem_rtake_of_suffix {α : Type} {front back : List α} {a : α} (ha : a ∈ back)
    (hn : back.length ≤ n) : a ∈ (front ++ back).rtake n := by
  have hle : (front ++ back).length - n ≤ front.length := by
    rw [length_append]
    omega
  rw [List.rtake, drop_append_of_le_length hle]
  exact mem_append_right _ ha

/-! ## Ledgers that record a history -/

/-- The watermark is the last number, the ring the last 32 decisions. -/
structure Cursor.Records (cursor : Cursor) (history : List Decision) : Prop where
  through : cursor.decidedThrough = lastSeq history
  ring : cursor.recent = history.rtake kRecentCapacity

theorem trim_concat {α : Type} (l : List α) (a : α) (hn : 0 < n) :
    (if (l.rtake n ++ [a]).length > n then
        (l.rtake n ++ [a]).drop ((l.rtake n ++ [a]).length - n)
      else l.rtake n ++ [a]) = (l ++ [a]).rtake n := by
  obtain ⟨m, rfl⟩ := Nat.exists_eq_succ_of_ne_zero (Nat.pos_iff_ne_zero.1 hn)
  rw [rtake_concat_succ]
  by_cases hm : l.length ≤ m
  · have hall : ∀ k, m ≤ k → l.rtake k = l := fun k hk => by
      rw [List.rtake, Nat.sub_eq_zero_of_le (by omega), drop_zero]
    rw [hall m le_rfl, hall (m + 1) (by omega), if_neg]
    simp only [length_append, length_singleton]
    omega
  · have hlen : (l.rtake (m + 1)).length = m + 1 := by
      rw [List.rtake, length_drop]
      omega
    rw [if_pos (by simp [hlen]), length_append, hlen, length_singleton,
      Nat.add_sub_cancel_left, drop_append_of_le_length (by rw [hlen]; omega), List.rtake,
      List.rtake, drop_drop]
    congr 2
    omega

/-- `RecordDecision` with a new number extends the history. -/
theorem recordDecision_records (h : cursor.Records history)
    (hout : isRecordableOutcome decision.outcome = true) (hseq : lastSeq history < decision.seq) :
    ∃ cursor', recordDecision cursor decision = some cursor' ∧
      cursor'.Records (history ++ [decision]) := by
  have hnew : ¬ (decision.seq = 0 || decision.seq ≤ cursor.decidedThrough) = true := by
    rw [h.through, Bool.or_eq_true, decide_eq_true_eq, decide_eq_true_eq]
    omega
  refine ⟨_, by rw [recordDecision, hout, if_neg (by decide), if_neg hnew], ?_, ?_⟩
  · exact (lastSeq_concat _ _).symm
  · rw [← trim_concat _ _ (by decide), ← h.ring]

theorem recordDecision_domain {cursor' : Cursor}
    (h : recordDecision cursor decision = some cursor') : cursor'.domain = cursor.domain := by
  unfold recordDecision at h
  split at h
  · cases h
  split at h
  · cases h
  cases h
  rfl

theorem findCursor_modifyCursor {f : Cursor → Cursor} (hf : ∀ c, (f c).domain = c.domain)
    (ledger : Ledger) (domain domain' : InboxDomain) :
    findCursor (modifyCursor ledger domain f) domain' =
      if domain' = domain then some (f (mutableCursor ledger domain'))
      else findCursor ledger domain' := by
  have hempty : (emptyCursor domain).domain = domain := rfl
  unfold findCursor modifyCursor
  rw [KeyedList.find_upsert hf hempty]
  split
  next hd => rw [mutableCursor, findCursor, hd]
  · rfl

section Classify

variable {ledger : Ledger} {domain : InboxDomain} {history : List Decision}
variable (h : (mutableCursor ledger domain).Records history)

include h

theorem classifyDelivery_new {seq : Nat} (hseq : lastSeq history < seq) (requestId : Nat)
    (msgType : MsgType) :
    (classifyDelivery (findCursor ledger domain) seq requestId msgType).1 = .new := by
  cases hc : findCursor ledger domain with
  | none => rfl
  | some c =>
    have hthrough := h.through
    rw [mutableCursor, hc, getD_some] at hthrough
    rw [classifyDelivery, if_pos (by omega)]

variable {d : Decision}

/-- A decision of the ring is found, at or below the watermark. -/
theorem findRecent_of_ring (hh : IsHistory history)
    (hd : d ∈ history.rtake kRecentCapacity) :
    ∃ c, findCursor ledger domain = some c ∧ d.seq ≤ c.decidedThrough ∧
      findRecent c d.seq = some d := by
  have hne : history.Pairwise (fun a b : Decision => a.seq ≠ b.seq) :=
    hh.ordered.imp fun hlt => Nat.ne_of_lt hlt
  have hfind := KeyedList.find_of_mem (hne.sublist (drop_sublist _ _)) hd
  have hle := hh.seq_le_last (mem_of_mem_drop hd)
  have hring := h.ring
  have hthrough := h.through
  cases hc : findCursor ledger domain with
  | none =>
    rw [mutableCursor, hc, getD_none, emptyCursor] at hring
    rw [← hring] at hd
    cases hd
  | some c =>
    rw [mutableCursor, hc, getD_some] at hring hthrough
    exact ⟨c, rfl, by omega, by rw [findRecent, hring]; exact hfind⟩

theorem classifyDelivery_replay (hh : IsHistory history)
    (hd : d ∈ history.rtake kRecentCapacity) :
    classifyDelivery (findCursor ledger domain) d.seq d.requestId d.msgType = (.replay, d) := by
  obtain ⟨c, hc, hle, hfind⟩ := findRecent_of_ring h hh hd
  rw [hc, classifyDelivery, if_neg (by omega), hfind]
  simp

theorem classifyDurability_of_ring (hh : IsHistory history)
    (hd : d ∈ history.rtake kRecentCapacity) : classifyDurability ledger domain d = .durable := by
  obtain ⟨c, hc, hle, hfind⟩ := findRecent_of_ring h hh hd
  simp [classifyDurability, hc, hfind, Nat.not_lt.2 hle]

/-- What the ledger does not reach is not yet durable. -/
theorem classifyDurability_beyond (hd : lastSeq history < d.seq) :
    classifyDurability ledger domain d = .notYet := by
  unfold classifyDurability
  cases hc : findCursor ledger domain with
  | none => rfl
  | some c =>
    have hthrough := h.through
    rw [mutableCursor, hc, getD_some] at hthrough
    exact if_pos (by omega)

end Classify

end Mmorpg.Inbox
