import Mmorpg.Lib.Run
import Mmorpg.AssetOp.Ledger

/-!
# Outcomes stay as they were recorded

The calls that write a ledger (`MutableAssetOpStream`, `ResetAssetOpStreamForEpoch`,
`RecordAssetOpOutcome`) in any order and with any 64-bit numbers. `Records` ties the ledger to
everything that was recorded; calls only extend that list, and the ledger's answer for a member
of it is the recorded outcome until the window or the epoch has passed it
(`Records.classify`). The number 2^64 - 1 is the largest, so the watermark never comes so near
the end of the range that the ledger would be called invalid.
-/

namespace Mmorpg.AssetOp

open List Option

/-- The enumeration's numbers; from `kCount` on there is no kind. -/
def AssetOpRecordKind.ofNumber (n : UInt8) : Option AssetOpRecordKind :=
  if n = 0 then some .applied
  else if n = 1 then some .appliedPartial
  else if n = 2 then some .rejected
  else none

inductive LedgerCall where
  | mutableStream (stream : AssetOpStream)
  | reset (stream : AssetOpStream) (epoch : UInt64)
  | record (stream : AssetOpStream) (epoch seq : UInt64) (kind : UInt8) (reasonTipId : UInt32)
deriving DecidableEq, Repr

def recordCall (comp : PlayerAssetOpLedgerComp) (stream : AssetOpStream) (epoch seq : UInt64)
    (kind : UInt8) (reasonTipId : UInt32) : PlayerAssetOpLedgerComp × Bool :=
  match findAssetOpStream comp stream, AssetOpRecordKind.ofNumber kind with
  | some ledger, some kind =>
    let record (l : AssetOpStreamLedger) : Option AssetOpStreamLedger :=
      recordAssetOpOutcome l epoch.toNat seq.toNat kind reasonTipId.toNat
    if (record ledger).isSome then
      (modifyAssetOpStream comp stream fun l => (record l).getD l, true)
    else (comp, false)
  | _, _ => (comp, false)

/-- A stream is only reset for a larger epoch. -/
def LedgerCall.perform (comp : PlayerAssetOpLedgerComp) : LedgerCall → PlayerAssetOpLedgerComp
  | .mutableStream stream => modifyAssetOpStream comp stream id
  | .reset stream epoch =>
    match findAssetOpStream comp stream with
    | none => comp
    | some ledger =>
      if ledger.streamEpoch < epoch.toNat then
        modifyAssetOpStream comp stream (resetAssetOpStreamForEpoch · epoch.toNat)
      else comp
  | .record stream epoch seq kind reasonTipId =>
    (recordCall comp stream epoch seq kind reasonTipId).1

/-- The ledger agrees with what was recorded, and no watermark is too large. -/
structure Records (comp : PlayerAssetOpLedgerComp) (decided : Decided) : Prop where
  agrees : LedgerAgrees comp decided
  bounded : ∀ s l, findAssetOpStream comp s = some l → l.watermark ≤ uint64Max - windowBits

namespace Records

variable {comp : PlayerAssetOpLedgerComp} {decided : Decided}

theorem nil : Records [] [] := ⟨.nil, by simp [findAssetOpStream]⟩

variable (h : Records comp decided)

include h

theorem mutable_bounded (s : AssetOpStream) :
    (mutableAssetOpStream comp s).watermark ≤ uint64Max - windowBits := by
  unfold mutableAssetOpStream
  cases hf : findAssetOpStream comp s with
  | none => exact Nat.zero_le _
  | some l => exact h.bounded s l hf

variable {stream : AssetOpStream}

theorem bounded_modify {f : AssetOpStreamLedger → AssetOpStreamLedger}
    (hf : ∀ l, (f l).stream = l.stream)
    (hw : (f (mutableAssetOpStream comp stream)).watermark ≤ uint64Max - windowBits) :
    ∀ s l, findAssetOpStream (modifyAssetOpStream comp stream f) s = some l →
      l.watermark ≤ uint64Max - windowBits := by
  intro s l hfind
  rw [find_modify hf] at hfind
  split at hfind
  next hs =>
    obtain rfl := hs
    exact some.inj hfind ▸ hw
  · exact h.bounded s l hfind

variable {k : AssetOpRecordKind}

theorem record {e q reason : Nat} {l' : AssetOpStreamLedger} (hq : q ≤ uint64Max)
    (hr : recordAssetOpOutcome (mutableAssetOpStream comp stream) e q k reason = some l') :
    Records (modifyAssetOpStream comp stream fun l => (recordAssetOpOutcome l e q k reason).getD l)
      (decided ++ [(⟨stream, e, q⟩, k)]) := by
  refine ⟨h.agrees.record hr, ?_⟩
  refine h.bounded_modify (recordAssetOpOutcome_getD_stream e q reason k) ?_
  have hbase := (h.agrees.mutable stream).base e
  have hold := h.mutable_bounded stream
  rw [hr]
  obtain ⟨-, -, -, rfl⟩ := record_cases hr
  have hbound : ((mutableAssetOpStream comp stream).base e).watermark ≤ uint64Max - windowBits := by
    unfold AssetOpStreamLedger.base
    split
    · exact Nat.zero_le _
    · exact hold
  simp only [getD_some, markSeq, hbase.ensureWindowWords_eq, slideWindow_watermark]
  omega

theorem perform (call : LedgerCall) : ∃ more, Records (call.perform comp) (decided ++ more) := by
  cases call with
  | mutableStream stream =>
    refine ⟨[], ?_⟩
    rw [append_nil]
    exact ⟨h.agrees.change (fun _ => rfl) (h.agrees.mutable stream),
      h.bounded_modify (fun _ => rfl) (h.mutable_bounded stream)⟩
  | reset stream epoch =>
    refine ⟨[], ?_⟩
    rw [append_nil]
    dsimp only [LedgerCall.perform]
    split
    · exact h
    rename_i l hl
    split
    next hlt =>
      have hmut : mutableAssetOpStream comp stream = l := by simp [mutableAssetOpStream, hl]
      have hreset := (h.agrees.found stream l hl).reset hlt
      rw [← hmut] at hreset
      exact ⟨h.agrees.change (f := (resetAssetOpStreamForEpoch · epoch.toNat)) (fun _ => rfl)
          hreset,
        h.bounded_modify (f := (resetAssetOpStreamForEpoch · epoch.toNat)) (fun _ => rfl)
          (Nat.zero_le _)⟩
    · exact h
  | record stream epoch seq kind reasonTipId =>
    dsimp only [LedgerCall.perform, recordCall]
    split
    next l k hl _ =>
      split
      next hsome =>
        obtain ⟨l', hl'⟩ := isSome_iff_exists.1 hsome
        have hmut : mutableAssetOpStream comp stream = l := by simp [mutableAssetOpStream, hl]
        have hq : seq.toNat ≤ uint64Max := by
          have := seq.toNat_lt
          simp only [uint64Max]
          omega
        exact ⟨_, h.record hq (hmut ▸ hl')⟩
      · exact ⟨[], by rwa [append_nil]⟩
    · exact ⟨[], by rwa [append_nil]⟩

theorem run (calls : List LedgerCall) :
    ∃ more, Records (Machine.run LedgerCall.perform comp calls) (decided ++ more) := by
  induction calls generalizing comp decided with
  | nil => exact ⟨[], by rwa [append_nil]⟩
  | cons call calls ih =>
    obtain ⟨more, hcall⟩ := h.perform call
    obtain ⟨rest, hrest⟩ := ih hcall
    exact ⟨more ++ rest, by rwa [← append_assoc]⟩

theorem classify {s : AssetOpStream} {e q : Nat} (hm : (⟨s, e, q⟩, k) ∈ decided) (hq : q ≠ 0)
    (he : e ≠ 0) :
    classifyAssetOpSeq (findAssetOpStream comp s) e q =
        (if k.isApplied then .applied else .rejected) ∨
      classifyAssetOpSeq (findAssetOpStream comp s) e q = .behindWindow ∨
      classifyAssetOpSeq (findAssetOpStream comp s) e q = .staleEpoch := by
  cases hf : findAssetOpStream comp s with
  | none => exact absurd hm (h.agrees.missing s hf e q k)
  | some l =>
    have hagrees := h.agrees.found s l hf
    obtain rfl := findAssetOpStream_stream hf
    have hzero : ¬ (decide (q = 0) || decide (e = 0)) = true := by simp [hq, he]
    rw [classifyAssetOpSeq, if_neg hzero]
    rcases (hagrees.epoch_le e q k hm).lt_or_eq with hlt | rfl
    · exact .inr (.inr (if_pos hlt))
    rw [if_neg (Nat.lt_irrefl _), if_neg (Nat.lt_irrefl _), classifyInEpoch,
      if_neg (Nat.not_lt.2 (h.bounded _ l hf))]
    split
    · exact .inr (.inl rfl)
    rename_i hlow
    obtain ⟨hseen, happlied⟩ := hagrees.bits q k hm (by omega)
    have hmax := hagrees.seq_le q k hm
    have hwindow := hagrees.max_le
    have hjump : exceedsJumpCap l.maxSeq q = false := by
      unfold exceedsJumpCap
      split
      · rfl
      · exact decide_eq_false (by omega)
    rw [hjump, if_neg Bool.false_ne_true, if_neg (by omega), hseen, happlied]
    exact .inl rfl

end Records

/-- **Outcomes are fixed**: what a ledger has answered for a number it answers again, or the
number has left the window or its epoch; and a recording that fails changes nothing. -/
theorem ledger_outcomes_fixed (calls later : List LedgerCall) (stream : AssetOpStream)
    (epoch seq : UInt64) (applied : Bool) :
    let before := Machine.run LedgerCall.perform [] calls
    let comp := Machine.run LedgerCall.perform before later
    let answer := classifyAssetOpSeq (findAssetOpStream comp stream) epoch.toNat seq.toNat
    (classifyAssetOpSeq (findAssetOpStream before stream) epoch.toNat seq.toNat =
        (if applied then .applied else .rejected) →
      answer = (if applied then .applied else .rejected) ∨ answer = .behindWindow ∨
        answer = .staleEpoch) ∧
    ∀ stream epoch seq kind reasonTipId,
      (recordCall comp stream epoch seq kind reasonTipId).2 = false →
        (recordCall comp stream epoch seq kind reasonTipId).1 = comp := by
  intro before comp answer
  refine ⟨fun h => ?_, fun stream epoch seq kind reasonTipId hfail => ?_⟩
  · obtain ⟨decided, hdecided⟩ := Records.nil.run calls
    obtain ⟨more, hmore⟩ := hdecided.run later
    obtain ⟨k, hk, hm⟩ := hdecided.agrees.decided_of_seen h
    obtain ⟨hq, he⟩ := classify_ne_zero (b := applied) h
    rw [← hk]
    exact hmore.classify (List.mem_append_left _ hm) hq he
  · unfold recordCall at hfail ⊢
    split at hfail
    · dsimp only at hfail ⊢
      split at hfail
      · cases hfail
      next hnone => rw [if_neg hnone]
    · rfl

def firstApplied : List LedgerCall :=
  [.mutableStream .guildDebit, .record .guildDebit 7 1 0 0, .record .guildDebit 7 2 2 27000]

theorem first_outcome_fixed :
    let comp := Machine.run LedgerCall.perform [] firstApplied
    let comp' := Machine.run LedgerCall.perform comp [.record .guildDebit 7 1026 0 0]
    classifyAssetOpSeq (findAssetOpStream comp .guildDebit) 7 2 = .rejected ∧
      (classifyAssetOpSeq (findAssetOpStream comp' .guildDebit) 7 2 = .rejected ∨
        classifyAssetOpSeq (findAssetOpStream comp' .guildDebit) 7 2 = .behindWindow ∨
        classifyAssetOpSeq (findAssetOpStream comp' .guildDebit) 7 2 = .staleEpoch) :=
  ⟨by decide +kernel, (ledger_outcomes_fixed firstApplied _ .guildDebit 7 2 false).1
    (by decide +kernel)⟩

end Mmorpg.AssetOp
