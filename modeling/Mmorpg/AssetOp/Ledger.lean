import Mmorpg.Lib.BitWords
import Mmorpg.Lib.KeyedList

/-!
# The asset operation ledger of a player

The scene keeps, in the same record as the player's assets, one ledger per stream of asset
operations (asset_op_ledger.cpp): a window of 1024 sequence numbers above a watermark with a
seen bit and an applied bit each, the reasons of rejections, the partly applied numbers and the
identity receipts. A larger stream epoch starts the stream afresh.

`Agrees` ties a ledger to the list of everything ever recorded in it. **What a classification
means** (`not_decided_of_unseen`, `decided_of_seen`): an operation that the ledger has not seen
was never recorded, one that it has seen was recorded with the outcome that it answers.
Recording keeps `Agrees` (`Agrees.record`), window shifts and epoch changes included.
-/

namespace Mmorpg.AssetOp

open BitWords List Option

inductive AssetOpStream where
  | unspecified
  | guildDebit
  | guildCredit
  | tradeDebit
  | tradeCredit
  | systemCredit
deriving DecidableEq, Repr

def AssetOpStream.number : AssetOpStream → Nat
  | .unspecified => 0
  | .guildDebit => 1
  | .guildCredit => 2
  | .tradeDebit => 3
  | .tradeCredit => 4
  | .systemCredit => 5

abbrev Bytes := List UInt8

structure AssetItemInstance where
  itemUuid : Nat
  configId : Nat
  stackSize : Nat
  instanceProto : Bytes
deriving DecidableEq, Repr

structure AssetPetInstance where
  petId : Nat
  petTableId : Nat
  name : String
  level : Nat
  instanceProto : Bytes
deriving DecidableEq, Repr

structure AssetSnapshot where
  items : List AssetItemInstance
  pet : Option AssetPetInstance
deriving DecidableEq, Repr

def AssetSnapshot.empty : AssetSnapshot := ⟨[], none⟩

structure AssetOpRejection where
  seq : Nat
  reasonTipId : Nat
deriving DecidableEq, Repr

structure AssetOpReceipt where
  seq : Nat
  correlationId : Nat
  requestDigest : Bytes
  snapshot : Option AssetSnapshot
deriving DecidableEq, Repr

structure AssetOpStreamLedger where
  stream : AssetOpStream
  streamEpoch : Nat
  watermark : Nat
  maxSeq : Nat
  seenBits : Words
  appliedBits : Words
  rejections : List AssetOpRejection
  partialSeqs : List Nat
  receipts : List AssetOpReceipt
deriving DecidableEq, Repr

/-- `PlayerAssetOpLedgerComp`: the streams in ascending order. -/
abbrev PlayerAssetOpLedgerComp := List AssetOpStreamLedger

def windowBits : Nat := 1024
def windowWords : Nat := 16
def maxRejections : Nat := 64
def maxPartialSeqs : Nat := windowBits
def maxSeqJump : Nat := 1024
def uint64Max : Nat := 18446744073709551615

inductive AssetOpSeqState where
  | invalid
  | staleEpoch
  | behindWindow
  | unseen
  | aheadOfWindow
  | jumpTooFar
  | applied
  | rejected
deriving DecidableEq, Repr

inductive AssetOpRecordKind where
  | applied
  | appliedPartial
  | rejected
deriving DecidableEq, Repr

def AssetOpRecordKind.isApplied : AssetOpRecordKind → Bool
  | .applied => true
  | .appliedPartial => true
  | .rejected => false

def findAssetOpStream (comp : PlayerAssetOpLedgerComp) (stream : AssetOpStream) :
    Option AssetOpStreamLedger :=
  comp.find? (·.stream = stream)

/-- `ExceedsJumpCap`: near the end of the range there is no cap. -/
def exceedsJumpCap (maxSeq seq : Nat) : Bool :=
  if maxSeq > uint64Max - maxSeqJump then false else seq > maxSeq + maxSeqJump

/-- The part of `ClassifyAssetOpSeq` for a ledger of the same epoch. -/
def classifyInEpoch (ledger : AssetOpStreamLedger) (seq : Nat) : AssetOpSeqState :=
  if ledger.watermark > uint64Max - windowBits then .invalid
  else if seq ≤ ledger.watermark then .behindWindow
  else if exceedsJumpCap ledger.maxSeq seq then .jumpTooFar
  else if seq > ledger.watermark + windowBits then .aheadOfWindow
  else if !testBit ledger.seenBits (seq - ledger.watermark - 1) then .unseen
  else if testBit ledger.appliedBits (seq - ledger.watermark - 1) then .applied
  else .rejected

/-- `ClassifyAssetOpSeq`: a missing stream counts as an empty one of epoch zero. -/
def classifyAssetOpSeq (ledger : Option AssetOpStreamLedger) (epoch seq : Nat) :
    AssetOpSeqState :=
  if seq = 0 || epoch = 0 then .invalid
  else
    match ledger with
    | none => if seq ≤ maxSeqJump then .unseen else .jumpTooFar
    | some ledger =>
      if epoch < ledger.streamEpoch then .staleEpoch
      else if epoch > ledger.streamEpoch then
        if seq ≤ maxSeqJump then .unseen else .jumpTooFar
      else classifyInEpoch ledger seq

def assetOpRejectionReason (ledger : AssetOpStreamLedger) (seq : Nat) : Nat :=
  ((ledger.rejections.find? (·.seq = seq)).map (·.reasonTipId)).getD 0

def isAssetOpPartial (ledger : AssetOpStreamLedger) (seq : Nat) : Bool :=
  ledger.partialSeqs.contains seq

/-- `EnsureWindowWords`: pads, never cuts. -/
def ensureWindowWords (ledger : AssetOpStreamLedger) : AssetOpStreamLedger :=
  { ledger with
    seenBits := ledger.seenBits ++ zero (windowWords - ledger.seenBits.length)
    appliedBits := ledger.appliedBits ++ zero (windowWords - ledger.appliedBits.length) }

def emptyStream (stream : AssetOpStream) (epoch : Nat) : AssetOpStreamLedger :=
  ⟨stream, epoch, 0, 0, zero windowWords, zero windowWords, [], [], []⟩

def resetAssetOpStreamForEpoch (ledger : AssetOpStreamLedger) (epoch : Nat) :
    AssetOpStreamLedger :=
  emptyStream ledger.stream epoch

/-- `MutableAssetOpStream`, followed by `f` on the stream that it gives. A new stream is put before
the larger ones at the end of the list. -/
def modifyAssetOpStream (comp : PlayerAssetOpLedgerComp) (stream : AssetOpStream)
    (f : AssetOpStreamLedger → AssetOpStreamLedger) : PlayerAssetOpLedgerComp :=
  KeyedList.upsert (·.stream) (fun l => l.stream.number > stream.number) stream f
    (emptyStream stream 0) comp

def mutableAssetOpStream (comp : PlayerAssetOpLedgerComp) (stream : AssetOpStream) :
    AssetOpStreamLedger :=
  (findAssetOpStream comp stream).getD (emptyStream stream 0)

/-- Insertion before the first larger element, then the smallest ones beyond the limit go. -/
def insertBounded {α : Type} (seq : α → Nat) (limit : Nat) (list : List α) (added : α) : List α :=
  let list := list.takeWhile (fun x => seq x ≤ seq added) ++
    added :: list.dropWhile (fun x => seq x ≤ seq added)
  list.drop (list.length - limit)

def insertRejection (rejections : List AssetOpRejection) (seq reasonTipId : Nat) :
    List AssetOpRejection :=
  insertBounded (·.seq) maxRejections rejections ⟨seq, reasonTipId⟩

def insertPartialSeq (partialSeqs : List Nat) (seq : Nat) : List Nat :=
  insertBounded id maxPartialSeqs partialSeqs seq

def pruneBelowWatermark (ledger : AssetOpStreamLedger) (watermark : Nat) : AssetOpStreamLedger :=
  { ledger with
    rejections := ledger.rejections.dropWhile (·.seq ≤ watermark)
    partialSeqs := ledger.partialSeqs.dropWhile (· ≤ watermark)
    receipts := ledger.receipts.dropWhile (·.seq ≤ watermark) }

/-- `ShiftGroupRight` on the words of a group; words behind the window stay. -/
def shiftGroupRight (bits : Words) (shift : Nat) : Words :=
  shiftRight windowWords bits shift ++ bits.drop windowWords

/-- `ShiftGroupRight`, or `ClearWindowBits` when nothing of the window stays. -/
def slideBits (bits : Words) (shift : Nat) : Words :=
  (if shift ≥ windowBits then zero windowWords else shiftRight windowWords bits shift) ++
    bits.drop windowWords

def slideWindow (ledger : AssetOpStreamLedger) (seq : Nat) : AssetOpStreamLedger :=
  if seq > ledger.watermark + windowBits then
    let shift := seq - (ledger.watermark + windowBits)
    pruneBelowWatermark { ledger with
      seenBits := slideBits ledger.seenBits shift
      appliedBits := slideBits ledger.appliedBits shift
      watermark := ledger.watermark + shift } (ledger.watermark + shift)
  else ledger

/-- The bits and lists for one number of the window. An abort leaves no reason, so it takes no
place among the reasons. -/
def markSeq (ledger : AssetOpStreamLedger) (seq : Nat) (kind : AssetOpRecordKind)
    (reasonTipId : Nat) : AssetOpStreamLedger :=
  let index := seq - ledger.watermark - 1
  { ledger with
    seenBits := setBit ledger.seenBits index
    appliedBits := if kind.isApplied then setBit ledger.appliedBits index else ledger.appliedBits
    partialSeqs := if kind = .appliedPartial then insertPartialSeq ledger.partialSeqs seq
      else ledger.partialSeqs
    rejections := if kind = .rejected ∧ reasonTipId ≠ 0 then
        insertRejection ledger.rejections seq reasonTipId
      else ledger.rejections
    maxSeq := max ledger.maxSeq seq }

/-- `RecordAssetOpOutcome`: nothing is changed unless the number is new. -/
def recordAssetOpOutcome (ledger : AssetOpStreamLedger) (epoch seq : Nat)
    (kind : AssetOpRecordKind) (reasonTipId : Nat) : Option AssetOpStreamLedger :=
  match classifyAssetOpSeq (some ledger) epoch seq with
  | .unseen | .aheadOfWindow =>
    let ledger := if epoch > ledger.streamEpoch then resetAssetOpStreamForEpoch ledger epoch
      else ledger
    some (markSeq (slideWindow (ensureWindowWords ledger) seq) seq kind reasonTipId)
  | _ => none

/-! ## Streams of a player -/

variable {f : AssetOpStreamLedger → AssetOpStreamLedger}

theorem find_modify (hf : ∀ l, (f l).stream = l.stream) (comp : PlayerAssetOpLedgerComp)
    (stream s : AssetOpStream) :
    findAssetOpStream (modifyAssetOpStream comp stream f) s =
      if s = stream then some (f (mutableAssetOpStream comp s)) else findAssetOpStream comp s := by
  have hdefault : (emptyStream stream 0).stream = stream := rfl
  refine (KeyedList.find_upsert hf hdefault comp s).trans ?_
  split
  next hs => rw [mutableAssetOpStream, hs, findAssetOpStream, KeyedList.find]
  · rfl

/-! ## The ledger and what was recorded -/

structure OpKey where
  stream : AssetOpStream
  epoch : Nat
  seq : Nat
deriving DecidableEq, Repr

abbrev Decided := List (OpKey × AssetOpRecordKind)

/-- The ledger of one stream says of the numbers in its window exactly what was recorded for
them; larger numbers of its epoch and larger epochs are new. -/
structure AssetOpStreamLedger.Agrees (l : AssetOpStreamLedger) (decided : Decided) : Prop where
  seen_length : l.seenBits.length = windowWords
  applied_length : l.appliedBits.length = windowWords
  max_le : l.maxSeq ≤ l.watermark + windowBits
  epoch_le : ∀ e q k, (⟨l.stream, e, q⟩, k) ∈ decided → e ≤ l.streamEpoch
  seq_le : ∀ q k, (⟨l.stream, l.streamEpoch, q⟩, k) ∈ decided → q ≤ l.maxSeq
  bits : ∀ q k, (⟨l.stream, l.streamEpoch, q⟩, k) ∈ decided → l.watermark < q →
    testBit l.seenBits (q - l.watermark - 1) = true ∧
      testBit l.appliedBits (q - l.watermark - 1) = k.isApplied
  seen : ∀ i, testBit l.seenBits i = true →
    ∃ k, (⟨l.stream, l.streamEpoch, l.watermark + 1 + i⟩, k) ∈ decided
  applied_seen : ∀ i, testBit l.appliedBits i = true → testBit l.seenBits i = true

variable {bits : Words}

theorem lt_of_testBit (hlen : bits.length = windowWords) {i : Nat}
    (h : testBit bits i = true) : i < windowBits := by
  by_contra hge
  have hout : 64 * bits.length ≤ i := by
    simp only [hlen, windowBits, windowWords] at hge ⊢
    omega
  simp [testBit_of_le hout] at h

variable {shift : Nat}

theorem length_slideBits (hlen : bits.length = windowWords) :
    (slideBits bits shift).length = windowWords := by
  unfold slideBits
  split <;> simp [hlen]

theorem slideBits_of_lt (h : shift < windowBits) :
    slideBits bits shift = shiftGroupRight bits shift := by
  rw [slideBits, if_neg (Nat.not_le.2 h), shiftGroupRight]

/-- **The window is shifted as one number of 1024 bits.** -/
theorem number_shiftGroupRight (bits : WordArray windowWords) (shift : Nat) :
    (shiftGroupRight bits.toList shift).length = windowWords ∧
      number (shiftGroupRight bits.toList shift) = number bits.toList / 2 ^ shift := by
  have hlen : bits.toList.length = windowWords := bits.length_toList
  rw [shiftGroupRight, drop_of_length_le hlen.le, append_nil]
  exact ⟨length_shiftRight _ _ _, number_shiftRight hlen shift⟩

/-- A bit of the window that stays in it keeps its number. -/
theorem testBit_slideBits (hlen : bits.length = windowWords) {i : Nat}
    (hin : i + shift < windowBits) :
    testBit (slideBits bits shift) i = testBit bits (i + shift) := by
  have hi : i < 64 * windowWords := by
    simp only [windowBits, windowWords] at hin ⊢
    omega
  rw [slideBits_of_lt (by omega), shiftGroupRight, drop_of_length_le hlen.le,
    append_nil, testBit_shiftRight hlen shift hi]

theorem testBit_of_slideBits (hlen : bits.length = windowWords) {i : Nat}
    (h : testBit (slideBits bits shift) i = true) : testBit bits (i + shift) = true := by
  have hi := lt_of_testBit (length_slideBits hlen) h
  rw [slideBits, drop_of_length_le hlen.le, append_nil] at h
  split at h
  · simp at h
  · rwa [testBit_shiftRight hlen shift (by simp only [windowBits, windowWords] at hi ⊢; omega)] at h

section

variable (l : AssetOpStreamLedger)

theorem slideWindow_stream (q : Nat) : (slideWindow l q).stream = l.stream := by
  unfold slideWindow
  split <;> simp only [pruneBelowWatermark]

theorem slideWindow_streamEpoch (q : Nat) : (slideWindow l q).streamEpoch = l.streamEpoch := by
  unfold slideWindow
  split <;> simp only [pruneBelowWatermark]

theorem slideWindow_watermark (q : Nat) :
    (slideWindow l q).watermark = max l.watermark (q - windowBits) := by
  unfold slideWindow
  split
  next hq =>
    show l.watermark + (q - (l.watermark + windowBits)) = _
    omega
  next hq => omega

end

section Mark

variable {l : AssetOpStreamLedger} {q : Nat} (k : AssetOpRecordKind) (reason : Nat)

theorem length_markSeq_applied (l : AssetOpStreamLedger) (q : Nat) (k : AssetOpRecordKind)
    (reason : Nat) : (markSeq l q k reason).appliedBits.length = l.appliedBits.length := by
  simp only [markSeq]
  split <;> simp

theorem testBit_markSeq_seen (hlen : l.seenBits.length = windowWords) (hlow : l.watermark < q)
    (hhigh : q ≤ l.watermark + windowBits) (j : Nat) :
    testBit (markSeq l q k reason).seenBits j =
      (decide (q - l.watermark - 1 = j) || testBit l.seenBits j) := by
  refine testBit_setBit ?_ j
  simp only [hlen, windowBits, windowWords] at hhigh ⊢
  omega

theorem testBit_markSeq_applied (hlen : l.appliedBits.length = windowWords)
    (hlow : l.watermark < q) (hhigh : q ≤ l.watermark + windowBits) (j : Nat) :
    testBit (markSeq l q k reason).appliedBits j =
      (decide (q - l.watermark - 1 = j) && k.isApplied || testBit l.appliedBits j) := by
  have hin : q - l.watermark - 1 < 64 * l.appliedBits.length := by
    simp only [hlen, windowBits, windowWords] at hhigh ⊢
    omega
  simp only [markSeq]
  split
  next hk => rw [testBit_setBit hin, hk, Bool.and_true]
  next hk => simp [hk]

end Mark

namespace AssetOpStreamLedger.Agrees

variable {l : AssetOpStreamLedger} {decided : Decided} (h : l.Agrees decided)

include h

theorem ensureWindowWords_eq : ensureWindowWords l = l := by
  simp [ensureWindowWords, h.seen_length, h.applied_length, zero]

/-- A larger epoch starts with an empty ledger. -/
theorem reset {e : Nat} (he : l.streamEpoch < e) :
    (resetAssetOpStreamForEpoch l e).Agrees decided := by
  have hnone : ∀ q k, (⟨l.stream, e, q⟩, k) ∉ decided := fun q k hm => by
    have := h.epoch_le e q k hm
    omega
  refine ⟨by simp [resetAssetOpStreamForEpoch, emptyStream],
    by simp [resetAssetOpStreamForEpoch, emptyStream],
    by simp [resetAssetOpStreamForEpoch, emptyStream], ?_, ?_, ?_, ?_, ?_⟩
  · intro e' q k hm
    exact (h.epoch_le e' q k hm).trans he.le
  · intro q k hm
    exact absurd hm (hnone q k)
  · intro q k hm
    exact absurd hm (hnone q k)
  · intro i hi
    simp [resetAssetOpStreamForEpoch, emptyStream] at hi
  · intro i hi
    simp [resetAssetOpStreamForEpoch, emptyStream] at hi

/-- Moving the window forgets the numbers below it and nothing else. -/
theorem slide (q : Nat) : (slideWindow l q).Agrees decided := by
  unfold slideWindow
  split
  next hq =>
    generalize hshift : q - (l.watermark + windowBits) = shift
    have hmax := h.max_le
    refine ⟨length_slideBits h.seen_length, length_slideBits h.applied_length, ?_, h.epoch_le,
      h.seq_le, ?_, ?_, ?_⟩
    · simp only [pruneBelowWatermark]
      omega
    · intro q' k hm hlt
      simp only [pruneBelowWatermark] at hm hlt ⊢
      have hle := h.seq_le q' k hm
      have hidx : q' - (l.watermark + shift) - 1 + shift = q' - l.watermark - 1 := by omega
      have hin : q' - (l.watermark + shift) - 1 + shift < windowBits := by omega
      rw [testBit_slideBits h.seen_length hin, testBit_slideBits h.applied_length hin, hidx]
      exact h.bits q' k hm (by omega)
    · intro i hi
      simp only [pruneBelowWatermark] at hi ⊢
      obtain ⟨k, hk⟩ := h.seen _ (testBit_of_slideBits h.seen_length hi)
      have hidx : l.watermark + shift + 1 + i = l.watermark + 1 + (i + shift) := by omega
      exact ⟨k, hidx ▸ hk⟩
    · intro i hi
      simp only [pruneBelowWatermark] at hi ⊢
      have hold := testBit_of_slideBits h.applied_length hi
      have hin := lt_of_testBit h.applied_length hold
      rw [testBit_slideBits h.seen_length hin]
      exact h.applied_seen _ hold
  · exact h

theorem mark {q : Nat} {k : AssetOpRecordKind} (reason : Nat) (hlow : l.watermark < q)
    (hhigh : q ≤ l.watermark + windowBits)
    (hnew : ∀ k', (⟨l.stream, l.streamEpoch, q⟩, k') ∉ decided) :
    (markSeq l q k reason).Agrees (decided ++ [(⟨l.stream, l.streamEpoch, q⟩, k)]) := by
  have hunseen : testBit l.seenBits (q - l.watermark - 1) = false := by
    by_contra hbit
    obtain ⟨k', hk'⟩ := h.seen _ (by simpa using hbit)
    have hidx : l.watermark + 1 + (q - l.watermark - 1) = q := by omega
    exact hnew k' (hidx ▸ hk')
  have hunapplied : testBit l.appliedBits (q - l.watermark - 1) = false := by
    by_contra hbit
    have := h.applied_seen _ (by simpa using hbit)
    simp [hunseen] at this
  have happlied := testBit_markSeq_applied k reason h.applied_length hlow hhigh
  have hseen := testBit_markSeq_seen k reason h.seen_length hlow hhigh
  refine ⟨by simp [markSeq, h.seen_length],
    (length_markSeq_applied l q k reason).trans h.applied_length, ?_, ?_, ?_, ?_, ?_, ?_⟩
  · have := h.max_le
    simp only [markSeq]
    omega
  · intro e q' k' hm
    simp only [markSeq] at hm ⊢
    rcases mem_append.1 hm with hm | hm
    · exact h.epoch_le e q' k' hm
    · simp only [mem_singleton, Prod.mk.injEq, OpKey.mk.injEq] at hm
      omega
  · intro q' k' hm
    simp only [markSeq] at hm ⊢
    rcases mem_append.1 hm with hm | hm
    · have := h.seq_le q' k' hm
      omega
    · simp only [mem_singleton, Prod.mk.injEq, OpKey.mk.injEq] at hm
      omega
  · intro q' k' hm hlt
    rw [hseen, happlied]
    simp only [markSeq] at hm hlt ⊢
    rcases mem_append.1 hm with hm | hm
    · have hne : q' ≠ q := fun e => hnew k' (e ▸ hm)
      have hidx : q - l.watermark - 1 ≠ q' - l.watermark - 1 := by omega
      simpa [hidx] using h.bits q' k' hm hlt
    · simp only [mem_singleton, Prod.mk.injEq, OpKey.mk.injEq] at hm
      obtain ⟨⟨-, -, rfl⟩, rfl⟩ := hm
      simp [hunapplied]
  · intro i hi
    simp only [markSeq]
    rw [hseen, Bool.or_eq_true, decide_eq_true_eq] at hi
    rcases hi with rfl | hi
    · have hidx : l.watermark + 1 + (q - l.watermark - 1) = q := by omega
      exact ⟨k, by simp [hidx]⟩
    · obtain ⟨k', hk'⟩ := h.seen i hi
      exact ⟨k', mem_append_left _ hk'⟩
  · intro i hi
    rw [hseen]
    rw [happlied, Bool.or_eq_true, Bool.and_eq_true] at hi
    rcases hi with ⟨hi, -⟩ | hi
    · simp only [decide_eq_true_eq] at hi
      simp [hi]
    · simp [h.applied_seen i hi]

theorem append_other {op : OpKey} (hop : op.stream ≠ l.stream) (k : AssetOpRecordKind) :
    l.Agrees (decided ++ [(op, k)]) := by
  have hmem : ∀ e q k', ((⟨l.stream, e, q⟩, k') : OpKey × AssetOpRecordKind) ∈
      decided ++ [(op, k)] ↔ (⟨l.stream, e, q⟩, k') ∈ decided := by
    intro e q k'
    refine ⟨fun hm => ?_, fun hm => mem_append_left _ hm⟩
    rcases mem_append.1 hm with hm | hm
    · exact hm
    · simp only [mem_singleton, Prod.mk.injEq] at hm
      exact absurd (hm.1 ▸ rfl) hop
  refine { h with epoch_le := ?_, seq_le := ?_, bits := ?_, seen := ?_ }
  · exact fun e q k' hm => h.epoch_le e q k' ((hmem e q k').1 hm)
  · exact fun q k' hm => h.seq_le q k' ((hmem _ q k').1 hm)
  · exact fun q k' hm => h.bits q k' ((hmem _ q k').1 hm)
  · intro i hi
    obtain ⟨k', hk'⟩ := h.seen i hi
    exact ⟨k', (hmem _ _ k').2 hk'⟩

end AssetOpStreamLedger.Agrees

/-! ## What a classification says -/

variable {l : AssetOpStreamLedger} {e q : Nat}

/-- The number is new to the ledger: of a larger epoch, above the window or with a clear bit. -/
theorem classify_new
    (h : classifyAssetOpSeq (some l) e q = .unseen ∨
      classifyAssetOpSeq (some l) e q = .aheadOfWindow) :
    l.streamEpoch < e ∧ 0 < q ∧ q ≤ maxSeqJump ∨
      e = l.streamEpoch ∧ l.watermark < q ∧
        (l.watermark + windowBits < q ∨ testBit l.seenBits (q - l.watermark - 1) = false) := by
  unfold classifyAssetOpSeq at h
  split at h
  · simp at h
  rename_i hzero
  simp only [Bool.or_eq_true, decide_eq_true_eq, not_or] at hzero
  dsimp only at h
  split at h
  · simp at h
  rename_i hle
  split at h
  next hgt =>
    split at h
    next hq => exact .inl ⟨hgt, by omega, hq⟩
    · simp at h
  next hgt =>
    refine .inr ⟨by omega, ?_⟩
    unfold classifyInEpoch at h
    split at h
    · simp at h
    split at h
    · simp at h
    rename_i hlow
    refine ⟨by omega, ?_⟩
    split at h
    · simp at h
    split at h
    next hahead => exact .inl (by omega)
    · split at h
      next hbit => exact .inr (by simpa using hbit)
      · split at h <;> simp at h

variable {b : Bool}

/-- The number was seen: it lies in the window, and its bits say what is answered. -/
theorem classify_seen (h : classifyAssetOpSeq (some l) e q = if b then .applied else .rejected) :
    e = l.streamEpoch ∧ l.watermark < q ∧ testBit l.seenBits (q - l.watermark - 1) = true ∧
      testBit l.appliedBits (q - l.watermark - 1) = b := by
  unfold classifyAssetOpSeq at h
  split at h
  · cases b <;> simp at h
  dsimp only at h
  split at h
  · cases b <;> simp at h
  split at h
  · split at h <;> cases b <;> simp at h
  refine ⟨by omega, ?_⟩
  unfold classifyInEpoch at h
  split at h
  · cases b <;> simp at h
  split at h
  · cases b <;> simp at h
  rename_i hlow
  refine ⟨by omega, ?_⟩
  split at h
  · cases b <;> simp at h
  split at h
  · cases b <;> simp at h
  split at h
  · cases b <;> simp at h
  next hseen =>
    refine ⟨by simpa using hseen, ?_⟩
    split at h
    next happ => cases b <;> simp_all
    next happ => cases b <;> simp_all

theorem classify_ne_zero {ledger : Option AssetOpStreamLedger}
    (h : classifyAssetOpSeq ledger e q = if b then .applied else .rejected) : q ≠ 0 ∧ e ≠ 0 := by
  unfold classifyAssetOpSeq at h
  split at h
  · cases b <;> simp at h
  next hzero => simpa using hzero

/-- The ledger of the operation's epoch, on which a new number is recorded. -/
def AssetOpStreamLedger.base (l : AssetOpStreamLedger) (e : Nat) : AssetOpStreamLedger :=
  if e > l.streamEpoch then resetAssetOpStreamForEpoch l e else l

theorem AssetOpStreamLedger.base_stream (l : AssetOpStreamLedger) (e : Nat) :
    (l.base e).stream = l.stream := by
  unfold AssetOpStreamLedger.base
  split <;> rfl

variable {l' : AssetOpStreamLedger} {reason : Nat} {k : AssetOpRecordKind}

section

variable (h : recordAssetOpOutcome l e q k reason = some l')

include h

/-- What a successful recording does: the number is new to the ledger of its epoch, which lies
below it, and is marked there. -/
theorem record_cases :
    (classifyAssetOpSeq (some l) e q = .unseen ∨
      classifyAssetOpSeq (some l) e q = .aheadOfWindow) ∧
    (l.base e).streamEpoch = e ∧ (l.base e).watermark < q ∧
      l' = markSeq (slideWindow (ensureWindowWords (l.base e)) q) q k reason := by
  have hc : classifyAssetOpSeq (some l) e q = .unseen ∨
      classifyAssetOpSeq (some l) e q = .aheadOfWindow := by
    unfold recordAssetOpOutcome at h
    split at h
    next hc => exact .inl hc
    next hc => exact .inr hc
    · cases h
  have hl' : l' = markSeq (slideWindow (ensureWindowWords (l.base e)) q) q k reason := by
    unfold recordAssetOpOutcome at h
    rcases hc with hc | hc <;> rw [hc] at h <;> exact (some.inj h).symm
  refine ⟨hc, ?_, ?_, hl'⟩
  · unfold AssetOpStreamLedger.base
    split
    · rfl
    next hle =>
      rcases classify_new hc with ⟨hgt, -⟩ | ⟨heq, -⟩
      · omega
      · exact heq.symm
  · unfold AssetOpStreamLedger.base
    split
    next hgt =>
      rcases classify_new hc with ⟨-, hpos, -⟩ | ⟨heq, -⟩
      · exact hpos
      · omega
    next hle =>
      rcases classify_new hc with ⟨hgt, -⟩ | ⟨-, hlow, -⟩
      · omega
      · exact hlow

theorem recordAssetOpOutcome_stream : l'.stream = l.stream := by
  obtain ⟨-, -, -, rfl⟩ := record_cases h
  exact (slideWindow_stream _ q).trans (l.base_stream e)

end

theorem recordAssetOpOutcome_getD_stream (e q reason : Nat) (k : AssetOpRecordKind)
    (l : AssetOpStreamLedger) :
    ((recordAssetOpOutcome l e q k reason).getD l).stream = l.stream := by
  cases hl : recordAssetOpOutcome l e q k reason with
  | none => rfl
  | some l' => exact recordAssetOpOutcome_stream hl

namespace AssetOpStreamLedger.Agrees

variable {l : AssetOpStreamLedger} {decided : Decided} (h : l.Agrees decided)

include h

theorem base (e : Nat) : (l.base e).Agrees decided := by
  unfold AssetOpStreamLedger.base
  split
  next hgt => exact h.reset hgt
  · exact h

theorem not_decided_of_unseen
    (hc : classifyAssetOpSeq (some l) e q = .unseen ∨
      classifyAssetOpSeq (some l) e q = .aheadOfWindow)
    (k : AssetOpRecordKind) :
    (⟨l.stream, e, q⟩, k) ∉ decided := by
  intro hm
  rcases classify_new hc with ⟨hgt, -, -⟩ | ⟨rfl, hlow, hahead | hbit⟩
  · have := h.epoch_le e q k hm
    omega
  · have := h.seq_le q k hm
    have := h.max_le
    omega
  · simp [(h.bits q k hm hlow).1] at hbit

theorem decided_of_seen (hc : classifyAssetOpSeq (some l) e q = if b then .applied else .rejected) :
    ∃ k, k.isApplied = b ∧ (⟨l.stream, e, q⟩, k) ∈ decided := by
  obtain ⟨rfl, hlow, hseen, happlied⟩ := classify_seen hc
  obtain ⟨k, hk⟩ := h.seen _ hseen
  have hidx : l.watermark + 1 + (q - l.watermark - 1) = q := by omega
  rw [hidx] at hk
  exact ⟨k, (h.bits q k hk hlow).2.symm.trans happlied, hk⟩

theorem record {reason : Nat} {k : AssetOpRecordKind} {l' : AssetOpStreamLedger}
    (hr : recordAssetOpOutcome l e q k reason = some l') :
    l'.stream = l.stream ∧ l'.Agrees (decided ++ [(⟨l.stream, e, q⟩, k)]) := by
  obtain ⟨hc, hepoch, hlow, rfl⟩ := record_cases hr
  have hfresh := h.not_decided_of_unseen hc
  have hagrees := h.base e
  rw [hagrees.ensureWindowWords_eq]
  have hs : (slideWindow (l.base e) q).stream = l.stream :=
    (slideWindow_stream _ q).trans (l.base_stream e)
  have he : (slideWindow (l.base e) q).streamEpoch = e :=
    (slideWindow_streamEpoch _ q).trans hepoch
  have hpos : 0 < windowBits := by decide
  have hlt : (slideWindow (l.base e) q).watermark < q := by
    rw [slideWindow_watermark]
    omega
  have hge : q ≤ (slideWindow (l.base e) q).watermark + windowBits := by
    rw [slideWindow_watermark]
    omega
  refine ⟨hs, ?_⟩
  have hmark := (hagrees.slide q).mark (k := k) reason hlt hge (by rw [hs, he]; exact hfresh)
  rwa [hs, he] at hmark

end AssetOpStreamLedger.Agrees

/-! ## All streams -/

structure LedgerAgrees (comp : PlayerAssetOpLedgerComp) (decided : Decided) : Prop where
  missing : ∀ s, findAssetOpStream comp s = none → ∀ e q k, (⟨s, e, q⟩, k) ∉ decided
  found : ∀ s l, findAssetOpStream comp s = some l → l.Agrees decided

theorem findAssetOpStream_stream {comp : PlayerAssetOpLedgerComp} {s : AssetOpStream}
    (h : findAssetOpStream comp s = some l) : l.stream = s := by
  simpa using List.find?_some h

theorem mutableAssetOpStream_stream (comp : PlayerAssetOpLedgerComp) (s : AssetOpStream) :
    (mutableAssetOpStream comp s).stream = s := by
  unfold mutableAssetOpStream
  cases h : findAssetOpStream comp s with
  | none => rfl
  | some l => exact findAssetOpStream_stream h

namespace LedgerAgrees

variable {comp : PlayerAssetOpLedgerComp} {decided : Decided}

theorem nil : LedgerAgrees [] [] := by
  constructor <;> simp [findAssetOpStream]

theorem mutable (h : LedgerAgrees comp decided) (s : AssetOpStream) :
    (mutableAssetOpStream comp s).Agrees decided := by
  unfold mutableAssetOpStream
  cases hf : findAssetOpStream comp s with
  | some l => exact h.found s l hf
  | none =>
    have hs := h.missing s hf
    refine ⟨by simp [emptyStream], by simp [emptyStream], by simp [emptyStream], ?_, ?_, ?_, ?_, ?_⟩
    · exact fun e q k hm => absurd hm (hs e q k)
    · exact fun q k hm => absurd hm (hs _ q k)
    · exact fun q k hm => absurd hm (hs _ q k)
    · intro i hi
      simp [emptyStream] at hi
    · intro i hi
      simp [emptyStream] at hi

/-- A missing stream is classified as the empty one that would be created. -/
theorem classify_mutable (comp : PlayerAssetOpLedgerComp) (s : AssetOpStream) (e q : Nat) :
    classifyAssetOpSeq (some (mutableAssetOpStream comp s)) e q =
      classifyAssetOpSeq (findAssetOpStream comp s) e q := by
  unfold mutableAssetOpStream
  cases hf : findAssetOpStream comp s with
  | some l => rfl
  | none =>
    unfold classifyAssetOpSeq
    split
    · rfl
    next hzero =>
      simp only [Bool.or_eq_true, decide_eq_true_eq, not_or] at hzero
      have hpos : e > (emptyStream s 0).streamEpoch := Nat.pos_of_ne_zero hzero.2
      simp [hpos, Nat.not_lt.2 hpos.le]

variable {s stream : AssetOpStream} {k : AssetOpRecordKind} (h : LedgerAgrees comp decided)

include h

theorem not_decided_of_unseen
    (hc : classifyAssetOpSeq (findAssetOpStream comp s) e q = .unseen ∨
      classifyAssetOpSeq (findAssetOpStream comp s) e q = .aheadOfWindow)
    (k : AssetOpRecordKind) : (⟨s, e, q⟩, k) ∉ decided := by
  rw [← classify_mutable] at hc
  have := (h.mutable s).not_decided_of_unseen hc k
  rwa [mutableAssetOpStream_stream] at this

theorem decided_of_seen
    (hc : classifyAssetOpSeq (findAssetOpStream comp s) e q = if b then .applied else .rejected) :
    ∃ k, k.isApplied = b ∧ (⟨s, e, q⟩, k) ∈ decided := by
  rw [← classify_mutable] at hc
  have := (h.mutable s).decided_of_seen hc
  rwa [mutableAssetOpStream_stream] at this

/-- A change of one stream that records nothing. -/
theorem change (hf : ∀ l, (f l).stream = l.stream)
    (hagrees : (f (mutableAssetOpStream comp stream)).Agrees decided) :
    LedgerAgrees (modifyAssetOpStream comp stream f) decided := by
  constructor
  · intro s hfind
    rw [find_modify hf] at hfind
    split at hfind
    · cases hfind
    · exact h.missing s hfind
  · intro s l hfind
    rw [find_modify hf] at hfind
    split at hfind
    next hs =>
      obtain rfl := hs
      exact some.inj hfind ▸ hagrees
    · exact h.found s l hfind

theorem modify (hf : ∀ l, (f l).stream = l.stream) {op : OpKey}
    (hop : (f (mutableAssetOpStream comp op.stream)).Agrees (decided ++ [(op, k)])) :
    LedgerAgrees (modifyAssetOpStream comp op.stream f) (decided ++ [(op, k)]) := by
  constructor
  · intro s hfind e q k' hm
    rw [find_modify hf] at hfind
    split at hfind
    · cases hfind
    next hs =>
      rcases mem_append.1 hm with hm | hm
      · exact h.missing s hfind e q k' hm
      · simp only [mem_singleton, Prod.mk.injEq] at hm
        exact hs (hm.1 ▸ rfl)
  · intro s l hfind
    rw [find_modify hf] at hfind
    split at hfind
    next hs =>
      obtain rfl := hs
      exact some.inj hfind ▸ hop
    next hs =>
      have hstream := findAssetOpStream_stream hfind
      exact (h.found s l hfind).append_other (fun e => hs (hstream.symm.trans e.symm)) k

theorem record {reason : Nat} {l' : AssetOpStreamLedger}
    (hr : recordAssetOpOutcome (mutableAssetOpStream comp stream) e q k reason = some l') :
    LedgerAgrees (modifyAssetOpStream comp stream fun l =>
      (recordAssetOpOutcome l e q k reason).getD l) (decided ++ [(⟨stream, e, q⟩, k)]) := by
  have hagrees := ((h.mutable stream).record hr).2
  rw [mutableAssetOpStream_stream] at hagrees
  refine @LedgerAgrees.modify _ _ _ _ h (recordAssetOpOutcome_getD_stream e q reason k)
    ⟨stream, e, q⟩ ?_
  dsimp only
  rw [hr]
  exact hagrees

end LedgerAgrees

end Mmorpg.AssetOp
