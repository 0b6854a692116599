import Mathlib.Algebra.Order.BigOperators.Group.List
import Mmorpg.AssetOp.ExactlyOnce
import Mmorpg.AssetOp.Outcomes
import Mmorpg.AssetOp.Pending

/-!
# The validator of a loaded ledger

`ValidateAssetOpLedger` refuses a stored ledger that the scene could not have written; the player
is then kept out of the asset channel. `validateAssetOpLedger_eq_none` says what is accepted:
ascending streams that are `Sane` and have an epoch. **Writers and validator agree**
(`Sane.record`, `CompSane.modify`): a recording re-establishes every check, after sliding, pruning
and inserting, up to the number 2^64 - 1. Only the epoch is not kept by every writer:
`MutableAssetOpStream` creates a stream of epoch zero, which a recording has to follow before the
ledger is saved.
-/

namespace Mmorpg.AssetOp

open BitWords List

def refuseIf (bad : Bool) (text : String) : Option String := if bad then some text else none

def streamPrefix (l : AssetOpStreamLedger) (index : Nat) : String :=
  "streams[" ++ toString index ++ "] stream=" ++ toString l.stream.number ++ " "

/-- The loop over `rejections`, or over `partial_seqs`: strictly ascending numbers of the window
with the right bits. -/
def validateSeqs (list bitText : String) (watermark : Nat) (bit : Nat → Bool) :
    Option Nat → List Nat → Option String
  | _, [] => none
  | previous, seq :: seqs =>
    if previous.any (seq ≤ ·) then
      some (list ++ " not strictly ascending,seq=" ++ toString seq)
    else if seq ≤ watermark || seq > watermark + windowBits then
      some (list ++ " outside window,seq=" ++ toString seq)
    else if !bit (seq - watermark - 1) then
      some (list ++ bitText ++ ",seq=" ++ toString seq)
    else validateSeqs list bitText watermark bit (some seq) seqs

def badPayload (instanceProto : Bytes) : Bool :=
  instanceProto.isEmpty || instanceProto.length > maxInstanceBytes

section Validate

variable {A : Type} (sv : AssetServices A)

/-- The body of the loop over the receipts. A missing snapshot reads as an empty one. -/
def validateReceipt (l : AssetOpStreamLedger) (previous : Nat) (receipt : AssetOpReceipt) :
    Option String :=
  let bit := receipt.seq - l.watermark - 1
  refuseIf (receipt.seq ≤ previous || receipt.seq ≤ l.watermark ||
      receipt.seq > l.watermark + windowBits || receipt.requestDigest.length ≠ 32)
    "invalid request identity receipt" <|>
  refuseIf (!testBit l.seenBits bit) "receipt without seen outcome" <|>
  refuseIf (receipt.snapshot.isSome &&
      (!testBit l.appliedBits bit || receipt.correlationId = 0))
    "instance receipt without applied outcome or correlation" <|>
  refuseIf ((receipt.snapshot.map sv.snapshotBytes).getD 0 > maxSnapshotBytes)
    "oversized instance receipt" <|>
  refuseIf ((receipt.snapshot.getD .empty).items.any (badPayload ·.instanceProto))
    "invalid item receipt payload" <|>
  refuseIf ((receipt.snapshot.getD .empty).pet.any (badPayload ·.instanceProto))
    "invalid pet receipt payload"

def validateReceipts (l : AssetOpStreamLedger) : Nat → List AssetOpReceipt → Option String
  | _, [] => none
  | previous, receipt :: receipts =>
    validateReceipt sv l previous receipt <|> validateReceipts l receipt.seq receipts

def validateStreamLedger (l : AssetOpStreamLedger) (index : Nat) : Option String :=
  let error : Option String :=
    refuseIf (l.stream = .unspecified) "invalid AssetOpStream" <|>
    refuseIf (l.streamEpoch = 0) "stream_epoch = 0" <|>
    refuseIf (l.seenBits.length ≠ windowWords)
      ("seen_bits count=" ++ toString l.seenBits.length ++ " expected 16") <|>
    refuseIf (l.appliedBits.length ≠ windowWords)
      ("applied_bits count=" ++ toString l.appliedBits.length ++ " expected 16") <|>
    ((range windowWords).find? fun word =>
        readWord l.appliedBits word &&& ~~~ readWord l.seenBits word ≠ 0).map
      ("applied is not a subset of seen,word=" ++ toString ·) <|>
    refuseIf (l.watermark > uint64Max - windowBits) "watermark near overflow" <|>
    refuseIf (l.maxSeq < l.watermark)
      ("max_seq=" ++ toString l.maxSeq ++ " < watermark=" ++ toString l.watermark) <|>
    refuseIf (l.rejections.length > maxRejections)
      ("rejections count=" ++ toString l.rejections.length ++ " exceeds 64") <|>
    validateSeqs "rejections" " bit is not seen and unapplied" l.watermark
      (fun bit => testBit l.seenBits bit && !testBit l.appliedBits bit) none
      (l.rejections.map (·.seq)) <|>
    refuseIf (l.partialSeqs.length > maxPartialSeqs)
      ("partial_seqs count=" ++ toString l.partialSeqs.length ++ " exceeds window") <|>
    validateSeqs "partial_seqs" " bit is not applied" l.watermark (testBit l.appliedBits) none
      l.partialSeqs <|>
    validateReceipts sv l 0 l.receipts
  error.map fun text => streamPrefix l index ++ text

def validateStreams : Option Nat → Nat → PlayerAssetOpLedgerComp → Option String
  | _, _, [] => none
  | previous, index, l :: ls =>
    let refusal := streamPrefix l index ++ "streams not strictly ascending(duplicate or unordered)"
    refuseIf (previous.any (l.stream.number ≤ ·)) refusal <|>
    validateStreamLedger sv l index <|>
    validateStreams (some l.stream.number) (index + 1) ls

/-- `ValidateAssetOpLedger`: the reason to refuse the ledger. -/
def validateAssetOpLedger (comp : PlayerAssetOpLedgerComp) : Option String :=
  refuseIf (receiptBytes sv comp > maxPlayerReceiptBytes)
    "asset receipts exceed player byte limit" <|>
  validateStreams sv none 0 comp

end Validate

/-! ## What is accepted -/

@[simp] theorem refuseIf_eq_none {bad : Bool} {text : String} :
    refuseIf bad text = none ↔ bad = false := by
  cases bad <;> simp [refuseIf]

/-- Strictly ascending numbers of the window above `w`, all with their bit. -/
structure SeqsOk (bit : Nat → Bool) (w : Nat) (seqs : List Nat) : Prop where
  ascending : seqs.Pairwise (· < ·)
  window : ∀ q ∈ seqs, w < q ∧ q ≤ w + windowBits
  bits : ∀ q ∈ seqs, bit (q - w - 1) = true

namespace SeqsOk

variable {bit : Nat → Bool} {w : Nat} {seqs : List Nat}

theorem nil (bit : Nat → Bool) (w : Nat) : SeqsOk bit w [] :=
  ⟨.nil, by simp, by simp⟩

theorem cons_iff {q : Nat} : SeqsOk bit w (q :: seqs) ↔
    (∀ q' ∈ seqs, q < q') ∧ (w < q ∧ q ≤ w + windowBits) ∧ bit (q - w - 1) = true ∧
      SeqsOk bit w seqs := by
  constructor
  · rintro ⟨hasc, hwin, hbits⟩
    obtain ⟨hq, hasc⟩ := pairwise_cons.1 hasc
    obtain ⟨hqw, hwin⟩ := forall_mem_cons.1 hwin
    obtain ⟨hqb, hbits⟩ := forall_mem_cons.1 hbits
    exact ⟨hq, hqw, hqb, hasc, hwin, hbits⟩
  · rintro ⟨hq, hqw, hqb, hasc, hwin, hbits⟩
    exact ⟨pairwise_cons.2 ⟨hq, hasc⟩, forall_mem_cons.2 ⟨hqw, hwin⟩,
      forall_mem_cons.2 ⟨hqb, hbits⟩⟩

end SeqsOk

variable {previous : Option Nat}

theorem validateSeqs_eq_none {list bitText : String} {w : Nat} {bit : Nat → Bool}
    {seqs : List Nat} :
    validateSeqs list bitText w bit previous seqs = none ↔
      (∀ p ∈ previous, ∀ q ∈ seqs, p < q) ∧ SeqsOk bit w seqs := by
  induction seqs generalizing previous with
  | nil => simp [validateSeqs, SeqsOk.nil]
  | cons seq seqs ih =>
    have hprev : (∀ p ∈ previous, ∀ q ∈ seq :: seqs, p < q) ∧ SeqsOk bit w (seq :: seqs) ↔
        previous.any (seq ≤ ·) = false ∧ (w < seq ∧ seq ≤ w + windowBits) ∧
          bit (seq - w - 1) = true ∧ (∀ q ∈ seqs, seq < q) ∧ SeqsOk bit w seqs := by
      rw [SeqsOk.cons_iff]
      constructor
      · rintro ⟨hp, hlt, hw, hb, hok⟩
        refine ⟨?_, hw, hb, hlt, hok⟩
        cases previous with
        | none => rfl
        | some p => simpa using hp p rfl seq (mem_cons_self ..)
      · rintro ⟨hp, hw, hb, hlt, hok⟩
        refine ⟨?_, hlt, hw, hb, hok⟩
        rintro p rfl q hq
        have hseq : p < seq := by simpa using hp
        rcases mem_cons.1 hq with rfl | hq
        · exact hseq
        · exact hseq.trans (hlt q hq)
    rw [hprev, validateSeqs]
    split
    next h => simp [h]
    rename_i h
    split
    next hw =>
      simp only [Bool.or_eq_true, decide_eq_true_eq] at hw
      simp only [reduceCtorEq, false_iff]
      rintro ⟨-, hw', -⟩
      omega
    next hw =>
      simp only [Bool.or_eq_true, decide_eq_true_eq, not_or, Nat.not_le, Nat.not_lt,
        gt_iff_lt] at hw
      split
      next hb => simp_all
      next hb => simp_all

section Accepted

variable {A : Type} (sv : AssetServices A)

@[mk_iff]
structure ReceiptOk (l : AssetOpStreamLedger) (r : AssetOpReceipt) : Prop where
  digest : r.requestDigest.length = 32
  applied : r.snapshot.isSome → testBit l.appliedBits (r.seq - l.watermark - 1) = true
  correlation : r.snapshot.isSome → r.correlationId ≠ 0
  size : (r.snapshot.map sv.snapshotBytes).getD 0 ≤ maxSnapshotBytes
  items : ∀ item ∈ (r.snapshot.getD .empty).items, badPayload item.instanceProto = false
  pet : ∀ pet ∈ (r.snapshot.getD .empty).pet, badPayload pet.instanceProto = false

structure AssetOpStreamLedger.WindowOk (l : AssetOpStreamLedger) : Prop where
  seen_length : l.seenBits.length = windowWords
  applied_length : l.appliedBits.length = windowWords
  applied_seen : ∀ i, testBit l.appliedBits i = true → testBit l.seenBits i = true
  rejections_length : l.rejections.length ≤ maxRejections
  rejections : SeqsOk (fun bit => testBit l.seenBits bit && !testBit l.appliedBits bit) l.watermark
    (l.rejections.map (·.seq))
  partialSeqs_length : l.partialSeqs.length ≤ maxPartialSeqs
  partialSeqs : SeqsOk (testBit l.appliedBits) l.watermark l.partialSeqs
  receiptSeqs : SeqsOk (testBit l.seenBits) l.watermark (l.receipts.map (·.seq))
  receipts : ∀ r ∈ l.receipts, ReceiptOk sv l r

/-- Everything that is checked for one stream, but for its epoch. -/
structure AssetOpStreamLedger.Sane (l : AssetOpStreamLedger) : Prop extends l.WindowOk sv where
  stream_ne : l.stream ≠ .unspecified
  watermark_le : l.watermark ≤ uint64Max - windowBits
  watermark_max : l.watermark ≤ l.maxSeq

variable {l : AssetOpStreamLedger}

theorem validateReceipt_eq_none {previous : Nat} {r : AssetOpReceipt} :
    validateReceipt sv l previous r = none ↔
      previous < r.seq ∧ (l.watermark < r.seq ∧ r.seq ≤ l.watermark + windowBits) ∧
        testBit l.seenBits (r.seq - l.watermark - 1) = true ∧ ReceiptOk sv l r := by
  simp only [validateReceipt, receiptOk_iff, Option.orElse_eq_none, refuseIf_eq_none,
    Bool.or_eq_false_iff, Bool.and_eq_false_iff, decide_eq_false_iff_not, Bool.not_eq_false',
    Nat.not_le, Nat.not_lt, gt_iff_lt, ne_eq, Decidable.not_not]
  cases r.snapshot with
  | none => simp [AssetSnapshot.empty]; tauto
  | some snapshot => cases hpet : snapshot.pet <;> simp [hpet] <;> tauto

theorem validateReceipts_eq_none {previous : Nat}
    {rs : List AssetOpReceipt} :
    validateReceipts sv l previous rs = none ↔
      (∀ r ∈ rs, previous < r.seq) ∧ SeqsOk (testBit l.seenBits) l.watermark (rs.map (·.seq)) ∧
        ∀ r ∈ rs, ReceiptOk sv l r := by
  induction rs generalizing previous with
  | nil => simp [validateReceipts, SeqsOk.nil]
  | cons r rs ih =>
    rw [validateReceipts, Option.orElse_eq_none, validateReceipt_eq_none, ih, map_cons,
      SeqsOk.cons_iff, forall_mem_cons, forall_mem_cons, forall_mem_map]
    constructor
    · rintro ⟨⟨hp, hw, hb, hr⟩, hlt, hok, hrs⟩
      exact ⟨⟨hp, fun r' hr' => hp.trans (hlt r' hr')⟩, ⟨hlt, hw, hb, hok⟩, hr, hrs⟩
    · rintro ⟨⟨hp, -⟩, ⟨hlt, hw, hb, hok⟩, hr, hrs⟩
      exact ⟨⟨hp, hw, hb, hr⟩, hlt, hok, hrs⟩

theorem validateStreamLedger_eq_none {index : Nat} :
    validateStreamLedger sv l index = none ↔ l.Sane sv ∧ l.streamEpoch ≠ 0 := by
  simp only [validateStreamLedger, Option.map_eq_none_iff, Option.orElse_eq_none,
    refuseIf_eq_none, decide_eq_false_iff_not, Decidable.not_not, Nat.not_lt, gt_iff_lt, ne_eq,
    validateSeqs_eq_none, validateReceipts_eq_none, List.find?_eq_none, mem_range,
    decide_eq_true_eq]
  constructor
  · rintro ⟨hs, he, hseen, happ, hsub, hw, hm, hrl, ⟨-, hr⟩, hpl, ⟨-, hp⟩, -, hc, hcs⟩
    exact ⟨⟨⟨hseen, happ, (andNot_eq_zero_iff happ).1 hsub, hrl, hr, hpl, hp, hc, hcs⟩, hs, hw, hm⟩,
      he⟩
  · rintro ⟨h, he⟩
    refine ⟨h.stream_ne, he, h.seen_length, h.applied_length,
      (andNot_eq_zero_iff h.applied_length).2 h.applied_seen, h.watermark_le, h.watermark_max,
      h.rejections_length, ⟨by simp, h.rejections⟩, h.partialSeqs_length, ⟨by simp, h.partialSeqs⟩,
      fun r hr => ?_, h.receiptSeqs, h.receipts⟩
    exact Nat.zero_lt_of_lt (h.receiptSeqs.window _ (mem_map_of_mem hr)).1

structure CompSane (comp : PlayerAssetOpLedgerComp) : Prop where
  ascending : comp.Pairwise (·.stream.number < ·.stream.number)
  sane : ∀ l ∈ comp, l.Sane sv
  bytes : receiptBytes sv comp ≤ maxPlayerReceiptBytes

variable {comp : PlayerAssetOpLedgerComp}

theorem validateStreams_eq_none {index : Nat} :
    validateStreams sv previous index comp = none ↔
      (∀ p ∈ previous, ∀ l ∈ comp, p < l.stream.number) ∧
        comp.Pairwise (·.stream.number < ·.stream.number) ∧
        ∀ l ∈ comp, l.Sane sv ∧ l.streamEpoch ≠ 0 := by
  induction comp generalizing previous index with
  | nil => simp [validateStreams]
  | cons l comp ih =>
    rw [validateStreams, Option.orElse_eq_none, Option.orElse_eq_none, refuseIf_eq_none,
      validateStreamLedger_eq_none, ih, pairwise_cons, forall_mem_cons]
    have hprev : previous.any (l.stream.number ≤ ·) = false ↔
        ∀ p ∈ previous, p < l.stream.number := by
      cases previous <;> simp
    rw [hprev]
    simp only [Option.mem_some_iff, forall_eq']
    constructor
    · rintro ⟨hp, hl, hlt, hasc, hok⟩
      refine ⟨fun p hpp => forall_mem_cons.2 ⟨hp p hpp, fun l' hl' => ?_⟩, ⟨hlt, hasc⟩, hl, hok⟩
      exact (hp p hpp).trans (hlt l' hl')
    · rintro ⟨hp, ⟨hlt, hasc⟩, hl, hok⟩
      exact ⟨fun p hpp => (forall_mem_cons.1 (hp p hpp)).1, hl, hlt, hasc, hok⟩

/-- **What the validator accepts.** -/
theorem validateAssetOpLedger_eq_none :
    validateAssetOpLedger sv comp = none ↔ CompSane sv comp ∧ ∀ l ∈ comp, l.streamEpoch ≠ 0 := by
  rw [validateAssetOpLedger, Option.orElse_eq_none, refuseIf_eq_none, validateStreams_eq_none]
  simp only [decide_eq_false_iff_not, gt_iff_lt, Nat.not_lt]
  constructor
  · rintro ⟨hb, -, hasc, hok⟩
    exact ⟨⟨hasc, fun l hl => (hok l hl).1, hb⟩, fun l hl => (hok l hl).2⟩
  · rintro ⟨⟨hasc, hok, hb⟩, he⟩
    exact ⟨hb, by simp, hasc, fun l hl => ⟨hok l hl, he l hl⟩⟩

end Accepted

/-! ## Writing one stream -/

theorem lt_of_mem_dropWhile {seqs : List Nat} (h : seqs.Pairwise (· < ·)) {c q : Nat}
    (hq : q ∈ seqs.dropWhile (· ≤ c)) : c < q := by
  induction seqs with
  | nil => cases hq
  | cons a seqs ih =>
    obtain ⟨ha, hseqs⟩ := pairwise_cons.1 h
    rw [dropWhile_cons] at hq
    split at hq
    · exact ih hseqs hq
    next hc =>
      simp only [decide_eq_true_eq, Nat.not_le] at hc
      rcases mem_cons.1 hq with rfl | hq
      · exact hc
      · exact hc.trans (ha q hq)

theorem map_insertBounded {α : Type} (seq : α → Nat) (limit : Nat) (list : List α) (added : α) :
    (insertBounded seq limit list added).map seq =
      insertBounded id limit (list.map seq) (seq added) := by
  simp [insertBounded, takeWhile_map, dropWhile_map, map_drop, Function.comp_def]

theorem length_insertBounded {α : Type} (seq : α → Nat) (limit : Nat) (list : List α) (added : α) :
    (insertBounded seq limit list added).length ≤ limit := by
  simp only [insertBounded, length_drop]
  omega

namespace SeqsOk

variable {bit bit' : Nat → Bool} {w : Nat} {seqs : List Nat} (h : SeqsOk bit w seqs)

include h

theorem sublist {seqs' : List Nat} (hs : Sublist seqs' seqs) : SeqsOk bit w seqs' :=
  ⟨h.ascending.sublist hs, fun q hq => h.window q (hs.subset hq),
    fun q hq => h.bits q (hs.subset hq)⟩

/-- The window moves up; numbers below it are dropped. -/
theorem slide (shift : Nat)
    (hbit : ∀ i, i + shift < windowBits → bit (i + shift) = true → bit' i = true) :
    SeqsOk bit' (w + shift) (seqs.dropWhile (· ≤ w + shift)) := by
  have hsub := seqs.dropWhile_sublist (· ≤ w + shift)
  refine ⟨h.ascending.sublist hsub, fun q hq => ?_, fun q hq => ?_⟩
  · have hlt := lt_of_mem_dropWhile h.ascending hq
    have := (h.window q (hsub.subset hq)).2
    omega
  · have hlt := lt_of_mem_dropWhile h.ascending hq
    have hold := h.bits q (hsub.subset hq)
    have := (h.window q (hsub.subset hq)).2
    have hidx : q - (w + shift) - 1 + shift = q - w - 1 := by omega
    exact hbit _ (by omega) (hidx ▸ hold)

theorem insert {q : Nat} (hq : w < q ∧ q ≤ w + windowBits) (hb : bit (q - w - 1) = true)
    (hnew : q ∉ seqs) (limit : Nat) :
    SeqsOk bit w (insertBounded id limit seqs q) := by
  refine sublist ?_ (drop_sublist _ _)
  have htake := seqs.takeWhile_sublist (· ≤ q)
  have hdrop := seqs.dropWhile_sublist (· ≤ q)
  have hmem : ∀ q' ∈ seqs.takeWhile (· ≤ q) ++ q :: seqs.dropWhile (· ≤ q), q' = q ∨ q' ∈ seqs := by
    intro q' hq'
    rcases mem_append.1 hq' with hq' | hq'
    · exact .inr (htake.subset hq')
    · rcases mem_cons.1 hq' with rfl | hq'
      · exact .inl rfl
      · exact .inr (hdrop.subset hq')
  have hlow : ∀ q' ∈ seqs.takeWhile (· ≤ q), q' < q := by
    intro q' hq'
    have hle : q' ≤ q := by simpa using mem_takeWhile_imp hq'
    have hne : q' ≠ q := fun e => hnew (e ▸ htake.subset hq')
    omega
  refine ⟨pairwise_append.2 ⟨h.ascending.sublist htake, pairwise_cons.2
    ⟨fun q' hq' => lt_of_mem_dropWhile h.ascending hq', h.ascending.sublist hdrop⟩, ?_⟩, ?_, ?_⟩
  · intro a ha b hb'
    rcases mem_cons.1 hb' with rfl | hb'
    · exact hlow a ha
    · exact (hlow a ha).trans (lt_of_mem_dropWhile h.ascending hb')
  · intro q' hq'
    rcases hmem q' hq' with rfl | hq'
    · exact hq
    · exact h.window q' hq'
  · intro q' hq'
    rcases hmem q' hq' with rfl | hq'
    · exact hb
    · exact h.bits q' hq'

end SeqsOk

section Writers

variable {A : Type} {sv : AssetServices A} {l' : AssetOpStreamLedger} {k : AssetOpRecordKind}

variable {e q reason : Nat}

namespace AssetOpStreamLedger

variable {l : AssetOpStreamLedger}

namespace WindowOk

theorem empty (stream : AssetOpStream) (epoch : Nat) : (emptyStream stream epoch).WindowOk sv :=
  ⟨by simp [emptyStream], by simp [emptyStream], by simp [emptyStream], Nat.zero_le _, .nil _ _,
    Nat.zero_le _, .nil _ _, .nil _ _, by simp [emptyStream]⟩

variable (h : l.WindowOk sv)

include h

theorem ensureWindowWords_eq : ensureWindowWords l = l := by
  simp [ensureWindowWords, h.seen_length, h.applied_length, zero]

theorem receipt_window {r : AssetOpReceipt} (hr : r ∈ l.receipts) :
    l.watermark < r.seq ∧ r.seq ≤ l.watermark + windowBits :=
  h.receiptSeqs.window _ (mem_map_of_mem hr)

theorem slide (q : Nat) : (slideWindow l q).WindowOk sv := by
  unfold slideWindow
  split
  next hq =>
    generalize q - (l.watermark + windowBits) = shift
    have hseen : ∀ i, i + shift < windowBits →
        testBit (slideBits l.seenBits shift) i = testBit l.seenBits (i + shift) :=
      fun i => testBit_slideBits h.seen_length
    have happlied : ∀ i, i + shift < windowBits →
        testBit (slideBits l.appliedBits shift) i = testBit l.appliedBits (i + shift) :=
      fun i => testBit_slideBits h.applied_length
    have hunapplied : ∀ i, i + shift < windowBits →
        (testBit l.seenBits (i + shift) && !testBit l.appliedBits (i + shift)) = true →
        (testBit (slideBits l.seenBits shift) i &&
          !testBit (slideBits l.appliedBits shift) i) = true :=
      fun i hi hb => by rwa [hseen i hi, happlied i hi]
    have hrejections := h.rejections.slide shift hunapplied
    have hreceipts := h.receiptSeqs.slide shift fun i hi hb => (hseen i hi).trans hb
    rw [dropWhile_map] at hrejections hreceipts
    refine ⟨length_slideBits h.seen_length, length_slideBits h.applied_length, fun i hi => ?_,
      (l.rejections.dropWhile_sublist _).length_le.trans h.rejections_length, hrejections,
      (l.partialSeqs.dropWhile_sublist _).length_le.trans h.partialSeqs_length,
      h.partialSeqs.slide shift fun i hi hb => (happlied i hi).trans hb, hreceipts, fun r hr => ?_⟩
    · have hold := testBit_of_slideBits h.applied_length hi
      have hin := lt_of_testBit h.applied_length hold
      exact (hseen i hin).trans (h.applied_seen _ hold)
    · have hwin := hreceipts.window _ (mem_map_of_mem hr)
      have hmem := (l.receipts.dropWhile_sublist _).subset hr
      have hold := (h.receipt_window hmem).2
      have hok := h.receipts r hmem
      refine { hok with applied := fun hs => ?_ }
      simp only [pruneBelowWatermark]
      have hidx : r.seq - (l.watermark + shift) - 1 + shift = r.seq - l.watermark - 1 := by omega
      rw [happlied _ (by omega), hidx]
      exact hok.applied hs
  · exact h

/-- A number that the window reaches by sliding is at its end, where the bits are clear. -/
theorem slide_unseen {q : Nat} (hlow : l.watermark < q)
    (hnew : q ≤ l.watermark + windowBits → testBit l.seenBits (q - l.watermark - 1) = false) :
    testBit (slideWindow l q).seenBits (q - (slideWindow l q).watermark - 1) = false := by
  by_contra hbit
  unfold slideWindow at hbit
  split at hbit
  next hq =>
    have hold := testBit_of_slideBits h.seen_length (Bool.eq_true_of_not_eq_false hbit)
    have := lt_of_testBit h.seen_length hold
    simp only [pruneBelowWatermark] at this
    omega
  next hq => exact hbit (hnew (Nat.not_lt.1 hq))

theorem mark {q : Nat} (hq : l.watermark < q ∧ q ≤ l.watermark + windowBits)
    (hnew : testBit l.seenBits (q - l.watermark - 1) = false) (k : AssetOpRecordKind)
    (reason : Nat) :
    (markSeq l q k reason).WindowOk sv := by
  have hseen := testBit_markSeq_seen k reason h.seen_length hq.1 hq.2
  have happlied := testBit_markSeq_applied k reason h.applied_length hq.1 hq.2
  have hunapplied : testBit l.appliedBits (q - l.watermark - 1) = false := by
    by_contra hbit
    simp [h.applied_seen _ (by simpa using hbit)] at hnew
  have hseen_mono : ∀ j, testBit l.seenBits j = true →
      testBit (markSeq l q k reason).seenBits j = true := fun j hj => by simp [hseen, hj]
  have happlied_mono : ∀ j, testBit l.appliedBits j = true →
      testBit (markSeq l q k reason).appliedBits j = true := fun j hj => by simp [happlied, hj]
  -- the rejected numbers were seen, so their bits are not the one that is set
  have hrejections : SeqsOk (fun bit => testBit (markSeq l q k reason).seenBits bit &&
      !testBit (markSeq l q k reason).appliedBits bit) l.watermark (l.rejections.map (·.seq)) := by
    refine { h.rejections with bits := fun q' hq' => ?_ }
    have hold := h.rejections.bits q' hq'
    have hne : q - l.watermark - 1 ≠ q' - l.watermark - 1 := fun e => by simp [← e, hnew] at hold
    simpa [hseen, happlied, hne] using hold
  have hsome : SeqsOk (testBit (markSeq l q k reason).appliedBits) l.watermark l.partialSeqs :=
    { h.partialSeqs with bits := fun q' hq' => happlied_mono _ (h.partialSeqs.bits q' hq') }
  refine ⟨by simp [markSeq, h.seen_length],
    (length_markSeq_applied l q k reason).trans h.applied_length, fun i hi => ?_, ?_, ?_, ?_, ?_,
    { h.receiptSeqs with bits := fun q' hq' => hseen_mono _ (h.receiptSeqs.bits q' hq') },
    fun r hr => ?_⟩
  · rw [happlied, Bool.or_eq_true, Bool.and_eq_true] at hi
    rcases hi with ⟨hi, -⟩ | hi
    · simp [hseen, hi]
    · exact hseen_mono i (h.applied_seen i hi)
  · simp only [markSeq]
    split
    · exact length_insertBounded _ _ _ _
    · exact h.rejections_length
  · show SeqsOk _ _ ((if k = .rejected ∧ reason ≠ 0 then _ else _ : List AssetOpRejection).map _)
    split
    next hk =>
      rw [insertRejection, map_insertBounded]
      refine hrejections.insert hq ?_ (fun hmem => ?_) _
      · rw [hseen, happlied]
        simp [hk.1, AssetOpRecordKind.isApplied, hunapplied]
      · have := h.rejections.bits q hmem
        simp [hnew] at this
    · exact hrejections
  · simp only [markSeq]
    split
    · exact length_insertBounded _ _ _ _
    · exact h.partialSeqs_length
  · show SeqsOk _ _ (if k = .appliedPartial then _ else _)
    split
    next hk =>
      refine hsome.insert hq ?_ (fun hmem => ?_) _
      · rw [happlied]
        simp [hk, AssetOpRecordKind.isApplied]
      · have := h.partialSeqs.bits q hmem
        simp [hunapplied] at this
    · exact hsome
  · have hok := h.receipts r hr
    exact { hok with applied := fun hs => happlied_mono _ (hok.applied hs) }

end WindowOk

theorem base_unseen {e q : Nat} (hc : classifyAssetOpSeq (some l) e q = .unseen ∨
    classifyAssetOpSeq (some l) e q = .aheadOfWindow)
    (hin : q ≤ (l.base e).watermark + windowBits) :
    testBit (l.base e).seenBits (q - (l.base e).watermark - 1) = false := by
  unfold AssetOpStreamLedger.base at hin ⊢
  split
  · exact testBit_zero _ _
  rename_i hle
  rw [if_neg hle] at hin
  rcases classify_new hc with ⟨hgt, -⟩ | ⟨-, -, hahead | hbit⟩
  · omega
  · omega
  · exact hbit

namespace Sane

theorem empty {stream : AssetOpStream} (hs : stream ≠ .unspecified) (epoch : Nat) :
    (emptyStream stream epoch).Sane sv :=
  ⟨.empty stream epoch, hs, Nat.zero_le _, le_rfl⟩

theorem base (h : l.Sane sv) (e : Nat) : (l.base e).Sane sv := by
  unfold AssetOpStreamLedger.base
  split
  · exact .empty h.stream_ne e
  · exact h

/-- A number that is new to the stream, up to the largest one, is recorded. -/
theorem record (h : l.Sane sv) (hq : q ≤ uint64Max)
    (hr : recordAssetOpOutcome l e q k reason = some l') : l'.Sane sv := by
  obtain ⟨hc, -, hlow, hl'⟩ := record_cases hr
  have hbase := h.base e
  rw [hbase.ensureWindowWords_eq] at hl'
  have hpos : 0 < windowBits := by decide
  have hw := slideWindow_watermark (l.base e) q
  have hwin : (slideWindow (l.base e) q).watermark < q ∧
      q ≤ (slideWindow (l.base e) q).watermark + windowBits := by omega
  have hnew := hbase.slide_unseen hlow fun hin => base_unseen hc hin
  subst hl'
  refine ⟨(hbase.slide q).mark hwin hnew k reason, ?_, ?_, ?_⟩
  · exact fun hs => hbase.stream_ne ((slideWindow_stream _ q).symm.trans hs)
  · have := hbase.watermark_le
    simp only [markSeq]
    omega
  · have := hbase.watermark_max
    simp only [markSeq]
    omega

end Sane

end AssetOpStreamLedger

/-! ## All streams -/

theorem AssetOpStream.number_injective : Function.Injective AssetOpStream.number := by
  intro s t h
  cases s <;> cases t <;> first | rfl | cases h

variable {comp : PlayerAssetOpLedgerComp} {l : AssetOpStreamLedger}

theorem find_of_mem_comp
    (hasc : comp.Pairwise (·.stream.number < ·.stream.number))
    (hl : l ∈ comp) : findAssetOpStream comp l.stream = some l := by
  have hne : comp.Pairwise (fun l l' => l.stream ≠ l'.stream) := by
    refine hasc.imp fun hlt he => ?_
    rw [he] at hlt
    exact lt_irrefl _ hlt
  exact KeyedList.find_of_mem hne hl

variable {f : AssetOpStreamLedger → AssetOpStreamLedger}

theorem modify_ascending (hf : ∀ l, (f l).stream = l.stream)
    (hasc : comp.Pairwise (·.stream.number < ·.stream.number)) (stream : AssetOpStream) :
    (modifyAssetOpStream comp stream f).Pairwise (·.stream.number < ·.stream.number) := by
  have htrans : IsTrans AssetOpStream (·.number < ·.number) := ⟨fun _ _ _ => Nat.lt_trans⟩
  have hdefault : (emptyStream stream 0).stream = stream := rfl
  refine @KeyedList.upsert_pairwise _ _ _ _ _ _ _ _ _ htrans _ hf hdefault hasc fun l hne => ?_
  have hnumber : l.stream.number ≠ stream.number := fun e => hne (AssetOpStream.number_injective e)
  simp only [decide_eq_true_eq]
  split
  · assumption
  · show l.stream.number < stream.number
    omega

def streamBytes (sv : AssetServices A) (l : AssetOpStreamLedger) : Nat :=
  (l.receipts.map fun r => (r.snapshot.map sv.snapshotBytes).getD 0).sum

theorem receiptBytes_eq (comp : PlayerAssetOpLedgerComp) :
    receiptBytes sv comp = (comp.map (streamBytes sv)).sum := by
  unfold receiptBytes
  rw [← sum_eq_foldl, map_flatMap, flatMap_def, sum_flatten, map_map]
  rfl

/-- A change of one stream changes the bytes by those of the stream. -/
theorem receiptBytes_modify (comp : PlayerAssetOpLedgerComp) (stream : AssetOpStream) :
    receiptBytes sv (modifyAssetOpStream comp stream f) +
        streamBytes sv (mutableAssetOpStream comp stream) =
      receiptBytes sv comp + streamBytes sv (f (mutableAssetOpStream comp stream)) := by
  have hsplit : (comp.map (streamBytes sv)).sum =
      streamBytes sv (mutableAssetOpStream comp stream) +
      ((comp.eraseP (·.stream = stream)).map (streamBytes sv)).sum := by
    rw [mutableAssetOpStream]
    cases hfind : findAssetOpStream comp stream with
    | none => simp [eraseP_of_forall_not (List.find?_eq_none.1 hfind), streamBytes, emptyStream]
    | some l => exact ((KeyedList.perm_cons_eraseP hfind).map _).sum_eq
  have hperm := (@KeyedList.upsert_perm _ _ _ AssetOpStreamLedger.stream
    (fun l => l.stream.number > stream.number) stream f (emptyStream stream 0) comp).map
    (streamBytes sv)
  rw [receiptBytes_eq, receiptBytes_eq, modifyAssetOpStream, hperm.sum_eq, hsplit]
  simp only [map_cons, sum_cons, mutableAssetOpStream, findAssetOpStream, KeyedList.find]
  omega

theorem streamBytes_le (h : Sublist l'.receipts l.receipts) :
    streamBytes sv l' ≤ streamBytes sv l :=
  (h.map _).sum_le_sum fun _ _ => Nat.zero_le _

/-- A change of one stream that adds no receipt. -/
theorem CompSane.modify (h : CompSane sv comp) (hf : ∀ l, (f l).stream = l.stream)
    (hreceipts : ∀ l, Sublist (f l).receipts l.receipts) {stream : AssetOpStream}
    (hnew : (f (mutableAssetOpStream comp stream)).Sane sv) :
    CompSane sv (modifyAssetOpStream comp stream f) := by
  have hasc := modify_ascending hf h.ascending stream
  have hbytes : receiptBytes sv (modifyAssetOpStream comp stream f) ≤ maxPlayerReceiptBytes := by
    have hchange := @receiptBytes_modify _ sv f comp stream
    have hle := @streamBytes_le _ sv _ _ (hreceipts (mutableAssetOpStream comp stream))
    have := h.bytes
    omega
  refine ⟨hasc, fun l hl => ?_, hbytes⟩
  have hfind := find_of_mem_comp hasc hl
  rw [find_modify hf] at hfind
  split at hfind
  next hs =>
    obtain rfl := hs
    exact Option.some.inj hfind ▸ hnew
  · exact h.sane l (mem_of_find?_eq_some hfind)

theorem record_receipts (h : recordAssetOpOutcome l e q k reason = some l') :
    Sublist l'.receipts l.receipts := by
  have hbase : Sublist (l.base e).receipts l.receipts := by
    unfold AssetOpStreamLedger.base
    split
    · exact nil_sublist _
    · exact Sublist.refl _
  obtain ⟨-, -, -, rfl⟩ := record_cases h
  refine Sublist.trans ?_ hbase
  simp only [markSeq, slideWindow]
  split
  · exact dropWhile_sublist _
  · exact Sublist.refl _

namespace CompSane

variable {comp : PlayerAssetOpLedgerComp} {stream : AssetOpStream}
  (h : CompSane sv comp) (hs : stream ≠ .unspecified)

include h hs

theorem mutable : (mutableAssetOpStream comp stream).Sane sv := by
  unfold mutableAssetOpStream
  cases hf : findAssetOpStream comp stream with
  | none => exact .empty hs 0
  | some l => exact h.sane l (mem_of_find?_eq_some hf)

theorem mutableStream : CompSane sv (modifyAssetOpStream comp stream id) :=
  h.modify (fun _ => rfl) (fun _ => Sublist.refl _) (h.mutable hs)

theorem reset (epoch : Nat) :
    CompSane sv (modifyAssetOpStream comp stream (resetAssetOpStreamForEpoch · epoch)) := by
  refine h.modify (f := (resetAssetOpStreamForEpoch · epoch)) (fun _ => rfl)
    (fun _ => nil_sublist _) (.empty ?_ epoch)
  rwa [mutableAssetOpStream_stream]

/-- `RecordAssetOpOutcome` on the entry of the stream, if it succeeds. -/
theorem record (hq : q ≤ uint64Max)
    (hr : recordAssetOpOutcome (mutableAssetOpStream comp stream) e q k reason = some l') :
    CompSane sv (modifyAssetOpStream comp stream fun l =>
      (recordAssetOpOutcome l e q k reason).getD l) := by
  refine h.modify (recordAssetOpOutcome_getD_stream e q reason k) (fun l => ?_) ?_
  · cases hl : recordAssetOpOutcome l e q k reason with
    | none => exact Sublist.refl _
    | some l₁ => exact record_receipts hl
  · rw [hr]
    exact (h.mutable hs).record hq hr

end CompSane

end Writers

def LedgerCall.stream : LedgerCall → AssetOpStream
  | .mutableStream stream => stream
  | .reset stream _ => stream
  | .record stream _ _ _ _ => stream

/-- A call with any arguments; a stream is reset to any epoch. -/
def LedgerCall.write (comp : PlayerAssetOpLedgerComp) : LedgerCall → PlayerAssetOpLedgerComp
  | .mutableStream stream => modifyAssetOpStream comp stream id
  | .reset stream epoch =>
    modifyAssetOpStream comp stream (resetAssetOpStreamForEpoch · epoch.toNat)
  | .record stream epoch seq kind reasonTipId =>
    (recordCall comp stream epoch seq kind reasonTipId).1

/-- A successful call has recorded on the entry of the stream. -/
theorem recordCall_cases (comp : PlayerAssetOpLedgerComp) (stream : AssetOpStream)
    (epoch seq : UInt64) (kind : UInt8) (reasonTipId : UInt32) :
    (recordCall comp stream epoch seq kind reasonTipId).1 = comp ∧
        (recordCall comp stream epoch seq kind reasonTipId).2 = false ∨
      ∃ k l', recordAssetOpOutcome (mutableAssetOpStream comp stream) epoch.toNat seq.toNat k
          reasonTipId.toNat = some l' ∧
        (recordCall comp stream epoch seq kind reasonTipId).1 =
          modifyAssetOpStream comp stream fun l =>
            (recordAssetOpOutcome l epoch.toNat seq.toNat k reasonTipId.toNat).getD l := by
  unfold recordCall mutableAssetOpStream
  split
  next l k hl hk =>
    dsimp only
    split
    next hsome =>
      obtain ⟨l', hl'⟩ := Option.isSome_iff_exists.1 hsome
      exact .inr ⟨k, l', by rw [hl]; exact hl', rfl⟩
    · exact .inl ⟨rfl, rfl⟩
  · exact .inl ⟨rfl, rfl⟩

theorem classify_new_epoch {ledger : Option AssetOpStreamLedger} {e q : Nat}
    (h : classifyAssetOpSeq ledger e q = .unseen ∨ classifyAssetOpSeq ledger e q = .aheadOfWindow) :
    e ≠ 0 := by
  rintro rfl
  simp [classifyAssetOpSeq] at h

section Accepted

variable {A : Type} {sv : AssetServices A} {comp : PlayerAssetOpLedgerComp}

theorem CompSane.write (h : CompSane sv comp) {call : LedgerCall}
    (hs : call.stream ≠ .unspecified) : CompSane sv (call.write comp) := by
  cases call with
  | mutableStream stream => exact h.mutableStream hs
  | reset stream epoch => exact h.reset hs epoch.toNat
  | record stream epoch seq kind reasonTipId =>
    rw [LedgerCall.write]
    rcases recordCall_cases comp stream epoch seq kind reasonTipId with
      ⟨hsame, -⟩ | ⟨k, l', hr, hcall⟩
    · rwa [hsame]
    · rw [hcall]
      exact h.record hs (Nat.le_of_lt_succ seq.toNat_lt) hr

variable {l : AssetOpStreamLedger} {stream : AssetOpStream}

theorem mem_modify (h : CompSane sv comp) {f : AssetOpStreamLedger → AssetOpStreamLedger}
    (hf : ∀ l, (f l).stream = l.stream) (hl : l ∈ modifyAssetOpStream comp stream f) :
    l = f (mutableAssetOpStream comp stream) ∨ l.stream ≠ stream ∧ l ∈ comp := by
  have hfind := find_of_mem_comp (modify_ascending hf h.ascending stream) hl
  rw [find_modify hf] at hfind
  split at hfind
  next hs => exact .inl (hs ▸ (Option.some.inj hfind).symm)
  next hs => exact .inr ⟨hs, mem_of_find?_eq_some hfind⟩

theorem modify_id_of_find (h : findAssetOpStream comp stream = some l) :
    modifyAssetOpStream comp stream id = comp := by
  rw [modifyAssetOpStream, KeyedList.upsert, KeyedList.modifyFirst_id h, Option.getD_some]

end Accepted

/-- **The validator is kept by the writers**, but for the epoch of a stream that is only created:
whatever calls are made on an accepted ledger, the result is accepted exactly if all its streams
have an epoch; a reset to an epoch, or a recording that succeeds on the entry that
`MutableAssetOpStream` gives, leaves an accepted ledger accepted. -/
theorem ledger_writes_accepted {A : Type} (sv : AssetServices A) (comp : PlayerAssetOpLedgerComp)
    (h : validateAssetOpLedger sv comp = none) :
    (∀ calls : List LedgerCall, (∀ call ∈ calls, call.stream ≠ .unspecified) →
      let comp' := Machine.run LedgerCall.write comp calls
      validateAssetOpLedger sv comp' = none ↔ ∀ l ∈ comp', l.streamEpoch ≠ 0) ∧
    (∀ stream epoch, stream ≠ .unspecified → epoch ≠ 0 →
      validateAssetOpLedger sv ((LedgerCall.reset stream epoch).write comp) = none) ∧
    (∀ stream epoch seq kind reasonTipId, stream ≠ .unspecified →
      let comp' := (LedgerCall.mutableStream stream).write comp
      (recordCall comp' stream epoch seq kind reasonTipId).2 = true →
      validateAssetOpLedger sv (recordCall comp' stream epoch seq kind reasonTipId).1 = none) ∧
    ∀ stream l, findAssetOpStream comp stream = some l →
      (LedgerCall.mutableStream stream).write comp = comp := by
  obtain ⟨hsane, hepoch⟩ := (validateAssetOpLedger_eq_none sv).1 h
  refine ⟨fun calls hs => ?_, fun stream epoch hs he => ?_, ?_, fun stream l => modify_id_of_find⟩
  · have hrun : CompSane sv (Machine.run LedgerCall.write comp calls) := by
      clear h hepoch
      induction calls generalizing comp with
      | nil => exact hsane
      | cons call calls ih =>
        obtain ⟨hcall, hcalls⟩ := forall_mem_cons.1 hs
        exact ih _ (hsane.write hcall) hcalls
    exact (validateAssetOpLedger_eq_none sv).trans (and_iff_right hrun)
  · refine (validateAssetOpLedger_eq_none sv).2 ⟨hsane.reset hs epoch.toNat, fun l hl => ?_⟩
    rcases mem_modify hsane (f := (resetAssetOpStreamForEpoch · epoch.toNat)) (fun _ => rfl) hl with
      rfl | ⟨-, hl⟩
    · exact fun h0 => he (UInt64.toNat_inj.1 h0)
    · exact hepoch l hl
  · intro stream epoch seq kind reasonTipId hs comp' hok
    have hsane' : CompSane sv comp' := hsane.mutableStream hs
    rw [validateAssetOpLedger_eq_none]
    rcases recordCall_cases comp' stream epoch seq kind reasonTipId with
      ⟨-, hfalse⟩ | ⟨k, l', hr, hcall⟩
    · rw [hfalse] at hok
      cases hok
    rw [hcall]
    refine ⟨hsane'.record hs (Nat.le_of_lt_succ seq.toNat_lt) hr, fun l hl => ?_⟩
    rcases mem_modify hsane' (recordAssetOpOutcome_getD_stream _ _ _ _) hl with rfl | ⟨hne, hl⟩
    · rw [hr, Option.getD_some, (record_window hr).1]
      exact classify_new_epoch (record_cases hr).1
    · rcases mem_modify hsane (f := id) (fun _ => rfl) hl with rfl | ⟨-, hl⟩
      · exact absurd (mutableAssetOpStream_stream comp stream) hne
      · exact hepoch l hl

theorem first_record_accepted :
    validateAssetOpLedger Channel.purseServices [] = none ∧
      let comp' := (LedgerCall.mutableStream .guildDebit).write []
      (recordCall comp' .guildDebit 7 1 2 27000).2 = true ∧
        validateAssetOpLedger Channel.purseServices (recordCall comp' .guildDebit 7 1 2 27000).1 =
          none :=
  ⟨rfl, by decide +kernel,
    (ledger_writes_accepted Channel.purseServices [] rfl).2.2.1 .guildDebit 7 1 2 27000 (by decide)
      (by decide +kernel)⟩

/-- A stream that is only created is refused when the ledger is loaded. -/
theorem created_stream_refused :
    ¬ ∀ (comp : PlayerAssetOpLedgerComp) (call : LedgerCall), call.stream ≠ .unspecified →
      validateAssetOpLedger Channel.purseServices comp = none →
      validateAssetOpLedger Channel.purseServices (call.write comp) = none := by
  intro h
  have hcreated := h [] (.mutableStream .guildDebit) (by decide) rfl
  have hreason : validateAssetOpLedger Channel.purseServices
      ((LedgerCall.mutableStream .guildDebit).write []) =
        some "streams[0] stream=1 stream_epoch = 0" := by decide +kernel
  rw [hreason] at hcreated
  cases hcreated

end Mmorpg.AssetOp
