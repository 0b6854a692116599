import Mmorpg.AssetOp.Reconcile

/-!
# The two classifiers in machine words

The scene (`ClassifyAssetOpSeq`, asset_op_ledger.cpp) and the services (`ClassifySeq`, classify.go)
classify a sequence number from the same fields of a stream, each in its own arithmetic of 64-bit
words: sums and differences wrap, the scene narrows a bit index to 32 bits. Here both are written
as they compute; their states have the same names in the same order, so one type serves both. Each
agrees with its counterpart over natural numbers (`classifyAssetOpSeq`,
`classifySeq`), on which the rest of the development rests, and so they agree with each other.
-/

namespace Mmorpg.AssetOp.MachineWords

open BitWords Option

structure StreamWords where
  streamEpoch : BitVec 64
  watermark : BitVec 64
  maxSeq : BitVec 64
  seenBits : Words
  appliedBits : Words
deriving DecidableEq, Repr

def maxUint64 : BitVec 64 := 18446744073709551615#64

/-! ## The services -/

def bitAt (words : Words) (i : BitVec 64) : Bool :=
  let word := i / 64#64
  if word ≥ BitVec.ofNat 64 words.length then false
  else words.getD word.toNat 0 &&& (1#64 <<< (i % 64#64)) != 0#64

/-- `ClassifySeq`; the getters of an absent stream give zeros. -/
def classifySeq (l : Option StreamWords) (epoch seq : BitVec 64) : AssetOpSeqState :=
  if seq = 0#64 || epoch = 0#64 then .invalid
  else
    let ledgerEpoch := (l.map (·.streamEpoch)).getD 0#64
    if epoch < ledgerEpoch then .staleEpoch
    else if epoch > ledgerEpoch then if seq ≤ 1024#64 then .unseen else .jumpTooFar
    else
      let seen := (l.map (·.seenBits)).getD []
      let applied := (l.map (·.appliedBits)).getD []
      if seen.length ≠ windowWords || applied.length ≠ windowWords then .invalid
      else
        let watermark := (l.map (·.watermark)).getD 0#64
        if watermark > maxUint64 - 1024#64 then .invalid
        else if seq ≤ watermark then .behindWindow
        else
          let maxSeq := (l.map (·.maxSeq)).getD 0#64
          if maxSeq ≤ maxUint64 - 1024#64 && seq > maxSeq + 1024#64 then .jumpTooFar
          else if seq > watermark + 1024#64 then .aheadOfWindow
          else
            let i := seq - watermark - 1#64
            if !bitAt seen i then .unseen
            else if bitAt applied i then .applied
            else .rejected

/-! ## The scene -/

def readWord (words : Words) (word : Int) : BitVec 64 :=
  if word < 0 then 0#64
  else if word < words.length then words.getD word.toNat 0 else 0#64

def testBit (words : Words) (index : BitVec 32) : Bool :=
  (readWord words (index / 64#32).toInt >>> (index % 64#32)) &&& 1#64 != 0#64

def exceedsJumpCap (maxSeq seq : BitVec 64) : Bool :=
  if maxSeq > maxUint64 - 1024#64 then false else seq > maxSeq + 1024#64

/-- `ClassifyAssetOpSeq`. Past the epochs the stream is not absent: its epoch is not zero. -/
def classifyAssetOpSeq (ledger : Option StreamWords) (epoch seq : BitVec 64) : AssetOpSeqState :=
  if seq = 0#64 || epoch = 0#64 then .invalid
  else
    let ledgerEpoch := (ledger.map (·.streamEpoch)).getD 0#64
    if epoch < ledgerEpoch then .staleEpoch
    else if epoch > ledgerEpoch then if seq ≤ 1024#64 then .unseen else .jumpTooFar
    else
      match ledger with
      | none => .invalid
      | some ledger =>
        if ledger.watermark > maxUint64 - 1024#64 then .invalid
        else if seq ≤ ledger.watermark then .behindWindow
        else if exceedsJumpCap ledger.maxSeq seq then .jumpTooFar
        else if seq > ledger.watermark + 1024#64 then .aheadOfWindow
        else
          let index := (seq - ledger.watermark - 1#64).setWidth 32
          if !testBit ledger.seenBits index then .unseen
          else if testBit ledger.appliedBits index then .applied
          else .rejected

/-! ## Bits -/

/-- Sixteen words of 64 bits are indexed by the services as by the numbers. -/
theorem bitAt_eq {words : Words} (hlen : words.length = windowWords) (i : BitVec 64) :
    bitAt words i = AssetOp.bitAt words i.toNat := by
  have hword : (i / 64#64).toNat = i.toNat / 64 := BitVec.toNat_udiv
  have hbit : (i % 64#64).toNat = i.toNat % 64 := BitVec.toNat_umod
  have hge : i / 64#64 ≥ BitVec.ofNat 64 words.length ↔ i.toNat / 64 ≥ words.length := by
    rw [ge_iff_le, BitVec.le_def, hword, hlen]
    rfl
  unfold bitAt AssetOp.bitAt
  simp only [hge, hword, BitVec.shiftLeft_eq', hbit]
  rfl

theorem testBit_eq (words : Words) {i : BitVec 64} (hi : i.toNat < windowBits) :
    testBit words (i.setWidth 32) = BitWords.testBit words i.toNat := by
  unfold windowBits at hi
  have hnarrow : (i.setWidth 32).toNat = i.toNat := by
    rw [BitVec.toNat_setWidth]
    exact Nat.mod_eq_of_lt (by omega)
  have hword : (i.setWidth 32 / 64#32).toNat = i.toNat / 64 := by
    rw [BitVec.toNat_udiv, hnarrow]
    rfl
  have hbit : (i.setWidth 32 % 64#32).toNat = i.toNat % 64 := by
    rw [BitVec.toNat_umod, hnarrow]
    rfl
  have hint : (i.setWidth 32 / 64#32).toInt = (i.toNat / 64 : Nat) := by
    rw [BitVec.toInt_eq_toNat_of_lt (by omega), hword]
  have hread : readWord words (i.setWidth 32 / 64#32).toInt =
      BitWords.readWord words (i.toNat / 64) := by
    unfold readWord
    rw [hint, if_neg (by omega), Int.toNat_natCast]
    split
    · rfl
    · exact (BitWords.readWord_of_le (by omega)).symm
  unfold testBit BitWords.testBit
  rw [hread, BitVec.ushiftRight_eq', hbit]

/-! ## Numbers -/

def StreamWords.ledger (w : StreamWords) : AssetOpStreamLedger where
  stream := .unspecified
  streamEpoch := w.streamEpoch.toNat
  watermark := w.watermark.toNat
  maxSeq := w.maxSeq.toNat
  seenBits := w.seenBits
  appliedBits := w.appliedBits
  rejections := []
  partialSeqs := []
  receipts := []

section Compare

variable {x y : BitVec 64}

theorem eq_zero_iff : x = 0#64 ↔ x.toNat = 0 := by
  rw [← BitVec.toNat_inj]
  rfl

/-- Past the first check the epoch is larger than that of an absent stream. -/
theorem epoch_pos (h : ¬ (decide (x.toNat = 0) || decide (y.toNat = 0)) = true) : y > 0#64 := by
  simp only [Bool.or_eq_true, decide_eq_true_eq, not_or] at h
  exact BitVec.lt_def.2 (Nat.pos_of_ne_zero h.2)

theorem gt_cap_iff : x > maxUint64 - 1024#64 ↔ x.toNat > uint64Max - 1024 := by
  rw [gt_iff_lt, BitVec.lt_def]
  rfl

theorem le_cap_iff : x ≤ maxUint64 - 1024#64 ↔ x.toNat ≤ uint64Max - 1024 := by
  rw [BitVec.le_def]
  rfl

/-- Below the cap the sum does not wrap. -/
theorem gt_add_iff (h : x.toNat ≤ uint64Max - 1024) :
    y > x + 1024#64 ↔ y.toNat > x.toNat + 1024 := by
  have hsum : (x + 1024#64).toNat = x.toNat + 1024 := by
    rw [BitVec.toNat_add]
    refine Nat.mod_eq_of_lt ?_
    unfold uint64Max at h
    change x.toNat + 1024 < 2 ^ 64
    omega
  rw [gt_iff_lt, BitVec.lt_def, hsum]

theorem toNat_index (h : x.toNat < y.toNat) : (y - x - 1#64).toNat = y.toNat - x.toNat - 1 := by
  have hdiff : (y - x).toNat = y.toNat - x.toNat := BitVec.toNat_sub_of_le (BitVec.le_def.2 h.le)
  have hone : 1#64 ≤ y - x := by
    rw [BitVec.le_def, hdiff]
    change 1 ≤ _
    omega
  rw [BitVec.toNat_sub_of_le hone, hdiff]
  rfl

theorem index_lt (hbehind : ¬ y.toNat ≤ x.toNat) (hahead : ¬ y.toNat > x.toNat + windowBits) :
    (y - x - 1#64).toNat = y.toNat - x.toNat - 1 ∧ (y - x - 1#64).toNat < windowBits := by
  have hindex := toNat_index (Nat.not_le.1 hbehind)
  refine ⟨hindex, ?_⟩
  rw [hindex]
  omega

theorem exceedsJumpCap_eq : exceedsJumpCap x y = AssetOp.exceedsJumpCap x.toNat y.toNat := by
  unfold exceedsJumpCap AssetOp.exceedsJumpCap maxSeqJump
  by_cases h : x.toNat > uint64Max - 1024
  · rw [if_pos (gt_cap_iff.2 h), if_pos h]
  · rw [if_neg (mt gt_cap_iff.1 h), if_neg h]
    exact decide_eq_decide.2 (gt_add_iff (Nat.not_lt.1 h))

end Compare

theorem classifyInEpoch_eq (w : StreamWords) (seq : BitVec 64) :
    (if w.watermark > maxUint64 - 1024#64 then .invalid
    else if seq ≤ w.watermark then .behindWindow
    else if exceedsJumpCap w.maxSeq seq then .jumpTooFar
    else if seq > w.watermark + 1024#64 then .aheadOfWindow
    else if !testBit w.seenBits ((seq - w.watermark - 1#64).setWidth 32) then .unseen
    else if testBit w.appliedBits ((seq - w.watermark - 1#64).setWidth 32) then .applied
    else .rejected) = classifyInEpoch w.ledger seq.toNat := by
  unfold classifyInEpoch
  refine ite_congr (propext gt_cap_iff) (fun _ => rfl) fun hcap => ?_
  refine ite_congr (propext BitVec.le_def) (fun _ => rfl) fun hbehind => ?_
  refine ite_congr (congrArg (· = true) exceedsJumpCap_eq) (fun _ => rfl) fun _ => ?_
  refine ite_congr (propext (gt_add_iff (Nat.not_lt.1 hcap))) (fun _ => rfl) fun hahead => ?_
  -- within the window the index is below 1024
  obtain ⟨hindex, hlt⟩ := index_lt hbehind hahead
  rw [testBit_eq _ hlt, testBit_eq _ hlt, hindex]
  rfl

/-- **The scene's classifier computes with the numbers that its words stand for.** -/
theorem classifyAssetOpSeq_toNat (ledger : Option StreamWords) (epoch seq : BitVec 64) :
    classifyAssetOpSeq ledger epoch seq =
      AssetOp.classifyAssetOpSeq (ledger.map StreamWords.ledger) epoch.toNat seq.toNat := by
  unfold classifyAssetOpSeq AssetOp.classifyAssetOpSeq
  simp only [eq_zero_iff]
  split
  · rfl
  rename_i hzero
  cases ledger with
  | none =>
    have hnot : ¬ epoch < 0#64 := BitVec.not_lt_zero
    have hgt : epoch > 0#64 := epoch_pos hzero
    simp only [map_none, getD_none, hnot, hgt, if_true, if_false]
    rfl
  | some w =>
    simp only [map_some, getD_some, classifyInEpoch_eq]
    rfl

/-- **So does the services' classifier**, on bitmaps of the window's size. -/
theorem classifySeq_toNat {l : Option StreamWords}
    (h : ∀ w, l = some w → w.seenBits.length = windowWords ∧ w.appliedBits.length = windowWords)
    (epoch seq : BitVec 64) :
    classifySeq l epoch seq =
      AssetOp.classifySeq (l.map StreamWords.ledger) epoch.toNat seq.toNat := by
  unfold classifySeq AssetOp.classifySeq
  simp only [eq_zero_iff]
  split
  · rfl
  rename_i hzero
  cases l with
  | none =>
    have hnot : ¬ epoch < 0#64 := BitVec.not_lt_zero
    have hgt : epoch > 0#64 := epoch_pos hzero
    simp only [map_none, getD_none, hnot, hgt, if_true, if_false]
    rfl
  | some w =>
    obtain ⟨hseen, happlied⟩ := h w rfl
    have hjump : (decide (w.maxSeq ≤ maxUint64 - 1024#64) &&
        decide (seq > w.maxSeq + 1024#64)) =
        (decide (w.maxSeq.toNat ≤ uint64Max - maxSeqJump) &&
        decide (seq.toNat > w.maxSeq.toNat + maxSeqJump)) := by
      unfold maxSeqJump
      by_cases hle : w.maxSeq.toNat ≤ uint64Max - 1024
      · rw [decide_eq_true hle, decide_eq_true (le_cap_iff.2 hle), Bool.true_and, Bool.true_and]
        exact decide_eq_decide.2 (gt_add_iff hle)
      · rw [decide_eq_false hle, decide_eq_false (mt le_cap_iff.1 hle), Bool.false_and,
          Bool.false_and]
    simp only [map_some, getD_some, hjump]
    refine ite_congr (propext BitVec.lt_def) (fun _ => rfl) fun _ => ?_
    refine ite_congr (propext BitVec.lt_def) (fun _ => rfl) fun _ => ?_
    refine ite_congr rfl (fun _ => rfl) fun _ => ?_
    refine ite_congr (propext gt_cap_iff) (fun _ => rfl) fun hcap => ?_
    refine ite_congr (propext BitVec.le_def) (fun _ => rfl) fun hbehind => ?_
    refine ite_congr rfl (fun _ => rfl) fun _ => ?_
    refine ite_congr (propext (gt_add_iff (Nat.not_lt.1 hcap))) (fun _ => rfl) fun hahead => ?_
    obtain ⟨hindex, -⟩ := index_lt hbehind hahead
    simp only [bitAt_eq hseen, bitAt_eq happlied, hindex]
    rfl

/-- **Both classify alike**: every stream with bitmaps of the window's size or none, every epoch
and every number of 64 bits. -/
theorem classify_agree (ledger : Option StreamWords)
    (h : ∀ w, ledger = some w →
      w.seenBits.length = windowWords ∧ w.appliedBits.length = windowWords)
    (epoch seq : BitVec 64) :
    classifySeq ledger epoch seq = classifyAssetOpSeq ledger epoch seq := by
  rw [classifySeq_toNat h, classifyAssetOpSeq_toNat]
  refine classifySeq_eq (fun l hl => ?_) _ _
  obtain ⟨w, hw, rfl⟩ := map_eq_some_iff.1 hl
  exact h w hw

/-- The last window of the range: the second bit is applied. -/
theorem classify_agree_sample :
    let w : StreamWords := ⟨7#64, maxUint64 - 1024#64, maxUint64, 3#64 :: zero 15, 2#64 :: zero 15⟩
    classifySeq (some w) 7#64 (maxUint64 - 1022#64) = .applied ∧
    classifySeq (some w) 7#64 (maxUint64 - 1022#64) =
      classifyAssetOpSeq (some w) 7#64 (maxUint64 - 1022#64) := by
  refine ⟨by decide, classify_agree _ (fun w hw => ?_) _ _⟩
  cases hw
  exact ⟨rfl, rfl⟩

end Mmorpg.AssetOp.MachineWords
