import Mmorpg.Lib.Run
import Mmorpg.AssetOp.Reconcile

/-!
# Pending operations stay decidable

`AllocateSeq` refuses a number when the oldest pending one of its epoch lies `MaxSpan` or more
behind. So all pending numbers lie in the last 512 that were given out, and everything before
them was recorded by the scene: the scene's largest number is at most 512 behind and the window
of 1024 numbers has not passed any of them (`Outbox.Ok.classify`). Rows leave `PENDING` in any
way, as long as the scene has recorded an outcome; operations are delivered in any order, any
number of times, also those of older epochs.
-/

namespace Mmorpg.AssetOp

open List

structure Outbox where
  seqRows : AssetOpStream → Option SeqRow
  rows : List Row
  ledger : PlayerAssetOpLedgerComp
  decided : Decided

inductive OutboxEvent where
  | ensureSeqRow (stream : AssetOpStream) (nowMs : Nat)
  /-- The tables were built anew, with a later epoch. -/
  | rebuild (stream : AssetOpStream) (nowMs : Nat)
  /-- `AllocateSeq` and the insertion of the row, in one transaction. -/
  | enqueue (limits : Limits) (row : Row)
  /-- The operation of a row is delivered and recorded, if the scene has not seen it. -/
  | record (row : Nat) (kind : AssetOpRecordKind) (reasonTipId : Nat)
  /-- A row leaves `PENDING`. -/
  | leave (row : Nat) (status : Status)

namespace Outbox

def start : Outbox := ⟨fun _ => none, [], [], []⟩

def setSeqRow (o : Outbox) (stream : AssetOpStream) (row : Option SeqRow) : Outbox :=
  { o with seqRows := fun s => if s = stream then row else o.seqRows s }

/-- The column `next_seq` has 64 bits: the update that would pass the end of the range fails. -/
def enqueue (o : Outbox) (limits : Limits) (row : Row) : Outbox :=
  let stream := row.request.stream
  match o.seqRows stream with
  | none => o
  | some seqRow =>
    match allocateSeq limits o.rows stream (some seqRow) with
    | none => o
    | some (seq, next) =>
      if next.nextSeq > uint64Max then o
      else
        let request := { row.request with seq := seq, streamEpoch := seqRow.epoch }
        { o.setSeqRow stream (some next) with
          rows := o.rows ++ [{ row with request := request, status := .pending }] }

def record (o : Outbox) (row : Row) (kind : AssetOpRecordKind) (reasonTipId : Nat) : Outbox :=
  match recordInStream o.ledger row.request kind reasonTipId with
  | none => o
  | some ledger => { o with ledger := ledger, decided := o.decided ++ [(row.key, kind)] }

/-- The scene has recorded an outcome for the row, or its epoch is not the current one. -/
def mayLeave (o : Outbox) (row : Row) : Bool :=
  o.decided.any (·.1 = row.key) ||
    (o.seqRows row.request.stream).map (·.epoch) ≠ some row.request.streamEpoch

def step (o : Outbox) : OutboxEvent → Outbox
  | .ensureSeqRow stream nowMs => o.setSeqRow stream (ensureSeqRow (o.seqRows stream) nowMs)
  | .rebuild stream nowMs =>
    match o.seqRows stream with
    | none => o
    | some row => if row.epoch < nowMs then o.setSeqRow stream (some ⟨nowMs, 1⟩) else o
  | .enqueue limits row => o.enqueue limits row
  | .record i kind reasonTipId =>
    match o.rows[i]? with
    | none => o
    | some row => o.record row kind reasonTipId
  | .leave i status =>
    match o.rows[i]? with
    | none => o
    | some row =>
      if row.status = .pending && status ≠ .pending && o.mayLeave row then
        { o with rows := o.rows.set i { row with status } }
      else o

end Outbox

/-! ## The window and the largest number -/

/-- The window ends at the largest number, or nothing has left it. -/
def AssetOpStreamLedger.Tight (l : AssetOpStreamLedger) : Prop :=
  l.watermark = l.maxSeq - windowBits

theorem slideWindow_maxSeq (l : AssetOpStreamLedger) (q : Nat) :
    (slideWindow l q).maxSeq = l.maxSeq := by
  unfold slideWindow
  split <;> simp only [pruneBelowWatermark]

variable {l : AssetOpStreamLedger} {l' : AssetOpStreamLedger} {reason : Nat} {k : AssetOpRecordKind}
  {rows : List Row} {stream : AssetOpStream}

theorem record_window {e q : Nat} (h : recordAssetOpOutcome l e q k reason = some l') :
    l'.streamEpoch = e ∧ l'.watermark = max (l.base e).watermark (q - windowBits) ∧
      l'.maxSeq = max (l.base e).maxSeq q := by
  obtain ⟨-, hepoch, -, rfl⟩ := record_cases h
  refine ⟨(slideWindow_streamEpoch _ q).trans hepoch, slideWindow_watermark _ q, ?_⟩
  simp only [markSeq, slideWindow_maxSeq]
  rfl

theorem AssetOpStreamLedger.Tight.base (h : l.Tight) (e : Nat) :
    (l.base e).Tight := by
  unfold AssetOpStreamLedger.base
  split
  · exact (Nat.zero_sub _).symm
  · exact h

theorem AssetOpStreamLedger.Tight.record {e q : Nat}
    (h : l.Tight) (hr : recordAssetOpOutcome l e q k reason = some l') :
    l'.Tight := by
  obtain ⟨-, hw, hm⟩ := record_window hr
  have hbase := h.base e
  unfold AssetOpStreamLedger.Tight at hbase ⊢
  omega

/-! ## What an allocation has checked -/

theorem mem_pendingSeqs {epoch : Nat} {row : Row}
    (hrow : row ∈ rows) (hs : row.request.stream = stream) (he : row.request.streamEpoch = epoch)
    (hp : row.status = .pending) : row.request.seq ∈ pendingSeqs rows stream epoch := by
  refine (mem_insertionSort _).2 (mem_map_of_mem (mem_filter.2 ⟨hrow, ?_⟩))
  simp [hs, he, hp]

/-- The next number is less than 512 above every pending one. -/
theorem allocateSeq_span {lim : Limits} {row : SeqRow}
    {seq : Nat} {next : SeqRow} (h : allocateSeq lim rows stream (some row) = some (seq, next)) :
    seq = row.nextSeq ∧ next = ⟨row.epoch, row.nextSeq + 1⟩ ∧ row.epoch ≠ 0 ∧
      ∀ q ∈ pendingSeqs rows stream row.epoch, row.nextSeq < q + 512 := by
  simp only [allocateSeq] at h
  split at h
  · cases h
  next hvalid =>
  split at h
  · cases h
  split at h
  · cases h
  next hspan =>
  obtain ⟨rfl, rfl⟩ := Prod.mk.inj (Option.some.inj h)
  simp only [Bool.or_eq_true, not_or, Limits.valid, Bool.not_eq_true', Bool.not_eq_false,
    Bool.and_eq_true, decide_eq_true_eq, decide_eq_false_iff_not] at hvalid
  refine ⟨rfl, rfl, hvalid.2, fun q hq => ?_⟩
  have hsorted : (pendingSeqs rows stream row.epoch).Pairwise (· ≤ ·) :=
    pairwise_insertionSort _ _
  cases hlist : pendingSeqs rows stream row.epoch with
  | nil => simp [hlist] at hq
  | cons low rest =>
    rw [hlist] at hq hsorted hspan
    have hlow : low ≤ q := by
      rcases mem_cons.1 hq with rfl | hq
      · exact le_rfl
      · exact (pairwise_cons.1 hsorted).1 q hq
    simp only [take_succ_cons, List.head?_cons, Option.any_some, decide_eq_true_eq] at hspan
    have := hvalid.1.1
    omega

/-! ## The invariant -/

namespace Outbox

structure RowOk (decided : Decided) (row : Row) (seqRow : SeqRow) : Prop where
  epoch_le : row.request.streamEpoch ≤ seqRow.epoch
  seq_ne : row.request.seq ≠ 0
  below : row.request.streamEpoch = seqRow.epoch → row.request.seq < seqRow.nextSeq
  near : row.request.streamEpoch = seqRow.epoch → row.status = .pending →
    seqRow.nextSeq ≤ row.request.seq + 512
  recorded : row.request.streamEpoch = seqRow.epoch → row.status ≠ .pending →
    ∃ k, (row.key, k) ∈ decided

/-- A number row: every number below the next one has its row. -/
structure SeqOk (rows : List Row) (stream : AssetOpStream) (seqRow : SeqRow) : Prop where
  epoch_ne : seqRow.epoch ≠ 0
  next_ne : seqRow.nextSeq ≠ 0
  next_le : seqRow.nextSeq ≤ uint64Max
  given : ∀ q, q ≠ 0 → q < seqRow.nextSeq → ∃ row ∈ rows, row.key = ⟨stream, seqRow.epoch, q⟩

theorem SeqOk.first {nowMs : Nat} (hne : nowMs ≠ 0) (rows : List Row) (stream : AssetOpStream) :
    SeqOk rows stream ⟨nowMs, 1⟩ where
  epoch_ne := hne
  next_ne := Nat.one_ne_zero
  next_le := by simp [uint64Max]
  given q hq hlt := absurd (Nat.lt_one_iff.1 hlt) hq

/-- A stream of the ledger: it knows no later epoch and no number that was not given out. -/
structure LedgerOk (l : AssetOpStreamLedger) (seqRow : SeqRow) : Prop where
  tight : l.Tight
  epoch_le : l.streamEpoch ≤ seqRow.epoch
  max_lt : l.streamEpoch = seqRow.epoch → l.maxSeq < seqRow.nextSeq

theorem LedgerOk.record {l l' : AssetOpStreamLedger} {s : SeqRow} (h : LedgerOk l s)
    {e q reason : Nat} {k : AssetOpRecordKind} (he : e ≤ s.epoch)
    (hq : e = s.epoch → q < s.nextSeq) (hr : recordAssetOpOutcome l e q k reason = some l') :
    LedgerOk l' s := by
  obtain ⟨hepoch, -, hmax⟩ := record_window hr
  refine ⟨h.tight.record hr, hepoch ▸ he, fun heq => ?_⟩
  have hlt := hq (hepoch.symm.trans heq)
  have hbase : (l.base e).maxSeq < s.nextSeq := by
    have hcur := (record_cases hr).2.1
    unfold AssetOpStreamLedger.base at hcur ⊢
    split
    · exact Nat.zero_lt_of_lt hlt
    next hle =>
      rw [if_neg hle] at hcur
      exact h.max_lt (by omega)
  omega

structure Ok (o : Outbox) : Prop where
  agrees : LedgerAgrees o.ledger o.decided
  rows : ∀ row ∈ o.rows, ∃ s, o.seqRows row.request.stream = some s ∧ RowOk o.decided row s
  seqRows : ∀ stream s, o.seqRows stream = some s → SeqOk o.rows stream s
  ledger : ∀ stream l, findAssetOpStream o.ledger stream = some l →
    ∃ s, o.seqRows stream = some s ∧ LedgerOk l s

namespace Ok

variable {o : Outbox}

theorem start : Outbox.start.Ok :=
  ⟨.nil, by simp [Outbox.start], by simp [Outbox.start],
    by simp [Outbox.start, findAssetOpStream]⟩

variable {stream : AssetOpStream} {s : SeqRow}

/-- A number 513 or more below the next one was recorded. -/
theorem recorded (h : o.Ok)
    (hs : o.seqRows stream = some s) {q : Nat} (hq : q ≠ 0) (hlt : q + 512 < s.nextSeq) :
    ∃ k, (⟨stream, s.epoch, q⟩, k) ∈ o.decided := by
  obtain ⟨row, hrow, hkey⟩ := (h.seqRows stream s hs).given q hq (by omega)
  obtain ⟨s', hs', hok⟩ := h.rows row hrow
  have hstream : row.request.stream = stream := congrArg OpKey.stream hkey
  have hepoch : row.request.streamEpoch = s.epoch := congrArg OpKey.epoch hkey
  have hseq : row.request.seq = q := congrArg OpKey.seq hkey
  rw [hstream, hs] at hs'
  cases hs'
  obtain ⟨k, hk⟩ := hok.recorded hepoch fun hp => by
    have := hok.near hepoch hp
    omega
  exact ⟨k, hkey ▸ hk⟩

variable {row : Row}

/-- A pending number of the current epoch is in the window, or new to the ledger. -/
theorem classify (h : o.Ok) (hrow : row ∈ o.rows) (hp : row.status = .pending)
    (hcur : (o.seqRows row.request.stream).map (·.epoch) = some row.request.streamEpoch) :
    classifyAssetOpSeq (findAssetOpStream o.ledger row.request.stream) row.request.streamEpoch
      row.request.seq ∈ [.unseen, .aheadOfWindow, .applied, .rejected] := by
  obtain ⟨s, hs, hok⟩ := h.rows row hrow
  have hepoch : row.request.streamEpoch = s.epoch := by
    rw [hs] at hcur
    exact (Option.some.inj hcur).symm
  have hbelow := hok.below hepoch
  have hnear := hok.near hepoch hp
  have hseq := hok.seq_ne
  have hseqOk := h.seqRows _ s hs
  have hzero : ¬ (decide (row.request.seq = 0) || decide (row.request.streamEpoch = 0)) = true := by
    simp [hseq, hepoch, hseqOk.epoch_ne]
  -- a ledger that knows nothing of the epoch: no number was recorded, so all are pending
  have hnew : (∀ q k, (⟨row.request.stream, s.epoch, q⟩, k) ∉ o.decided) →
      row.request.seq ≤ maxSeqJump := fun hnone => by
    by_contra hfar
    simp only [maxSeqJump] at hfar
    obtain ⟨k, hk⟩ := h.recorded hs (q := s.nextSeq - 513) (by omega) (by omega)
    exact hnone _ k hk
  unfold classifyAssetOpSeq
  rw [if_neg hzero]
  cases hf : findAssetOpStream o.ledger row.request.stream with
  | none =>
    dsimp only
    rw [if_pos (hnew fun q k => h.agrees.missing _ hf _ q k)]
    simp
  | some l =>
    obtain ⟨s', hs', hl⟩ := h.ledger _ l hf
    obtain rfl := Option.some.inj (hs.symm.trans hs')
    have hagrees := h.agrees.found _ l hf
    have hstream := findAssetOpStream_stream hf
    dsimp only
    rw [if_neg (Nat.not_lt.2 (hepoch ▸ hl.epoch_le))]
    split
    next hgt =>
      have hle := hnew fun q k hm => by
        have := hagrees.epoch_le s.epoch q k (hstream ▸ hm)
        omega
      rw [if_pos hle]
      simp
    next hgt =>
      have hsame : l.streamEpoch = s.epoch := by
        have := hl.epoch_le
        omega
      have hmax := hl.max_lt hsame
      have htight := hl.tight
      have hnext := hseqOk.next_le
      have hreach : row.request.seq ≤ l.maxSeq + maxSeqJump := by
        by_contra hfar
        simp only [maxSeqJump] at hfar
        obtain ⟨k, hk⟩ := h.recorded hs (q := s.nextSeq - 513) (by omega) (by omega)
        have := hagrees.seq_le (s.nextSeq - 513) k (hstream ▸ hsame ▸ hk)
        omega
      unfold AssetOpStreamLedger.Tight at htight
      have hjump : exceedsJumpCap l.maxSeq row.request.seq = false := by
        unfold exceedsJumpCap
        split
        · rfl
        · exact decide_eq_false (by omega)
      unfold classifyInEpoch
      rw [if_neg (by simp only [uint64Max, windowBits] at *; omega),
        if_neg (by simp only [windowBits] at htight; omega), hjump, if_neg Bool.false_ne_true]
      split
      · simp
      · split
        · simp
        · split <;> simp

/-! ### Steps -/

variable (h : o.Ok)

include h

theorem setSeqRow (hrows : ∀ row ∈ o.rows, row.request.stream = stream → RowOk o.decided row s)
    (hseq : SeqOk o.rows stream s)
    (hledger : ∀ l, findAssetOpStream o.ledger stream = some l → LedgerOk l s) :
    (o.setSeqRow stream (some s)).Ok where
  agrees := h.agrees
  rows row hrow := by
    by_cases hs : row.request.stream = stream
    · exact ⟨s, if_pos hs, hrows row hrow hs⟩
    · obtain ⟨s', hs', hok⟩ := h.rows row hrow
      exact ⟨s', (if_neg hs).trans hs', hok⟩
  seqRows t s' hs' := by
    simp only [Outbox.setSeqRow] at hs'
    split at hs'
    next ht =>
      cases hs'
      exact ht ▸ hseq
    · exact h.seqRows t s' hs'
  ledger t l hl := by
    by_cases ht : t = stream
    · exact ⟨s, if_pos ht, hledger l (ht ▸ hl)⟩
    · obtain ⟨s', hs', hok⟩ := h.ledger t l hl
      exact ⟨s', (if_neg ht).trans hs', hok⟩

theorem ensureSeqRow (stream : AssetOpStream) (nowMs : Nat) :
    (o.setSeqRow stream (AssetOp.ensureSeqRow (o.seqRows stream) nowMs)).Ok := by
  have hsame : o.setSeqRow stream (o.seqRows stream) = o := by
    unfold Outbox.setSeqRow
    congr
    funext s
    split
    next hs => rw [hs]
    · rfl
  unfold AssetOp.ensureSeqRow
  split
  · rwa [hsame]
  rename_i hne
  cases hs : o.seqRows stream with
  | some s =>
    rw [hs] at hsame
    rwa [Option.getD_some, hsame]
  | none =>
    refine h.setSeqRow (fun row hrow hstream => ?_) (.first hne _ _) fun l hl => ?_
    · obtain ⟨s', hs', -⟩ := h.rows row hrow
      rw [hstream, hs] at hs'
      cases hs'
    · obtain ⟨s', hs', -⟩ := h.ledger stream l hl
      rw [hs] at hs'
      cases hs'

theorem rebuild (hs : o.seqRows stream = some s) {nowMs : Nat} (hlt : s.epoch < nowMs) :
    (o.setSeqRow stream (some ⟨nowMs, 1⟩)).Ok := by
  refine h.setSeqRow (fun row hrow hstream => ?_) (.first (by omega) _ _) fun l hl => ?_
  · obtain ⟨s', hs', hok⟩ := h.rows row hrow
    obtain rfl := Option.some.inj (hs.symm.trans (hstream ▸ hs'))
    have hle := hok.epoch_le
    refine ⟨hle.trans hlt.le, hok.seq_ne, ?_, ?_, ?_⟩ <;> intro heq <;> simp only at heq <;> omega
  · obtain ⟨s', hs', hok⟩ := h.ledger stream l hl
    obtain rfl := Option.some.inj (hs.symm.trans hs')
    have hle := hok.epoch_le
    exact ⟨hok.tight, hle.trans hlt.le, fun heq => by simp only at heq; omega⟩

theorem enqueue (limits : Limits) (row : Row) : (o.enqueue limits row).Ok := by
  unfold Outbox.enqueue
  dsimp only
  split
  · exact h
  next s hs =>
  split
  · exact h
  next seq next halloc =>
  split
  · exact h
  next hfit =>
  obtain ⟨rfl, rfl, hepoch, hspan⟩ := allocateSeq_span halloc
  have hseq := h.seqRows _ s hs
  simp only [gt_iff_lt, Nat.not_lt] at hfit
  refine ⟨h.agrees, forall_mem_append.2 ⟨fun old hold => ?_, forall_mem_singleton.2 ?_⟩,
    fun t s' hs' => ?_, fun t l hl => ?_⟩
  · obtain ⟨s', hs', hok⟩ := h.rows old hold
    by_cases hstream : old.request.stream = row.request.stream
    · refine ⟨_, if_pos hstream, ?_⟩
      obtain rfl := Option.some.inj (hs.symm.trans (hstream ▸ hs'))
      refine { hok with below := fun he => (hok.below he).trans (Nat.lt_succ_self _), near := ?_ }
      intro he hp
      have := hspan _ (mem_pendingSeqs hold hstream he hp)
      simp only
      omega
    · exact ⟨s', (if_neg hstream).trans hs', hok⟩
  · refine ⟨_, if_pos rfl, le_rfl, hseq.next_ne, fun _ => Nat.lt_succ_self _, fun _ _ => ?_,
      fun _ hne => absurd rfl hne⟩
    simp only
    omega
  · simp only [Outbox.setSeqRow] at hs'
    split at hs'
    next ht =>
      cases hs'
      subst ht
      refine ⟨hepoch, Nat.succ_ne_zero _, hfit, fun q hq hlt => ?_⟩
      rcases (Nat.lt_succ_iff.1 hlt).lt_or_eq with hlt | rfl
      · obtain ⟨old, hold, hkey⟩ := hseq.given q hq hlt
        exact ⟨old, mem_append_left _ hold, hkey⟩
      · exact ⟨_, mem_append_right _ (mem_singleton_self _), rfl⟩
    · have hother := h.seqRows t s' hs'
      refine { hother with given := fun q hq hlt => ?_ }
      obtain ⟨old, hold, hkey⟩ := hother.given q hq hlt
      exact ⟨old, mem_append_left _ hold, hkey⟩
  · obtain ⟨s', hs', hok⟩ := h.ledger t l hl
    by_cases ht : t = row.request.stream
    · obtain rfl := Option.some.inj (hs.symm.trans (ht ▸ hs'))
      exact ⟨_, if_pos ht, hok.tight, hok.epoch_le,
        fun he => (hok.max_lt he).trans (Nat.lt_succ_self _)⟩
    · exact ⟨s', (if_neg ht).trans hs', hok⟩

theorem record (hrow : row ∈ o.rows) (kind : AssetOpRecordKind) (reason : Nat) :
    (o.record row kind reason).Ok := by
  unfold Outbox.record
  split
  · exact h
  next ledger hledger =>
  obtain ⟨s, hs, hok⟩ := h.rows row hrow
  refine ⟨h.agrees.recordInStream hledger, fun old hold => ?_, h.seqRows, fun t l hl => ?_⟩
  · obtain ⟨s', hs', hold'⟩ := h.rows old hold
    refine ⟨s', hs', { hold' with recorded := fun he hne => ?_ }⟩
    obtain ⟨k, hk⟩ := hold'.recorded he hne
    exact ⟨k, mem_append_left _ hk⟩
  · unfold recordInStream at hledger
    split at hledger
    next hsome =>
      cases hledger
      obtain ⟨l', hl'⟩ := Option.isSome_iff_exists.1 hsome
      rw [find_modify (recordAssetOpOutcome_getD_stream _ _ _ _)] at hl
      split at hl
      next ht =>
        subst ht
        rw [hl', Option.getD_some] at hl
        cases hl
        refine ⟨s, hs, LedgerOk.record ?_ hok.epoch_le hok.below hl'⟩
        unfold mutableAssetOpStream
        cases hf : findAssetOpStream o.ledger row.request.stream with
        | none =>
          have hseq := h.seqRows _ s hs
          exact ⟨(Nat.zero_sub _).symm, Nat.zero_le _, fun _ => Nat.pos_of_ne_zero hseq.next_ne⟩
        | some l₀ =>
          obtain ⟨s', hs', hl₀⟩ := h.ledger _ l₀ hf
          obtain rfl := Option.some.inj (hs.symm.trans hs')
          exact hl₀
      · exact h.ledger t l hl
    · cases hledger

theorem leave {i : Nat} (hrow : o.rows[i]? = some row) {status : Status}
    (hstatus : status ≠ .pending) (hmay : o.mayLeave row = true) :
    Ok { o with rows := o.rows.set i { row with status } } := by
  refine ⟨h.agrees, fun new hnew => ?_, fun t s hs => ?_, h.ledger⟩
  · rcases mem_or_eq_of_mem_set hnew with hold | rfl
    · exact h.rows new hold
    · obtain ⟨s, hs, hok⟩ := h.rows row (mem_of_getElem? hrow)
      refine ⟨s, hs, { hok with near := fun _ hp => absurd hp hstatus, recorded := fun he _ => ?_ }⟩
      simp only [mayLeave, Bool.or_eq_true, any_eq_true, decide_eq_true_eq] at hmay
      rcases hmay with ⟨⟨key, k⟩, hk, rfl⟩ | hother
      · exact ⟨k, hk⟩
      · rw [hs] at hother
        exact absurd (congrArg some he.symm) hother
  · have hseq := h.seqRows t s hs
    refine { hseq with given := fun q hq hlt => ?_ }
    obtain ⟨old, hold, hkey⟩ := hseq.given q hq hlt
    obtain ⟨j, hj⟩ := mem_iff_getElem?.1 hold
    by_cases hij : i = j
    · obtain rfl := hij
      obtain rfl := Option.some.inj (hrow.symm.trans hj)
      obtain ⟨hlen, -⟩ := List.getElem?_eq_some_iff.1 hrow
      exact ⟨_, mem_set hlen _, hkey⟩
    · exact ⟨old, mem_of_getElem? ((List.getElem?_set_ne hij).trans hj), hkey⟩

theorem step (e : OutboxEvent) : (o.step e).Ok := by
  cases e with
  | ensureSeqRow stream nowMs => exact h.ensureSeqRow stream nowMs
  | rebuild stream nowMs =>
    dsimp only [Outbox.step]
    split
    · exact h
    next s hs =>
      split
      next hlt => exact h.rebuild hs hlt
      · exact h
  | enqueue limits row => exact h.enqueue limits row
  | record i kind reasonTipId =>
    dsimp only [Outbox.step]
    split
    · exact h
    next row hrow => exact h.record (mem_of_getElem? hrow) kind reasonTipId
  | leave i status =>
    dsimp only [Outbox.step]
    split
    · exact h
    rename_i row hrow
    split
    next hleave =>
      simp only [Bool.and_eq_true, decide_eq_true_eq] at hleave
      exact h.leave hrow hleave.1.2 hleave.2
    · exact h

end Ok

/-- **Pending operations stay decidable**: in every run, the scene's ledger answers for a pending
number of the current epoch that it is new or how it was decided. -/
theorem pending_op_decidable (evs : List OutboxEvent) (row : Row)
    (hrow : row ∈ (Machine.run Outbox.step start evs).rows) (hp : row.status = .pending)
    (hcur : ((Machine.run Outbox.step start evs).seqRows row.request.stream).map (·.epoch) =
      some row.request.streamEpoch) :
    classifyAssetOpSeq
      (findAssetOpStream (Machine.run Outbox.step start evs).ledger row.request.stream)
      row.request.streamEpoch row.request.seq ∈ [.unseen, .aheadOfWindow, .applied, .rejected] := by
  have hok : (Machine.run Outbox.step start evs).Ok :=
    Machine.run_invariant (I := Outbox.Ok) (fun _ e h => h.step e) .start evs
  exact hok.classify hrow hp hcur

def guildRow (seq : Nat) : Row :=
  ⟨seq, ⟨9, .guildDebit, seq, seq, 24, ⟨[⟨1, 5⟩], [], [], 0, [], none⟩, 7⟩, 0, 0, 0, 0, 0, .pending⟩

/-- The second operation is recorded and leaves; the first one is still on its way. -/
def overtaken : List OutboxEvent :=
  [.ensureSeqRow .guildDebit 7, .enqueue ⟨8, 64⟩ (guildRow 1), .enqueue ⟨8, 64⟩ (guildRow 2),
    .record 1 .applied 0, .leave 1 .applied]

theorem overtaken_op_decidable :
    (Machine.run Outbox.step start overtaken).rows.map (·.status) = [.pending, .applied] ∧
      classifyAssetOpSeq
        (findAssetOpStream (Machine.run Outbox.step start overtaken).ledger .guildDebit) 7 1 ∈
        [.unseen, .aheadOfWindow, .applied, .rejected] :=
  ⟨by decide +kernel,
    pending_op_decidable overtaken (guildRow 1) (by decide +kernel) rfl (by decide +kernel)⟩

end Outbox

end Mmorpg.AssetOp
