import Mmorpg.Lib.Run
import Mmorpg.Inbox.Consumer

/-!
# Rows and ledgers agree

How the copies of a player's record fit the rows of the store, and that a batch is applied so
that they still do.

The history of the memory starts with decisions whose rows are closed; what follows, at most a
batch, is what the ring has to keep (`History`). A round works on the end of the history: the
decisions in its queue are the last ones, all rows before them are closed, and the items still
to come are the next pending rows (`Round`). So a fetched batch begins with the decisions that
were not acknowledged, all of them in the ring, and goes on with new items; and an Ack closes
everything up to its last decision. Copies of the record are ordered by their histories
(`Copy.Le`), so what holds of the memory holds of every copy.
-/

namespace Mmorpg.Inbox

open List

/-! ## Copies -/

def Copy.Le (c c' : Copy) : Prop := c.decided <+: c'.decided ∧ c.effects <+: c'.effects

theorem Copy.Le.refl (c : Copy) : c.Le c := ⟨prefix_rfl, prefix_rfl⟩

variable {c : Copy}

theorem Copy.Le.trans {a b : Copy} (h : a.Le b) (h' : b.Le c) : a.Le c :=
  ⟨h.1.trans h'.1, h.2.trans h'.2⟩

def Decision.Of (d : Decision) (r : Row) : Prop :=
  r.seq = d.seq ∧ r.requestId = d.requestId ∧ r.msgType = d.msgType ∧ r.deliveryCount ≠ 0 ∧
    (d.outcome = .skipped → r.directive = .void)

/-- A copy: the ledger records the history, the decisions are those of delivered rows, and the
effects are those of the applied ones. -/
structure Copy.Ok (domain : InboxDomain) (rows : List Row) (c : Copy) : Prop where
  ledger : (mutableCursor c.ledger domain).Records c.decided
  history : IsHistory c.decided
  decided : ∀ d ∈ c.decided, ∃ r ∈ rows, d.Of r
  effects : c.effects.map (·.seq) = (c.decided.filter (·.outcome = .applied)).map (·.seq)
  sources : ∀ e ∈ c.effects, ∃ r ∈ rows, r.effect = e

variable {domain : InboxDomain} {rows : List Row}

/-- A number above all rows is above the history. -/
theorem Copy.Ok.lastSeq_lt
    (h : c.Ok domain rows) {seq : Nat} (hpos : seq ≠ 0) (hbehind : ∀ r ∈ rows, r.seq < seq) :
    lastSeq c.decided < seq := by
  rcases eq_nil_or_concat' c.decided with hnil | ⟨front, last, hlast⟩
  · rw [hnil, lastSeq_nil]
    omega
  · obtain ⟨r, hr, hof⟩ := h.decided last (by simp [hlast])
    rw [hlast, lastSeq_concat, ← hof.1]
    exact hbehind r hr

variable {r' : Row} {d : Decision} {r : Row}

theorem Row.Next.decision (h : r.Next r') (hd : d.Of r) : d.Of r' := by
  obtain ⟨hseq, hreq, htype, hcount, hvoid⟩ := hd
  have hreq' := congrArg Prod.snd h.request
  exact ⟨h.seq.trans hseq, hreq'.trans hreq, h.msgType.trans htype, h.delivered hcount,
    fun hs => h.voided (hvoid hs)⟩

theorem Row.Next.effect (h : r.Next r') : r'.effect = r.effect := by
  have hreq := congrArg Prod.snd h.request
  simp only [Row.effect, h.seq, h.msgType, h.payload]
  simpa using hreq

section Transaction

variable {cfg : InboxConfig} {reports : List Report} {st st' : Store}
variable (ht : Transacts cfg reports st st')

include ht

theorem Copy.Ok.transact (h : c.Ok cfg.domain st.rows) : c.Ok cfg.domain st'.rows where
  __ := h
  decided d hd := by
    obtain ⟨r, hr, hof⟩ := h.decided d hd
    obtain ⟨r', hr', hstep⟩ := ht.step r hr
    exact ⟨r', hr', hstep.next.decision hof⟩
  sources e he := by
    obtain ⟨r, hr, heff⟩ := h.sources e he
    obtain ⟨r', hr', hstep⟩ := ht.step r hr
    exact ⟨r', hr', hstep.next.effect.trans heff⟩

/-- The row of a decision is only pending if it was. -/
theorem Copy.Ok.open_of_open (h : c.Ok cfg.domain st.rows)
    (hd : d ∈ c.decided) (hopen : Open st'.rows d.seq) : Open st.rows d.seq := by
  obtain ⟨r, hr, hof⟩ := h.decided d hd
  exact ht.open_of_open ⟨r, hr, hof.1.ge⟩ hopen

end Transaction

/-! ## Histories and rows -/

/-- Pending rows are at the end of the history, not more than a batch; no pending row was passed
over, and a delivered row is closed only after its decision. -/
structure History (rows : List Row) (decided : List Decision) : Prop where
  mono : decided.Pairwise fun a b => Open rows a.seq → Open rows b.seq
  few : ∀ pre d post, decided = pre ++ d :: post → Open rows d.seq → post.length < kFetchBatchMax
  gapless : ∀ r ∈ rows, r.state = .pending → r.seq ≤ lastSeq decided → ∃ d ∈ decided, d.seq = r.seq
  closed : ∀ r ∈ rows, r.state ≠ .pending → r.deliveryCount = 0 ∨ ∃ d ∈ decided, d.seq = r.seq

namespace History

variable {rows : List Row} {decided : List Decision}

/-- An earlier history, if it has the decisions of all closed rows. -/
theorem earlier (h : History rows decided) (hh : IsHistory decided) {early : List Decision}
    (he : early <+: decided)
    (hclosed : ∀ r ∈ rows, r.state ≠ .pending → r.deliveryCount = 0 ∨ ∃ d ∈ early, d.seq = r.seq) :
    History rows early where
  mono := h.mono.sublist he.sublist
  few pre d post hsplit hopen := by
    obtain ⟨later, rfl⟩ := he
    have := h.few pre d (post ++ later) (by rw [hsplit]; simp) hopen
    rw [length_append] at this
    omega
  gapless r hr hstate hle := by
    have hlast : lastSeq early ≤ lastSeq decided := by
      obtain rfl | ⟨front, last, rfl⟩ := eq_nil_or_concat' early
      · exact Nat.zero_le _
      · rw [lastSeq_concat]
        exact hh.seq_le_last (he.subset (by simp))
    obtain ⟨d, hd, hseq⟩ := h.gapless r hr hstate (hle.trans hlast)
    exact ⟨d, hh.mem_of_le he hd (by omega), hseq⟩
  closed := hclosed

/-- The row of an item that is not decided is pending. -/
theorem open_of_new (h : History rows decided) (hh : IsHistory decided) (hr : r ∈ rows)
    (hcount : r.deliveryCount ≠ 0) (hnew : lastSeq decided < r.seq) : Open rows r.seq := by
  refine ⟨r, hr, rfl, ?_⟩
  by_contra hne
  rcases h.closed r hr hne with hzero | ⟨d, hd, hseq⟩
  · exact hcount hzero
  · have := hh.seq_le_last hd
    omega

end History

/-- A transaction that leaves the order of pending rows keeps the history. -/
theorem History.transact {cfg : InboxConfig} {reports : List Report} {st st' : Store}
    (ht : Transacts cfg reports st st') (hc : c.Ok cfg.domain st.rows)
    (h : History st.rows c.decided)
    (hmono : c.decided.Pairwise fun a b => Open st'.rows a.seq → Open st'.rows b.seq)
    (hclosed : ∀ r ∈ st'.rows, r.state ≠ .pending →
      r.deliveryCount = 0 ∨ ∃ d ∈ c.decided, d.seq = r.seq) :
    History st'.rows c.decided where
  mono := hmono
  few pre d post hsplit hopen :=
    h.few pre d post hsplit (hc.open_of_open ht (by simp [hsplit]) hopen)
  gapless r' hr' hstate hle := by
    rcases ht.back r' hr' with ⟨r, hr, hstep⟩ | ⟨-, hbehind⟩
    · have hseq := hstep.next.seq
      obtain ⟨d, hd, hdseq⟩ := h.gapless r hr (hstep.pending hstate) (hseq ▸ hle)
      exact ⟨d, hd, hdseq.trans hseq.symm⟩
    · have := hc.lastSeq_lt (ht.ok.below r' hr').1 hbehind
      omega
  closed := hclosed

/-! ## Rounds -/

/-- The item is the delivery on which the decision was made, once more. -/
def Item.Repeats (x : Item) (d : Decision) : Prop :=
  x.seq = d.seq ∧ x.requestId = d.requestId ∧ x.msgType = d.msgType

def Item.Of (x : Item) (r : Row) : Prop :=
  r.seq = x.seq ∧ r.requestId = x.requestId ∧ r.msgType = x.msgType ∧ r.deliveryCount ≠ 0 ∧
    (x.directive = .void → r.directive = .void) ∧ (x.directive = .none → r.payload = x.payload)

variable {x : Item}

theorem Row.Next.item (h : r.Next r') (hx : x.Of r) : x.Of r' := by
  obtain ⟨hseq, hreq, htype, hcount, hvoid, hpay⟩ := hx
  have hreq' := congrArg Prod.snd h.request
  exact ⟨h.seq.trans hseq, hreq'.trans hreq, h.msgType.trans htype, h.delivered hcount,
    fun hs => h.voided (hvoid hs), fun hs => h.payload.trans (hpay hs)⟩

/-- A round on the end of the history: the queue, then decisions that are delivered once more,
then new items. -/
structure Round (limit : Nat) (rows : List Row) (decided queue rest : List Decision)
    (replayed new : List Item) : Prop where
  split : ∃ front, decided = front ++ (queue ++ rest) ∧ ∀ d ∈ front, ¬ Open rows d.seq
  replays : List.Forall₂ Item.Repeats replayed rest
  fresh : ∀ x ∈ new, lastSeq decided < x.seq
  ordered : new.Pairwise (·.seq < ·.seq)
  delivered : ∀ x ∈ new, ∃ r ∈ rows, x.Of r
  gapless : ∀ r ∈ rows, r.state = .pending → ∀ y ∈ new, r.seq ≤ y.seq →
    (∃ d ∈ decided, d.seq = r.seq) ∨ ∃ x ∈ new, x.seq = r.seq
  size : queue.length + replayed.length + new.length ≤ limit

namespace Round

variable {limit : Nat} {rows : List Row} {decided queue rest : List Decision}
variable {replayed new : List Item}

/-- The items that are still to come may be dropped when no decision is among them. -/
theorem drop (h : Round limit rows decided queue [] replayed new) :
    Round limit rows decided queue [] [] [] where
  split := h.split
  replays := .nil
  fresh := by simp
  ordered := .nil
  delivered := by simp
  gapless := by simp
  size := by
    have := h.size
    simp only [length_nil]
    omega

variable (h : Round limit rows decided queue rest replayed new)

include h

/-- All decisions that are delivered once more are queued. -/
theorem queueAll : Round limit rows decided (queue ++ rest) [] [] new where
  __ := h
  split := by simpa using h.split
  replays := .nil
  size := by
    have := h.size
    have := h.replays.length_eq
    simp only [length_append, length_nil]
    omega

/-- What a round queues is in the ring. -/
theorem mem_rtake (hlimit : limit ≤ kFetchBatchMax) {d : Decision} (hd : d ∈ queue ++ rest) :
    d ∈ decided.rtake kRecentCapacity := by
  obtain ⟨front, hsplit, -⟩ := h.split
  rw [hsplit]
  refine mem_rtake_of_suffix hd ?_
  have := h.size
  have := h.replays.length_eq
  simp only [length_append, kFetchBatchMax, kRecentCapacity] at *
  omega

end Round

theorem Round.transact {cfg : InboxConfig} {reports : List Report} {st st' : Store}
    (ht : Transacts cfg reports st st') (hc : c.Ok cfg.domain st.rows) {limit : Nat}
    {queue rest : List Decision} {replayed new : List Item}
    (h : Round limit st.rows c.decided queue rest replayed new) :
    Round limit st'.rows c.decided queue rest replayed new where
  __ := h
  split := by
    obtain ⟨front, hsplit, hclosed⟩ := h.split
    refine ⟨front, hsplit, fun d hd hopen => hclosed d hd (hc.open_of_open ht ?_ hopen)⟩
    rw [hsplit]
    exact mem_append_left _ hd
  delivered x hx := by
    obtain ⟨r, hr, hof⟩ := h.delivered x hx
    obtain ⟨r', hr', hstep⟩ := ht.step r hr
    exact ⟨r', hr', hstep.next.item hof⟩
  gapless r' hr' hstate y hy hle := by
    rcases ht.back r' hr' with ⟨r, hr, hstep⟩ | ⟨-, hbehind⟩
    · have hseq := hstep.next.seq
      rcases h.gapless r hr (hstep.pending hstate) y hy (hseq ▸ hle) with
        ⟨d, hd, hdseq⟩ | ⟨x, hx, hxseq⟩
      · exact .inl ⟨d, hd, hdseq.trans hseq.symm⟩
      · exact .inr ⟨x, hx, hxseq.trans hseq.symm⟩
    · obtain ⟨r, hr, hof⟩ := h.delivered y hy
      have := hbehind r hr
      have := hof.1
      omega

/-! ## Applying a batch -/

/-- A new item is decided: the decision is recorded, and there is an effect if it is applied. -/
structure Copy.Decides (domain : InboxDomain) (c : Copy) (x : Item) (c' : Copy) (d : Decision) :
    Prop where
  decided : c'.decided = c.decided ++ [d]
  ledger : (mutableCursor c'.ledger domain).Records c'.decided
  recordable : isRecordableOutcome d.outcome = true
  item : x.Repeats d
  skipped : d.outcome = .skipped → x.directive = .void
  effect : (d.outcome = .applied ∧ x.directive = .none ∧ c'.effects = c.effects ++ [x.effect]) ∨
    (d.outcome ≠ .applied ∧ c'.effects = c.effects)

theorem Copy.record_eq
    (hledger : (mutableCursor c.ledger domain).Records c.decided)
    (hout : isRecordableOutcome d.outcome = true) (hnew : lastSeq c.decided < d.seq) :
    ∃ ledger, c.record domain d = (⟨ledger, c.effects, c.decided ++ [d]⟩, true) ∧
      (mutableCursor ledger domain).Records (c.decided ++ [d]) := by
  obtain ⟨cursor, hrecord, hrecords⟩ := recordDecision_records hledger hout hnew
  refine ⟨_, by rw [Copy.record, hrecord]; rfl, ?_⟩
  have hkeep : ∀ c : Cursor, ((recordDecision c d).getD c).domain = c.domain := fun c => by
    cases hc : recordDecision c d with
    | none => rfl
    | some c' => exact recordDecision_domain hc
  rw [mutableCursor, findCursor_modifyCursor hkeep, if_pos rfl, Option.getD_some, hrecord]
  exact hrecords

section Apply

variable {domain : InboxDomain} {rows : List Row} (exec : Item → ExecResult) {c : Copy} {x : Item}

omit exec in
theorem recordStep_next (effects : List Effect) {outcome : Outcome} {reason : Nat}
    (hledger : (mutableCursor c.ledger domain).Records c.decided)
    (hnew : lastSeq c.decided < x.seq) (hout : isRecordableOutcome outcome = true)
    (hskip : outcome = .skipped → x.directive = .void)
    (heffect : (outcome = .applied ∧ x.directive = .none ∧ effects = c.effects ++ [x.effect]) ∨
      (outcome ≠ .applied ∧ effects = c.effects)) :
    ∃ c' d, recordStep domain { c with effects := effects }
        ⟨x.seq, outcome, reason, x.requestId, x.msgType⟩ = .next c' d ∧
      c.Decides domain x c' d := by
  obtain ⟨ledger, hrecord, hrecords⟩ := Copy.record_eq (c := { c with effects := effects })
    (d := ⟨x.seq, outcome, reason, x.requestId, x.msgType⟩) hledger hout hnew
  refine ⟨_, _, by rw [recordStep, hrecord], rfl, hrecords, hout, ⟨rfl, rfl, rfl⟩, hskip, heffect⟩

/-- A new item is decided, or the domain halts, or the item waits. -/
theorem applyItem_new (hc : c.Ok domain rows) (hnew : lastSeq c.decided < x.seq) :
    ∃ step, applyItem domain exec c x = (.new, step) ∧
      ((∃ c' d, step = .next c' d ∧ c.Decides domain x c' d) ∨ (∃ reason, step = .halt reason c) ∨
        step = .defer) := by
  have hclass := classifyDelivery_new hc.ledger hnew x.requestId x.msgType
  unfold applyItem
  rw [show classifyDelivery (findCursor c.ledger domain) x.seq x.requestId x.msgType =
    (.new, (classifyDelivery (findCursor c.ledger domain) x.seq x.requestId x.msgType).2) from
    Prod.ext hclass rfl]
  dsimp only
  split
  · exact ⟨_, rfl, .inr (.inl ⟨_, rfl⟩)⟩
  refine ⟨_, rfl, ?_⟩
  cases hdir : x.directive with
  | other => exact .inr (.inl ⟨_, rfl⟩)
  | void =>
    exact .inl (recordStep_next c.effects hc.ledger hnew rfl (fun _ => hdir)
      (.inr ⟨by decide, rfl⟩))
  | none =>
    dsimp only [planItem]
    cases exec x with
    | applied =>
      exact .inl (recordStep_next _ hc.ledger hnew rfl (by simp) (.inl ⟨rfl, hdir, rfl⟩))
    | rejected reason =>
      exact .inl (recordStep_next c.effects hc.ledger hnew rfl (by simp)
        (.inr ⟨by decide, rfl⟩))
    | versionSkew | noExecutor => exact .inr (.inl ⟨_, rfl⟩)
    | defer => exact .inr (.inr rfl)

/-- A decision that is delivered once more is replayed; a battle round halts unless it was
applied. -/
theorem applyItem_replay (hc : c.Ok domain rows) {d : Decision}
    (hd : d ∈ c.decided.rtake kRecentCapacity) (hx : x.Repeats d) :
    applyItem domain exec c x = (.replay, .next c d) ∨
      (isBattleDomain domain = true ∧
        ∃ reason, applyItem domain exec c x = (.replay, .halt reason c)) := by
  unfold applyItem
  rw [hx.1, hx.2.1, hx.2.2, classifyDelivery_replay hc.ledger hc.history hd]
  dsimp only
  split
  next hbattle =>
    simp only [Bool.and_eq_true] at hbattle
    exact .inr ⟨hbattle.1, _, rfl⟩
  · exact .inl rfl

end Apply

section Decide

variable {limit : Nat} {rows : List Row} {decided queue : List Decision} {x : Item}
variable {new : List Item} {d : Decision}

theorem Round.decide (h : Round limit rows decided queue [] [] (x :: new)) (hx : x.Repeats d) :
    Round limit rows (decided ++ [d]) (queue ++ [d]) [] [] new where
  split := by
    obtain ⟨front, hsplit, hclosed⟩ := h.split
    exact ⟨front, by simp [hsplit], hclosed⟩
  replays := .nil
  fresh y hy := by
    rw [lastSeq_concat, ← hx.1]
    exact (pairwise_cons.1 h.ordered).1 y hy
  ordered := (pairwise_cons.1 h.ordered).2
  delivered y hy := h.delivered y (mem_cons_of_mem _ hy)
  gapless r hr hstate y hy hle := by
    rcases h.gapless r hr hstate y (mem_cons_of_mem _ hy) hle with ⟨e, he, hseq⟩ | ⟨z, hz, hseq⟩
    · exact .inl ⟨e, mem_append_left _ he, hseq⟩
    · rcases mem_cons.1 hz with rfl | hz
      · exact .inl ⟨d, by simp, hx.1.symm.trans hseq⟩
      · exact .inr ⟨z, hz, hseq⟩
  size := by
    have := h.size
    simp only [length_append, length_cons, length_nil] at *
    omega

theorem History.decide (h : History rows decided) (hh : IsHistory decided)
    (hr : Round limit rows decided queue [] [] (x :: new)) (hlimit : limit ≤ kFetchBatchMax)
    (hx : x.Repeats d) : History rows (decided ++ [d]) where
  mono := by
    refine pairwise_append.2 ⟨h.mono, pairwise_singleton _ _, fun a _ b hb _ => ?_⟩
    obtain rfl := mem_singleton.1 hb
    obtain ⟨r, hmem, hseq, -, -, hcount, -⟩ := hr.delivered x mem_cons_self
    have hopen := h.open_of_new hh hmem hcount (by
      rw [hseq]
      exact hr.fresh x mem_cons_self)
    rwa [hseq, hx.1] at hopen
  few pre e post hsplit hopen := by
    obtain rfl | ⟨post', last, rfl⟩ := eq_nil_or_concat' post
    · simp [kFetchBatchMax]
    · -- `e` is not among the closed rows of the front, so what follows it is in the queue
      obtain ⟨front, hfront, hclosed⟩ := hr.split
      have hold : decided = pre ++ e :: post' := by
        rw [← cons_append, ← append_assoc] at hsplit
        exact (append_inj' hsplit rfl).1
      rw [append_nil] at hfront
      have hle : post'.length + 1 ≤ queue.length := by
        rcases append_eq_append_iff.1 (hfront.symm.trans hold) with
          ⟨mid, hpre, hqueue⟩ | ⟨mid, hfr, hpost⟩
        · rw [hqueue]
          simp
        · cases mid with
          | nil =>
            rw [nil_append] at hpost
            simp [← hpost]
          | cons e' mid =>
            obtain ⟨rfl, -⟩ := List.cons.inj hpost
            exact absurd hopen (hclosed e (by simp [hfr]))
      have := hr.size
      simp only [length_append, length_cons, length_nil] at *
      omega
  gapless r hmem hstate hle := by
    rw [lastSeq_concat, ← hx.1] at hle
    rcases hr.gapless r hmem hstate x mem_cons_self hle with ⟨e, he, hseq⟩ | ⟨z, hz, hseq⟩
    · exact ⟨e, mem_append_left _ he, hseq⟩
    · rcases mem_cons.1 hz with rfl | hz
      · exact ⟨d, by simp, hx.1.symm.trans hseq⟩
      · have := (pairwise_cons.1 hr.ordered).1 z hz
        omega
  closed r hmem hstate := by
    rcases h.closed r hmem hstate with hzero | ⟨e, he, hseq⟩
    · exact .inl hzero
    · exact .inr ⟨e, mem_append_left _ he, hseq⟩

end Decide

variable {c' : Copy}

theorem Copy.Decides.le
    (h : c.Decides domain x c' d) : c.Le c' := by
  refine ⟨h.decided ▸ prefix_append _ _, ?_⟩
  rcases h.effect with ⟨-, -, heff⟩ | ⟨-, heff⟩
  · exact heff ▸ prefix_append _ _
  · exact heff ▸ prefix_rfl

theorem Copy.Decides.ok (h : c.Decides domain x c' d) (hc : c.Ok domain rows)
    (hnew : lastSeq c.decided < x.seq) (hx : ∃ r ∈ rows, x.Of r) : c'.Ok domain rows := by
  obtain ⟨r, hr, hseq, hreq, htype, hcount, hvoid, hpay⟩ := hx
  refine ⟨h.ledger, ?_, ?_, ?_, ?_⟩
  · rw [h.decided]
    exact hc.history.concat h.recordable (h.item.1 ▸ hnew)
  · rw [h.decided]
    refine forall_mem_append.2 ⟨hc.decided, forall_mem_singleton.2 ⟨r, hr, ?_⟩⟩
    exact ⟨hseq.trans h.item.1, hreq.trans h.item.2.1, htype.trans h.item.2.2, hcount,
      fun hs => hvoid (h.skipped hs)⟩
  · rcases h.effect with ⟨hout, -, heff⟩ | ⟨hout, heff⟩
    · rw [heff, h.decided, map_append, filter_append, map_append, hc.effects]
      simp [hout, Item.effect, h.item.1]
    · rw [heff, h.decided, filter_append, map_append, hc.effects]
      simp [hout]
  · rcases h.effect with ⟨-, hdir, heff⟩ | ⟨-, heff⟩
    · rw [heff]
      refine forall_mem_append.2 ⟨hc.sources, forall_mem_singleton.2 ⟨r, hr, ?_⟩⟩
      simp only [Row.effect, Item.effect, hseq, hreq, htype, hpay hdir]
    · rw [heff]
      exact hc.sources

/-- What the loop leaves: a copy that goes on from `c`, and a round for what it stopped at. -/
structure Applied.Ok (limit : Nat) (domain : InboxDomain) (rows : List Row) (c : Copy)
    (r : Applied) : Prop where
  copy : r.copy.Ok domain rows
  history : History rows r.copy.decided
  le : c.Le r.copy
  classes : ∀ k ∈ r.classes, k = .new ∨ k = .replay
  stop : match r.stop with
    | .done => Round limit rows r.copy.decided r.ackQueue [] [] []
    | .halt _ => r.ackQueue = [] ∨ Round limit rows r.copy.decided r.ackQueue [] [] []
    | .mismatch => False
    | .defer rest => Round limit rows r.copy.decided r.ackQueue [] [] rest

theorem Applied.Ok.cons {limit : Nat}
    {r : Applied} (h : r.Ok limit domain rows c') (hle : c.Le c') {k : DeliveryClass}
    (hk : k = .new ∨ k = .replay) :
    Applied.Ok limit domain rows c { r with classes := k :: r.classes } :=
  ⟨h.copy, h.history, hle.trans h.le, forall_mem_cons.2 ⟨hk, h.classes⟩, h.stop⟩

section Loop

variable {limit : Nat} {domain : InboxDomain} {rows : List Row} (exec : Item → ExecResult)
variable (hlimit : limit ≤ kFetchBatchMax) (hbattle : isBattleDomain domain = true → limit ≤ 1)

include hlimit

variable {new : List Item}

theorem applyItems_new :
    ∀ {c : Copy} {queue : List Decision}, c.Ok domain rows → History rows c.decided →
      Round limit rows c.decided queue [] [] new →
      (applyItems domain exec new c queue).Ok limit domain rows c := by
  induction new with
  | nil => exact fun hc hh hr => ⟨hc, hh, .refl _, by simp [applyItems], hr⟩
  | cons x new ih =>
    intro c queue hc hh hr
    have hnew := hr.fresh x mem_cons_self
    obtain ⟨step, happly, ⟨c', d, rfl, hdec⟩ | ⟨reason, rfl⟩ | rfl⟩ :=
      applyItem_new exec hc hnew
    all_goals rw [applyItems, happly]
    · have hr' := hr.decide hdec.item
      have hh' := hh.decide hc.history hr hlimit hdec.item
      rw [← hdec.decided] at hr' hh'
      exact (ih (hdec.ok hc hnew (hr.delivered x mem_cons_self)) hh' hr').cons hdec.le (.inl rfl)
    · exact ⟨hc, hh, .refl _, by simp, .inr hr.drop⟩
    · exact ⟨hc, hh, .refl _, by simp, hr⟩

include hbattle

variable {replayed : List Item} {rest : List Decision}

theorem applyItems_ok (hc : c.Ok domain rows) (hh : History rows c.decided) :
    ∀ {queue : List Decision}, Round limit rows c.decided queue rest replayed new →
      (applyItems domain exec (replayed ++ new) c queue).Ok limit domain rows c := by
  induction replayed generalizing rest with
  | nil =>
    intro queue hr
    obtain rfl := List.forall₂_nil_left_iff.1 hr.replays
    exact applyItems_new exec hlimit hc hh hr
  | cons x replayed ih =>
    intro queue hr
    obtain ⟨d, rest', hx, hreplays, rfl⟩ := List.forall₂_cons_left_iff.1 hr.replays
    have hmem := hr.mem_rtake hlimit (d := d) (by simp)
    rw [cons_append]
    rcases applyItem_replay exec hc hmem hx with happly | ⟨hdom, reason, happly⟩
    · rw [applyItems, happly]
      refine (ih { hr with split := ?_, replays := hreplays, size := ?_ }).cons (.refl c) (.inr rfl)
      · simpa using hr.split
      · have := hr.size
        simp only [length_append, length_cons, length_nil] at *
        omega
    · rw [applyItems, happly]
      refine ⟨hc, hh, .refl _, by simp, .inl (length_eq_zero_iff.1 ?_)⟩
      have := hr.size
      have := hbattle hdom
      simp only [length_cons] at *
      omega

/-- The decided items at the head of a batch are queued when the player leaves; a battle round
may queue nothing. -/
theorem decidedPrefix_ok {queue : List Decision}
    (hc : c.Ok domain rows) (hr : Round limit rows c.decided queue rest replayed new) :
    ((decidedPrefix domain c.ledger (replayed ++ new)).1 = rest ∨
      (queue = [] ∧ (decidedPrefix domain c.ledger (replayed ++ new)).1 = [])) ∧
    ∀ k ∈ (decidedPrefix domain c.ledger (replayed ++ new)).2, k = .new ∨ k = .replay := by
  induction replayed generalizing queue rest with
  | nil =>
    obtain rfl := List.forall₂_nil_left_iff.1 hr.replays
    cases new with
    | nil => exact ⟨.inl rfl, by simp [decidedPrefix]⟩
    | cons x new =>
      have hclass := classifyDelivery_new hc.ledger (hr.fresh x mem_cons_self) x.requestId
        x.msgType
      have hplan : ∀ dir, planItem .new dir ≠ .replay ∧ planItem .new dir ≠ .ackUnknown := by
        intro dir
        cases dir <;> decide
      simp only [nil_append, decidedPrefix, hclass]
      split
      · exact ⟨.inl rfl, by simp⟩
      · split
        next h => exact absurd h (hplan _).1
        next h => exact absurd h (hplan _).2
        · exact ⟨.inl rfl, by simp⟩
  | cons x replayed ih =>
    obtain ⟨d, rest', hx, hreplays, rfl⟩ := List.forall₂_cons_left_iff.1 hr.replays
    have hmem := hr.mem_rtake hlimit (d := d) (by simp)
    have hsize := hr.size
    rw [cons_append, decidedPrefix, hx.1, hx.2.1, hx.2.2,
      classifyDelivery_replay hc.ledger hc.history hmem]
    dsimp only
    split
    next hrefused =>
      simp only [Bool.and_eq_true] at hrefused
      have := hbattle hrefused.1
      simp only [length_cons] at hsize
      exact ⟨.inr ⟨length_eq_zero_iff.1 (by omega), rfl⟩, by simp⟩
    · have hr' : Round limit rows c.decided (queue ++ [d]) rest' replayed new := by
        refine { hr with split := by simpa using hr.split, replays := hreplays, size := ?_ }
        simp only [length_append, length_cons, length_nil] at *
        omega
      obtain ⟨hqueued | ⟨hnil, -⟩, hclasses⟩ := ih hr'
      · exact ⟨.inl (congrArg (d :: ·) hqueued), forall_mem_cons.2 ⟨.inr rfl, hclasses⟩⟩
      · simp at hnil

end Loop

/-! ## Runtimes -/

def batchLimit (domain : InboxDomain) : Nat := if isBattleDomain domain then 1 else kFetchBatchMax

theorem batchLimit_le (domain : InboxDomain) : batchLimit domain ≤ kFetchBatchMax := by
  cases domain <;> decide

theorem batchLimit_battle (h : isBattleDomain domain = true) :
    batchLimit domain ≤ 1 := by
  rw [batchLimit, if_pos h]

def Runtime.Ok (domain : InboxDomain) (rows : List Row) (decided : List Decision) (rt : Runtime) :
    Prop :=
  match rt.phase with
  | .idle | .fetching => rt.ackQueue = []
  | .applying => Round (batchLimit domain) rows decided rt.ackQueue [] [] rt.pendingItems
  | .awaitDurable | .acking => Round (batchLimit domain) rows decided rt.ackQueue [] [] []

section Runtime

variable {domain : InboxDomain} {rows : List Row} {decided : List Decision} {rt : Runtime}

theorem Runtime.Ok.transact {cfg : InboxConfig} {reports : List Report} {st st' : Store}
    (ht : Transacts cfg reports st st') {c : Copy} (hc : c.Ok cfg.domain st.rows)
    (h : rt.Ok cfg.domain st.rows c.decided) : rt.Ok cfg.domain st'.rows c.decided := by
  unfold Runtime.Ok at h ⊢
  split <;> rename_i hphase <;> simp only [hphase] at h
  · exact h
  · exact h
  · exact h.transact ht hc
  · exact h.transact ht hc
  · exact h.transact ht hc

theorem finishRound_ok (h : rt.ackQueue = []) : (finishRound domain rt).Ok domain rows decided := h

section

variable (h : rt.ackQueue = [] ∨ Round (batchLimit domain) rows decided rt.ackQueue [] [] [])

include h

theorem afterBatchDecided_ok : (afterBatchDecided domain rt).Ok domain rows decided := by
  unfold afterBatchDecided
  split
  next hnil => exact finishRound_ok hnil
  next hne => exact h.resolve_left hne

theorem dropPendingForRefetch_ok :
    (if (dropPendingForRefetch domain rt).2 then
        afterBatchDecided domain (dropPendingForRefetch domain rt).1
      else (dropPendingForRefetch domain rt).1).Ok domain rows decided := by
  unfold dropPendingForRefetch
  dsimp only
  split
  next hnil => exact hnil
  next hne => exact afterBatchDecided_ok (.inr (h.resolve_left hne))

end

/-- A batch is applied, or dropped at a closed gate. -/
theorem applyPending_ok {c : Copy} (hc : c.Ok domain rows) (hh : History rows c.decided)
    {rest : List Decision} {replayed new : List Item} (gate : Gate) (exec : Item → ExecResult)
    (hphase : rt.phase = .applying) (hitems : rt.pendingItems = replayed ++ new)
    (hr : Round (batchLimit domain) rows c.decided rt.ackQueue rest replayed new)
    (hqueue : rt.ackQueue = [] ∨ rest = []) :
    let r := applyPending domain gate exec rt c
    r.1.Ok domain rows r.2.1.decided ∧ r.2.1.Ok domain rows ∧ History rows r.2.1.decided ∧
      c.Le r.2.1 ∧ ∀ k ∈ r.2.2, k = .new ∨ k = .replay := by
  have hdrop : rt.ackQueue = [] ∨
      Round (batchLimit domain) rows c.decided rt.ackQueue [] [] [] := by
    rcases hqueue with hnil | rfl
    · exact .inl hnil
    · exact .inr hr.drop
  unfold applyPending
  dsimp only
  split
  · exact ⟨afterBatchDecided_ok hdrop, hc, hh, .refl c, by simp⟩
  split
  · split
    · obtain ⟨hqueued, hclasses⟩ :=
        decidedPrefix_ok (batchLimit_le domain) batchLimit_battle hc hr
      rw [← hitems] at hqueued hclasses
      refine ⟨dropPendingForRefetch_ok ?_, hc, hh, .refl c, hclasses⟩
      simp only [queueDecidedPrefixOnExit]
      rcases hqueued with hall | ⟨hnil, hnone⟩
      · rw [hall]
        exact .inr hr.queueAll.drop
      · rw [hnil, hnone]
        exact .inl rfl
    · exact ⟨dropPendingForRefetch_ok hdrop, hc, hh, .refl c, by simp⟩
  · have hr' := applyItems_ok exec (batchLimit_le domain) batchLimit_battle hc hh hr
    rw [← hitems] at hr'
    refine ⟨?_, hr'.copy, hr'.history, hr'.le, hr'.classes⟩
    have hstop := hr'.stop
    cases hst : (applyItems domain exec rt.pendingItems c rt.ackQueue).stop with
    | done =>
      rw [hst] at hstop
      exact afterBatchDecided_ok (.inr hstop)
    | halt reason =>
      rw [hst] at hstop
      exact afterBatchDecided_ok hstop
    | mismatch =>
      rw [hst] at hstop
      exact hstop.elim
    | defer rest =>
      rw [hst] at hstop
      simp only [Runtime.Ok, hphase]
      exact hstop

theorem afterBatchDecided_phase : (afterBatchDecided domain rt).phase ≠ .fetching := by
  unfold afterBatchDecided
  split
  · exact Phase.noConfusion
  · exact Phase.noConfusion

theorem dropPendingForRefetch_phase :
    (if (dropPendingForRefetch domain rt).2 then
        afterBatchDecided domain (dropPendingForRefetch domain rt).1
      else (dropPendingForRefetch domain rt).1).phase ≠ .fetching := by
  unfold dropPendingForRefetch
  dsimp only
  split
  · exact Phase.noConfusion
  · exact afterBatchDecided_phase

/-- Nothing is fetched in the same step. -/
theorem applyPending_phase (c : Copy) (gate : Gate) (exec : Item → ExecResult)
    (hphase : rt.phase = .applying) :
    (applyPending domain gate exec rt c).1.phase ≠ .fetching := by
  unfold applyPending
  dsimp only
  split
  · exact afterBatchDecided_phase
  split
  · split
    · exact dropPendingForRefetch_phase
    · exact dropPendingForRefetch_phase
  · split
    · exact afterBatchDecided_phase
    · exact afterBatchDecided_phase
    · exact Phase.noConfusion
    · simp [hphase]

end Runtime

end Mmorpg.Inbox
