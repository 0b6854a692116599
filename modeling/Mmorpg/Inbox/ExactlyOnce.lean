import Mmorpg.Inbox.Agreement

/-!
# Exactly once

Every run of the player inbox has the effect of a request at most once in the persisted copies,
and the rows of the store say what happened (`inbox_exactly_once`).

`Sound` is the invariant of the whole system. A transaction of the store changes the rows and
nothing else (`Sound.transact`); a step of the consumer changes the runtime, and the memory only
when a batch is applied (`Sound.applied`); the other events move copies of the record. A copy is
persisted after all earlier ones, and only decisions of persisted copies are acknowledged, so a
crash takes no decision that a row was closed by.
-/

namespace Mmorpg.Inbox

open List

/-! ## What a fetch delivers -/

/-- A list along which `p` does not come back is cut where it stops. -/
theorem exists_split {α : Type} {p : α → Prop} [DecidablePred p] {l : List α}
    (h : l.Pairwise fun a b => ¬ p a → ¬ p b) :
    ∃ front back, l = front ++ back ∧ (∀ a ∈ front, p a) ∧ ∀ a ∈ back, ¬ p a := by
  induction l with
  | nil => exact ⟨[], [], rfl, by simp, by simp⟩
  | cons a l ih =>
    obtain ⟨ha, hl⟩ := pairwise_cons.1 h
    by_cases hp : p a
    · obtain ⟨front, back, rfl, hfront, hback⟩ := ih hl
      exact ⟨a :: front, back, rfl, forall_mem_cons.2 ⟨hp, hfront⟩, hback⟩
    · exact ⟨[], a :: l, rfl, by simp, forall_mem_cons.2 ⟨hp, fun b hb => ha b hb hp⟩⟩

/-- The decisions of pending rows are the end of the history, at most a batch. -/
theorem History.split {rows : List Row} {decided : List Decision} (h : History rows decided) :
    ∃ front rest, decided = front ++ rest ∧ (∀ d ∈ front, ¬ Open rows d.seq) ∧
      (∀ d ∈ rest, Open rows d.seq) ∧ rest.length ≤ kFetchBatchMax := by
  obtain ⟨front, rest, hsplit, hclosed, hopen⟩ :=
    exists_split (p := fun d : Decision => ¬ Open rows d.seq) (h.mono.imp (by simp))
  simp only [not_not] at hopen
  refine ⟨front, rest, hsplit, hclosed, hopen, ?_⟩
  cases rest with
  | nil => exact Nat.zero_le _
  | cons d post => exact h.few front d post hsplit (hopen d mem_cons_self)

variable {cfg : InboxConfig} {st : Store} {c : Copy}

/-- The pending rows up to the end of the history are those of its last decisions. -/
theorem pending_split (hst : st.Ok cfg) (hc : c.Ok cfg.domain st.rows)
    (hh : History st.rows c.decided) :
    ∃ front rest old young, c.decided = front ++ rest ∧ (∀ d ∈ front, ¬ Open st.rows d.seq) ∧
      st.rows.filter (·.state = .pending) = old ++ young ∧
      old.map Row.seq = rest.map Decision.seq ∧ old.length ≤ kFetchBatchMax ∧
      ∀ r ∈ young, lastSeq c.decided < r.seq := by
  obtain ⟨front, rest, hsplit, hclosed, hopen, hlen⟩ := hh.split
  have hsorted : (st.rows.filter (·.state = .pending)).Pairwise (fun a b : Row => a.seq < b.seq) :=
    hst.ordered.filter _
  obtain ⟨old, young, hpend, hold, hyoung⟩ :=
    exists_split (p := fun r : Row => r.seq ≤ lastSeq c.decided) (hsorted.imp (by omega))
  simp only [not_le] at hyoung
  have hmem (r : Row) : r ∈ old ++ young ↔ r ∈ st.rows ∧ r.state = .pending := by
    rw [← hpend, mem_filter, decide_eq_true_eq]
  have hseqs : old.map Row.seq = rest.map Decision.seq := by
    refine Pairwise.eq_of_mem_iff (r := (· < ·)) ?_ ?_ fun seq => ?_
    · rw [hpend] at hsorted
      exact pairwise_map.2 (pairwise_append.1 hsorted).1
    · exact pairwise_map.2 (hc.history.ordered.sublist (hsplit ▸ sublist_append_right _ _))
    · simp only [mem_map]
      constructor
      · rintro ⟨r, hr, rfl⟩
        obtain ⟨hrow, hstate⟩ := (hmem r).1 (mem_append_left _ hr)
        obtain ⟨d, hd, hseq⟩ := hh.gapless r hrow hstate (hold r hr)
        rw [hsplit] at hd
        rcases mem_append.1 hd with hfront | hrest
        · exact absurd ⟨r, hrow, hseq.symm, hstate⟩ (hclosed d hfront)
        · exact ⟨d, hrest, hseq⟩
      · rintro ⟨d, hd, rfl⟩
        obtain ⟨r, hrow, hseq, hstate⟩ := hopen d hd
        rcases mem_append.1 ((hmem r).2 ⟨hrow, hstate⟩) with hr | hr
        · exact ⟨r, hr, hseq⟩
        · have := hyoung r hr
          have := hc.history.seq_le_last (d := d) (by simp [hsplit, hd])
          omega
  refine ⟨front, rest, old, young, hsplit, hclosed, hpend, hseqs, ?_, hyoung⟩
  have hlen' := congrArg List.length hseqs
  rw [length_map, length_map] at hlen'
  omega

/-- The reply to a fetch that the consumer waits for: a batch that goes on from the history. -/
def FetchResponse.Ok (rows : List Row) (decided : List Decision) (reply : FetchResponse) : Prop :=
  reply.items = [] ∨ ∃ rest replayed new, reply.items = replayed ++ new ∧
    Round kFetchBatchMax rows decided [] rest replayed new

variable (epoch : Nat)

theorem deliveredItem_of (r : Row) : (deliveredItem r).Of (markDelivered epoch r) :=
  ⟨rfl, rfl, rfl, Nat.succ_ne_zero _, id, fun h => (if_pos h).symm⟩

/-- A fetched batch begins with the decisions of pending rows and goes on with new items. -/
theorem Store.fetch_ok (hst : st.Ok cfg) (hc : c.Ok cfg.domain st.rows)
    (hh : History st.rows c.decided) {req : FetchRequest} (hmax : req.maxItems = kFetchBatchMax) :
    (st.fetch req).2.Ok (st.fetch req).1.rows c.decided := by
  have ht := Store.fetch_transacts hst req
  rcases st.fetch_cases hst req with ⟨-, hnil⟩ | ⟨stream, hrows, hitems, -⟩
  · exact .inl hnil
  obtain ⟨front, rest, old, young, hsplit, hclosed, hpend, hseqs, hlen, hyoung⟩ :=
    pending_split hst hc hh
  have hmem (r : Row) : r ∈ old ++ young ↔ r ∈ st.rows ∧ r.state = .pending := by
    rw [← hpend, mem_filter, decide_eq_true_eq]
  have hsorted : young.Pairwise (fun a b : Row => a.seq < b.seq) :=
    (pairwise_append.1 (hpend ▸ hst.ordered.filter _)).2.1
  have hclamp : clampFetchItems req.maxItems = kFetchBatchMax := by
    rw [hmax]
    decide
  rw [hclamp, hpend, take_append, take_of_length_le hlen] at hrows hitems
  refine .inr ⟨rest, old.map deliveredItem,
    (young.take (kFetchBatchMax - old.length)).map deliveredItem, by rw [hitems, map_append], ?_⟩
  refine ⟨⟨front, by simpa using hsplit, fun d hd hopen => ?_⟩, ?_, ?_, ?_, ?_, ?_, ?_⟩
  · exact hclosed d hd (hc.open_of_open ht (by simp [hsplit, hd]) hopen)
  · -- equal numbers are the same row, and the decision was made on it
    rw [← List.forall₂_eq_eq_eq, List.forall₂_map_left_iff, List.forall₂_map_right_iff,
      List.forall₂_iff_zip] at hseqs
    rw [List.forall₂_map_left_iff, List.forall₂_iff_zip]
    refine ⟨hseqs.1, fun {r d} hzip => ?_⟩
    have hseq := hseqs.2 hzip
    obtain ⟨hr, hd⟩ := of_mem_zip hzip
    obtain ⟨r', hr', hof⟩ := hc.decided d (by simp [hsplit, hd])
    obtain rfl := hst.eq_of_seq hr' ((hmem r).1 (mem_append_left _ hr)).1
      (hof.1.trans hseq.symm)
    exact ⟨hof.1, hof.2.1, hof.2.2.1⟩
  · exact forall_mem_map.2 fun r hr => hyoung r (mem_of_mem_take hr)
  · exact pairwise_map.2 hsorted.take
  · refine forall_mem_map.2 fun r hr => ⟨markDelivered req.ownerEpoch r, ?_, deliveredItem_of _ r⟩
    obtain ⟨hrow, hstate⟩ := (hmem r).1 (mem_append_right _ (mem_of_mem_take hr))
    rw [hrows]
    refine mem_map.2 ⟨r, hrow, if_pos ⟨hstate, mem_map_of_mem ?_⟩⟩
    exact mem_append_right _ hr
  · intro r' hr' hstate
    refine forall_mem_map.2 fun y hy hle => ?_
    rcases ht.back r' hr' with ⟨r, hr, hstep⟩ | ⟨-, hnew⟩
    · have hseq := hstep.next.seq
      rcases mem_append.1 ((hmem r).2 ⟨hr, hstep.pending hstate⟩) with hold | hyg
      · obtain ⟨d, hd, hdseq⟩ := mem_map.1 (hseqs ▸ mem_map_of_mem hold)
        exact .inl ⟨d, by simp [hsplit, hd], hdseq.trans hseq.symm⟩
      refine .inr ⟨deliveredItem r, mem_map_of_mem ?_, hseq.symm⟩
      rw [← take_append_drop (kFetchBatchMax - old.length) young] at hyg hsorted
      rcases mem_append.1 hyg with htake | hdrop
      · exact htake
      · have := (pairwise_append.1 hsorted).2.2 y hy r hdrop
        simp only [deliveredItem] at hle
        omega
    · have := hnew y ((hmem y).1 (mem_append_right _ (mem_of_mem_take hy))).1
      simp only [deliveredItem] at hle
      omega
  · simp only [length_map, length_nil, length_take]
    omega

theorem Store.fetch_correlationId (st : Store) (req : FetchRequest) :
    (st.fetch req).2.correlationId = req.correlationId := by
  unfold Store.fetch
  dsimp only
  split
  · rfl
  · split
    · rfl
    · split <;> rfl

/-! ## The invariant -/

/-- An Ack on the way has persisted decisions; a decision before one of them is among them, or
its row is closed. -/
def AckRequest.Ok (domain : InboxDomain) (rows : List Row) (persisted : List Decision)
    (req : AckRequest) : Prop :=
  ∃ queue : List Decision, req.decisions = queue.map PlayerInbox.Decision.report ∧
    queue ⊆ persisted ∧ (isBattleDomain domain = true → queue.length ≤ 1) ∧
    ∀ a ∈ persisted, ∀ b ∈ queue, a.seq < b.seq → a ∈ queue ∨ ¬ Open rows a.seq

variable {r : Row}

theorem Decision.Of.closes {d : Decision} (h : d.Of r) (hstate : r.state = .pending)
    (htype : r.msgType ≠ .battleSettlement) : (PlayerInbox.Decision.report d).Closes r :=
  ⟨h.1, h.2.1, hstate, h.2.2.2.1, h.2.2.2.2, fun hb => absurd hb htype⟩

theorem Store.Ok.not_battle (h : st.Ok cfg) (hbattle : isBattleDomain cfg.domain ≠ true)
    (hr : r ∈ st.rows) :
    r.msgType ≠ .battleSettlement := fun htype => by
  have hdomain := h.domain r hr
  rw [htype] at hdomain
  exact hbattle (decide_eq_true (Option.some.inj hdomain).symm)

namespace PlayerInbox

/-- The copies from the persisted one to the memory, oldest first. -/
def line (s : PlayerInbox) : List Copy := s.persisted :: (s.saving ++ [s.live])

/-- Persisted copies that the scene knows of, or will be told of. -/
def reported (s : PlayerInbox) : List Copy := s.landed ++ s.snapshot.toList

structure Sound (cfg : InboxConfig) (s : PlayerInbox) : Prop where
  store : s.store.Ok cfg
  copies : ∀ c ∈ s.line ++ s.reported, c.Ok cfg.domain s.store.rows
  line : s.line.Pairwise Copy.Le
  reported : ∀ c ∈ s.reported, c.Le s.persisted
  history : History s.store.rows s.live.decided
  runtime : s.runtime.Ok cfg.domain s.store.rows s.live.decided
  requests : ∀ f ∈ s.fetches, f.maxItems = kFetchBatchMax ∧ f.correlationId ≤ s.correlationSeq
  replies : ∀ reply ∈ s.fetchReplies, reply.correlationId ≤ s.correlationSeq ∧
    (s.runtime.phase = .fetching → reply.correlationId = s.runtime.correlationId →
      reply.Ok s.store.rows s.live.decided)
  acks : ∀ req ∈ s.acks, req.Ok cfg.domain s.store.rows s.persisted.decided
  final : ∀ r ∈ s.store.rows, r.state ≠ .pending → (r.deliveryCount = 0 ∧ r.state = .voided) ∨
    ∃ d ∈ s.persisted.decided, d.seq = r.seq ∧ r.state = outcomeToState d.outcome
  classes : ∀ k ∈ s.classes, k = .new ∨ k = .replay

/-- From a state to a later one: closed rows stay, and the persisted copy goes on. -/
def Grows (s s' : PlayerInbox) : Prop :=
  (∀ r ∈ s.store.rows, r.state ≠ .pending → r ∈ s'.store.rows) ∧ s.persisted.Le s'.persisted

theorem Grows.refl (s : PlayerInbox) : Grows s s := ⟨fun _ hr _ => hr, .refl _⟩

theorem Grows.trans {a b c : PlayerInbox} (h : Grows a b) (h' : Grows b c) : Grows a c :=
  ⟨fun r hr hstate => h'.1 r (h.1 r hr hstate) hstate, h.2.trans h'.2⟩

def Advances (cfg : InboxConfig) (s s' : PlayerInbox) : Prop := Sound cfg s' ∧ Grows s s'

theorem Advances.ite {cfg : InboxConfig} {s a b : PlayerInbox} {c : Prop} [Decidable c]
    (ha : Advances cfg s a) (hb : ¬c → Advances cfg s b) : Advances cfg s (if c then a else b) :=
  iteInduction (fun _ => ha) hb

namespace Sound

variable {cfg : InboxConfig} {s : PlayerInbox} (h : Sound cfg s)

include h

theorem stays : Advances cfg s s := ⟨h, .refl s⟩

theorem live_ok : s.live.Ok cfg.domain s.store.rows := h.copies _ (by simp [PlayerInbox.line])

theorem persisted_ok : s.persisted.Ok cfg.domain s.store.rows :=
  h.copies _ (by simp [PlayerInbox.line])

theorem line_le (hc : c ∈ s.line) : c.Le s.live := by
  have hline : s.line = s.persisted :: s.saving ++ [s.live] := rfl
  have hpair := h.line
  rw [hline] at hc hpair
  rcases mem_append.1 hc with hc | hc
  · exact (pairwise_append.1 hpair).2.2 c hc s.live (by simp)
  · rw [mem_singleton.1 hc]
    exact .refl _

theorem persisted_le : s.persisted.Le s.live := h.line_le (by simp [PlayerInbox.line])

/-! ### Transactions -/

variable {st' : Store} {reports : List Report}

/-- A row is closed by a void before its delivery, or by the report of a persisted decision. -/
theorem final_transact (ht : Transacts cfg reports s.store st')
    (hreports : ∀ report ∈ reports, ∃ d ∈ s.persisted.decided, Decision.report d = report) :
    ∀ r ∈ st'.rows, r.state ≠ .pending → (r.deliveryCount = 0 ∧ r.state = .voided) ∨
      ∃ d ∈ s.persisted.decided, d.seq = r.seq ∧ r.state = outcomeToState d.outcome := by
  intro r' hr' hstate
  rcases ht.back r' hr' with ⟨r, hr, hstep⟩ | ⟨hpending, -⟩
  · cases hstep with
    | same => exact h.final _ hr hstate
    | deliver hp | direct hp => exact absurd hp hstate
    | void _ hc => exact .inl ⟨hc, rfl⟩
    | ack _ hmem hseq =>
      obtain ⟨d, hd, rfl⟩ := hreports _ hmem
      exact .inr ⟨d, hd, hseq.symm, rfl⟩
  · exact absurd hpending hstate

theorem transact (ht : Transacts cfg reports s.store st')
    (hmono : s.live.decided.Pairwise fun a b => Open st'.rows a.seq → Open st'.rows b.seq)
    (hreports : ∀ report ∈ reports, ∃ d ∈ s.persisted.decided, Decision.report d = report) :
    Advances cfg s { s with store := st' } := by
  refine ⟨{ h with
    store := ht.ok
    copies := fun c hc => (h.copies c hc).transact ht
    history := h.history.transact ht h.live_ok hmono fun r hr hstate => ?_
    runtime := h.runtime.transact ht h.live_ok
    replies := fun reply hreply => ⟨(h.replies reply hreply).1, fun hphase hcorr => ?_⟩
    acks := fun req hreq => ?_
    final := h.final_transact ht hreports }, fun r hr hstate => ?_, .refl _⟩
  · rcases h.final_transact ht hreports r hr hstate with ⟨hzero, -⟩ | ⟨d, hd, hseq, -⟩
    · exact .inl hzero
    · exact .inr ⟨d, h.persisted_le.1.subset hd, hseq⟩
  · rcases (h.replies reply hreply).2 hphase hcorr with hnil | ⟨rest, replayed, new, hitems, hr⟩
    · exact .inl hnil
    · exact .inr ⟨rest, replayed, new, hitems, hr.transact ht h.live_ok⟩
  · obtain ⟨queue, hdec, hsub, hbattle, hbefore⟩ := h.acks req hreq
    refine ⟨queue, hdec, hsub, hbattle, fun a ha b hb hlt => ?_⟩
    exact (hbefore a ha b hb hlt).imp_right (mt (h.persisted_ok.open_of_open ht ha))
  · obtain ⟨r', hr', hstep⟩ := ht.step r hr
    rwa [hstep.next.frozen hstate] at hr'

/-- A transaction without reports closes no delivered row. -/
theorem quiet (ht : Transacts cfg [] s.store st') :
    Advances cfg s { s with store := st' } := by
  refine h.transact ht ?_ (by simp)
  refine h.history.mono.imp_of_mem fun {a b} ha hb hab hopen => ?_
  obtain ⟨r, hr, hseq, hstate⟩ := hab (h.live_ok.open_of_open ht ha hopen)
  obtain ⟨r', hr', hof⟩ := h.live_ok.decided b hb
  obtain rfl := h.store.eq_of_seq hr hr' (hseq.trans hof.1.symm)
  exact hseq ▸ ht.open_of_delivered hr hof.2.2.2.1 hstate

/-- An Ack closes the rows of its decisions, and nothing before them stays open. -/
theorem ack {req : AckRequest} (hreq : req ∈ s.acks) :
    Advances cfg s { s with store := (s.store.ack req).1 } := by
  have ht := Store.ack_transacts h.store req
  obtain ⟨queue, hdec, hsub, hbattle, hbefore⟩ := h.acks req hreq
  refine h.transact ht ?_ fun report hmem => ?_
  swap
  · obtain ⟨d, hd, rfl⟩ := mem_map.1 (hdec ▸ hmem)
    exact ⟨d, hsub hd, rfl⟩
  rcases s.store.ack_cases h.store req with hst | ⟨stream, f, hst, -, hrows⟩
  · rw [hst]
    exact h.history.mono
  refine (h.history.mono.and h.live_ok.history.ordered).imp_of_mem
    fun {a b} ha hb ⟨hab, hlt⟩ hopen => ?_
  have hopena := h.live_ok.open_of_open ht ha hopen
  obtain ⟨r, hr, hseq, hstate⟩ := hab hopena
  rw [hst] at hopen ⊢
  rcases hrows r hr with ⟨hsame, -⟩ | ⟨report, hmem, hcl, -⟩
  · exact ⟨r, mem_map.2 ⟨r, hr, hsame⟩, hseq, hstate⟩
  -- `b` is closed now, so `a` is reported too, and its row is closed as well
  exfalso
  obtain ⟨d, hd, rfl⟩ := mem_map.1 (hdec ▸ hmem)
  obtain rfl := h.live_ok.history.eq_of_seq hb (h.persisted_le.1.subset (hsub hd))
    (hseq.symm.trans hcl.1)
  have hpersisted : a ∈ s.persisted.decided :=
    h.live_ok.history.mem_of_le h.persisted_le.1 ha
      (hlt.le.trans (h.persisted_ok.history.seq_le_last (hsub hd)))
  have haq := (hbefore a hpersisted b hd hlt).resolve_right (not_not_intro hopena)
  have hnot : isBattleDomain cfg.domain ≠ true := fun hb => by
    obtain ⟨x, rfl⟩ := length_eq_one_iff.1
      ((hbattle hb).antisymm (length_pos_of_mem haq))
    rw [mem_singleton.1 haq, mem_singleton.1 hd] at hlt
    exact Nat.lt_irrefl _ hlt
  obtain ⟨q', hq', hqseq, hqstate⟩ := hopen
  obtain ⟨q, hq, rfl⟩ := mem_map.1 hq'
  rcases hrows q hq with ⟨hsame, hno⟩ | ⟨report, -, -, hfin⟩
  · rw [hsame] at hqseq hqstate
    obtain ⟨q', hq', hof⟩ := h.live_ok.decided a ha
    obtain rfl := h.store.eq_of_seq hq hq' (hqseq.trans hof.1.symm)
    exact hno _ (hdec ▸ mem_map_of_mem haq) (hof.closes hqstate (h.store.not_battle hnot hq))
  · rw [hfin] at hqstate
    exact outcomeToState_ne_pending _ hqstate

/-! ### The consumer -/

/-- A step of the consumer that does not wait for a batch. -/
theorem withRuntime {rt : Runtime} (hrt : rt.Ok cfg.domain s.store.rows s.live.decided)
    (hphase : rt.phase ≠ .fetching) : Advances cfg s { s with runtime := rt } :=
  ⟨{ h with
    runtime := hrt
    replies := fun reply hreply => ⟨(h.replies reply hreply).1, fun hf => absurd hf hphase⟩ },
    .refl s⟩

theorem grow {c' : Copy} (hok : c'.Ok cfg.domain s.store.rows) (hle : s.live.Le c') :
    (∀ c ∈ PlayerInbox.line { s with live := c' } ++ s.reported, c.Ok cfg.domain s.store.rows) ∧
      (PlayerInbox.line { s with live := c' }).Pairwise Copy.Le := by
  have hline : (s.persisted :: s.saving ++ [s.live]).Pairwise Copy.Le := h.line
  have hgrown : (s.persisted :: s.saving ++ [c']).Pairwise Copy.Le := by
    refine pairwise_append.2 ⟨(pairwise_append.1 hline).1, pairwise_singleton _ _,
      fun c hc c'' hc' => ?_⟩
    rw [mem_singleton.1 hc']
    exact (h.line_le (mem_append_left [s.live] hc)).trans hle
  refine ⟨fun c hc => ?_, hgrown⟩
  by_cases hnew : c = c'
  · exact hnew ▸ hok
  · refine h.copies c ?_
    simp only [PlayerInbox.line, mem_append, mem_cons, not_mem_nil, or_false,
      hnew] at hc ⊢
    tauto

variable (gate : Gate)

theorem applied {rt : Runtime} {rest : List Decision} {replayed new : List Item}
    (exec : Item → ExecResult) (hphase : rt.phase = .applying)
    (hitems : rt.pendingItems = replayed ++ new)
    (hr : Round (batchLimit cfg.domain) s.store.rows s.live.decided rt.ackQueue rest replayed new)
    (hqueue : rt.ackQueue = [] ∨ rest = []) :
    Advances cfg s (s.applied (applyPending cfg.domain gate exec rt s.live)) := by
  obtain ⟨hrt, hlive, hhist, hle, hclasses⟩ :=
    applyPending_ok h.live_ok h.history gate exec hphase hitems hr hqueue
  have hnot : (applyPending cfg.domain gate exec rt s.live).1.phase ≠ .fetching :=
    applyPending_phase s.live gate exec hphase
  generalize applyPending cfg.domain gate exec rt s.live = r at *
  obtain ⟨hcopies, hline⟩ := h.grow hlive hle
  exact ⟨{ h with
    copies := hcopies
    line := hline
    history := hhist
    runtime := hrt
    replies := fun reply hreply => ⟨(h.replies reply hreply).1, fun hf => absurd hf hnot⟩
    classes := forall_mem_append.2 ⟨h.classes, hclasses⟩ }, .refl s⟩

theorem startFetch (sent : Bool) (hphase : s.runtime.phase = .idle) :
    Advances cfg s (s.startFetch cfg gate sent) := by
  have hqueue : s.runtime.ackQueue = [] := by
    have := h.runtime
    rwa [Runtime.Ok, hphase] at this
  unfold PlayerInbox.startFetch
  rw [if_neg (not_not_intro hqueue)]
  split
  · exact h.stays
  refine ⟨{ h with runtime := hqueue, requests := ?_, replies := fun reply hreply => ?_ }, .refl s⟩
  · refine forall_mem_append.2 ⟨fun f hf => ?_, forall_mem_singleton.2 ⟨rfl, le_rfl⟩⟩
    exact ⟨(h.requests f hf).1, (h.requests f hf).2.trans (Nat.le_succ _)⟩
  · -- the number is new, so no reply that is on the way answers this request
    have hle := (h.replies reply hreply).1
    refine ⟨hle.trans (Nat.le_succ _), fun _ hcorr => ?_⟩
    simp only at hcorr
    omega

theorem tick (sent : Bool) (exec : Item → ExecResult) :
    Advances cfg s (s.tick cfg gate sent exec) := by
  have hrt := h.runtime
  unfold PlayerInbox.tick
  split <;> rename_i hphase <;> simp only [Runtime.Ok, hphase] at hrt
  · split
    · exact h.stays
    · exact h.startFetch gate sent hphase
  · split
    · exact h.stays
    · exact h.applied gate exec hphase rfl hrt (.inr rfl)
  · split
    next hnil => exact h.withRuntime (finishRound_ok hnil) Phase.noConfusion
    · exact h.stays
  · exact h.stays

theorem onFetchReply {reply : FetchResponse} (hreply : reply ∈ s.fetchReplies) (gate : Gate)
    (exec : Item → ExecResult) : Advances cfg s (s.onFetchReply cfg reply gate exec) := by
  unfold PlayerInbox.onFetchReply
  refine .ite h.stays fun hmine => ?_
  simp only [Bool.or_eq_true, decide_eq_true_eq, not_or, not_not] at hmine
  obtain ⟨⟨hphase, -⟩, hcorr⟩ := hmine
  have hqueue : s.runtime.ackQueue = [] := by
    have := h.runtime
    rwa [Runtime.Ok, hphase] at this
  have hok := (h.replies reply hreply).2 hphase hcorr.symm
  have hidle (rt : Runtime) (hrt : rt.phase = .idle) (hnil : rt.ackQueue = []) :
      Advances cfg s { s with runtime := rt } :=
    h.withRuntime (by rwa [Runtime.Ok, hrt]) (by simp [hrt])
  dsimp only
  refine .ite (hidle _ rfl hqueue) fun _ => ?_
  refine .ite (hidle _ rfl hqueue) fun _ => ?_
  refine .ite (hidle _ rfl hqueue) fun _ => ?_
  refine .ite (hidle _ rfl hqueue) fun _ => ?_
  refine .ite (hidle _ rfl hqueue) fun hsome => ?_
  refine .ite (hidle _ rfl hqueue) fun _ => ?_
  refine .ite (hidle _ rfl hqueue) fun _ => ?_
  refine .ite (hidle _ rfl hqueue) fun hone => ?_
  simp only [Bool.or_eq_true, decide_eq_true_eq, not_or] at hsome
  simp only [Bool.and_eq_true, decide_eq_true_eq, not_and, Nat.not_lt] at hone
  obtain ⟨rest, replayed, new, hitems, hr⟩ := hok.resolve_left hsome.2
  have hsize : 0 + replayed.length + new.length ≤ batchLimit cfg.domain := by
    have hlen := congrArg List.length hitems
    rw [length_append] at hlen
    unfold batchLimit
    split
    next hbattle =>
      have := hone hbattle
      omega
    · exact hr.size
  have hround : Round (batchLimit cfg.domain) s.store.rows s.live.decided s.runtime.ackQueue rest
      replayed new := hqueue ▸ { hr with size := hsize }
  exact h.applied gate exec rfl hitems hround (.inl hqueue)

theorem onAckReply (reply : AckResponse) : Advances cfg s (s.onAckReply cfg reply) := by
  unfold PlayerInbox.onAckReply
  refine .ite h.stays fun hmine => ?_
  simp only [Bool.or_eq_true, decide_eq_true_eq, not_or, not_not] at hmine
  have hfinish (rt : Runtime) (hnil : rt.ackQueue = []) :
      Advances cfg s { s with runtime := finishRound cfg.domain rt } :=
    h.withRuntime (finishRound_ok hnil) Phase.noConfusion
  have hrt := h.runtime
  rw [Runtime.Ok, hmine.1.1] at hrt
  dsimp only
  refine .ite (hfinish _ rfl) fun _ => ?_
  refine .ite (hfinish _ rfl) fun _ => ?_
  refine .ite (hfinish _ rfl) fun _ => ?_
  refine .ite (hfinish _ rfl) fun _ => ?_
  refine .ite (h.withRuntime hrt Phase.noConfusion) fun _ => ?_
  exact .ite (hfinish _ rfl) fun _ => hfinish _ rfl

theorem lost : Advances cfg s s.lost := by
  have hrt := h.runtime
  unfold PlayerInbox.lost
  split <;> rename_i hphase <;> simp only [Runtime.Ok, hphase] at hrt
  · exact h.withRuntime hrt Phase.noConfusion
  · exact h.withRuntime hrt Phase.noConfusion
  · exact h.stays

theorem leaving : Advances cfg s (s.leaving cfg) := by
  unfold PlayerInbox.leaving
  split
  next hleave =>
    simp only [Bool.and_eq_true, decide_eq_true_eq] at hleave
    have hrt := h.runtime
    rw [Runtime.Ok, hleave.1] at hrt
    refine h.withRuntime ?_ Phase.noConfusion
    simp only [dropPendingForRefetch, if_neg hleave.2]
    exact hrt.drop
  · exact h.stays

theorem landedAgain : Advances cfg s (s.landedAgain cfg epoch) := by
  have h' : Sound cfg { s with ownerEpoch := epoch } := { h with }
  unfold PlayerInbox.landedAgain
  dsimp only
  split
  · exact h'.stays
  rename_i happly
  simp only [Bool.or_eq_true, decide_eq_true_eq, not_or, not_not] at happly
  have hrt := h.runtime
  rw [Runtime.Ok, happly.2] at hrt
  simp only [dropPendingForRefetch]
  split
  next hnil => exact h'.withRuntime hnil Phase.noConfusion
  · exact h'.withRuntime hrt.drop Phase.noConfusion

/-! ### Acknowledging -/

theorem queue_round : s.runtime.ackQueue = [] ∨ ∃ new, Round (batchLimit cfg.domain) s.store.rows
    s.live.decided s.runtime.ackQueue [] [] new := by
  have hrt := h.runtime
  cases hphase : s.runtime.phase <;> simp only [Runtime.Ok, hphase] at hrt
  · exact .inl hrt
  · exact .inl hrt
  · exact .inr ⟨_, hrt⟩
  · exact .inr ⟨_, hrt⟩
  · exact .inr ⟨_, hrt⟩

/-- A queued decision is in a reported copy, and found in its ring, or not yet there. -/
theorem queued_durable {d : Decision} (hd : d ∈ s.runtime.ackQueue) (hc : c ∈ s.reported) :
    (d ∈ c.decided ∧ classifyDurability c.ledger cfg.domain d = .durable) ∨
      classifyDurability c.ledger cfg.domain d = .notYet := by
  rcases h.queue_round with hnil | ⟨new, hr⟩
  · rw [hnil] at hd
    cases hd
  have hcopy := h.copies c (mem_append_right _ hc)
  have hle := (h.reported c hc).1.trans h.persisted_le.1
  by_cases hbeyond : lastSeq c.decided < d.seq
  · exact .inr (classifyDurability_beyond hcopy.ledger hbeyond)
  · have hring := hr.mem_rtake (batchLimit_le _) (d := d) (by simp [hd])
    have hmem := h.live_ok.history.mem_of_le hle (mem_of_mem_drop hring) (by omega)
    exact .inl ⟨hmem, classifyDurability_of_ring hcopy.ledger hcopy.history
      (h.live_ok.history.mem_rtake hle hmem hring)⟩

/-- `SendAck` after the check: the whole queue is persisted. -/
theorem queue_persisted (hin : s.decisionsInPersistedSnapshot cfg = true) :
    s.runtime.ackQueue ⊆ s.persisted.decided := by
  intro d hd
  unfold decisionsInPersistedSnapshot at hin
  split at hin
  · cases hin
  rename_i c hsnap
  have hc : c ∈ s.reported := by simp [PlayerInbox.reported, hsnap]
  rcases h.queued_durable hd hc with ⟨hmem, -⟩ | hnot
  · exact (h.reported c hc).1.subset hmem
  · have := all_eq_true.1 hin d hd
    simp [hnot] at this

theorem confirmed (settled sent : Bool) : Advances cfg s (s.confirmed cfg settled sent) := by
  unfold PlayerInbox.confirmed
  dsimp only
  split
  · exact h.stays
  next hready =>
  split
  · exact h.stays
  unfold PlayerInbox.sendAck
  split
  · exact h.stays
  simp only [Bool.or_eq_true, decide_eq_true_eq, not_or, not_not, Bool.not_eq_true',
    Bool.not_eq_false] at hready
  obtain ⟨⟨hphase, -⟩, hin⟩ := hready
  have hr := h.runtime
  rw [Runtime.Ok, hphase] at hr
  have hrequests : ∀ f ∈ s.fetches,
      f.maxItems = kFetchBatchMax ∧ f.correlationId ≤ s.correlationSeq + 1 := fun f hf =>
    ⟨(h.requests f hf).1, (h.requests f hf).2.trans (Nat.le_succ _)⟩
  refine ⟨{ h with
    runtime := hr
    requests := hrequests
    replies := fun reply hreply =>
      ⟨(h.replies reply hreply).1.trans (Nat.le_succ _), fun hf => Phase.noConfusion hf⟩
    acks := forall_mem_append.2 ⟨h.acks, forall_mem_singleton.2 ?_⟩ }, .refl s⟩
  refine ⟨s.runtime.ackQueue, rfl, h.queue_persisted hin, fun hb => ?_, fun a ha b hb _ => ?_⟩
  · have := hr.size
    have := batchLimit_battle hb
    simp only [length_nil] at *
    omega
  · obtain ⟨front, hsplit, hclosed⟩ := hr.split
    have hlive := h.persisted_le.1.subset ha
    rw [hsplit, append_nil] at hlive
    exact (mem_append.1 hlive).symm.imp_right (hclosed a)

/-! ### Copies of the record -/

theorem save : Advances cfg s { s with saving := s.saving ++ [s.live] } := by
  refine ⟨{ h with copies := fun c hc => h.copies c ?_, line := ?_ }, .refl s⟩
  · simp only [PlayerInbox.line, PlayerInbox.reported, mem_append, mem_cons,
      not_mem_nil, or_false] at hc ⊢
    tauto
  · have hline : (s.line ++ [s.live]).Pairwise Copy.Le :=
      pairwise_append.2 ⟨h.line, pairwise_singleton _ _, fun c hc c' hc' =>
        mem_singleton.1 hc' ▸ h.line_le hc⟩
    exact hline

theorem land : Advances cfg s s.land := by
  unfold PlayerInbox.land
  cases hsaving : s.saving with
  | nil => exact h.stays
  | cons c rest =>
    have hmem : c ∈ s.line := by simp [PlayerInbox.line, hsaving]
    have hline := h.line
    rw [PlayerInbox.line, hsaving] at hline
    obtain ⟨hall, hline⟩ := pairwise_cons.1 hline
    have hle := hall c (by simp)
    refine ⟨{ h with
      copies := fun c' hc' => h.copies c' ?_
      line := hline
      reported := fun c' hc' => ?_
      acks := fun req hreq => ?_
      final := fun r hr hstate => ?_ }, fun _ hr _ => hr, hle⟩
    · simp only [PlayerInbox.line, PlayerInbox.reported, hsaving, mem_append, mem_cons,
        not_mem_nil, or_false] at hc' ⊢
      tauto
    · by_cases hnew : c' = c
      · exact hnew ▸ .refl _
      · refine (h.reported c' ?_).trans hle
        simp only [PlayerInbox.reported, mem_append, mem_singleton, hnew, or_false] at hc' ⊢
        exact hc'
    · obtain ⟨queue, hdec, hsub, hbattle, hbefore⟩ := h.acks req hreq
      refine ⟨queue, hdec, fun d hd => hle.1.subset (hsub hd), hbattle, fun a ha b hb hlt => ?_⟩
      have hcopy := h.copies c (mem_append_left _ hmem)
      refine hbefore a (hcopy.history.mem_of_le hle.1 ha ?_) b hb hlt
      exact hlt.le.trans (h.persisted_ok.history.seq_le_last (hsub hb))
    · rcases h.final r hr hstate with hvoid | ⟨d, hd, hseq⟩
      · exact .inl hvoid
      · exact .inr ⟨d, hle.1.subset hd, hseq⟩

theorem dropSave (i : Nat) : Advances cfg s { s with saving := s.saving.eraseIdx i } := by
  have hsub : (s.saving.eraseIdx i).Sublist s.saving := eraseIdx_sublist _ _
  have hline : Sublist (PlayerInbox.line { s with saving := s.saving.eraseIdx i }) s.line :=
    (hsub.append_right _).cons_cons _
  refine ⟨{ h with copies := fun c hc => h.copies c ?_, line := h.line.sublist hline }, .refl s⟩
  exact (hline.append_right _).subset hc

theorem saved : Advances cfg s s.saved := by
  unfold PlayerInbox.saved
  cases hlanded : s.landed with
  | nil => exact h.stays
  | cons c rest =>
    have hsub : ∀ c' ∈ PlayerInbox.reported { s with snapshot := some c, landed := rest },
        c' ∈ s.reported := by
      intro c' hc'
      simp only [PlayerInbox.reported, hlanded, mem_append, mem_cons,
        Option.toList_some, not_mem_nil, or_false] at hc' ⊢
      tauto
    refine ⟨{ h with
      copies := fun c' hc' => ?_
      reported := fun c' hc' => h.reported c' (hsub c' hc') }, .refl s⟩
    rcases mem_append.1 hc' with hline | hrep
    · exact h.copies c' (mem_append_left _ hline)
    · exact h.copies c' (mem_append_right _ (hsub c' hrep))

theorem elsewhere (domain : InboxDomain) (decision : Decision) :
    Advances cfg s (s.elsewhere cfg domain decision) := by
  unfold PlayerInbox.elsewhere
  split
  · exact h.stays
  rename_i hother
  have hkeep : ∀ c : Cursor, ((recordDecision c decision).getD c).domain = c.domain := fun c => by
    cases hc : recordDecision c decision with
    | none => rfl
    | some c' => exact recordDecision_domain hc
  have hcursor := findCursor_modifyCursor hkeep s.live.ledger domain cfg.domain
  rw [if_neg (Ne.symm hother)] at hcursor
  generalize modifyCursor s.live.ledger domain
    (fun c => (recordDecision c decision).getD c) = ledger at hcursor ⊢
  have hok : Copy.Ok cfg.domain s.store.rows { s.live with ledger := ledger } :=
    { h.live_ok with
      ledger := by
        rw [mutableCursor, hcursor]
        exact h.live_ok.ledger }
  obtain ⟨hcopies, hline⟩ := h.grow hok ⟨prefix_rfl, prefix_rfl⟩
  exact ⟨{ h with copies := hcopies, line := hline }, .refl s⟩

/-- The persisted copy is enough: every row that was closed has its decision there. -/
theorem crash : Advances cfg s (s.crash epoch) := by
  refine ⟨{ h with
    copies := fun c hc => ?_
    line := pairwise_pair.2 (.refl _)
    reported := fun c hc => nomatch hc
    history := h.history.earlier h.live_ok.history h.persisted_le.1 fun r hr hstate => ?_
    runtime := rfl
    replies := fun reply hreply =>
      ⟨(h.replies reply hreply).1, fun hf => Phase.noConfusion hf⟩ }, .refl s⟩
  · have hmem : c = s.persisted := by
      simpa [PlayerInbox.line, PlayerInbox.reported, PlayerInbox.crash] using hc
    exact hmem ▸ h.persisted_ok
  · rcases h.final r hr hstate with ⟨hzero, -⟩ | ⟨d, hd, hseq, -⟩
    · exact .inl hzero
    · exact .inr ⟨d, hd, hseq⟩

end Sound

/-! ### Runs -/

theorem start_sound (cfg : InboxConfig) : Sound cfg start where
  store := ⟨.nil, by simp [start], .nil, by simp [start]⟩
  copies c hc := by
    have hmem : c = emptyCopy := by
      simpa [line, reported, start] using hc
    exact hmem ▸ ⟨⟨rfl, rfl⟩, ⟨.nil, by simp [emptyCopy]⟩, by simp [emptyCopy], rfl,
      by simp [emptyCopy]⟩
  line := pairwise_pair.2 (.refl _)
  reported c hc := by cases hc
  history := ⟨.nil, by simp [start, emptyCopy], by simp [start], by simp [start]⟩
  runtime := rfl
  requests := by simp [start]
  replies := by simp [start]
  acks := by simp [start]
  final := by simp [start]
  classes := by simp [start]

variable {cfg : InboxConfig} {s : PlayerInbox}

theorem step_advances (h : Sound cfg s) (e : InboxEvent) : Advances cfg s (s.step cfg e) := by
  cases e with
  | enqueue params nowMs txNowMs => exact h.quiet (enqueue_transacts h.store params nowMs txNowMs)
  | void seq reason => exact h.quiet (Store.void_transacts h.store seq reason)
  | fetch i =>
    dsimp only [step]
    split
    · exact h.stays
    rename_i request hrequest
    obtain ⟨hmax, hcorr⟩ := h.requests request (mem_of_getElem? hrequest)
    obtain ⟨h', hgrow⟩ := h.quiet (Store.fetch_transacts h.store request)
    refine ⟨{ h' with replies := forall_mem_append.2 ⟨h'.replies, ?_⟩ }, hgrow⟩
    refine forall_mem_singleton.2 ⟨?_, fun _ _ => ?_⟩
    · rw [Store.fetch_correlationId]
      exact hcorr
    · exact Store.fetch_ok h.store h.live_ok h.history hmax
  | ack i =>
    dsimp only [step]
    split
    · exact h.stays
    next request hrequest =>
      obtain ⟨h', hgrow⟩ := h.ack (mem_of_getElem? hrequest)
      exact ⟨{ h' with }, hgrow⟩
  | tick gate sent exec => exact h.tick gate sent exec
  | fetchReply i gate exec =>
    dsimp only [step]
    split
    · exact h.stays
    next reply hreply => exact h.onFetchReply (mem_of_getElem? hreply) gate exec
  | ackReply i =>
    dsimp only [step]
    split
    · exact h.stays
    next reply _ => exact h.onAckReply reply
  | lost => exact h.lost
  | confirmed settled sent => exact h.confirmed settled sent
  | leaving => exact h.leaving
  | landedAgain epoch => exact h.landedAgain epoch
  | save => exact h.save
  | land => exact h.land
  | dropSave i => exact h.dropSave i
  | saved => exact h.saved
  | elsewhere domain decision => exact h.elsewhere domain decision
  | crash epoch => exact h.crash epoch

/-! ## Exactly once -/

/-- A list of values of `f` on members of `l` is the image of a list of them. -/
theorem exists_map_eq {α β : Type} {f : α → β} {l : List α} {values : List β}
    (h : ∀ b ∈ values, ∃ a ∈ l, f a = b) : ∃ done, values = done.map f ∧ done ⊆ l := by
  induction values with
  | nil => exact ⟨[], rfl, nil_subset _⟩
  | cons b values ih =>
    obtain ⟨⟨a, ha, rfl⟩, hrest⟩ := forall_mem_cons.1 h
    obtain ⟨done, rfl, hsub⟩ := ih hrest
    exact ⟨a :: done, rfl, cons_subset.2 ⟨ha, hsub⟩⟩

/-- What a state `s` of a run says, and what it says of a later state `s'`. -/
structure ExactlyOnce (cfg : InboxConfig) (s s' : PlayerInbox) : Prop where
  /-- The persisted effects are those of rows, and no request has two of them. -/
  once : ∃ done : List Row, s.persisted.effects = done.map Row.effect ∧ done ⊆ s.store.rows ∧
    done.Pairwise fun a b => (a.producer, a.requestId) ≠ (b.producer, b.requestId)
  kept : s.persisted.effects <+: s'.persisted.effects
  applied : ∀ r ∈ s.store.rows, r.state = .applied → r.effect ∈ s.persisted.effects
  refused : ∀ r ∈ s.store.rows, r.state = .rejected ∨ r.state = .voided →
    ∀ e ∈ s'.persisted.effects, e.seq ≠ r.seq
  terminal : ∀ r ∈ s.store.rows, r.state ≠ .pending →
    r ∈ s'.store.rows ∧ ∀ r' ∈ s'.store.rows, r'.seq = r.seq → r' = r
  classes : ∀ k ∈ s.classes, k ≠ .mismatch ∧ k ≠ .unknown
  durable : ∀ copy, s.snapshot = some copy → ∀ d ∈ s.runtime.ackQueue,
    classifyDurability copy.ledger cfg.domain d ≠ .ringMissing

section ExactlyOnce

variable {cfg : InboxConfig} {s s' : PlayerInbox} (h : Sound cfg s)

include h

theorem Sound.effect_decided {e : Effect} (he : e ∈ s.persisted.effects) :
    ∃ d ∈ s.persisted.decided, d.outcome = .applied ∧ d.seq = e.seq := by
  have hseq : e.seq ∈ s.persisted.effects.map (·.seq) := mem_map_of_mem he
  rw [h.persisted_ok.effects] at hseq
  obtain ⟨d, hd, hseq⟩ := mem_map.1 hseq
  obtain ⟨hd, hout⟩ := mem_filter.1 hd
  exact ⟨d, hd, of_decide_eq_true hout, hseq⟩

theorem Sound.once : ∃ done : List Row, s.persisted.effects = done.map Row.effect ∧
    done ⊆ s.store.rows ∧
    done.Pairwise fun a b => (a.producer, a.requestId) ≠ (b.producer, b.requestId) := by
  have hok := h.persisted_ok
  obtain ⟨done, hdone, hrows⟩ := exists_map_eq hok.sources
  refine ⟨done, hdone, hrows, ?_⟩
  have hseqs : (s.persisted.effects.map (·.seq)).Pairwise (· < ·) := by
    rw [hok.effects]
    exact pairwise_map.2 (hok.history.ordered.filter _)
  rw [hdone, map_map] at hseqs
  refine (pairwise_map.1 hseqs).imp_of_mem fun {a b} ha hb hlt hreq => ?_
  have hsame := h.store.eq_of_request (hrows ha) (hrows hb) hreq
  rw [hsame] at hlt
  exact Nat.lt_irrefl _ hlt

theorem Sound.applied_effect (hr : r ∈ s.store.rows) (hstate : r.state = .applied) :
    r.effect ∈ s.persisted.effects := by
  obtain ⟨d, hd, hseq, hout⟩ : ∃ d ∈ s.persisted.decided, d.seq = r.seq ∧ d.outcome = .applied := by
    rcases h.final r hr (by simp [hstate]) with ⟨-, hvoid⟩ | ⟨d, hd, hseq, hout⟩
    · rw [hstate] at hvoid
      cases hvoid
    · refine ⟨d, hd, hseq, ?_⟩
      rw [hstate] at hout
      cases ho : d.outcome <;> rw [ho] at hout <;> first | rfl | cases hout
  have hmem : r.seq ∈ s.persisted.effects.map (·.seq) := by
    rw [h.persisted_ok.effects, ← hseq]
    exact mem_map_of_mem (mem_filter.2 ⟨hd, decide_eq_true hout⟩)
  obtain ⟨e, he, heseq⟩ := mem_map.1 hmem
  obtain ⟨r', hr', rfl⟩ := h.persisted_ok.sources e he
  rwa [h.store.eq_of_seq hr hr' heseq.symm]

theorem Sound.refused_effect (h' : Sound cfg s') (hgrow : Grows s s') (hr : r ∈ s.store.rows)
    (hstate : r.state = .rejected ∨ r.state = .voided) :
    ∀ e ∈ s'.persisted.effects, e.seq ≠ r.seq := by
  intro e he heq
  obtain ⟨d, hd, hout, hseq⟩ := h'.effect_decided he
  have hne : r.state ≠ .pending := by rcases hstate with hs | hs <;> simp [hs]
  rcases h.final r hr hne with ⟨hzero, -⟩ | ⟨d', hd', hseq', hout'⟩
  · -- a decision is made on a delivered row
    obtain ⟨r', hr', hof⟩ := h'.persisted_ok.decided d hd
    obtain rfl := h'.store.eq_of_seq hr' (hgrow.1 r hr hne) (hof.1.trans (hseq.trans heq))
    exact hof.2.2.2.1 hzero
  · obtain rfl := h'.persisted_ok.history.eq_of_seq hd (hgrow.2.1.subset hd')
      (hseq.trans (heq.trans hseq'.symm))
    rw [hout, outcomeToState] at hout'
    rcases hstate with hs | hs <;> rw [hs] at hout' <;> cases hout'

end ExactlyOnce

/-- **The inbox is exactly once**, for every run and everything that follows it. -/
theorem inbox_exactly_once (cfg : InboxConfig) (evs later : List InboxEvent) :
    ExactlyOnce cfg (Machine.run (step cfg) start evs)
      (Machine.run (step cfg) (Machine.run (step cfg) start evs) later) := by
  have hstep : ∀ s e, Sound cfg s → Sound cfg (step cfg s e) := fun _ e hs => (step_advances hs e).1
  have h := Machine.run_invariant hstep (start_sound cfg) evs
  generalize Machine.run (step cfg) start evs = s at h ⊢
  have h' := Machine.run_invariant hstep h later
  have hgrow : Grows s (Machine.run (step cfg) s later) :=
    Machine.run_rel hstep Grows.refl Grows.trans (fun _ e hs => (step_advances hs e).2) h later
  refine ⟨h.once, hgrow.2.2, fun r => h.applied_effect, fun r => h.refused_effect h' hgrow,
    fun r hr hstate => ?_, fun k hk => ?_, fun copy hsnap d hd => ?_⟩
  · have hr' := hgrow.1 r hr hstate
    exact ⟨hr', fun r' hmem hseq => h'.store.eq_of_seq hmem hr' hseq⟩
  · rcases h.classes k hk with rfl | rfl
    all_goals exact ⟨DeliveryClass.noConfusion, DeliveryClass.noConfusion⟩
  · rcases h.queued_durable hd (c := copy) (by simp [reported, hsnap]) with ⟨-, hdur⟩ | hnot
    · rw [hdur]
      exact Durability.noConfusion
    · rw [hnot]
      exact Durability.noConfusion

end PlayerInbox

end Mmorpg.Inbox
