import Mmorpg.Lib.Run
import Mmorpg.Mail.Store

/-!
# Attachments are granted at most once

Any number of clients, workers and sweepers run the transactions of `Mail.Store` in any order.
The state row of a mail says which of its operations may still grant the attachments (`Core`):
a pending row and its current operation belong to each other, and a claimed row or one that waits
for an operator stands for the one operation that has granted. A sweep deletes rows of expired
mails. It has no lock in common with a claim, so the argument rests on time: a claim that reads
a clock not below the cutoff of the sweep finds the mail expired.

The same bound is needed for the clocks of `Read` and `Delete`. They create a missing row as
well, and one that read its clock before the mail expired puts an unclaimed row next to an
applied operation (`stale_read_unclaims`). No attachment is granted twice even then.
-/

namespace Mmorpg.Mail

open Machine List Function Option

abbrev Pair := PlayerId × MailId

/-! ## State rows and operations -/

/-- The operation has granted attachments, all or some of them. -/
def OpStatus.Granted (st : OpStatus) : Prop := st = .applied ∨ st = .manual

/-- The status of the current operation of a row and the claim state of the row. -/
inductive Outcome : OpStatus → ClaimState → Prop
  | pending : Outcome .pending .pending
  | applied : Outcome .applied .claimed
  | rejected : Outcome .rejected .unclaimed
  | manual : Outcome .manual .manual

/-- What the state rows and the operations have to do with each other: `row` gives the claim
state and the current operation of a pair, `op` the pair and the status of an operation, and
`swept` are the pairs whose row a sweep has deleted. -/
structure Core (row : Pair → Option (ClaimState × OpId)) (op : OpId → Option (Pair × OpStatus))
    (swept : Pair → Prop) : Prop where
  pending_row : ∀ {i k}, op i = some (k, .pending) → row k = some (.pending, i)
  row_pending : ∀ {k i}, row k = some (.pending, i) → op i = some (k, .pending)
  granted_row : ∀ {i k st c cur}, op i = some (k, st) → st.Granted → row k = some (c, cur) →
    c ≠ .pending
  granted_unique : ∀ {i j k st st'}, op i = some (k, st) → op j = some (k, st') → st.Granted →
    st'.Granted → i = j
  row_granted : ∀ {k c cur st}, row k = some (c, cur) → Outcome st c → st.Granted →
    ∃ i, op i = some (k, st)
  kept : ∀ {i k st}, op i = some (k, st) → st.Granted → ¬ swept k →
    ∃ c cur, row k = some (c, cur) ∧ (c = .claimed ∨ c = .manual)
  not_abandoned : ∀ {i k}, op i ≠ some (k, .abandoned)

variable {st : OpStatus}

theorem update_eq_some {α β : Type} [DecidableEq α] {f : α → Option β} {a a' : α} {b b' : β}
    (h : update f a (some b) a' = some b') : a' = a ∧ b' = b ∨ a' ≠ a ∧ f a' = some b' := by
  rw [update_apply] at h
  split at h
  next ha => exact .inl ⟨ha, (some.inj h).symm⟩
  next ha => exact .inr ⟨ha, h⟩

namespace Core

variable {row row' : Pair → Option (ClaimState × OpId)} {op : OpId → Option (Pair × OpStatus)}
  {swept : Pair → Prop}

/-- Rows without a claim appear where there was none. -/
theorem grow (h : Core row op swept)
    (hrow : ∀ k, row' k = row k ∨
      row k = none ∧ (row' k = some (.none, 0) ∨ row' k = some (.unclaimed, 0))) :
    Core row' op swept := by
  have hkeep : ∀ {k x}, row k = some x → row' k = some x := by
    intro k x hx
    rcases hrow k with hk | ⟨hk, -⟩
    · rw [hk, hx]
    · rw [hx] at hk
      cases hk
  have hback : ∀ {k c cur}, row' k = some (c, cur) → c ≠ .none → c ≠ .unclaimed →
      row k = some (c, cur) := by
    intro k c cur hx hn hu
    rcases hrow k with hk | ⟨-, hk | hk⟩
    · rw [← hk, hx]
    · rw [hk] at hx
      cases hx
      exact absurd rfl hn
    · rw [hk] at hx
      cases hx
      exact absurd rfl hu
  refine ⟨fun ho => hkeep (h.pending_row ho),
    fun hr => h.row_pending (hback hr (by decide) (by decide)), ?_, h.granted_unique, ?_, ?_,
    h.not_abandoned⟩
  · intro i k st c cur ho hg hr hc
    subst hc
    exact h.granted_row ho hg (hback hr (by decide) (by decide)) rfl
  · intro k c cur st hr hout hg
    refine h.row_granted (hback hr ?_ ?_) hout hg
    · rintro rfl
      cases hout
    · rintro rfl
      cases hout
      rcases hg with hg | hg <;> cases hg
  · intro i k st ho hg hs
    obtain ⟨c, cur, hr, hc⟩ := h.kept ho hg hs
    exact ⟨c, cur, hkeep hr, hc⟩

variable {k : Pair} {i : OpId} (h : Core row op swept)

include h

/-- A pair without a grant and without another pending operation gets a new status, together with
its operation. -/
theorem put {c : ClaimState} (hout : Outcome st c) (hi : ∀ x, op i = some x → x = (k, .pending))
    (hone : ∀ {j}, op j = some (k, .pending) → j = i)
    (hother : ∀ {j st'}, op j = some (k, st') → ¬ st'.Granted) :
    Core (update row k (some (c, i))) (update op i (some (k, st))) swept := by
  have hnew : ∀ {k' j x}, k' ≠ k → op j = some (k', x) →
      update op i (some (k, st)) j = some (k', x) := by
    intro k' j x hk hj
    have hji : j ≠ i := by
      rintro rfl
      exact hk (congrArg Prod.fst (hi _ hj))
    rw [update_of_ne hji, hj]
  constructor
  case pending_row =>
    intro j k' hj
    rcases update_eq_some hj with ⟨rfl, heq⟩ | ⟨hji, hold⟩
    · cases heq
      cases hout
      exact update_self ..
    · have hne : k' ≠ k := by
        rintro rfl
        exact hji (hone hold)
      rw [update_of_ne hne, h.pending_row hold]
  case row_pending =>
    intro k' j hr
    rcases update_eq_some hr with ⟨rfl, heq⟩ | ⟨hk, hr⟩
    · cases heq
      cases hout
      exact update_self ..
    · exact hnew hk (h.row_pending hr)
  case granted_row =>
    intro j k' st' c' cur hj hg hr
    rcases update_eq_some hr with ⟨rfl, heq⟩ | ⟨hk, hr⟩
    · cases heq
      rintro rfl
      cases hout
      rcases update_eq_some hj with ⟨-, heq⟩ | ⟨-, hj⟩
      · cases heq
        rcases hg with hg | hg <;> cases hg
      · exact hother hj hg
    · rcases update_eq_some hj with ⟨-, heq⟩ | ⟨-, hj⟩
      · exact absurd (congrArg Prod.fst heq) hk
      · exact h.granted_row hj hg hr
  case granted_unique =>
    intro a b k' s₁ s₂ ha hb hg hg'
    rcases update_eq_some ha with ⟨rfl, heq⟩ | ⟨-, ha'⟩ <;>
      rcases update_eq_some hb with ⟨rfl, heq'⟩ | ⟨-, hb'⟩
    · rfl
    · cases heq
      exact absurd hg' (hother hb')
    · cases heq'
      exact absurd hg (hother ha')
    · exact h.granted_unique ha' hb' hg hg'
  case row_granted =>
    intro k' c' cur st' hr hout' hg
    rcases update_eq_some hr with ⟨rfl, heq⟩ | ⟨hk, hr⟩
    · cases heq
      refine ⟨i, ?_⟩
      cases hout <;> cases hout' <;> exact update_self ..
    · obtain ⟨j, hj⟩ := h.row_granted hr hout' hg
      exact ⟨j, hnew hk hj⟩
  case kept =>
    intro j k' st' hj hg hs
    by_cases hk : k' = k
    · subst hk
      refine ⟨c, i, update_self .., ?_⟩
      rcases update_eq_some hj with ⟨-, heq⟩ | ⟨-, hj⟩
      · cases heq
        rcases hg with rfl | rfl <;> cases hout
        · exact .inl rfl
        · exact .inr rfl
      · exact absurd hg (hother hj)
    · rw [update_of_ne hk]
      rcases update_eq_some hj with ⟨-, heq⟩ | ⟨-, hj⟩
      · exact absurd (congrArg Prod.fst heq) hk
      · exact h.kept hj hg hs
  case not_abandoned =>
    intro j k' hj
    rcases update_eq_some hj with ⟨-, heq⟩ | ⟨-, hj⟩
    · cases heq
      cases hout
    · exact h.not_abandoned hj

/-- A claim puts a new operation behind an unclaimed row that no sweep has deleted. -/
theorem start {cur : OpId} (hrow : row k = some (.unclaimed, cur)) (hs : ¬ swept k)
    (hop : op i = none) :
    Core (update row k (some (.pending, i)))
      (update op i (some (k, .pending))) swept := by
  refine h.put .pending (fun x hx => ?_) (fun hj => ?_) fun hj hg => ?_
  · rw [hop] at hx
    cases hx
  · cases hrow.symm.trans (h.pending_row hj)
  · obtain ⟨c, cur', hr, hc⟩ := h.kept hj hg hs
    cases hrow.symm.trans hr
    rcases hc with hc | hc <;> cases hc

/-- What becomes of an operation and of its row when the result is known. -/
theorem finish {c : ClaimState} (hop : op i = some (k, .pending)) (hout : Outcome st c) :
    Core (update row k (some (c, i))) (update op i (some (k, st))) swept := by
  have hrow := h.pending_row hop
  refine h.put hout (fun x hx => ?_) (fun hj => ?_) fun hj hg => h.granted_row hj hg hrow rfl
  · exact some.inj (hx.symm.trans hop)
  · cases hrow.symm.trans (h.pending_row hj)
    rfl

/-- A sweep deletes rows of which no operation is pending or waits for an operator. -/
theorem collect {gone : Pair → Prop} [DecidablePred gone]
    (hgone : ∀ {k c cur}, gone k → row k = some (c, cur) → expires c = true) :
    Core (fun k => if gone k then none else row k) op (fun k => gone k ∨ swept k) := by
  have hkeep : ∀ {k c cur}, row k = some (c, cur) → expires c = false →
      (if gone k then none else row k) = some (c, cur) := by
    intro k c cur hr hc
    rw [if_neg, hr]
    intro hg
    rw [hgone hg hr] at hc
    cases hc
  have hback : ∀ {k x}, (if gone k then none else row k) = some x → row k = some x := by
    intro k x hx
    split at hx
    · cases hx
    · exact hx
  refine ⟨fun ho => hkeep (h.pending_row ho) rfl, fun hr => h.row_pending (hback hr),
    fun ho hg hr => h.granted_row ho hg (hback hr), h.granted_unique,
    fun hr => h.row_granted (hback hr), ?_, h.not_abandoned⟩
  intro i k st ho hg hs
  rw [not_or] at hs
  rw [if_neg hs.1]
  exact h.kept ho hg hs.2

end Core

/-! ## The system -/

/-- The tables, with a record of every message that was ever sent, the largest cutoff of the
sweeps that have found something, the messages that sweeps have locked with their cutoff, and
the pairs whose row a sweep has deleted. -/
structure World where
  tables : Tables
  sent : Table MailId Message
  horizon : Nat
  locked : List (MailId × Nat)
  swept : List Pair

def World.init : World := ⟨⟨∅, ∅, ∅⟩, ∅, 0, [], []⟩

/-- One transaction, with the clock that it reads and what it meets. A sweep is two events for
each candidate, since other transactions may run between its check and its deletions. -/
inductive Event where
  | send (id : MailId) (m : Message) (now : Nat)
  | claim (player : PlayerId) (id : MailId) (opId : OpId) (now : Nat) (visible : Bool)
      (alloc : Option (Nat × Nat))
  | read (player : PlayerId) (id : MailId) (now : Nat) (visible : Bool)
  | delete (player : PlayerId) (ids : List MailId) (clear : Bool) (scanned : List MailId)
      (now : Nat) (visible : MailId → Bool)
  | claimOp (id : OpId) (now until_ poison token : Nat)
  | reschedule (op : LeasedOp) (next : Nat) (res : Result) (now : Nat)
  | finalize (op : LeasedOp) (status : Status) (res : Result) (now : Nat)
  | sweepLock (id : MailId) (cutoff : Nat)
  | sweepDelete (id : MailId) (cutoff remaining : Nat) (picked : List PlayerId)

namespace World

/-- What a transaction reads of a message: it may have been deleted since. -/
def found (s : World) (visible : Bool) (id : MailId) : Option Message :=
  if visible then s.sent.get id else none

def commit (s : World) : Except Err Tables → World
  | .ok t => { s with tables := t }
  | .error _ => s

/-- Numbers of mails are not used twice. -/
def step (decodes : Bytes → Bool) (s : World) : Event → World
  | .send id m now =>
    if (s.sent.get id).isSome then s
    else
      match send s.tables id m now with
      | .ok t => { s with tables := t, sent := s.sent.put id m }
      | .error _ => s
  | .claim player id opId now visible alloc =>
    s.commit ((claim decodes s.tables (s.found visible id) player id opId now alloc).map (·.1))
  | .read player id now visible => s.commit (read s.tables (s.found visible id) player id now)
  | .delete player ids clear scanned now visible =>
    s.commit ((delete s.tables (fun id => s.found (visible id) id) player ids clear scanned
      now).map (·.1))
  | .claimOp id now until_ poison token =>
    s.commit (claimOp decodes s.tables id now until_ poison token)
  | .reschedule op next res now => s.commit (reschedule s.tables op next res now)
  | .finalize op status res now => s.commit ((finalize s.tables op status res now).map (·.1))
  | .sweepLock id cutoff =>
    if eligible s.tables id cutoff then
      { s with horizon := max s.horizon cutoff, locked := (id, cutoff) :: s.locked }
    else s
  | .sweepDelete id cutoff remaining picked =>
    if (id, cutoff) ∈ s.locked && mayPick s.tables id remaining picked then
      { s with tables := sweepDelete s.tables id cutoff remaining picked,
               locked := s.locked.erase (id, cutoff),
               swept := picked.map (fun p => (p, id)) ++ s.swept }
    else s

/-- A claim that runs after a sweep has read a clock not below the cutoff of the sweep. -/
def ClaimsCurrent (s : World) : Event → Prop
  | .claim _ _ _ now _ _ => s.horizon ≤ now
  | _ => True

/-- The same for the other transactions that create state rows. -/
def ReadsCurrent (s : World) : Event → Prop
  | .read _ _ now _ => s.horizon ≤ now
  | .delete _ _ _ _ now _ => s.horizon ≤ now
  | _ => True

def Removed (s : World) (k : Pair) : Prop :=
  k ∈ s.swept ∨ ∃ r, s.tables.state.get k = some r ∧ r.deletedMs ≠ 0

end World

open World

/-! ## What a step does -/

def rowOf (t : Table Pair MailState) (k : Pair) : Option (ClaimState × OpId) :=
  (t.get k).map fun r => (r.claimState, r.currentOpId)

def opOf (t : Table OpId AssetOp) (i : OpId) : Option (Pair × OpStatus) :=
  (t.get i).map fun o => ((o.playerId, o.mailId), o.status)

theorem rowOf_put (t : Table Pair MailState) (k : Pair) (r : MailState) :
    rowOf (t.put k r) = update (rowOf t) k (some (r.claimState, r.currentOpId)) := by
  funext k'
  rw [rowOf, Table.get_put, update_apply]
  split
  · rfl
  · rfl

theorem opOf_put (t : Table OpId AssetOp) (i : OpId) (o : AssetOp) :
    opOf (t.put i o) = update (opOf t) i (some ((o.playerId, o.mailId), o.status)) := by
  funext j
  rw [opOf, Table.get_put, update_apply]
  split
  · rfl
  · rfl

/-- What a transaction that settles nothing makes of a row: the same claim in a row that was not
deleted, or a fresh row of a mail that was not expired. -/
inductive RowStep (s : World) (now : Nat) (k : Pair) : Option MailState → Option MailState → Prop
  | same (r : Option MailState) : RowStep s now k r r
  | touch {r r' : MailState} (hdel : r.deletedMs = 0) (hstate : r'.claimState = r.claimState)
      (hop : r'.currentOpId = r.currentOpId) : RowStep s now k (some r) (some r')
  | create {r' : MailState} {m : Message} (hsent : s.sent.get k.2 = some m)
      (hlive : now < m.expireMs) (hstate : r'.claimState = .none ∨ r'.claimState = .unclaimed)
      (hop : r'.currentOpId = 0) : RowStep s now k none (some r')

structure Quiet (s : World) (now : Nat) (t : Tables) : Prop where
  messages_eq : t.messages = s.tables.messages
  ops_eq : opOf t.ops = opOf s.tables.ops
  row : ∀ k, RowStep s now k (s.tables.state.get k) (t.state.get k)

variable {id : MailId}

namespace Quiet

variable {s : World} {now : Nat} {t t₁ : Tables}

theorem refl (s : World) (now : Nat) : Quiet s now s.tables := ⟨rfl, rfl, fun _ => .same _⟩

variable {r : MailState}

theorem touch (h : Quiet s now t) {k : Pair} {r' : MailState} (hr : t.state.get k = some r)
    (hdel : r.deletedMs = 0) (hstate : r'.claimState = r.claimState)
    (hop : r'.currentOpId = r.currentOpId) :
    Quiet s now { t with state := t.state.put k r' } := by
  refine ⟨h.messages_eq, h.ops_eq, fun k' => ?_⟩
  have hk := h.row k'
  rw [Table.get_put]
  split
  · subst k'
    rw [hr] at hk
    generalize s.tables.state.get k = old at hk
    cases hk with
    | same => exact .touch hdel hstate hop
    | touch hdel₀ hstate₀ hop₀ => exact .touch hdel₀ (hstate.trans hstate₀) (hop.trans hop₀)
    | create hsent hlive hstate₀ hop₀ =>
      exact .create hsent hlive (hstate ▸ hstate₀) (hop.trans hop₀)
  · exact hk

theorem create (h : Quiet s now t) {k : Pair} {m : Message}
    (hr : t.state.get k = none) (hsent : s.sent.get k.2 = some m) (hlive : now < m.expireMs)
    (hstate : r.claimState = .none ∨ r.claimState = .unclaimed) (hop : r.currentOpId = 0) :
    Quiet s now { t with state := t.state.put k r } := by
  refine ⟨h.messages_eq, h.ops_eq, fun k' => ?_⟩
  have hk := h.row k'
  rw [Table.get_put]
  split
  · subst k'
    rw [hr] at hk
    generalize s.tables.state.get k = old at hk
    cases hk
    exact .create hsent hlive hstate hop
  · exact hk

theorem freshState_claim (m : Message) (now : Nat) :
    (freshState m now).claimState = .none ∨ (freshState m now).claimState = .unclaimed := by
  rw [freshState]
  dsimp only
  split
  · exact .inr rfl
  · exact .inl rfl

variable {player : PlayerId}

/-- The transactions start by creating the row if it is missing. -/
theorem materialize (h : Quiet s now t) {visible : Bool} {m : Message}
    (hm : materialize t (s.found visible id) player id now = .ok (m, r, t₁)) :
    Quiet s now t₁ ∧ t₁.state.get (player, id) = some r ∧ r.deletedMs = 0 ∧
      s.sent.get id = some m := by
  obtain ⟨hfound, hdel, hcase⟩ := materialize_ok hm
  have hsent : s.sent.get id = some m := by
    rw [found] at hfound
    split at hfound
    · exact hfound
    · cases hfound
  rcases hcase with ⟨hr, rfl⟩ | ⟨hr, hlive, hfresh, rfl⟩
  · exact ⟨h, hr, hdel, hsent⟩
  refine ⟨h.create hr hsent hlive ?_ ?_, Table.get_put_self .., hdel, hsent⟩
  · rw [hfresh]
    exact freshState_claim m now
  · rw [hfresh]
    rfl

variable {visible : MailId → Bool}

theorem deleteLoop {targets seen : List MailId} {d d' : Deleted} (h : Quiet s now t)
    (hd : deleteLoop (fun id => s.found (visible id) id) player now targets seen t d =
      .ok (t₁, d')) : Quiet s now t₁ := by
  induction targets generalizing seen t d with
  | nil =>
    cases hd
    exact h
  | cons id targets ih =>
    rw [Mail.deleteLoop] at hd
    split at hd
    · exact ih h hd
    split at hd
    · exact ih h hd
    · exact ih h hd
    · cases hd
    rename_i m r t₂ hm
    obtain ⟨hq, hr, hdel, -⟩ := h.materialize hm
    split at hd
    · exact ih hq hd
    · exact ih (hq.touch hr hdel (by rfl) (by rfl)) hd

theorem delete {ids scanned : List MailId} {clear : Bool} {d : Deleted}
    (hd : delete s.tables (fun id => s.found (visible id) id) player ids clear scanned now =
      .ok (t₁, d)) : Quiet s now t₁ := by
  rw [Mail.delete] at hd
  split at hd
  · cases hd
  · exact (refl s now).deleteLoop hd

theorem read {visible : Bool} (hr : read s.tables (s.found visible id) player id now = .ok t₁) :
    Quiet s now t₁ := by
  obtain ⟨m, r, t₂, hm, r', hstate, hop, -, -, rfl⟩ := read_ok hr
  obtain ⟨hq, hget, hdel, -⟩ := (refl s now).materialize hm
  exact hq.touch hget hdel hstate hop

/-- An operation is put off or leased again. -/
theorem relabel (h : Quiet s now t) {i : OpId} {p p' : AssetOp} (hp : t.ops.get i = some p)
    (hplayer : p'.playerId = p.playerId) (hmail : p'.mailId = p.mailId)
    (hstatus : p'.status = p.status) : Quiet s now { t with ops := t.ops.put i p' } := by
  refine ⟨h.messages_eq, ?_, h.row⟩
  have hsame : opOf t.ops i = some ((p'.playerId, p'.mailId), p'.status) := by
    rw [opOf, hp, hplayer, hmail, hstatus]
    rfl
  rw [opOf_put, ← hsame, update_eq_self]
  exact h.ops_eq

theorem reschedule (h : Quiet s now t) {op : LeasedOp} {next at_ : Nat} {res : Result}
    (hr : reschedule t op next res at_ = .ok t₁) : Quiet s now t₁ := by
  obtain ⟨p, p', hp, hplayer, hmail, -, hstatus, rfl⟩ := reschedule_ok hr
  exact h.relabel hp hplayer hmail hstatus

theorem claimOp {decodes : Bytes → Bool} {id : OpId} {at_ until_ poison token : Nat}
    (hc : claimOp decodes s.tables id at_ until_ poison token = .ok t₁) : Quiet s now t₁ := by
  rw [Mail.claimOp] at hc
  split at hc
  · cases hc
  rename_i p hp
  split at hc
  · cases hc
  dsimp only at hc
  split at hc
  · cases hc
    exact (refl s now).relabel hp rfl rfl rfl
  · refine Quiet.reschedule ?_ hc
    exact (refl s now).relabel hp rfl rfl rfl

end Quiet

/-- What a step can do. `current` stands for the assumption on the clocks of `Read` and
`Delete`. -/
inductive Effect (current : Prop) (s : World) : World → Prop
  | quiet {now : Nat} {t : Tables} (h : Quiet s now t) (hnow : current → s.horizon ≤ now) :
      Effect current s { s with tables := t }
  | start {now : Nat} {t : Tables} (h : Quiet s now t) (hnow : s.horizon ≤ now) {player : PlayerId}
      {id : MailId} {i : OpId} {r : MailState} {m : Message} {o : AssetOp}
      (hsent : s.sent.get id = some m) (hlive : now < m.expireMs)
      (hrow : t.state.get (player, id) = some r) (hdel : r.deletedMs = 0)
      (hstate : r.claimState = .unclaimed) (hop : t.ops.get i = none)
      (ho : ((o.playerId, o.mailId), o.status) = ((player, id), .pending)) :
      Effect current s { s with tables := { t with
        ops := t.ops.put i o, state := t.state.put (player, id) (claimingState r i now) } }
  | finish {op : LeasedOp} {p p' : AssetOp} {r r' : MailState}
      (hp : s.tables.ops.get op.opId = some p)
      (hr : s.tables.state.get (op.playerId, p.mailId) = some r) (hcur : r.currentOpId = op.opId)
      (hstate : r.claimState = .pending) (hplayer : p'.playerId = p.playerId)
      (hmail : p'.mailId = p.mailId) (hdel : r'.deletedMs = r.deletedMs)
      (hcur' : r'.currentOpId = op.opId) (hout : Outcome p'.status r'.claimState) :
      Effect current s { s with tables := { s.tables with
        ops := s.tables.ops.put op.opId p',
        state := s.tables.state.put (op.playerId, p.mailId) r' } }
  | publish {id : MailId} {m : Message} {now : Nat} {t : Tables}
      (hsent : s.sent.get id = none) (h : send s.tables id m now = .ok t) :
      Effect current s { s with tables := t, sent := s.sent.put id m }
  | lock {id : MailId} {cutoff : Nat} (h : eligible s.tables id cutoff = true) :
      Effect current s { s with
        horizon := max s.horizon cutoff, locked := (id, cutoff) :: s.locked }
  | collect {id : MailId} {cutoff remaining : Nat} {picked : List PlayerId}
      (hlocked : (id, cutoff) ∈ s.locked) (hpick : mayPick s.tables id remaining picked = true) :
      Effect current s { s with
        tables := sweepDelete s.tables id cutoff remaining picked,
        locked := s.locked.erase (id, cutoff), swept := picked.map (fun p => (p, id)) ++ s.swept }

theorem Effect.refl (current : Prop) (s : World) : Effect current s s :=
  .quiet (Quiet.refl s s.horizon) fun _ => le_rfl

variable {s : World}

theorem commit_effect {current : Prop} {r : Except Err Tables}
    (h : ∀ t, r = .ok t → Effect current s { s with tables := t }) :
    Effect current s (s.commit r) := by
  cases r with
  | ok t => exact h t rfl
  | error e => exact .refl current s

theorem map_fst_ok {α β : Type} {r : Except Err (α × β)} {a : α} (h : r.map (·.1) = .ok a) :
    ∃ b, r = .ok (a, b) := by
  cases r with
  | ok x =>
    cases h
    exact ⟨x.2, rfl⟩
  | error e => cases h

theorem step_effect {current : Prop} {decodes : Bytes → Bool} {e : Event}
    (hclaim : ClaimsCurrent s e) (hread : current → ReadsCurrent s e) :
    Effect current s (step decodes s e) := by
  cases e with
  | send id m now =>
    rw [step]
    split
    · exact .refl current s
    · next hsent =>
      split
      · next t ht => exact .publish (not_isSome_iff_eq_none.1 hsent) ht
      · exact .refl current s
  | claim player id opId now visible alloc =>
    refine commit_effect fun t ht => ?_
    obtain ⟨res, hc⟩ := map_fst_ok ht
    obtain ⟨m, r, t₁, hm, hcase⟩ := claim_ok hc
    obtain ⟨hq, hrow, hdel, hsent⟩ := (Quiet.refl s now).materialize hm
    rcases hcase with rfl | ⟨hstate, hlive, hop, a, rfl⟩
    · exact .quiet hq fun _ => hclaim
    · exact .start hq hclaim hsent hlive hrow hdel hstate hop rfl
  | read player id now visible =>
    exact commit_effect fun t ht => .quiet (Quiet.read ht) hread
  | delete player ids clear scanned now visible =>
    refine commit_effect fun t ht => ?_
    obtain ⟨d, hd⟩ := map_fst_ok ht
    exact .quiet (Quiet.delete hd) hread
  | claimOp id now until_ poison token =>
    exact commit_effect fun t ht => .quiet (Quiet.claimOp ht) fun _ => le_refl s.horizon
  | reschedule op next res now =>
    exact commit_effect fun t ht =>
      .quiet ((Quiet.refl s s.horizon).reschedule ht) fun _ => le_rfl
  | finalize op status res now =>
    refine commit_effect fun t ht => ?_
    obtain ⟨done, hf⟩ := map_fst_ok ht
    rcases finalize_ok hf with rfl | ⟨p, p', r, r', hp, hr, -, hcur, hstate, hplayer, hmail, -,
      hdel, hcur', hout, rfl⟩
    · exact .refl current s
    · refine .finish hp hr hcur hstate hplayer hmail hdel hcur' ?_
      rcases hout with ⟨h₁, h₂⟩ | ⟨h₁, h₂⟩ | ⟨h₁, h₂⟩ <;> rw [h₁, h₂]
      · exact .applied
      · exact .rejected
      · exact .manual
  | sweepLock id cutoff =>
    rw [step]
    split
    · exact .lock ‹_›
    · exact .refl current s
  | sweepDelete id cutoff remaining picked =>
    rw [step]
    split
    · next h =>
      simp only [Bool.and_eq_true, decide_eq_true_eq] at h
      exact .collect h.1 h.2
    · exact .refl current s

/-! ## Invariants -/

structure Ok (s : World) : Prop where
  core : Core (rowOf s.tables.state) (opOf s.tables.ops) (· ∈ s.swept)
  row_sent : ∀ {k r}, s.tables.state.get k = some r → ∃ m, s.sent.get k.2 = some m
  swept_expired : ∀ {k}, k ∈ s.swept → ∃ m, s.sent.get k.2 = some m ∧ m.expireMs < s.horizon
  locked_expired : ∀ {id c}, (id, c) ∈ s.locked →
    c ≤ s.horizon ∧ ∃ m, s.sent.get id = some m ∧ m.expireMs < c
  live_sent : ∀ {id m}, s.tables.messages.get id = some m → s.sent.get id = some m

theorem ok_init : Ok World.init := by
  refine ⟨⟨?_, ?_, ?_, ?_, ?_, ?_, ?_⟩, ?_, ?_, ?_, ?_⟩ <;> intros <;> simp_all [init, rowOf, opOf]

def Gone (s : World) : Prop := ∀ k ∈ s.swept, s.tables.state.get k = none

namespace Ok

variable {s : World} {now : Nat} {t : Tables}

theorem rowOf_quiet (hq : Quiet s now t) (k : Pair) :
    rowOf t.state k = rowOf s.tables.state k ∨ rowOf s.tables.state k = none ∧
      (rowOf t.state k = some (.none, 0) ∨ rowOf t.state k = some (.unclaimed, 0)) := by
  have hk := hq.row k
  simp only [rowOf]
  generalize s.tables.state.get k = old at hk
  generalize t.state.get k = new at hk
  cases hk with
  | same => exact .inl rfl
  | touch hdel hstate hop =>
    left
    simp only [map_some, hstate, hop]
  | create hsent hlive hstate hop =>
    right
    refine ⟨rfl, ?_⟩
    simp only [map_some, hop]
    rcases hstate with hs | hs
    · exact .inl (by rw [hs])
    · exact .inr (by rw [hs])

theorem quiet (h : Ok s) (hq : Quiet s now t) : Ok { s with tables := t } := by
  refine ⟨?_, ?_, h.swept_expired, h.locked_expired, ?_⟩
  · rw [hq.ops_eq]
    exact h.core.grow (rowOf_quiet hq)
  · intro k r hr
    have hk := hq.row k
    rw [hr] at hk
    generalize hold : s.tables.state.get k = old at hk
    cases hk with
    | same | touch => exact h.row_sent hold
    | create hsent => exact ⟨_, hsent⟩
  · intro id m hm
    rw [hq.messages_eq] at hm
    exact h.live_sent hm

variable {m : Message} (h : Ok s)

include h

/-- A mail that a sweep has taken is expired for every claim that follows. -/
theorem not_swept {k : Pair} (hsent : s.sent.get k.2 = some m) (hnow : s.horizon ≤ now)
    (hlive : now < m.expireMs) : k ∉ s.swept := by
  intro hs
  obtain ⟨m', hm', hexp⟩ := h.swept_expired hs
  rw [hsent] at hm'
  cases hm'
  omega

theorem row_sent_put {k : Pair} {r : MailState} (hsent : s.sent.get k.2 = some m) {k' : Pair}
    {r' : MailState} (hr : (s.tables.state.put k r).get k' = some r') :
    ∃ m, s.sent.get k'.2 = some m := by
  rw [Table.get_put] at hr
  split at hr
  · next hk => exact ⟨m, hk ▸ hsent⟩
  · exact h.row_sent hr

theorem publish (hsent : s.sent.get id = none) (hsend : send s.tables id m now = .ok t) :
    Ok { s with tables := t, sent := s.sent.put id m } := by
  obtain ⟨hmsg, hops, hstate⟩ := send_ok hsend
  have hold : ∀ {j x}, s.sent.get j = some x → (s.sent.put id m).get j = some x := by
    intro j x hj
    rw [Table.get_put_of_ne (by rintro rfl; rw [hsent] at hj; cases hj), hj]
  refine ⟨?_, ?_, ?_, ?_, ?_⟩
  · rw [hops]
    refine h.core.grow fun k => ?_
    rcases hstate with hstate | ⟨player, hnone, hstate⟩
    · exact .inl (by rw [hstate])
    rw [hstate, rowOf_put]
    by_cases hk : k = (player, id)
    · subst hk
      rw [update_self]
      refine .inr ⟨by rw [rowOf, hnone]; rfl, ?_⟩
      have hop : (freshState m now).currentOpId = 0 := rfl
      rcases Quiet.freshState_claim m now with hc | hc <;> rw [hc, hop]
      · exact .inl rfl
      · exact .inr rfl
    · exact .inl (update_of_ne hk ..)
  · intro k r hr
    rcases hstate with hstate | ⟨player, hnone, hstate⟩
    · rw [hstate] at hr
      obtain ⟨m', hm'⟩ := h.row_sent hr
      exact ⟨m', hold hm'⟩
    · rw [hstate, Table.get_put] at hr
      split at hr
      · next hk =>
        subst hk
        exact ⟨m, Table.get_put_self ..⟩
      · obtain ⟨m', hm'⟩ := h.row_sent hr
        exact ⟨m', hold hm'⟩
  · intro k hk
    obtain ⟨m', hm', hexp⟩ := h.swept_expired hk
    exact ⟨m', hold hm', hexp⟩
  · intro j c hj
    obtain ⟨hc, m', hm', hexp⟩ := h.locked_expired hj
    exact ⟨hc, m', hold hm', hexp⟩
  · intro j m' hm'
    rw [hmsg, Table.get_put] at hm'
    split at hm'
    · next hj =>
      subst hj
      cases hm'
      exact Table.get_put_self ..
    · exact hold (h.live_sent hm')

theorem collect {cutoff remaining : Nat} {picked : List PlayerId}
    (hlocked : (id, cutoff) ∈ s.locked) (hpick : mayPick s.tables id remaining picked = true) :
    Ok { s with
      tables := sweepDelete s.tables id cutoff remaining picked,
      locked := s.locked.erase (id, cutoff),
      swept := picked.map (fun p => (p, id)) ++ s.swept } := by
  obtain ⟨hstate, hops, hmsg⟩ := sweepDelete_spec s.tables id cutoff remaining picked
  obtain ⟨hcut, m, hm, hexp⟩ := h.locked_expired hlocked
  have hrow : rowOf (sweepDelete s.tables id cutoff remaining picked).state =
      fun k => if k ∈ picked.map (fun p => (p, id)) then none else rowOf s.tables.state k := by
    funext k
    rw [hstate, rowOf, Table.get_delAll]
    split
    · rfl
    · rfl
  have hswept : (fun k => k ∈ picked.map (fun p => (p, id)) ++ s.swept) =
      fun k => k ∈ picked.map (fun p => (p, id)) ∨ k ∈ s.swept := by
    funext k
    exact propext mem_append
  refine ⟨?_, ?_, ?_, ?_, ?_⟩
  · dsimp only
    rw [hops, hrow, hswept]
    refine h.core.collect ?_
    intro k c cur hk hr
    obtain ⟨p, hp, rfl⟩ := mem_map.1 hk
    obtain ⟨r, hget, hc⟩ := mem_collectable (mem_of_mayPick hpick hp)
    rw [rowOf, hget] at hr
    cases hr
    exact hc
  · intro k r hr
    rw [hstate, Table.get_delAll] at hr
    split at hr
    · cases hr
    · exact h.row_sent hr
  · intro k hk
    rcases mem_append.1 hk with hk | hk
    · obtain ⟨p, -, rfl⟩ := mem_map.1 hk
      exact ⟨m, hm, by dsimp only; omega⟩
    · exact h.swept_expired hk
  · intro j c hj
    exact h.locked_expired (mem_of_mem_erase hj)
  · intro j m' hm'
    rcases hmsg with hmsg | hmsg
    · rw [hmsg] at hm'
      exact h.live_sent hm'
    · rw [hmsg, Table.get_del] at hm'
      split at hm'
      · cases hm'
      · exact h.live_sent hm'

/-- The operation that a result is about belongs to the pair whose row names it. -/
theorem player_eq {op : LeasedOp} {p : AssetOp} {r : MailState}
    (hp : s.tables.ops.get op.opId = some p)
    (hr : s.tables.state.get (op.playerId, p.mailId) = some r) (hcur : r.currentOpId = op.opId)
    (hstate : r.claimState = .pending) : p.playerId = op.playerId ∧ p.status = .pending := by
  have hrow : rowOf s.tables.state (op.playerId, p.mailId) = some (.pending, op.opId) := by
    rw [rowOf, hr]
    simp only [map_some, hstate, hcur]
  have hop := h.core.row_pending hrow
  rw [opOf, hp] at hop
  simp only [map_some, some.injEq, Prod.mk.injEq, and_true] at hop
  exact hop

theorem effect {current : Prop} {s' : World} (he : Effect current s s') : Ok s' := by
  cases he with
  | quiet hq _ => exact h.quiet hq
  | @start now t hq hnow player id i r m o hsent hlive hrow hdel hstate hop ho =>
    have hq' := h.quiet hq
    obtain ⟨hpair, hstatus⟩ := Prod.mk.inj ho
    have hunclaimed : rowOf t.state (player, id) = some (.unclaimed, r.currentOpId) := by
      rw [rowOf, hrow]
      simp only [map_some, hstate]
    have hfree : opOf t.ops i = none := by
      rw [opOf, hop]
      rfl
    have hcore := hq'.core.start hunclaimed (h.not_swept hsent hnow hlive) hfree
    refine ⟨?_, fun hr => hq'.row_sent_put hsent hr, h.swept_expired, h.locked_expired,
      hq'.live_sent⟩
    dsimp only
    rw [rowOf_put, opOf_put, hpair, hstatus]
    exact hcore
  | @finish op p p' r r' hp hr hcur hstate hplayer hmail hdel hcur' hout =>
    obtain ⟨hsame, hpending⟩ := h.player_eq hp hr hcur hstate
    have hop : opOf s.tables.ops op.opId = some ((op.playerId, p.mailId), .pending) := by
      rw [opOf, hp]
      simp only [map_some, hsame, hpending]
    have hcore := h.core.finish hop hout
    obtain ⟨m, hm⟩ := h.row_sent hr
    refine ⟨?_, fun hr => h.row_sent_put hm hr, h.swept_expired, h.locked_expired, h.live_sent⟩
    dsimp only
    rw [rowOf_put, opOf_put, hcur', hplayer, hmail, hsame]
    exact hcore
  | publish hsent hsend => exact h.publish hsent hsend
  | @lock id cutoff helig =>
    refine ⟨h.core, h.row_sent, ?_, ?_, h.live_sent⟩
    · intro k hk
      obtain ⟨m, hm, hexp⟩ := h.swept_expired hk
      exact ⟨m, hm, Nat.lt_of_lt_of_le hexp (Nat.le_max_left ..)⟩
    · intro j c hj
      rcases mem_cons.1 hj with hj | hj
      · cases hj
        obtain ⟨m, hm, hexp⟩ := eligible_ok helig
        exact ⟨le_max_right .., m, h.live_sent hm, hexp⟩
      · obtain ⟨hc, hm⟩ := h.locked_expired hj
        exact ⟨Nat.le_trans hc (Nat.le_max_left ..), hm⟩
  | collect hlocked hpick => exact h.collect hlocked hpick

end Ok

section Effects

variable {current : Prop} {s s' : World}

/-- With current clocks everywhere, swept rows do not come back. -/
theorem Effect.gone (h : Ok s) (hg : Gone s) (he : Effect True s s') : Gone s' := by
  have hquiet : ∀ {now t}, Quiet s now t → s.horizon ≤ now → ∀ k ∈ s.swept,
      t.state.get k = none := by
    intro now t hq hnow k hk
    have hrow := hq.row k
    rw [hg k hk] at hrow
    generalize t.state.get k = new at hrow
    cases hrow with
    | same => rfl
    | create hsent hlive => exact absurd hk (h.not_swept hsent hnow hlive)
  have hput : ∀ {t : Table Pair MailState} {k k' : Pair} {r r' : MailState}, t.get k = none →
      t.get k' = some r → (t.put k' r').get k = none := by
    intro t k k' r r' hk hk'
    rw [Table.get_put_of_ne (by rintro rfl; rw [hk] at hk'; cases hk'), hk]
  cases he with
  | quiet hq hnow => exact hquiet hq (hnow trivial)
  | start hq hnow hsent hlive hrow hdel hstate hop ho =>
    exact fun k hk => hput (hquiet hq hnow k hk) hrow
  | finish hp hr hcur hstate hplayer hmail hdel hcur' hout =>
    exact fun k hk => hput (hg k hk) hr
  | @publish id m now t hsent hsend =>
    intro k hk
    obtain ⟨-, -, hstate⟩ := send_ok hsend
    rcases hstate with hstate | ⟨player, -, hstate⟩
    · dsimp only
      rw [hstate]
      exact hg k hk
    · obtain ⟨m', hm', -⟩ := h.swept_expired hk
      dsimp only
      rw [hstate, Table.get_put_of_ne, hg k hk]
      rintro rfl
      rw [hsent] at hm'
      cases hm'
  | lock helig => exact hg
  | @collect id cutoff remaining picked hlocked hpick =>
    intro k hk
    obtain ⟨hstate, -, -⟩ := sweepDelete_spec s.tables id cutoff remaining picked
    dsimp only
    rw [hstate, Table.get_delAll]
    split
    · rfl
    · next hnot => exact hg k ((mem_append.1 hk).resolve_left hnot)

variable {k : Pair}

theorem Quiet.removed {now : Nat} {t : Tables} (hq : Quiet s now t)
    (hk : Removed s k) : Removed { s with tables := t } k := by
  refine hk.imp_right ?_
  rintro ⟨r, hr, hdel⟩
  refine ⟨r, ?_, hdel⟩
  have hrow := hq.row k
  rw [hr] at hrow
  dsimp only
  generalize t.state.get k = new at hrow
  cases hrow with
  | same => rfl
  | touch hdel' => exact absurd hdel' hdel

/-- What becomes of the operations: a new one is not for a removed pair, and only a pending one
changes its status. -/
theorem Effect.op (h : Ok s) (he : Effect current s s') (i : OpId) :
    opOf s'.tables.ops i = opOf s.tables.ops i ∨
      (opOf s.tables.ops i = none ∧ ∃ k, ¬ Removed s k ∧
        opOf s'.tables.ops i = some (k, .pending)) ∨
      ∃ k st, opOf s.tables.ops i = some (k, .pending) ∧ opOf s'.tables.ops i = some (k, st) := by
  cases he with
  | quiet hq hnow => exact .inl (congrFun hq.ops_eq i)
  | @start now t hq hnow player id j r m o hsent hlive hrow hdel hstate hop ho =>
    dsimp only
    rw [opOf_put, hq.ops_eq, ho]
    by_cases hij : i = j
    · subst hij
      refine .inr (.inl ⟨?_, (player, id), fun hk => ?_, update_self ..⟩)
      · rw [← hq.ops_eq, opOf, hop]
        rfl
      · rcases hq.removed hk with hs | ⟨r', hr', hdel'⟩
        · exact h.not_swept hsent hnow hlive hs
        · rw [hrow] at hr'
          cases hr'
          exact hdel' hdel
    · exact .inl (update_of_ne hij ..)
  | @finish op p p' r r' hp hr hcur hstate hplayer hmail hdel hcur' hout =>
    dsimp only
    rw [opOf_put]
    by_cases hij : i = op.opId
    · subst hij
      obtain ⟨-, hpending⟩ := h.player_eq hp hr hcur hstate
      refine .inr (.inr ⟨(p.playerId, p.mailId), p'.status, ?_, ?_⟩)
      · rw [opOf, hp, ← hpending]
        rfl
      · rw [update_self, hplayer, hmail]
    · exact .inl (update_of_ne hij ..)
  | publish hsent hsend => exact .inl (by dsimp only; rw [(send_ok hsend).2.1])
  | lock helig => exact .inl rfl
  | @collect id cutoff remaining picked hlocked hpick =>
    exact .inl (by dsimp only; rw [(sweepDelete_spec s.tables id cutoff remaining picked).2.1])

theorem Effect.removed (he : Effect current s s') (hk : Removed s k) : Removed s' k := by
  cases he with
  | quiet hq hnow => exact hq.removed hk
  | @start now t hq hnow player id i r m o hsent hlive hrow hdel hstate hop ho =>
    rcases hq.removed hk with hs | ⟨r', hr', hdel'⟩
    · exact .inl hs
    refine .inr ⟨r', ?_, hdel'⟩
    have hne : k ≠ (player, id) := by
      rintro rfl
      rw [hrow] at hr'
      cases hr'
      exact hdel' hdel
    dsimp only
    rw [Table.get_put_of_ne hne]
    exact hr'
  | @finish op p p' r r' hp hr hcur hstate hplayer hmail hdel hcur' hout =>
    refine hk.imp_right ?_
    rintro ⟨r₀, hr₀, hdel₀⟩
    by_cases hk' : k = (op.playerId, p.mailId)
    · subst hk'
      rw [hr] at hr₀
      cases hr₀
      exact ⟨r', Table.get_put_self .., by rw [hdel]; exact hdel₀⟩
    · exact ⟨r₀, by dsimp only; rw [Table.get_put_of_ne hk']; exact hr₀, hdel₀⟩
  | @publish id m now t hsent hsend =>
    refine hk.imp_right ?_
    rintro ⟨r, hr, hdel⟩
    refine ⟨r, ?_, hdel⟩
    dsimp only
    rcases (send_ok hsend).2.2 with hstate | ⟨player, hnone, hstate⟩
    · rw [hstate]
      exact hr
    · rw [hstate, Table.get_put_of_ne (by rintro rfl; rw [hnone] at hr; cases hr), hr]
  | lock helig => exact hk
  | @collect id cutoff remaining picked hlocked hpick =>
    obtain ⟨hstate, -, -⟩ := sweepDelete_spec s.tables id cutoff remaining picked
    by_cases hmem : k ∈ picked.map (fun p => (p, id))
    · exact .inl (mem_append_left _ hmem)
    · refine hk.imp (mem_append_right _) ?_
      rintro ⟨r, hr, hdel⟩
      exact ⟨r, by dsimp only; rw [hstate, Table.get_delAll, if_neg hmem]; exact hr, hdel⟩

end Effects

/-! ## Runs -/

section Runs

variable {decodes : Bytes → Bool} {s : World} {evs : List Event}

theorem run_ok (h : Ok s) (hadm : Admits (step decodes) ClaimsCurrent s evs) :
    Ok (run (step decodes) s evs) :=
  run_invariant_of_admits
    (fun _ _ hs hc => hs.effect (step_effect hc fun h : False => h.elim)) h hadm

theorem run_gone (h : Ok s) (hg : Gone s) (hadm : Admits (step decodes) ClaimsCurrent s evs)
    (hread : Admits (step decodes) ReadsCurrent s evs) : Gone (run (step decodes) s evs) := by
  have hboth : Ok (run (step decodes) s evs) ∧ Gone (run (step decodes) s evs) :=
    run_invariant_of_admits (I := fun s => Ok s ∧ Gone s)
      (fun s e hs hc =>
        have he : Effect True s (step decodes s e) := step_effect hc.1 fun _ => hc.2
        ⟨hs.1.effect he, he.gone hs.1 hs.2⟩)
      ⟨h, hg⟩ (hadm.and hread)
  exact hboth.2

theorem run_removed (h : Ok s) (hadm : Admits (step decodes) ClaimsCurrent s evs) {k : Pair}
    (hk : Removed s k) {i : OpId}
    (hi : opOf (run (step decodes) s evs).tables.ops i = some (k, st)) :
    ∃ st', opOf s.tables.ops i = some (k, st') := by
  induction evs generalizing s with
  | nil => exact ⟨st, hi⟩
  | cons e evs ih =>
    have he : Effect False s (step decodes s e) := step_effect hadm.1 fun h => h.elim
    obtain ⟨st', hi'⟩ := ih (h.effect he) hadm.2 (he.removed hk) hi
    rcases he.op h i with hsame | ⟨-, k', hnot, hnew⟩ | ⟨k', st₁, hold, hnew⟩
    · exact ⟨st', hsame ▸ hi'⟩
    · cases hnew.symm.trans hi'
      exact absurd hk hnot
    · cases hnew.symm.trans hi'
      exact ⟨_, hold⟩

theorem run_final (h : Ok s) (hadm : Admits (step decodes) ClaimsCurrent s evs) {k : Pair}
    {i : OpId} (hi : opOf s.tables.ops i = some (k, st)) (hst : st ≠ .pending) :
    opOf (run (step decodes) s evs).tables.ops i = some (k, st) := by
  induction evs generalizing s with
  | nil => exact hi
  | cons e evs ih =>
    have he : Effect False s (step decodes s e) := step_effect hadm.1 fun h => h.elim
    refine ih (h.effect he) hadm.2 ?_
    rcases he.op h i with hsame | ⟨hnone, -⟩ | ⟨k', st', hold, -⟩
    · exact hsame.trans hi
    · cases hnone.symm.trans hi
    · cases hold.symm.trans hi
      exact absurd rfl hst

end Runs

/-- What is promised for a player and a mail. -/
structure AtMostOnce (s : World) (k : Pair) : Prop where
  one_pending : ∀ {i j}, opOf s.tables.ops i = some (k, .pending) →
    opOf s.tables.ops j = some (k, .pending) → i = j
  one_granted : ∀ {i j st st'}, opOf s.tables.ops i = some (k, st) →
    opOf s.tables.ops j = some (k, st') → st.Granted → st'.Granted → i = j
  pending : ∀ {r}, s.tables.state.get k = some r → r.claimState = .pending →
    opOf s.tables.ops r.currentOpId = some (k, .pending)
  claimed : ∀ {r}, s.tables.state.get k = some r → r.claimState = .claimed →
    ∃! i, opOf s.tables.ops i = some (k, .applied)
  manual : ∀ {r}, s.tables.state.get k = some r → r.claimState = .manual →
    ∃! i, opOf s.tables.ops i = some (k, .manual)

/-- An unclaimed row means that every operation of the pair was rejected. -/
def UnclaimedRejected (s : World) : Prop :=
  ∀ k r, s.tables.state.get k = some r → r.claimState = .unclaimed →
    ∀ i st, opOf s.tables.ops i = some (k, st) → st = .rejected

theorem Ok.atMostOnce (h : Ok s) (k : Pair) : AtMostOnce s k := by
  have hrow : ∀ {r}, s.tables.state.get k = some r →
      rowOf s.tables.state k = some (r.claimState, r.currentOpId) := by
    intro r hr
    rw [rowOf, hr]
    rfl
  constructor
  case one_pending =>
    intro i j hi hj
    have hki := h.core.pending_row hi
    rw [h.core.pending_row hj] at hki
    cases hki
    rfl
  case one_granted => exact fun hi hj hg hg' => h.core.granted_unique hi hj hg hg'
  case pending =>
    intro r hr hstate
    exact h.core.row_pending (by rw [hrow hr, hstate])
  case claimed =>
    intro r hr hstate
    obtain ⟨i, hi⟩ := h.core.row_granted (hstate ▸ hrow hr) .applied (.inl rfl)
    exact ⟨i, hi, fun j hj => h.core.granted_unique hj hi (.inl rfl) (.inl rfl)⟩
  case manual =>
    intro r hr hstate
    obtain ⟨i, hi⟩ := h.core.row_granted (hstate ▸ hrow hr) .manual (.inr rfl)
    exact ⟨i, hi, fun j hj => h.core.granted_unique hj hi (.inr rfl) (.inr rfl)⟩

theorem Ok.unclaimedRejected (h : Ok s) (hg : Gone s) : UnclaimedRejected s := by
  intro k r hr hstate i st hi
  have hrow : rowOf s.tables.state k = some (.unclaimed, r.currentOpId) := by
    rw [rowOf, hr]
    simp only [map_some, hstate]
  have hkept : ¬ st.Granted := by
    intro hgranted
    have hs : k ∉ s.swept := by
      intro hs
      rw [hg k hs] at hr
      cases hr
    obtain ⟨c, cur, hc, hcase⟩ := h.core.kept hi hgranted hs
    rw [hrow] at hc
    cases hc
    rcases hcase with hcase | hcase <;> cases hcase
  cases st with
  | pending =>
    rw [h.core.pending_row hi] at hrow
    cases hrow
  | applied => exact absurd (.inl rfl) hkept
  | rejected => rfl
  | manual => exact absurd (.inr rfl) hkept
  | abandoned => exact absurd hi h.core.not_abandoned

/-- In every run in which claims read current clocks, a pair of player and mail has at most one
pending operation and at most one that has granted, and pending, claimed and manual rows say so;
if `Read` and `Delete` read current clocks too, an unclaimed row says that every operation was
rejected. Operations that are final stay so, and a pair whose state was removed gets no
operation any more. -/
theorem attachments_granted_once (decodes : Bytes → Bool) (evs evs' : List Event)
    (h : Admits (step decodes) ClaimsCurrent World.init (evs ++ evs')) :
    (∀ k, AtMostOnce (run (step decodes) World.init evs) k) ∧
    (Admits (step decodes) ReadsCurrent World.init evs →
      UnclaimedRejected (run (step decodes) World.init evs)) ∧
    (∀ i k st, opOf (run (step decodes) World.init evs).tables.ops i = some (k, st) →
      st ≠ .pending →
      opOf (run (step decodes) World.init (evs ++ evs')).tables.ops i = some (k, st)) ∧
    (∀ k, Removed (run (step decodes) World.init evs) k → ∀ i st,
      opOf (run (step decodes) World.init (evs ++ evs')).tables.ops i = some (k, st) →
      ∃ st', opOf (run (step decodes) World.init evs).tables.ops i = some (k, st')) := by
  obtain ⟨hpre, hpost⟩ := admits_append.1 h
  have hok := run_ok ok_init hpre
  refine ⟨hok.atMostOnce, ?_, ?_, ?_⟩
  · intro hread
    exact hok.unclaimedRejected
      (run_gone ok_init (fun k hk => absurd hk not_mem_nil) hpre hread)
  · intro i k st hi hst
    rw [run_append]
    exact run_final hok hpost hi hst
  · intro k hk i st hi
    rw [run_append] at hi
    exact run_removed hok hpost hk hi

def giftMail : Message := ⟨1, 1, 0, [10, 0], 10⟩

/-- The mail is claimed at time 2 and the grant arrives. -/
def claimedGift : List Event :=
  [.send 5 giftMail 1, .claim 1 5 7 2 true (some (1, 1)),
   .finalize ⟨7, 1, 0⟩ .applied ⟨1, 0, true, true, false, false⟩ 3]

/-- A sweep at cutoff 20 deletes the row, its budget used up before the message. -/
def sweptGift : List Event := [.sweepLock 5 20, .sweepDelete 5 20 1 [1]]

theorem attachments_granted_once_sample :
    (opOf (run (step fun _ => true) World.init (claimedGift ++ sweptGift ++
      [.claim 1 5 8 25 true (some (2, 1))])).tables.ops 7 = some ((1, 5), .applied)) ∧
    ∀ i st, opOf (run (step fun _ => true) World.init (claimedGift ++ sweptGift ++
      [.claim 1 5 8 25 true (some (2, 1))])).tables.ops i = some ((1, 5), st) →
      ∃ st', opOf (run (step fun _ => true) World.init
        (claimedGift ++ sweptGift)).tables.ops i = some ((1, 5), st') := by
  have hadm : Admits (step fun _ => true) ClaimsCurrent World.init
      (claimedGift ++ sweptGift ++ [.claim 1 5 8 25 true (some (2, 1))]) :=
    ⟨trivial, by change _ ≤ _; decide, trivial, trivial, trivial, by change _ ≤ _; decide,
      trivial⟩
  obtain ⟨-, -, hfinal, hremoved⟩ := attachments_granted_once (fun _ => true)
    (claimedGift ++ sweptGift) [.claim 1 5 8 25 true (some (2, 1))] hadm
  exact ⟨hfinal 7 (1, 5) .applied (by decide) (by decide), hremoved (1, 5) (.inl (by decide))⟩

/-- A `Read` that took its clock before the mail expired creates the row again when the sweep is
over: the mail is unclaimed although its operation was applied. -/
theorem stale_read_unclaims :
    ¬ ∀ (decodes : Bytes → Bool) (evs : List Event),
      Admits (step decodes) ClaimsCurrent World.init evs →
        UnclaimedRejected (run (step decodes) World.init evs) := by
  intro h
  have hadm : Admits (step fun _ => true) ClaimsCurrent World.init
      (claimedGift ++ sweptGift ++ [.read 1 5 4 true]) :=
    ⟨trivial, by change _ ≤ _; decide, trivial, trivial, trivial, trivial, trivial⟩
  have hrej := h _ _ hadm
  exact absurd (hrej (1, 5) ⟨4, 0, .unclaimed, 0, 0, 0, 4⟩ (by decide) rfl 7 .applied (by decide))
    (by decide)

end Mmorpg.Mail
