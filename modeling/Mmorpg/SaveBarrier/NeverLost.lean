import Mmorpg.SaveBarrier.Pipeline

/-!
# The pipeline loses no accepted save

The invariant in three parts: accepted saves in order of their versions (`History`), the
barrier that belongs to the last of them (`BarrierOk`), and SQL rows, tasks and workers that
come from accepted saves (`SqlOk`).

**Nothing is lost** (`accepted_save_kept`): as long as a table has not acknowledged the pending
version, the outbox holds the tasks of that save and an index lists the player; afterwards both
SQL rows are at the pending version and hold what an accepted save of it carried.
-/

namespace Mmorpg.SaveBarrier

open Decimal Kafka List Option Machine

/-! ## Versions of calls and rows -/

theorem uint64_of_isOwner {n : Nat} (h : isOwner (Nat.toDigits 10 n) = true) :
    1 ≤ n ∧ n < 2 ^ 64 := by
  simp only [isOwner, Bool.and_eq_true, Bool.not_eq_true', Bool.or_eq_false_iff,
    decide_eq_false_iff_not, Bool.or_eq_true, decide_eq_true_eq] at h
  obtain ⟨⟨⟨⟨-, hlen⟩, hlead⟩, -⟩, hmax⟩ := h
  refine ⟨Nat.one_le_iff_ne_zero.2 fun h0 => hlead (h0 ▸ rfl), ?_⟩
  by_cases hshort : (Nat.toDigits 10 n).length < 20
  · have hpow : 10 ^ (Nat.toDigits 10 n).length ≤ 10 ^ 19 :=
      Nat.pow_le_pow_right (by omega) (by omega)
    exact (lt_ten_pow_length n).trans_le (hpow.trans (by omega))
  · have hl : (Nat.toDigits 10 n).length = maxUint64.length := by
      rw [length_maxUint64]
      omega
    replace hmax := hmax.resolve_left (by omega)
    rw [Bool.eq_false_iff, ne_eq, versionGt_digits (digits_toDigits n) digits_maxUint64 hl,
      value_maxUint64, value_toDigits] at hmax
    omega

namespace SaveCall

variable {β P : Type}

def order (c : SaveCall β P) : Nat ×ₗ Nat := toLex (c.ownerEpoch, c.saveSeq)

structure Strict (c : SaveCall β P) : Prop where
  epoch_pos : 1 ≤ c.ownerEpoch
  epoch_lt : c.ownerEpoch < 2 ^ 64
  seq_pos : 1 ≤ c.saveSeq
  seq_lt : c.saveSeq < 2 ^ 64

namespace Strict

variable {c d : SaveCall β P}

variable (h : c.Strict)

include h

theorem isVersion : isVersion c.version = true :=
  isVersion_version h.epoch_lt h.seq_lt

theorem order_version : SaveBarrier.order c.version = c.order :=
  SaveBarrier.order_version h.epoch_lt

theorem version_eq_iff (h' : d.Strict) : c.version = d.version ↔ c.order = d.order := by
  rw [← h.order_version, ← h'.order_version]
  exact ⟨congrArg _, order_injective h.isVersion h'.isVersion⟩

theorem versionGt_iff (h' : d.Strict) :
    versionGt c.version d.version = true ↔ d.order < c.order := by
  rw [SaveBarrier.versionGt_iff h.isVersion h'.isVersion, h.order_version, h'.order_version]

end Strict

/-- The checks of the script on the version. -/
theorem strict_of_refusal {codec : Codec β P} {player : Nat} {c : SaveCall β P}
    (h : (c.args codec player).refusal codec.size (Nat.toDigits 10 player) = none) : c.Strict := by
  unfold SaveArgs.refusal at h
  split at h
  · cases h
  rename_i hver
  simp only [args, Bool.or_eq_true, Bool.not_eq_true', not_or, Bool.not_eq_false] at hver
  obtain ⟨⟨⟨howner, hversion⟩, -⟩, hseq⟩ := hver
  have hepoch := uint64_of_isOwner howner
  obtain ⟨e, q, he, hq, heq⟩ := exists_of_isVersion hversion
  have horder : SaveBarrier.order c.version = toLex (e, q) :=
    (congrArg _ heq).trans (SaveBarrier.order_version he)
  have hpair : (c.ownerEpoch, c.saveSeq) = (e, q) :=
    toLex.injective ((SaveBarrier.order_version hepoch.2).symm.trans horder)
  have hseq' : c.saveSeq = q := congrArg Prod.snd hpair
  refine ⟨hepoch.1, hepoch.2, Nat.one_le_iff_ne_zero.2 fun h0 => ?_, hseq' ▸ hq⟩
  have hdrop : c.version.drop 21 = padded 20 c.saveSeq := drop_version hepoch.2
  rw [h0] at hdrop
  exact hseq (decide_eq_true hdrop)

end SaveCall

variable {t : Table}

section Rows

variable {β P : Type} {player : Nat}

theorem SaveCall.task_msgType (player : Nat) (c : SaveCall β P) (t : Table) :
    (c.task player t).msgType = t := by
  cases t <;> rfl

theorem SaveCall.task_fence (player : Nat) (c : SaveCall β P) (t : Table) :
    (c.task player t).ownerEpoch = c.ownerEpoch ∧ (c.task player t).saveSeq = c.saveSeq := by
  cases t <;> exact ⟨rfl, rfl⟩

variable {c : SaveCall β P} {r : PlayerRow β}

/-- The row that the task of a strict save wants to write. -/
theorem SaveCall.target_fence (h : (c.task player t).rowWrite.target true = .ok r) :
    r.fenceOwnerEpoch = c.ownerEpoch ∧ r.fenceSaveSeq = c.saveSeq := by
  unfold RowWrite.target at h
  split at h
  · cases h
  split at h
  · cases h
  · cases h
    exact c.task_fence player t

theorem SaveCall.target_version (h : (c.task player t).rowWrite.target true = .ok r) :
    r.version = c.order := by
  obtain ⟨he, hq⟩ := SaveCall.target_fence h
  exact congrArg toLex (Prod.ext he hq)

end Rows

/-! ## The history of accepted saves -/

/-- The outbox fields that hold the intent. -/
def Intent.fields {P : Type} (i : Intent P) : Option Text × Option Text × Option P × Option P :=
  (some i.version, some i.topic, some i.first, some i.second)

section History

variable {β P : Type} (codec : Codec β P) (player : Nat) (origin : Origin β P)

/-- What an earlier and a later accepted save have to do with each other: versions do not fall,
a version has one parent, and its tasks only change after both tables have it. -/
def Accepted.Before (a b : Accepted β P) : Prop :=
  a.call.order ≤ b.call.order ∧
    (a.call.order = b.call.order → a.call.parent = b.call.parent ∧
      (b.settled = true ∨ a.call.intent codec player = b.call.intent codec player))

/-- Accepted saves are strict, newer than what the player started with, and in order. -/
structure History (acc : List (Accepted β P)) : Prop where
  strict : ∀ a ∈ acc, a.call.Strict ∧ origin.owner ≤ a.call.ownerEpoch
  ordered : acc.Pairwise (Accepted.Before codec player)

variable {codec player origin} {acc : List (Accepted β P)} {l : Accepted β P} {b : Accepted β P}

theorem exists_last (hb : b ∈ acc) : ∃ l, acc.getLast? = some l :=
  isSome_iff_exists.1 (List.getLast?_isSome.2 (ne_nil_of_mem hb))

section

variable (h : History codec player origin acc)

include h

theorem History.before_last (hb : b ∈ acc) (hl : acc.getLast? = some l) :
    b = l ∨ b.Before codec player l := by
  obtain ⟨init, rfl⟩ := List.getLast?_eq_some_iff.1 hl
  rcases mem_append.1 hb with hb | hb
  · exact .inr ((pairwise_append.1 h.ordered).2.2 b hb l mem_cons_self)
  · exact .inl (mem_singleton.1 hb)

theorem History.le_last (hb : b ∈ acc) (hl : acc.getLast? = some l) :
    b.call.order ≤ l.call.order := by
  rcases h.before_last hb hl with rfl | hbefore
  · exact le_rfl
  · exact hbefore.1

theorem History.strict_last (hl : acc.getLast? = some l) : l.call.Strict :=
  (h.strict l (mem_of_getLast? hl)).1

end

variable (codec player origin)

/-- The barrier belongs to the last accepted save. -/
structure BarrierOk (r : Redis P) (acc : List (Accepted β P)) : Prop where
  owner : ∃ n, origin.owner ≤ n ∧ r.owner = some (Nat.toDigits 10 n)
  pending : r.barrier.pending = acc.getLast?.map (·.call.version)
  parent : ∀ l, acc.getLast? = some l → r.parent = some l.call.parent
  outbox : r.barrier.outbox = (none, none, none, none) ∨
    ∃ l, acc.getLast? = some l ∧ r.barrier.outbox = (l.call.intent codec player).fields
  unsettled : ∀ l, acc.getLast? = some l → (∃ t, r.barrier.ack t ≠ some l.call.version) →
    r.barrier.outbox = (l.call.intent codec player).fields ∧ r.Listed
  settled : ∀ l, acc.getLast? = some l → l.settled = true →
    ∀ t, r.barrier.ack t = some l.call.version
  acks : ∀ t v, r.barrier.ack t = some v → ∃ a ∈ acc, v = a.call.version

variable {codec player origin}

theorem BarrierOk.keep {r r' : Redis P}
    (h : BarrierOk codec player origin r acc) (hk : r.Keeps r') :
    BarrierOk codec player origin r' acc where
  owner := hk.owner ▸ h.owner
  pending := hk.pending.trans h.pending
  parent l hl := hk.parent.trans (h.parent l hl)
  outbox := hk.outbox ▸ h.outbox
  unsettled l hl hopen := by
    obtain ⟨ho, hlisted⟩ := h.unsettled l hl (hk.ack ▸ hopen)
    exact ⟨hk.outbox.trans ho, hk.listed hlisted⟩
  settled l hl hs := hk.ack ▸ h.settled l hl hs
  acks := hk.ack ▸ h.acks

/-- No ACK is ahead of the last accepted save. -/
theorem BarrierOk.ack_le {r : Redis P} (h : BarrierOk codec player origin r acc)
    (hh : History codec player origin acc) {v : Text} (hv : r.barrier.ack t = some v) :
    ∃ l, acc.getLast? = some l ∧ isVersion v = true ∧ order v ≤ l.call.order := by
  obtain ⟨a, ha, rfl⟩ := h.acks t v hv
  obtain ⟨l, hl⟩ := exists_last ha
  have hstrict := (hh.strict a ha).1
  exact ⟨l, hl, hstrict.isVersion, hstrict.order_version ▸ hh.le_last ha hl⟩

/-! ### A save -/

section Save

variable [DecidableEq P] {r : Redis P} {acc : List (Accepted β P)} {c : SaveCall β P}
  (h : BarrierOk codec player origin r acc) (hh : History codec player origin acc)
  (hg : SaveGuards codec.size (Nat.toDigits 10 player) r (c.args codec player))

include h hh hg

variable {settled : Bool}

theorem BarrierOk.last_le (hl : acc.getLast? = some l) :
    l.call.order ≤ c.order := by
  have hpending : r.barrier.pending = some l.call.version := by rw [h.pending, hl]; rfl
  obtain ⟨-, hnot⟩ := hg.notBehind _ hpending
  have hc := SaveCall.strict_of_refusal hg.args
  exact not_lt.1 fun hlt => Bool.eq_false_iff.1 hnot (((hh.strict_last hl).versionGt_iff hc).2 hlt)

/-- A save of the pending version carries what is stored: the parent, and the tasks as long as
the outbox has them. -/
theorem BarrierOk.same_content (hl : acc.getLast? = some l)
    (heq : l.call.order = c.order) : l.call.parent = c.parent ∧
      (r.barrier.outbox = (l.call.intent codec player).fields →
        l.call.intent codec player = c.intent codec player) := by
  have hc := SaveCall.strict_of_refusal hg.args
  have hversion : l.call.version = c.version := ((hh.strict_last hl).version_eq_iff hc).2 heq
  have hpending : r.barrier.pending = some c.version := by rw [h.pending, hl, ← hversion]; rfl
  have hno := hg.noConflict
  simp only [sameVersionConflict, SaveCall.args, hpending, decide_true, Bool.true_and,
    Bool.or_eq_false_iff, h.parent l hl, decide_eq_false_iff_not, not_not, ne_eq,
    some.injEq] at hno
  refine ⟨hno.1, fun hout => ?_⟩
  obtain ⟨hv, ht, hf, hs⟩ := by simpa only [Barrier.outbox, Intent.fields, Prod.mk.injEq] using hout
  simp only [hv, ht, hf, hs, isSome_some, Bool.true_and, Bool.or_eq_false_iff,
    decide_eq_false_iff_not, not_not, some.injEq] at hno
  obtain ⟨-, ⟨htopic, hfirst⟩, hsecond⟩ := hno
  exact Intent.mk.injEq _ _ _ _ _ _ _ _ ▸ ⟨hversion, htopic, hfirst, hsecond⟩

theorem History.saved (hsettled : settled = false → ∃ t, r.barrier.ack t ≠ some c.version) :
    History codec player origin (acc ++ [⟨c, settled⟩]) where
  strict := by
    refine forall_mem_append.2 ⟨hh.strict, forall_mem_singleton.2 ?_⟩
    refine ⟨SaveCall.strict_of_refusal hg.args, ?_⟩
    obtain ⟨n, hn, howner⟩ := h.owner
    have : Nat.toDigits 10 c.ownerEpoch = Nat.toDigits 10 n :=
      some.inj (hg.owner.symm.trans howner)
    exact toDigits_injective this ▸ hn
  ordered := by
    refine pairwise_append.2 ⟨hh.ordered, pairwise_singleton _ _, ?_⟩
    intro b hb a ha
    obtain rfl := mem_singleton.1 ha
    obtain ⟨l, hl⟩ := exists_last hb
    have hbl := hh.le_last hb hl
    have hlc := h.last_le hh hg hl
    refine ⟨hbl.trans hlc, fun heq => ?_⟩
    -- all versions from `b` to the new one are the same
    have hlc' : l.call.order = c.order := le_antisymm hlc (heq ▸ hbl)
    have hbl' : b.call.order = l.call.order := heq.trans hlc'.symm
    obtain ⟨hparent, htasks⟩ := h.same_content hh hg hl hlc'
    have hver : l.call.version = c.version :=
      ((hh.strict_last hl).version_eq_iff (SaveCall.strict_of_refusal hg.args)).2 hlc'
    cases settled with
    | true =>
      refine ⟨?_, .inl rfl⟩
      rcases hh.before_last hb hl with rfl | hbefore
      · exact hparent
      · exact (hbefore.2 hbl').1.trans hparent
    | false =>
      obtain ⟨t, ht⟩ := hsettled rfl
      have hsame := htasks (h.unsettled l hl ⟨t, hver ▸ ht⟩).1
      rcases hh.before_last hb hl with rfl | hbefore
      · exact ⟨hparent, .inr hsame⟩
      · refine ⟨(hbefore.2 hbl').1.trans hparent, .inr ?_⟩
        rcases (hbefore.2 hbl').2 with hls | hbi
        · exact absurd (hver ▸ h.settled l hl hls t) ht
        · exact hbi.trans hsame

omit [DecidableEq P] hh hg in
theorem BarrierOk.saved (hsettled : settled = true → ∀ t, r.barrier.ack t = some c.version) :
    BarrierOk codec player origin (r.saved (c.args codec player)) (acc ++ [⟨c, settled⟩]) where
  owner := h.owner
  pending := by simp [Redis.saved, Redis.zadd, SaveCall.args]
  parent l hl := by
    obtain rfl : _ = l := by simpa using hl
    rfl
  outbox := .inr ⟨⟨c, settled⟩, by simp, rfl⟩
  unsettled l hl _ := by
    obtain rfl : _ = l := by simpa using hl
    exact ⟨rfl, Redis.listed_zadd _ _ _⟩
  settled l hl hs := by
    obtain rfl : _ = l := by simpa using hl
    exact hsettled hs
  acks t v hv := by
    obtain ⟨a, ha, hva⟩ := h.acks t v hv
    exact ⟨a, mem_append_left _ ha, hva⟩

end Save

/-! ### ACKs and the end of an outbox -/

section Ack

variable {r : Redis P} {acc : List (Accepted β P)} (h : BarrierOk codec player origin r acc)

include h

/-- An ACK that is raised stays below the last accepted save. -/
theorem BarrierOk.acknowledge (hh : History codec player origin acc) {args : PublishArgs P}
    {a : Accepted β P} (ha : a ∈ acc) (hversion : args.version = a.call.version)
    (hgreater : ∀ old, r.barrier.ack t = some old → versionGt args.version old = true)
    (storeEvidence : Bool) :
    BarrierOk codec player origin (r.published t args storeEvidence true) acc := by
  have hack : ∀ t', (r.published t args storeEvidence true).barrier.ack t' =
      if t' = t then some a.call.version else r.barrier.ack t' := fun t' => by
    rw [← hversion]
    rfl
  -- the ACK was not at the last version yet
  have hold : ∀ l, acc.getLast? = some l → r.barrier.ack t ≠ some l.call.version := by
    intro l hl heq
    have hgt := hgreater _ heq
    rw [hversion, (hh.strict a ha).1.versionGt_iff (hh.strict_last hl)] at hgt
    exact absurd hgt (not_lt.2 (hh.le_last ha hl))
  refine { h with unsettled := ?_, settled := ?_, acks := ?_ }
  · intro l hl _
    exact h.unsettled l hl ⟨t, hold l hl⟩
  · intro l hl hs
    exact absurd (h.settled l hl hs t) (hold l hl)
  · intro t' v hv
    rw [hack] at hv
    split at hv
    · exact ⟨a, ha, (some.inj hv).symm⟩
    · exact h.acks t' v hv

/-- The outbox is only cleared away when both tables have the pending version. -/
theorem BarrierOk.clear (hcomplete : r.barrier.complete = true) (q : IndexKey) :
    BarrierOk codec player origin ({ r with barrier := r.barrier.cleared }.zrem q) acc where
  __ := h
  outbox := .inl rfl
  unsettled l hl hopen := by
    obtain ⟨t, ht⟩ := hopen
    simp only [Barrier.complete, Bool.and_eq_true, decide_eq_true_eq, h.pending, hl] at hcomplete
    refine absurd ?_ ht
    cases t with
    | playerDatabase => exact hcomplete.1.2
    | playerDatabase1 => exact hcomplete.2

/-- What a claim hands out is the intent of the last accepted save. -/
theorem BarrierOk.handed {size : P → Nat} {i : Intent P} (hfull : r.barrier.full size = some i) :
    ∃ a ∈ acc, i = a.call.intent codec player := by
  have hfields : r.barrier.outbox = i.fields := by
    unfold Barrier.full at hfull
    split at hfull
    next v topic first second hv ht hf hs =>
      split at hfull
      · cases hfull
        simp only [Barrier.outbox, Intent.fields, hv, ht, hf, hs]
      · cases hfull
    · cases hfull
  rcases h.outbox with hnone | ⟨l, hl, hout⟩
  · rw [hnone] at hfields
    cases hfields
  refine ⟨l, mem_of_getLast? hl, ?_⟩
  have heq := hfields.symm.trans hout
  simp only [Intent.fields, Prod.mk.injEq, some.injEq] at heq
  obtain ⟨hv, ht, hf, hs⟩ := heq
  exact Intent.mk.injEq _ _ _ _ _ _ _ _ ▸ ⟨hv, ht, hf, hs⟩

end Ack

end History

/-! ## SQL rows, tasks and workers -/

section Sql

variable {β P : Type} (codec : Codec β P) (player : Nat) (origin : Origin β P)

/-- Where a worker's task and its row come from, and what a worker that is through has done. -/
structure Worker.Ok (acc : List (Accepted β P)) (rows : Table → Option (PlayerRow β))
    (w : Worker β) : Prop where
  task : ∃ a ∈ acc, w.task = a.call.task player w.task.msgType
  target : w.task.rowWrite.target true = .ok w.target
  done : ∀ o m, w.pc = .done o m → o.publishes = true →
    ∃ r, rows w.task.msgType = some r ∧ w.target.version ≤ r.version

/-- Rows, messages, intents and workers come from accepted saves. -/
structure SqlOk (s : Pipeline β P) : Prop where
  rows : ∀ t r, s.rows t = some r → origin.rows t = some r ∨
    ∃ a ∈ s.accepted, (a.call.task player t).rowWrite.target true = .ok r
  acked : ∀ t v, s.redis.barrier.ack t = some v → ∃ r, s.rows t = some r ∧ order v ≤ r.version
  kafka : ∀ p ∈ s.kafka, ∃ a ∈ s.accepted, ∃ t, p = codec.encode (a.call.task player t)
  claimed : ∀ i ∈ s.claimed, ∃ a ∈ s.accepted, i = a.call.intent codec player
  workers : ∀ w ∈ s.workers, w.Ok player s.accepted s.rows

def RowsLe (rows rows' : Table → Option (PlayerRow β)) : Prop :=
  ∀ t r, rows t = some r → ∃ r', rows' t = some r' ∧ r.version ≤ r'.version

variable {codec player origin}

theorem RowsLe.refl (rows : Table → Option (PlayerRow β)) : RowsLe rows rows :=
  fun _ r hr => ⟨r, hr, le_rfl⟩

theorem Worker.Ok.mono {acc acc' : List (Accepted β P)} {rows rows' : Table → Option (PlayerRow β)}
    {w : Worker β} (h : w.Ok player acc rows) (hacc : ∀ a ∈ acc, a ∈ acc')
    (hrows : RowsLe rows rows') : w.Ok player acc' rows' where
  task := by
    obtain ⟨a, ha, htask⟩ := h.task
    exact ⟨a, hacc a ha, htask⟩
  target := h.target
  done o m hpc hp := by
    obtain ⟨r, hr, hle⟩ := h.done o m hpc hp
    obtain ⟨r', hr', hle'⟩ := hrows _ r hr
    exact ⟨r', hr', hle.trans hle'⟩

theorem Worker.Ok.version {acc : List (Accepted β P)} {rows : Table → Option (PlayerRow β)}
    {w : Worker β} (h : w.Ok player acc rows) :
    ∃ a ∈ acc, w.task = a.call.task player w.task.msgType ∧ w.target.version = a.call.order := by
  obtain ⟨a, ha, htask⟩ := h.task
  exact ⟨a, ha, htask, SaveCall.target_version (htask ▸ h.target)⟩

end Sql

/-! ## Steps and runs -/

namespace Pipeline

variable {β P : Type} (codec : Codec β P) (player : Nat) (origin : Origin β P)

structure Sound (s : Pipeline β P) : Prop where
  history : History codec player origin s.accepted
  barrier : BarrierOk codec player origin s.redis s.accepted
  sql : SqlOk codec player origin s

variable {codec player origin}

theorem Sound.start : (start origin).Sound codec player origin where
  history := ⟨by simp [Pipeline.start], .nil⟩
  barrier := ⟨⟨origin.owner, le_rfl, rfl⟩, rfl, by simp [Pipeline.start], .inl rfl,
    by simp [Pipeline.start], by simp [Pipeline.start],
    by simp [Pipeline.start, Barrier.empty]⟩
  sql := ⟨fun t r hr => .inl hr, by simp [Pipeline.start, Barrier.empty], by simp [Pipeline.start],
    by simp [Pipeline.start], by simp [Pipeline.start]⟩

namespace Sound

variable {s : Pipeline β P} (h : s.Sound codec player origin)

include h

/-- Scripts that keep what the invariant is about. -/
theorem keep {r : Redis P} (hk : s.redis.Keeps r) :
    Sound codec player origin { s with redis := r } where
  history := h.history
  barrier := h.barrier.keep hk
  sql := { h.sql with acked := by simpa only [hk.ack] using h.sql.acked }

theorem mint : Sound codec player origin { s with redis := { s.redis with
    owner := some (Nat.toDigits 10 ((s.redis.owner.map value).getD 0 + 1)) } } where
  history := h.history
  barrier := by
    obtain ⟨n, hn, howner⟩ := h.barrier.owner
    exact { h.barrier with owner := ⟨n + 1, Nat.le_succ_of_le hn, by simp [howner]⟩ }
  sql := { h.sql with }

variable (i : Nat)

theorem take : (s.take codec i).Sound codec player origin := by
  unfold Pipeline.take
  split
  · exact h
  rename_i task hdecode
  split
  · exact h
  rename_i target htarget
  refine { h with sql := { h.sql with
    workers := forall_mem_append.2 ⟨h.sql.workers, forall_mem_singleton.2 ?_⟩ } }
  obtain ⟨p, hp, hdecode⟩ := bind_eq_some_iff.1 hdecode
  obtain ⟨a, ha, t, rfl⟩ := h.sql.kafka p (mem_of_getElem? hp)
  rw [codec.decode_encode] at hdecode
  cases hdecode
  refine ⟨⟨a, ha, by rw [a.call.task_msgType player]⟩, htarget, ?_⟩
  intro o m hpc
  cases hpc

theorem set_worker {rows : Table → Option (PlayerRow β)}
    (hsource : ∀ t r, rows t = some r → origin.rows t = some r ∨
      ∃ a ∈ s.accepted, (a.call.task player t).rowWrite.target true = .ok r)
    (hrows : RowsLe s.rows rows) (i : Nat) {w : Worker β} (hw : w.Ok player s.accepted rows) :
    Sound codec player origin { s with rows, workers := s.workers.set i w } where
  __ := h
  sql := by
    refine { h.sql with rows := hsource, acked := ?_, workers := ?_ }
    · intro t v hv
      obtain ⟨r, hr, hle⟩ := h.sql.acked t v hv
      obtain ⟨r', hr', hle'⟩ := hrows t r hr
      exact ⟨r', hr', hle.trans hle'⟩
    · intro w' hw'
      rcases mem_or_eq_of_mem_set hw' with hw' | rfl
      · exact (h.sql.workers w' hw').mono (fun _ ha => ha) hrows
      · exact hw

theorem abort : (s.abort i).Sound codec player origin := by
  unfold Pipeline.abort
  split
  · exact h
  next w hw =>
    have hok := h.sql.workers w (mem_of_getElem? hw)
    refine h.set_worker h.sql.rows (.refl _) i ⟨hok.task, hok.target, ?_⟩
    intro o m hpc
    cases hpc

theorem sqlStep : (s.sql i).Sound codec player origin := by
  unfold Pipeline.sql
  split
  · exact h
  rename_i w hw
  have hok := h.sql.workers w (mem_of_getElem? hw)
  obtain ⟨a, ha, htask, hversion⟩ := hok.version
  have htarget : (a.call.task player w.task.msgType).rowWrite.target true = .ok w.target :=
    htask ▸ hok.target
  have hstrict : w.target.Strict := by
    obtain ⟨he, hq⟩ := SaveCall.target_fence htarget
    have hcall := (h.history.strict a ha).1
    exact ⟨he ▸ hcall.epoch_pos, hq ▸ hcall.seq_pos⟩
  obtain ⟨hrow, -, hdone⟩ := @sqlStep_raises _ _ (s.rows w.task.msgType) hstrict w.pc
  split
  next row pc hstep =>
    rw [hstep] at hrow hdone
    have hrows : RowsLe s.rows (s.setRow w.task.msgType row) := by
      intro t r hr
      by_cases ht : t = w.task.msgType
      · subst ht
        rcases hrow with hrow | ⟨hrow, hlt⟩
        · exact ⟨r, (if_pos rfl).trans (hrow.trans hr), le_rfl⟩
        · exact ⟨w.target, (if_pos rfl).trans hrow, (hlt r hr).le⟩
      · exact ⟨r, (if_neg ht).trans hr, le_rfl⟩
    refine h.set_worker ?_ hrows i ⟨⟨a, ha, htask⟩, hok.target, ?_⟩
    · intro t r hr
      by_cases ht : t = w.task.msgType
      · subst ht
        rw [setRow, if_pos rfl] at hr
        rcases hrow with hrow | ⟨hrow, -⟩
        · exact h.sql.rows _ r (hrow ▸ hr)
        · obtain rfl := some.inj (hrow.symm.trans hr)
          exact .inr ⟨a, ha, htarget⟩
      · rw [setRow, if_neg ht] at hr
        exact h.sql.rows t r hr
    · intro o m hpc hp
      rcases hdone o m hpc (.inl hp) with ⟨hpc', -⟩ | ⟨r, hr, hle⟩
      · obtain ⟨r, hr, hle⟩ := hok.done o m hpc' hp
        obtain ⟨r', hr', hle'⟩ := hrows _ r hr
        exact ⟨r', hr', hle.trans hle'⟩
      · exact ⟨r, (if_pos rfl).trans hr, hle⟩

theorem replay (second : Bool) {intent : Intent P} (hi : s.claimed[i]? = some intent) :
    Sound codec player origin
      { s with kafka := s.kafka ++ [if second then intent.second else intent.first] } where
  __ := h
  sql := by
    refine { h.sql with
      kafka := forall_mem_append.2 ⟨h.sql.kafka, forall_mem_singleton.2 ?_⟩ }
    obtain ⟨a, ha, rfl⟩ := h.sql.claimed intent (mem_of_getElem? hi)
    cases second with
    | false => exact ⟨a, ha, .playerDatabase, rfl⟩
    | true => exact ⟨a, ha, .playerDatabase1, rfl⟩

theorem claim (q : IndexKey) (schedule : Schedule) (now : Nat) :
    (s.claim codec q schedule now).Sound codec player origin := by
  unfold Pipeline.claim
  generalize hd : claimScript codec.size schedule s.redis q now = d
  have hof : ClaimOf codec.size s.redis q d := hd ▸ claimScript_of
  cases hof with
  | note hk hreply =>
    split
    next i n redis heq => exact absurd (congrArg Prod.fst heq) (hreply i n)
    next reply redis _ heq =>
      obtain ⟨-, rfl⟩ := Prod.mk.inj heq
      exact h.keep hk
  | @hand i n r hk hfull =>
    have hkeep := h.keep hk
    exact { hkeep with sql := { hkeep.sql with
      claimed := forall_mem_append.2
        ⟨h.sql.claimed, forall_mem_singleton.2 (h.barrier.handed hfull)⟩ } }
  | clear hcomplete =>
    exact ⟨h.history, h.barrier.clear hcomplete q, { h.sql with }⟩

variable [DecidableEq P]

theorem publish (i token lockTTL cacheTTL : Nat) :
    (s.publish codec i token lockTTL cacheTTL).Sound codec player origin := by
  unfold Pipeline.publish
  split
  next task target outcome msg hw =>
    split
    next hp =>
      have hok := h.sql.workers _ (mem_of_getElem? hw)
      obtain ⟨a, ha, htask, hversion⟩ := hok.version
      rcases playerCachePublish_cases s.redis task.msgType
        (publishArgs codec task msg token lockTTL cacheTTL) with hk | ⟨-, hgreater, ev, heq⟩
      · exact h.keep hk
      · have hstrict := (h.history.strict a ha).1
        have hargs : (publishArgs codec task msg token lockTTL cacheTTL).version =
            a.call.version := by
          obtain ⟨he, hq⟩ := a.call.task_fence player task.msgType
          have he' : task.ownerEpoch = a.call.ownerEpoch :=
            (congrArg DBTask.ownerEpoch htask).trans he
          have hq' : task.saveSeq = a.call.saveSeq := (congrArg DBTask.saveSeq htask).trans hq
          have he0 : a.call.ownerEpoch ≠ 0 := Nat.one_le_iff_ne_zero.1 hstrict.epoch_pos
          have hq0 : a.call.saveSeq ≠ 0 := Nat.one_le_iff_ne_zero.1 hstrict.seq_pos
          simp [publishArgs, he', hq', he0, hq0, SaveCall.version]
        rw [heq]
        refine ⟨h.history, h.barrier.acknowledge h.history ha hargs hgreater ev,
          { h.sql with acked := fun t v hv => ?_ }⟩
        simp only [Redis.published, if_true] at hv
        split at hv
        next ht =>
          cases hv
          obtain ⟨r, hr, hle⟩ := hok.done outcome msg rfl hp
          refine ⟨r, ht ▸ hr, ?_⟩
          rw [hargs, hstrict.order_version, ← hversion]
          exact hle
        · exact h.sql.acked t v hv
    · exact h
  · exact h

theorem save (c : SaveCall β P) : (s.save codec player c).Sound codec player origin := by
  unfold Pipeline.save
  have hcases := saveWithCommitBarrier_cases codec.size (Nat.toDigits 10 player) s.redis
    (c.args codec player)
  generalize saveWithCommitBarrier codec.size (Nat.toDigits 10 player) s.redis
    (c.args codec player) = d at hcases
  obtain ⟨reply, redis⟩ := d
  rcases hcases with ⟨hno, heq⟩ | ⟨hyes, hg, heq⟩
  · obtain rfl : redis = s.redis := heq
    simp only [show reply.accepted = false from hno, Bool.false_eq_true, if_false]
    exact h
  · obtain rfl : redis = s.redis.saved (c.args codec player) := heq
    simp only [show reply.accepted = true from hyes, if_true]
    generalize hflag : (decide (s.redis.barrier.ack .playerDatabase = some c.version) &&
      decide (s.redis.barrier.ack .playerDatabase1 = some c.version)) = settled
    have hmem : ∀ a ∈ s.accepted, a ∈ s.accepted ++ [⟨c, settled⟩] :=
      fun a ha => mem_append_left _ ha
    have hlast : (⟨c, settled⟩ : Accepted β P) ∈ s.accepted ++ [⟨c, settled⟩] := by simp
    refine ⟨h.history.saved h.barrier hg ?_, h.barrier.saved ?_, ?_⟩
    · rintro rfl
      by_cases hfirst : s.redis.barrier.ack .playerDatabase = some c.version
      · exact ⟨.playerDatabase1, by simpa [hfirst] using hflag⟩
      · exact ⟨.playerDatabase, hfirst⟩
    · rintro rfl t
      simp only [Bool.and_eq_true, decide_eq_true_eq] at hflag
      cases t with
      | playerDatabase => exact hflag.1
      | playerDatabase1 => exact hflag.2
    · refine ⟨?_, h.sql.acked, ?_, ?_, fun w hw => (h.sql.workers w hw).mono hmem (.refl _)⟩
      · intro t r hr
        rcases h.sql.rows t r hr with hr | ⟨a, ha, hr⟩
        · exact .inl hr
        · exact .inr ⟨a, hmem a ha, hr⟩
      · intro p hp
        rcases mem_append.1 hp with hp | hp
        · obtain ⟨a, ha, hp⟩ := h.sql.kafka p hp
          exact ⟨a, hmem a ha, hp⟩
        · rcases mem_pair.1 hp with rfl | rfl
          · exact ⟨_, hlast, .playerDatabase, rfl⟩
          · exact ⟨_, hlast, .playerDatabase1, rfl⟩
      · intro i hi
        obtain ⟨a, ha, hi⟩ := h.sql.claimed i hi
        exact ⟨a, hmem a ha, hi⟩

theorem step (e : PipelineEvent β P) : (s.step codec player e).Sound codec player origin := by
  cases e with
  | mint => exact h.mint
  | save c => exact h.save c
  | take i => exact h.take i
  | sql i => exact h.sqlStep i
  | abort i => exact h.abort i
  | publish i token lockTTL cacheTTL => exact h.publish i token lockTTL cacheTTL
  | advance i token lockTTL cursor =>
    simp only [Pipeline.step, Pipeline.advance]
    split
    · exact h
    · exact h.keep (appliedAdvance_keeps ..)
  | lock t token => exact h.keep ⟨rfl, rfl, rfl, rfl, rfl, id⟩
  | claim q schedule now => exact h.claim q schedule now
  | replay i second =>
    simp only [Pipeline.step]
    split
    · exact h
    next intent hi => exact h.replay i second hi
  | confirm version attempts => exact h.keep (confirmAttempt_keeps ..)
  | migrate others oldq newq version topic => exact h.keep (migrate_keeps ..)
  | terminal version reason => exact h.keep (markTerminal_keeps ..)
  | noteRetry stamp => exact h.keep (noteRetry_keeps ..)

end Sound

section Runs

variable [DecidableEq P]

theorem sound_run (codec : Codec β P) (player : Nat) (origin : Origin β P)
    (evs : List (PipelineEvent β P)) :
    (run (step codec player) (start origin) evs).Sound codec player origin :=
  run_invariant (fun _ e h => h.step e) .start evs

theorem accepted_step (s : Pipeline β P) (e : PipelineEvent β P) :
    s.accepted <+: (s.step codec player e).accepted := by
  cases e <;> simp only [step, save, take, sql, abort, publish, advance, claim]
  case save =>
    split
    · exact prefix_append _ _
    · exact prefix_rfl
  all_goals
    repeat' split
    all_goals exact prefix_rfl

theorem accepted_run (s : Pipeline β P) (evs : List (PipelineEvent β P)) :
    s.accepted <+: (run (step codec player) s evs).accepted :=
  run_rel (I := fun _ => True) (R := fun s s' => s.accepted <+: s'.accepted)
    (fun _ _ _ => trivial) (fun _ => prefix_rfl) List.IsPrefix.trans
    (fun s e _ => accepted_step s e) trivial evs

end Runs

/-! ## What is visible -/

/-- `pending`, an ACK and the version of a row as texts; a missing one is empty. -/
def pendingText (s : Pipeline β P) : Text := s.redis.barrier.pending.getD []

def ackText (s : Pipeline β P) (t : Table) : Text := (s.redis.barrier.ack t).getD []

def rowText (s : Pipeline β P) (t : Table) : Text :=
  match s.rows t with
  | none => []
  | some r => rowVersion r.fenceOwnerEpoch r.fenceSaveSeq

def observe (s : Pipeline β P) : Observation :=
  ⟨s.pendingText, s.ackText .playerDatabase, s.ackText .playerDatabase1,
    s.rowText .playerDatabase, s.rowText .playerDatabase1⟩

/-- The outbox holds the tasks of the save and an index lists the player. -/
def InOutbox (codec : Codec β P) (player : Nat) (s : Pipeline β P) (a : Accepted β P) : Prop :=
  s.redis.barrier.outbox = (a.call.intent codec player).fields ∧ s.redis.Listed

/-- Every row is one that an accepted save of this version carried. -/
def InSql (player : Nat) (s : Pipeline β P) (a : Accepted β P) : Prop :=
  ∀ t, ∃ r, s.rows t = some r ∧ ∃ b ∈ s.accepted, b.call.version = a.call.version ∧
    (b.call.task player t).rowWrite.target true = .ok r

namespace Sound

variable {s : Pipeline β P} (h : s.Sound codec player origin)

include h

theorem rank_pending {l : Accepted β P} (hl : s.accepted.getLast? = some l) :
    s.pendingText = l.call.version ∧ rank s.pendingText = l.call.order := by
  have hp : s.pendingText = l.call.version := by simp [pendingText, h.barrier.pending, hl]
  have hstrict := h.history.strict_last hl
  exact ⟨hp, by rw [hp, rank_of_isVersion hstrict.isVersion, hstrict.order_version]⟩

/-- Rows that were written by the pipeline are of strict versions. -/
theorem row_bounded {r : PlayerRow β} (hr : s.rows t = some r) :
    r.fenceOwnerEpoch < 2 ^ 64 ∧ r.fenceSaveSeq < 2 ^ 64 := by
  rcases h.sql.rows t r hr with hr | ⟨a, ha, htarget⟩
  · exact origin.bounded t r hr
  obtain ⟨he, hq⟩ := SaveCall.target_fence htarget
  have hstrict := (h.history.strict a ha).1
  exact ⟨he ▸ hstrict.epoch_lt, hq ▸ hstrict.seq_lt⟩

theorem versionOrEmpty_row (t : Table) : VersionOrEmpty (s.rowText t) := by
  unfold rowText
  split
  · exact .inl rfl
  rename_i r hr
  obtain ⟨he, hq⟩ := h.row_bounded hr
  unfold rowVersion
  split
  · exact .inl rfl
  · exact .inr (isVersion_version he hq)

theorem ack_le (t : Table) : VersionOrEmpty (s.ackText t) ∧
    rank (s.ackText t) ≤ rank (s.rowText t) ∧ rank (s.ackText t) ≤ rank s.pendingText := by
  cases hv : s.redis.barrier.ack t with
  | none => simp [ackText, hv, VersionOrEmpty, rank]
  | some v =>
    obtain ⟨l, hl, hversion, hle⟩ := h.barrier.ack_le h.history hv
    have htext : s.ackText t = v := by simp [ackText, hv]
    rw [htext, rank_of_isVersion hversion, (h.rank_pending hl).2]
    refine ⟨.inr hversion, ?_, WithBot.coe_le_coe.2 hle⟩
    obtain ⟨r, hr, hle⟩ := h.sql.acked t v hv
    obtain ⟨he, hq⟩ := h.row_bounded hr
    -- an ACK has a positive owner epoch, so the row is not the one without a version
    obtain ⟨a, ha, rfl⟩ := h.barrier.acks t v hv
    have hstrict := (h.history.strict a ha).1
    have hne : ¬ (r.fenceOwnerEpoch = 0 ∧ r.fenceSaveSeq = 0) := by
      rintro ⟨h0, -⟩
      rw [hstrict.order_version, PlayerRow.version, SaveCall.order, Prod.Lex.toLex_le_toLex] at hle
      have := hstrict.epoch_pos
      omega
    have hrow : s.rowText t = version r.fenceOwnerEpoch r.fenceSaveSeq := by
      rw [rowText, hr]
      exact if_neg hne
    rw [hrow, rank_of_isVersion (isVersion_version he hq), order_version he]
    exact WithBot.coe_le_coe.2 hle

theorem inSql {l : Accepted β P} (hl : s.accepted.getLast? = some l)
    (hacks : ∀ t, s.redis.barrier.ack t = some l.call.version) : s.InSql player l := by
  intro t
  have hstrict := h.history.strict_last hl
  obtain ⟨r, hr, hle⟩ := h.sql.acked t _ (hacks t)
  rw [hstrict.order_version] at hle
  refine ⟨r, hr, ?_⟩
  rcases h.sql.rows t r hr with horigin | ⟨a, ha, htarget⟩
  · have hlt := origin.fresh t r horigin
    have hfresh := (h.history.strict l (mem_of_getLast? hl)).2
    rw [PlayerRow.version, SaveCall.order, Prod.Lex.toLex_le_toLex] at hle
    omega
  · refine ⟨a, ha, ?_, htarget⟩
    rw [(h.history.strict a ha).1.version_eq_iff hstrict]
    exact le_antisymm (h.history.le_last ha hl) (SaveCall.target_version htarget ▸ hle)

theorem kept {l : Accepted β P} (hl : s.accepted.getLast? = some l) :
    s.InOutbox codec player l ∨ s.InSql player l := by
  by_cases hopen : ∃ t, s.redis.barrier.ack t ≠ some l.call.version
  · exact .inl (h.barrier.unsettled l hl hopen)
  · exact .inr (h.inSql hl fun t => not_not.1 fun hne => hopen ⟨t, hne⟩)

end Sound

/-- **Nothing is lost.** `pending` never decreases. Of two accepted saves the later one has no
smaller version; with the same version it has the same parent bytes, and the same tasks unless
both tables had acknowledged that version before. An ACK is at most the version of its row and
at most `pending`. While an ACK is below `pending`, the outbox holds the tasks of the last
accepted save, which is the pending one, and an index lists the player. A loader never finds
SQL behind, and the pending save is in the outbox or in both SQL rows. -/
theorem accepted_save_kept [DecidableEq P] (codec : Codec β P) (player : Nat)
    (origin : Origin β P) (evs later : List (PipelineEvent β P)) :
    let s := Machine.run (step codec player) (start origin) evs
    rank s.pendingText ≤ rank (Machine.run (step codec player) s later).pendingText ∧
      s.accepted.Pairwise (Accepted.Before codec player) ∧
      s.redis.barrier.pending = s.accepted.getLast?.map (·.call.version) ∧
      (∀ t, rank (s.ackText t) ≤ rank (s.rowText t) ∧
        rank (s.ackText t) ≤ rank s.pendingText) ∧
      (∀ t, rank (s.ackText t) < rank s.pendingText →
        ∃ l, s.accepted.getLast? = some l ∧ s.InOutbox codec player l) ∧
      (∃ v, reconcile s.observe = some v ∧ v ≠ .sqlBehind) ∧
      ∀ l, s.accepted.getLast? = some l → s.InOutbox codec player l ∨ s.InSql player l := by
  intro s
  have h : s.Sound codec player origin := sound_run codec player origin evs
  refine ⟨?_, h.history.ordered, h.barrier.pending, fun t => (h.ack_le t).2, ?_, ?_,
    fun l hl => h.kept hl⟩
  · cases hl : s.accepted.getLast? with
    | none => simp [pendingText, h.barrier.pending, hl, rank]
    | some l =>
      have h' : (Machine.run (step codec player) s later).Sound codec player origin :=
        Machine.run_invariant (fun _ e h => h.step e) h later
      have hgrow : s.accepted <+: (Machine.run (step codec player) s later).accepted :=
        accepted_run s later
      have hmem := hgrow.subset (mem_of_getLast? hl)
      obtain ⟨l', hl'⟩ := exists_last hmem
      rw [(h.rank_pending hl).2, (h'.rank_pending hl').2]
      exact WithBot.coe_le_coe.2 (h'.history.le_last hmem hl')
  · intro t hlt
    cases hl : s.accepted.getLast? with
    | none => simp [pendingText, h.barrier.pending, hl, rank] at hlt
    | some l =>
      refine ⟨l, rfl, h.barrier.unsettled l hl ⟨t, fun hack => ?_⟩⟩
      have htext : s.ackText t = l.call.version := by simp [ackText, hack]
      rw [htext, (h.rank_pending hl).1] at hlt
      exact lt_irrefl _ hlt
  · have hpending : VersionOrEmpty s.pendingText := by
      cases hl : s.accepted.getLast? with
      | none => exact .inl (by simp [pendingText, h.barrier.pending, hl])
      | some l => exact .inr ((h.rank_pending hl).1 ▸ (h.history.strict_last hl).isVersion)
    refine reconcile_of_acked ?_ (h.ack_le _).2.1 (h.ack_le _).2.1
    intro v hv
    simp only [observe, mem_cons, not_mem_nil, or_false] at hv
    rcases hv with rfl | rfl | rfl | rfl | rfl
    · exact hpending
    · exact (h.ack_le _).1
    · exact (h.ack_le _).1
    · exact h.versionOrEmpty_row _
    · exact h.versionOrEmpty_row _

/-- **What the barrier shows is true.** No ACK is ahead of `pending`, and when a loader finds the
barrier committed, the last accepted save is in both SQL rows. -/
theorem barrier_classified [DecidableEq P] (codec : Codec β P) (player : Nat)
    (origin : Origin β P) (evs : List (PipelineEvent β P)) :
    let s := Machine.run (step codec player) (start origin) evs
    ∃ state, classifyBarrier s.pendingText (s.ackText .playerDatabase)
        (s.ackText .playerDatabase1) = some state ∧ state ≠ .ackAhead ∧
      (state = .committed → ∀ l, s.accepted.getLast? = some l → s.InSql player l) := by
  intro s
  have h : s.Sound codec player origin := sound_run codec player origin evs
  have hpending : VersionOrEmpty s.pendingText := by
    cases hl : s.accepted.getLast? with
    | none => exact .inl (by simp [pendingText, h.barrier.pending, hl])
    | some l => exact .inr ((h.rank_pending hl).1 ▸ (h.history.strict_last hl).isVersion)
  have hbehind (t : Table) : textCmp (s.ackText t) s.pendingText ≠ .gt := by
    rw [ne_eq, textCmp_gt_iff (h.ack_le t).1 hpending]
    exact (h.ack_le t).2.2.not_gt
  have hvalid : requireVersions [s.pendingText, s.ackText .playerDatabase,
      s.ackText .playerDatabase1] = true :=
    requireVersions_of (by simp [hpending, (h.ack_le _).1])
  have hne {l : Accepted β P} (hl : s.accepted.getLast? = some l) : s.pendingText ≠ [] :=
    (h.rank_pending hl).1 ▸ ne_nil_of_isVersion (h.history.strict_last hl).isVersion
  simp only [classifyBarrier, hvalid, hbehind, Bool.not_true, Bool.false_eq_true, if_false,
    decide_false, Bool.or_self]
  split
  next hnone => exact ⟨_, rfl, by decide, fun _ l hl => absurd hnone (hne hl)⟩
  split
  next hboth =>
    refine ⟨_, rfl, by decide, fun _ l hl => h.inSql hl fun t => ?_⟩
    have hack : s.ackText t = s.pendingText := by cases t <;> simp_all
    rw [← (h.rank_pending hl).1, ← hack]
    cases ha : s.redis.barrier.ack t with
    | none => exact absurd hack.symm (by simpa [ackText, ha] using hne hl)
    | some v => simp [ackText, ha]
  · exact ⟨_, rfl, by decide, fun h => by cases h⟩

/-! ### A version that is saved again -/

def numberCodec : Codec Nat (List Nat) where
  encode task := [task.key, if task.msgType = .playerDatabase then 0 else 1, task.body.playerId,
    task.body.fenceOwnerEpoch, task.body.fenceSaveSeq, task.body.persistSchemaGen,
    task.body.columns, task.ownerEpoch, task.saveSeq] ++ task.taskId.map Char.toNat
  decode
    | key :: table :: id :: epoch :: seq :: gen :: columns :: ownerEpoch :: saveSeq :: taskId =>
      some ⟨key, if table = 0 then .playerDatabase else .playerDatabase1,
        ⟨id, epoch, seq, gen, columns⟩, taskId.map Char.ofNat, ownerEpoch, saveSeq⟩
    | _ => none
  decode_encode task := by
    obtain ⟨key, t, body, taskId, e, q⟩ := task
    have hid : (taskId.map Char.toNat).map Char.ofNat = taskId := by
      rw [List.map_map]
      exact (map_congr_left fun c _ => Char.ofNat_toNat c).trans (map_id _)
    cases t <;> simp [hid]
  size p := p.length
  row r := [r.playerId, r.fenceOwnerEpoch, r.fenceSaveSeq, r.persistSchemaGen, r.columns]
  evidence task r := [task.key, task.ownerEpoch, task.saveSeq, r.columns]

def newPlayer : Origin Nat (List Nat) :=
  ⟨fun _ => none, none, 2, fun _ _ h => (nomatch h), fun _ _ h => (nomatch h)⟩

def firstSave (firstId : Text) : SaveCall Nat (List Nat) :=
  ⟨2, 1, [1], ⟨7, 0, 0, 1, 100⟩, ⟨7, 0, 0, 1, 200⟩, firstId, ['b'], 1, 1, 1, 1, "warn".toList,
    ['w']⟩

/-- A save, both tables, the outbox is cleared away, and the same version with another task. -/
def savedAgain : List (PipelineEvent Nat (List Nat)) :=
  [.save (firstSave ['a']), .take 0, .sql 0, .sql 0, .take 1, .sql 1, .sql 1,
    .lock .playerDatabase (some 5), .lock .playerDatabase1 (some 5), .publish 0 5 1 1,
    .publish 1 5 1 1, .claim ⟨['1'], ['7']⟩ ⟨1, 1, 1, 1, 0, 1, 1⟩ 1, .save (firstSave ['c'])]

/-- After both ACKs only the parent is compared: one version, two contents. -/
theorem saved_again_other_tasks :
    ¬ ∀ a ∈ (Machine.run (step numberCodec 7) (start newPlayer) savedAgain).accepted,
      ∀ b ∈ (Machine.run (step numberCodec 7) (start newPlayer) savedAgain).accepted,
        a.call.version = b.call.version →
          a.call.intent numberCodec 7 = b.call.intent numberCodec 7 := by
  decide +kernel

/-- A row is written and not yet acknowledged: the save is still in the outbox. -/
theorem first_save_kept :
    let s := Machine.run (step numberCodec 7) (start newPlayer) (savedAgain.take 4)
    s.ackText .playerDatabase = [] ∧ s.pendingText = version 2 1 ∧
      ∃ l, s.accepted.getLast? = some l ∧ s.InOutbox numberCodec 7 l := by
  intro s
  have hack : s.ackText .playerDatabase = [] := by decide +kernel
  have hpending : s.pendingText = version 2 1 := by decide +kernel
  refine ⟨hack, hpending, ?_⟩
  refine (accepted_save_kept numberCodec 7 newPlayer (savedAgain.take 4) []).2.2.2.2.1
    .playerDatabase ?_
  have hversion : isVersion (version 2 1) = true := by decide +kernel
  change rank (s.ackText .playerDatabase) < rank s.pendingText
  rw [hack, hpending, rank_of_isVersion hversion]
  exact WithBot.bot_lt_coe _

end Pipeline

end Mmorpg.SaveBarrier
