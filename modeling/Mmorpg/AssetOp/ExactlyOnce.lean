import Mmorpg.Lib.Run
import Mmorpg.AssetOp.Channel

/-!
# The asset channel is exactly-once

The invariant has three parts. The copies form a line (`Channel.Copies`): the persisted copy,
the saves on the way and the memory extend each other, so that what is durable is fixed for
ever. Rows have numbers of their own (`Channel.Numbered`). And what durable replies and final
rows say is recorded in the persisted copy (`Channel.Evident`).

**Safety** (`asset_ops_exactly_once`): each operation changed the persisted assets at most
once, an applied row has its bundle's change there, a rejected or aborted one has none anywhere
and never will.
-/

namespace Mmorpg.AssetOp

open List Machine

/-! ## Copies -/

def Chained {A : Type} (a : A) : List (Change A) → A → Prop
  | [], b => a = b
  | c :: changes, b => c.before = a ∧ Chained c.after changes b

theorem Chained.snoc {A : Type} {a b : A} {changes : List (Change A)} (h : Chained a changes b)
    (op : Option AssetOpRequest) (b' : A) : Chained a (changes ++ [⟨op, b, b'⟩]) b' := by
  induction changes generalizing a with
  | nil => exact ⟨h.symm, rfl⟩
  | cons c changes ih => exact ⟨h.1, ih h.2⟩

variable {op : OpKey} {b : Bool}

namespace Copy

variable {A : Type}

def le (c c' : Copy A) : Prop := c.decided <+: c'.decided ∧ c.changes <+: c'.changes

theorem le.refl (c : Copy A) : c.le c := ⟨prefix_rfl, prefix_rfl⟩

variable {c : Copy A}

theorem le.trans {a b : Copy A} (h : a.le b) (h' : b.le c) : a.le c :=
  ⟨h.1.trans h'.1, h.2.trans h'.2⟩

def Decides (c : Copy A) (op : OpKey) (applied : Bool) : Prop :=
  ∃ k, k.isApplied = applied ∧ (op, k) ∈ c.decided

theorem Decides.mono {c' : Copy A} (h : c.Decides op b) (hle : c.le c') : c'.Decides op b := by
  obtain ⟨k, hk, hm⟩ := h
  exact ⟨k, hk, hle.1.subset hm⟩

def effects (c : Copy A) : List OpKey := c.changes.filterMap (·.op.map (·.key))

/-- The change is one that the request asks for and the history records. -/
def Makes (sv : AssetServices A) (c : Copy A) (request : AssetOpRequest) (before after : A) :
    Prop :=
  ∃ isPartial, Effect sv request before after isPartial ∧
    (request.key, appliedKind isPartial) ∈ c.decided

structure Ok (sv : AssetServices A) (sent : List Message) (a : A) (c : Copy A) : Prop where
  agrees : LedgerAgrees c.player.ledger c.decided
  once : (c.decided.map Prod.fst).Nodup
  effects_eq : c.effects = (c.decided.filter (·.2.isApplied)).map Prod.fst
  chained : Chained a c.changes c.player.assets
  made : ∀ change ∈ c.changes, ∀ request, change.op = some request →
    (∃ m ∈ sent, m.request = request) ∧ c.Makes sv request change.before change.after

variable {request : AssetOpRequest} {sv : AssetServices A} {sent : List Message}

namespace Ok

variable {a : A} {c : Copy A}

theorem effects_nodup (h : c.Ok sv sent a) : c.effects.Nodup := by
  rw [h.effects_eq]
  exact h.once.sublist (filter_sublist.map _)

theorem mem_effects (h : c.Ok sv sent a) : op ∈ c.effects ↔ c.Decides op true := by
  simp only [h.effects_eq, mem_map, mem_filter, Prod.exists]
  constructor
  · rintro ⟨_, k, ⟨hm, hk⟩, rfl⟩
    exact ⟨k, hk, hm⟩
  · rintro ⟨k, hk, hm⟩
    exact ⟨op, k, ⟨hm, hk⟩, rfl⟩

theorem not_both (h : c.Ok sv sent a) (ht : c.Decides op true) : ¬ c.Decides op false := by
  rintro ⟨k', hk', hm'⟩
  obtain ⟨k, hk, hm⟩ := ht
  have : k = k' := congrArg Prod.snd (inj_on_of_nodup_map h.once hm hm' rfl)
  rw [this, hk'] at hk
  cases hk

theorem start (a : A) : (⟨⟨a, []⟩, [], []⟩ : Copy A).Ok sv sent a :=
  ⟨.nil, .nil, rfl, rfl, by simp⟩

theorem mono (h : c.Ok sv sent a) {sent' : List Message} (hsent : sent ⊆ sent') :
    c.Ok sv sent' a where
  __ := h
  made change hchange request hop := by
    obtain ⟨⟨m, hm, hrequest⟩, hmakes⟩ := h.made change hchange request hop
    exact ⟨⟨m, hsent hm, hrequest⟩, hmakes⟩

theorem play (h : c.Ok sv sent a) (assets : A) : (c.play assets).Ok sv sent a where
  __ := h
  effects_eq := by
    refine Eq.trans ?_ h.effects_eq
    simp [Copy.play, effects]
  chained := h.chained.snoc none assets
  made := by
    refine forall_mem_append.2 ⟨h.made, forall_mem_singleton.2 fun request hop => ?_⟩
    cases hop

/-- A recorded outcome extends the history by an operation that was not there. -/
theorem record (h : c.Ok sv sent a) (hsent : ∃ m ∈ sent, m.request = request)
    (hnew : IsNew c.player.ledger request) {kind : AssetOpRecordKind} {player : Player A}
    (response : AssetOpResponse)
    (hledger : LedgerAgrees player.ledger (c.decided ++ [(request.key, kind)]))
    (hassets : kind.isApplied = false → player.assets = c.player.assets)
    (heffect : kind.isApplied = true → ∃ isPartial, kind = appliedKind isPartial ∧
      Effect sv request c.player.assets player.assets isPartial) :
    (c.after request ⟨player, response, some kind⟩).Ok sv sent a where
  agrees := hledger
  once := by
    have hfresh : request.key ∉ c.decided.map Prod.fst := by
      intro hm
      obtain ⟨⟨op, k⟩, hm, hop⟩ := mem_map.1 hm
      obtain rfl : op = request.key := hop
      exact h.agrees.not_decided_of_unseen hnew k hm
    simp only [after, map_append]
    exact h.once.append (nodup_singleton _) (by simpa using hfresh)
  effects_eq := by
    have heq := h.effects_eq
    unfold effects at heq ⊢
    cases hk : kind.isApplied <;> simp [after, hk, heq]
  chained := by
    cases hk : kind.isApplied
    · simpa [after, hk, hassets hk] using h.chained
    · simpa [after, hk] using h.chained.snoc (some request) player.assets
  made := by
    have hmade : ∀ change ∈ c.changes, ∀ request', change.op = some request' →
        (∃ m ∈ sent, m.request = request') ∧
          (c.after request ⟨player, response, some kind⟩).Makes sv request' change.before
            change.after := by
      intro change hchange request' hop
      obtain ⟨hfrom, isPartial, heff, hmem⟩ := h.made change hchange request' hop
      exact ⟨hfrom, isPartial, heff, mem_append_left _ hmem⟩
    cases hk : kind.isApplied
    · simpa [after, hk] using hmade
    · obtain ⟨isPartial, rfl, heff⟩ := heffect hk
      simp only [after, hk] at hmade ⊢
      refine forall_mem_append.2 ⟨hmade, forall_mem_singleton.2 fun request' hop => ?_⟩
      cases hop
      exact ⟨hsent, isPartial, heff, mem_append_right _ mem_cons_self⟩

end Ok

theorem le_play (c : Copy A) (assets : A) : c.le (c.play assets) :=
  ⟨prefix_rfl, prefix_append _ _⟩

theorem le_after (c : Copy A) (request : AssetOpRequest) (d : Decision A) :
    c.le (c.after request d) := by
  unfold after
  split
  · exact .refl c
  refine ⟨prefix_append _ _, ?_⟩
  split
  · exact prefix_append _ _
  · exact prefix_rfl

theorem Ok.after {a : A} (h : c.Ok sv sent a) (hsent : ∃ m ∈ sent, m.request = request)
    {persisted : Option PlayerAssetOpLedgerComp} {d : Decision A}
    (hd : DecisionOf sv persisted c.player request d) : (c.after request d).Ok sv sent a := by
  cases hd with
  | refused | seen => exact h
  | rejected reason ledger hnew hrecord =>
    exact h.record hsent hnew _ (h.agrees.recordOutcome hrecord) (fun _ => rfl) nofun
  | applied assets isPartial ledger snapshot reason hnew heffect hrecord =>
    refine h.record hsent hnew _ ((h.agrees.recordOutcome hrecord).withSnapshot snapshot)
      (fun hk => ?_) fun _ => ⟨isPartial, rfl, heffect⟩
    cases isPartial <;> cases hk

end Copy

/-! ## The invariant -/

def Row.id (row : Row) : Nat × AssetOpRequest := (row.opId, row.request)

namespace Channel

variable {A : Type}

/-- The persisted copy, the saves on the way and the memory, oldest first. -/
def line (t : Channel A) : List (Copy A) := t.disk :: (t.saving ++ t.live.toList)

variable {sv : AssetServices A}

/-- Every copy is in order, and the older ones are beginnings of the newer ones. -/
structure Copies (sv : AssetServices A) (a : A) (t : Channel A) : Prop where
  line_ok : ∀ c ∈ t.line, c.Ok sv t.sent a
  line_le : t.line.Pairwise Copy.le
  written : ∀ c ∈ t.written, c.Ok sv t.sent a ∧ c.le t.disk
  snapshot : ∀ c, t.snapshot = some c → c.Ok sv t.sent a ∧ c.le t.disk

def ids (t : Channel A) : List (Nat × AssetOpRequest) := t.rows.map Row.id

structure Numbered (t : Channel A) : Prop where
  opIds : (t.ids.map Prod.fst).Nodup
  keys : (t.ids.map fun p => p.2.key).Nodup
  below : ∀ p ∈ t.ids, ∃ s, t.seqRows p.2.stream = some s ∧ p.2.streamEpoch = s.epoch ∧
    p.2.seq < s.nextSeq
  workers : ∀ w ∈ t.workers, (w.op.opId, w.op.request) ∈ t.ids
  sent : ∀ m ∈ t.sent, ∃ opId, (opId, m.request) ∈ t.ids

/-- What durable replies and final rows say is recorded in the persisted copy. -/
structure Evident (t : Channel A) : Prop where
  replies : ∀ m r, (m, r) ∈ t.replies → r.durable = true →
    ∃ b, r.outcome = outcomeOf b ∧ t.disk.Decides m.request.key b
  rows : ∀ row ∈ t.rows, ∀ b, row.status.verdict = some b → t.disk.Decides row.key b

structure Safe (sv : AssetServices A) (a : A) (t : Channel A) : Prop where
  copies : t.Copies sv a
  numbered : t.Numbered
  evident : t.Evident

theorem Safe.start (a : A) : (start a).Safe sv a where
  copies :=
    { line_ok := by
        intro c hc
        obtain rfl := mem_singleton.1 hc
        exact .start a
      line_le := pairwise_singleton _ _
      written := by simp [Channel.start]
      snapshot := by simp [Channel.start] }
  numbered :=
    ⟨.nil, .nil, by simp [Channel.start, ids], by simp [Channel.start], by simp [Channel.start]⟩
  evident := ⟨by simp [Channel.start], by simp [Channel.start]⟩

/-! ### Allocation and claims -/

variable {stream : AssetOpStream} {row : SeqRow}

theorem allocateSeq_eq {lim : Limits} {rows : List Row} {seq : Nat} {next : SeqRow}
    (h : allocateSeq lim rows stream (some row) = some (seq, next)) :
    seq = row.nextSeq ∧ next = ⟨row.epoch, row.nextSeq + 1⟩ := by
  simp only [allocateSeq] at h
  split at h
  · cases h
  split at h
  · cases h
  split at h
  · cases h
  · obtain ⟨rfl, rfl⟩ := Prod.mk.inj (Option.some.inj h)
    exact ⟨rfl, rfl⟩

namespace Numbered

variable {t : Channel A}

theorem ensureSeqRow (h : t.Numbered) (stream : AssetOpStream) (nowMs : Nat) :
    Numbered { t with seqRows := fun s =>
      if s = stream then AssetOp.ensureSeqRow (t.seqRows s) nowMs else t.seqRows s } where
  __ := h
  below p hp := by
    obtain ⟨s, hs, hnum⟩ := h.below p hp
    refine ⟨s, ?_, hnum⟩
    dsimp only
    rw [hs]
    simp [AssetOp.ensureSeqRow]

/-- The number of a new row is above those of its stream and epoch. -/
theorem fresh (h : t.Numbered) (hrow : t.seqRows stream = some row) {p : Nat × AssetOpRequest}
    (hp : p ∈ t.ids) :
    p.2.key ≠ ⟨stream, row.epoch, row.nextSeq⟩ := by
  intro heq
  obtain ⟨hstream, -, hseq⟩ := OpKey.mk.inj heq
  obtain ⟨s, hs, -, hlt⟩ := h.below p hp
  rw [hstream, hrow] at hs
  cases hs
  omega

theorem enqueue (h : t.Numbered) (hrow : t.seqRows stream = some row) {new : Row}
    (hid : new.opId ∉ t.rows.map (·.opId))
    (hkey : new.request.key = ⟨stream, row.epoch, row.nextSeq⟩) :
    Numbered { t with
      seqRows := fun s => if s = stream then some ⟨row.epoch, row.nextSeq + 1⟩ else t.seqRows s
      rows := t.rows ++ [new] } := by
  obtain ⟨hstream, hepoch, hseq⟩ := OpKey.mk.inj hkey
  have hids : ids { t with
      seqRows := fun s => if s = stream then some ⟨row.epoch, row.nextSeq + 1⟩ else t.seqRows s
      rows := t.rows ++ [new] } = t.ids ++ [new.id] := by
    simp [ids]
  constructor
  · rw [hids, map_append]
    refine h.opIds.append (nodup_singleton _) ?_
    simpa [ids, Row.id] using hid
  · rw [hids, map_append]
    refine h.keys.append (nodup_singleton _) ?_
    simp only [map_cons, map_nil, disjoint_singleton, mem_map, not_exists,
      not_and, Row.id, hkey]
    exact fun p hp => h.fresh hrow hp
  · rw [hids]
    refine forall_mem_append.2 ⟨fun p hp => ?_, forall_mem_singleton.2 ?_⟩
    · obtain ⟨s, hs, he, hlt⟩ := h.below p hp
      by_cases hsame : p.2.stream = stream
      · rw [hsame, hrow] at hs
        cases hs
        exact ⟨_, if_pos hsame, he, Nat.lt_succ_of_lt hlt⟩
      · exact ⟨s, (if_neg hsame).trans hs, he, hlt⟩
    · exact ⟨_, if_pos hstream, hepoch, hseq ▸ Nat.lt_succ_self _⟩
  · intro w hw
    rw [hids]
    exact mem_append_left _ (h.workers w hw)
  · intro m hm
    obtain ⟨opId, hmem⟩ := h.sent m hm
    rw [hids]
    exact ⟨opId, mem_append_left _ hmem⟩

end Numbered

theorem claim_eq {row row' : Row} {nowMs leaseUntilMs token : Nat} {op : Op}
    (h : row.claim nowMs leaseUntilMs token = some (row', op)) :
    row.status = .pending ∧ row' = { row with leaseUntilMs, leaseToken := token } ∧
      op.opId = row.opId ∧ op.request = row.request := by
  unfold Row.claim at h
  split at h
  next hguard =>
    obtain ⟨rfl, rfl⟩ := Prod.mk.inj (Option.some.inj h)
    simp only [Bool.and_eq_true, decide_eq_true_eq] at hguard
    exact ⟨hguard.1, rfl, rfl, rfl⟩
  · cases h

variable {t : Channel A}

/-- A row is replaced by one of the same number and request. -/
theorem ids_set {i : Nat} {row row' : Row} (h : t.rows[i]? = some row)
    (hid : row'.id = row.id) : ids { t with rows := t.rows.set i row' } = t.ids := by
  obtain ⟨hi, rfl⟩ := List.getElem?_eq_some_iff.1 h
  simp only [ids]
  rw [map_set, hid, ← map_set, set_getElem_self]

theorem settle_id (row : Row) (op : Op) (s : Settlement) : (row.settle op s).id = row.id := by
  cases s with
  | finalize status res | reschedule res =>
    simp only [Row.settle]
    split <;> rfl

theorem ids_settle (t : Channel A) (op : Op) (s : Settlement) :
    ids { t with rows := t.rows.map (·.settle op s) } = t.ids := by
  simp only [ids, map_map]
  exact map_congr_left fun row _ => settle_id row op s

theorem settle_status (row : Row) (op : Op) (s : Settlement) :
    (row.settle op s).status = row.status ∨
      ∃ res, s = .finalize (row.settle op s).status res ∧ row.opId = op.opId := by
  unfold Row.settle
  cases s with
  | finalize status res =>
    dsimp only
    split
    next h =>
      simp only [Bool.and_eq_true, decide_eq_true_eq] at h
      exact .inr ⟨res, rfl, h.1⟩
    · exact .inl rfl
  | reschedule res =>
    dsimp only
    split
    · exact .inl rfl
    · exact .inl rfl

namespace Numbered

variable {t : Channel A}

theorem settle (h : t.Numbered) (op : Op) (s : Settlement) :
    Numbered { t with rows := t.rows.map (·.settle op s) } := by
  have hids := ids_settle t op s
  exact ⟨hids ▸ h.opIds, hids ▸ h.keys, hids ▸ h.below, hids ▸ h.workers, hids ▸ h.sent⟩

/-- The operation number identifies the request. -/
theorem request_eq (h : t.Numbered) {w : Worker} (hw : w ∈ t.workers) {row : Row}
    (hrow : row ∈ t.rows) (hid : row.opId = w.op.opId) : row.request = w.op.request := by
  have hrow' : row.id ∈ t.ids := mem_map_of_mem hrow
  exact congrArg Prod.snd (inj_on_of_nodup_map h.opIds hrow' (h.workers w hw) hid)

/-- A request on the way is that of the row with its key. -/
theorem sent_request (h : t.Numbered) {m : Message} (hm : m ∈ t.sent) {row : Row}
    (hrow : row ∈ t.rows) (hkey : m.request.key = row.key) : m.request = row.request := by
  obtain ⟨opId, hmem⟩ := h.sent m hm
  have hrow' : row.id ∈ t.ids := mem_map_of_mem hrow
  exact congrArg Prod.snd (inj_on_of_nodup_map h.keys hmem hrow' hkey)

end Numbered

/-! ### Copies -/

namespace Copies

variable {a : A} {t : Channel A}

theorem disk_ok (h : t.Copies sv a) : t.disk.Ok sv t.sent a := h.line_ok _ mem_cons_self

variable {c : Copy A} (h : t.Copies sv a)

include h

theorem live_ok (hc : t.live = some c) : c.Ok sv t.sent a :=
  h.line_ok c (by simp [line, hc])

theorem disk_le_live (hc : t.live = some c) : t.disk.le c :=
  (pairwise_cons.1 h.line_le).1 c (by simp [hc])

theorem grow {c' : Copy A} (hc : t.live = some c) (hle : c.le c') (hok : c'.Ok sv t.sent a)
    (replies : List (Message × AssetOpResponse)) :
    Copies sv a { t with live := some c', replies } where
  line_ok d hd := by
    simp only [line, Option.toList_some, mem_cons, mem_append, not_mem_nil,
      or_false] at hd
    rcases hd with rfl | hd | rfl
    · exact h.disk_ok
    · exact h.line_ok d (by simp [line, hd])
    · exact hok
  line_le := by
    have hline := h.line_le
    simp only [line, hc, ← cons_append] at hline ⊢
    obtain ⟨hinit, -, hlast⟩ := pairwise_append.1 hline
    refine pairwise_append.2 ⟨hinit, pairwise_singleton _ _, ?_⟩
    intro d hd e he
    obtain rfl := mem_singleton.1 he
    exact (hlast d hd c mem_cons_self).trans hle
  written := h.written
  snapshot := h.snapshot

/-- Saves and the memory may be lost. -/
theorem forget {saving : List (Copy A)} {live snapshot : Option (Copy A)}
    (hline : (saving ++ live.toList).Sublist (t.saving ++ t.live.toList))
    (hsnap : ∀ c, snapshot = some c → c.Ok sv t.sent a ∧ c.le t.disk) :
    Copies sv a { t with saving, live, snapshot } where
  line_ok c hc := h.line_ok c ((hline.cons_cons t.disk).subset hc)
  line_le := h.line_le.sublist (hline.cons_cons t.disk)
  written := h.written
  snapshot := hsnap

theorem load (hsaving : t.saving = []) (known : Bool) :
    Copies sv a
      { t with live := some t.disk, snapshot := if known then some t.disk else none } where
  line_ok c hc := by
    have : c = t.disk := by simpa [line, hsaving] using hc
    exact this ▸ h.disk_ok
  line_le := by simp [line, hsaving, Copy.le.refl]
  written := h.written
  snapshot c hc := by
    cases known with
    | false => cases hc
    | true =>
      cases hc
      exact ⟨h.disk_ok, .refl _⟩

theorem save : Copies sv a { t with saving := t.saving ++ t.live.toList } where
  line_ok c hc := by
    refine h.line_ok c ?_
    simp only [line, mem_cons, mem_append] at hc ⊢
    tauto
  line_le := by
    have hline := h.line_le
    simp only [line, ← cons_append] at hline ⊢
    refine pairwise_append.2 ⟨hline, ?_, ?_⟩
    · cases t.live <;> simp
    · intro c hc d hd
      rcases mem_append.1 hc with hc | hc
      · exact (pairwise_append.1 hline).2.2 c hc d hd
      · have hc := Option.mem_toList.1 hc
        have hcd : c = d := Option.some.inj (hc.symm.trans (Option.mem_toList.1 hd))
        exact hcd ▸ .refl c
  written := h.written
  snapshot := h.snapshot

theorem write {rest : List (Copy A)} (hs : t.saving = c :: rest) :
    t.disk.le c ∧
      Copies sv a { t with disk := c, written := t.written ++ [c], saving := rest } := by
  have hline : t.line = t.disk :: c :: (rest ++ t.live.toList) := by simp [line, hs]
  have hok := h.line_ok
  have hle := h.line_le
  rw [hline] at hok hle
  obtain ⟨hdisk, hle⟩ := pairwise_cons.1 hle
  have hc := hdisk c mem_cons_self
  refine ⟨hc, fun d hd => hok d (mem_cons_of_mem _ hd), hle,
    forall_mem_append.2 ⟨fun d hd => ?_, forall_mem_singleton.2 ?_⟩, fun d hd => ?_⟩
  · exact ⟨(h.written d hd).1, (h.written d hd).2.trans hc⟩
  · exact ⟨hok _ (by simp), .refl _⟩
  · exact ⟨(h.snapshot d hd).1, (h.snapshot d hd).2.trans hc⟩

theorem send (m : Message) (workers : List Worker) :
    Copies sv a { t with workers, sent := t.sent ++ [m] } where
  line_ok c hc := (h.line_ok c hc).mono (subset_append_left _ _)
  line_le := h.line_le
  written c hc := ⟨(h.written c hc).1.mono (subset_append_left _ _), (h.written c hc).2⟩
  snapshot c hc := ⟨(h.snapshot c hc).1.mono (subset_append_left _ _), (h.snapshot c hc).2⟩

end Copies

/-! ### Evidence -/

namespace Evident

variable {a : A} {t : Channel A} {cfg : ChannelConfig A}

/-- A durable answer is about what was persisted. -/
theorem deliver (h : t.Evident) (hcopies : t.Copies cfg.services a) {m : Message} {p : Player A}
    {d : Decision A}
    (hd : DecisionOf cfg.services (t.snapshot.map (·.player.ledger)) p m.request d)
    (live : Option (Copy A)) :
    Evident { t with live, replies := t.replies ++ [(m, d.response)] } where
  replies m' r hr hdur := by
    rcases mem_append.1 hr with hr | hr
    · exact h.replies m' r hr hdur
    obtain ⟨rfl, rfl⟩ := Prod.mk.inj (mem_singleton.1 hr)
    obtain ⟨b, ho, hdurable⟩ := hd.durable hdur
    refine ⟨b, ho, ?_⟩
    cases hsnap : t.snapshot with
    | none =>
      rw [hsnap] at hdurable
      cases hdurable
    | some c =>
      rw [hsnap] at hdurable
      obtain ⟨hok, hle⟩ := hcopies.snapshot c hsnap
      exact Copy.Decides.mono (decided_of_durable hok.agrees hdurable) hle
  rows := h.rows

theorem read (hcopies : t.Copies sv a) {choice : ReadChoice} {comp : PlayerAssetOpLedgerComp}
    (hread : t.read choice = .found comp) (hc : (classifyPersisted comp op).1 = outcomeOf b) :
    t.disk.Decides op b := by
  cases choice with
  | error | absent => cases hread
  | copy i =>
    simp only [Channel.read] at hread
    split at hread
    · cases hread
    next c hwritten =>
      obtain rfl := LedgerRead.found.inj hread
      obtain ⟨hok, hle⟩ := hcopies.written c (mem_of_getElem? hwritten)
      exact Copy.Decides.mono (classifyPersisted_decided hok.agrees hc) hle

/-- What a worker finalizes with is recorded in the persisted copy. -/
theorem finalize (h : t.Evident) (hcopies : t.Copies sv a) {op : Op} {rpc : AssetOpRpc}
    {outcome : DoOutcome} {persisted sql : ReadChoice} {res final : Result} {err : Option DoError}
    {status : Status} (hdo : t.doResult op rpc outcome = some (res, err))
    (hs : processOne cfg.services.digest cfg.loop op rpc res err (t.read persisted) (t.read sql) =
      .finalize status final) (hb : status.verdict = some b) :
    t.disk.Decides op.request.key b := by
  obtain ⟨b', hverdict, hproof⟩ := processOne_finalize hs
  obtain rfl : b' = b := Option.some.inj (hverdict.symm.trans hb)
  rcases hproof with ⟨rfl, hdur, ho⟩ | ⟨comp, hread | hread, hc⟩
  · -- the only result that claims durability is a reply of the scene to this request
    cases outcome with
    | notSent absent =>
      obtain ⟨rfl, -⟩ := Prod.mk.inj (Option.some.inj hdo)
      cases hdur
    | failed e => cases (Prod.mk.inj (Option.some.inj hdo)).2
    | reply i =>
      simp only [doResult] at hdo
      split at hdo
      · cases hdo
      rename_i m r hreply
      split at hdo
      next hm =>
        obtain ⟨rfl, -⟩ := Prod.mk.inj (Option.some.inj hdo)
        obtain ⟨b, ho', hdec⟩ := h.replies m r (mem_of_getElem? hreply) hdur
        rw [hm] at hdec
        have : outcomeOf b = outcomeOf b' := ho'.symm.trans ho
        obtain rfl : b = b' := by cases b <;> cases b' <;> first | rfl | cases this
        exact hdec
      · cases hdo
  · exact read hcopies hread hc
  · exact read hcopies hread hc

theorem settle (h : t.Evident) (hnum : t.Numbered) {w : Worker} (hw : w ∈ t.workers)
    {s : Settlement}
    (hs : ∀ status final, s = .finalize status final → ∀ b, status.verdict = some b →
      t.disk.Decides w.op.request.key b) :
    Evident { t with rows := t.rows.map (·.settle w.op s) } where
  replies := h.replies
  rows row hrow b hb := by
    obtain ⟨old, hold, rfl⟩ := mem_map.1 hrow
    have hkey : (old.settle w.op s).key = old.key :=
      congrArg (fun p : Nat × AssetOpRequest => p.2.key) (settle_id old w.op s)
    rw [hkey]
    rcases settle_status old w.op s with hsame | ⟨final, hfinal, hid⟩
    · exact h.rows old hold b (hsame ▸ hb)
    · rw [Row.key, hnum.request_eq hw hold hid]
      exact hs _ final hfinal b hb

/-- What is recorded stays recorded when the persisted copy moves on. -/
theorem write (h : t.Evident) {c : Copy A} (hle : t.disk.le c) (saving written : List (Copy A)) :
    Evident { t with disk := c, written, saving } where
  replies m r hr hdur := by
    obtain ⟨b, ho, hdec⟩ := h.replies m r hr hdur
    exact ⟨b, ho, hdec.mono hle⟩
  rows row hrow b hb := (h.rows row hrow b hb).mono hle

end Evident

/-! ## Steps and runs -/

/-- What a step keeps; the persisted copy only moves on. -/
def Goes (sv : AssetServices A) (a : A) (t t' : Channel A) : Prop :=
  t'.Safe sv a ∧ t.disk.le t'.disk

namespace Safe

variable {a : A} {t : Channel A} (h : t.Safe sv a)

include h

theorem stays : t.Goes sv a t := ⟨h, .refl _⟩

theorem enqueue (cfg : ChannelConfig A) (opId : Nat) (stream : AssetOpStream) (txType : Nat)
    (bundle : AssetBundle) (deadlineMs : Nat) :
    t.Goes sv a (t.enqueue cfg opId stream txType bundle deadlineMs) := by
  unfold Channel.enqueue
  split
  · exact h.stays
  rename_i seqRow hseq
  split
  · exact h.stays
  rename_i hfresh
  split
  · exact h.stays
  rename_i seq next halloc
  obtain ⟨rfl, rfl⟩ := allocateSeq_eq halloc
  refine ⟨⟨{ h.copies with }, h.numbered.enqueue hseq (by simpa using hfresh) rfl,
    h.evident.replies, forall_mem_append.2 ⟨h.evident.rows, ?_⟩⟩, .refl _⟩
  refine forall_mem_singleton.2 fun b hb => ?_
  cases hb

theorem claim (i nowMs leaseUntilMs token : Nat) :
    t.Goes sv a (t.claim i nowMs leaseUntilMs token) := by
  unfold Channel.claim
  split
  · exact h.stays
  rename_i row hrow
  split
  · exact h.stays
  rename_i row' op hclaim
  obtain ⟨hpending, rfl, hid, hreq⟩ := claim_eq hclaim
  have hn := h.numbered
  have hids := ids_set hrow
    (show Row.id { row with leaseUntilMs, leaseToken := token } = row.id from rfl)
  refine ⟨⟨{ h.copies with }, ⟨hids ▸ hn.opIds, hids ▸ hn.keys, hids ▸ hn.below,
    forall_mem_append.2 ⟨hids ▸ hn.workers, forall_mem_singleton.2 ?_⟩, hids ▸ hn.sent⟩,
    h.evident.replies, fun r hr b hb => ?_⟩, .refl _⟩
  · refine hids ▸ mem_map.2 ⟨row, mem_of_getElem? hrow, ?_⟩
    rw [Row.id, hid, hreq]
  · rcases mem_or_eq_of_mem_set hr with hr | rfl
    · exact h.evident.rows r hr b hb
    · simp only [hpending] at hb
      cases hb

theorem send (i nowMs : Nat) : t.Goes sv a (t.send i nowMs) := by
  unfold Channel.send
  split
  · exact h.stays
  rename_i worker hworker
  split
  · exact h.stays
  next rpc _ =>
    have hid := h.numbered.workers worker (mem_of_getElem? hworker)
    refine ⟨⟨h.copies.send ⟨rpc, worker.op.request⟩ _, { h.numbered with
      workers := fun w hw => ?_
      sent := forall_mem_append.2 ⟨h.numbered.sent, forall_mem_singleton.2 ⟨_, hid⟩⟩ },
      { h.evident with }⟩, .refl _⟩
    rcases mem_or_eq_of_mem_set hw with hw | rfl
    · exact h.numbered.workers w hw
    · exact hid

omit h in
theorem deliver {cfg : ChannelConfig A} (h : t.Safe cfg.services a) {m : Message} (hm : m ∈ t.sent)
    (env : SceneEnv) : t.Goes cfg.services a (t.deliver cfg m env) := by
  unfold Channel.deliver
  split
  next hlive =>
    have hd : DecisionOf cfg.services (t.snapshot.map (·.player.ledger)) t.disk.player m.request
        ⟨t.disk.player, answer .notHere kAssetPlayerNotHere, none⟩ := .refused _ _
    exact ⟨⟨{ h.copies with }, { h.numbered with }, h.evident.deliver h.copies hd t.live⟩, .refl _⟩
  next c hlive =>
    have hd : DecisionOf cfg.services (t.snapshot.map (·.player.ledger)) c.player m.request
        (decideAssetOp cfg.services env _ c.player m.rpc m.request) := decideAssetOp_of env m.rpc
    exact ⟨⟨h.copies.grow hlive (c.le_after _ _)
      ((h.copies.live_ok hlive).after ⟨m, hm, rfl⟩ hd) _,
      { h.numbered with }, h.evident.deliver h.copies hd _⟩, .refl _⟩

theorem settle (cfg : ChannelConfig A) (i : Nat) (outcome : DoOutcome)
    (persisted sql : ReadChoice) : t.Goes sv a (t.settle cfg i outcome persisted sql) := by
  unfold Channel.settle
  split
  · exact h.stays
  next op hworker =>
    refine ⟨⟨{ h.copies with }, h.numbered.settle op _,
      h.evident.settle h.numbered (mem_of_getElem? hworker) ?_⟩, .refl _⟩
    intro status final hs
    cases hs
  next op rpc hworker =>
    split
    · exact h.stays
    next res err hdo =>
      refine ⟨⟨{ h.copies with }, h.numbered.settle op _,
        h.evident.settle h.numbered (mem_of_getElem? hworker) ?_⟩, .refl _⟩
      intro status final hs b hb
      exact h.evident.finalize h.copies hdo hs hb

omit h in
theorem step {cfg : ChannelConfig A} (h : t.Safe cfg.services a) (e : ChannelEvent A) :
    t.Goes cfg.services a (t.step cfg e) := by
  cases e with
  | ensureSeqRow stream nowMs =>
    exact ⟨⟨{ h.copies with }, h.numbered.ensureSeqRow stream nowMs, { h.evident with }⟩, .refl _⟩
  | enqueue opId stream txType bundle deadlineMs =>
    exact h.enqueue cfg opId stream txType bundle deadlineMs
  | claim i nowMs leaseUntilMs token => exact h.claim i nowMs leaseUntilMs token
  | send i nowMs => exact h.send i nowMs
  | deliver i env =>
    simp only [Channel.step]
    split
    · exact h.stays
    next m hm => exact h.deliver (mem_of_getElem? hm) env
  | settle i outcome persisted sql => exact h.settle cfg i outcome persisted sql
  | load known =>
    simp only [Channel.step]
    split
    next hlive hsaving =>
      exact ⟨⟨h.copies.load hsaving known, { h.numbered with }, { h.evident with }⟩, .refl _⟩
    · exact h.stays
  | crash =>
    refine ⟨⟨h.copies.forget ?_ (by simp), { h.numbered with }, { h.evident with }⟩, .refl _⟩
    simp
  | play assets =>
    simp only [Channel.step]
    split
    · exact h.stays
    next c hlive =>
      exact ⟨⟨h.copies.grow hlive (c.le_play assets) ((h.copies.live_ok hlive).play assets) _,
        { h.numbered with }, { h.evident with }⟩, .refl _⟩
  | save => exact ⟨⟨h.copies.save, { h.numbered with }, { h.evident with }⟩, .refl _⟩
  | lose i =>
    have hcopies := h.copies.forget
      ((eraseIdx_sublist t.saving i).append (List.Sublist.refl _)) h.copies.snapshot
    exact ⟨⟨hcopies, { h.numbered with }, { h.evident with }⟩, .refl _⟩
  | write =>
    simp only [Channel.step]
    split
    · exact h.stays
    next c rest hs =>
      obtain ⟨hle, hcopies⟩ := h.copies.write hs
      exact ⟨⟨hcopies, { h.numbered with }, h.evident.write hle _ _⟩, hle⟩
  | saved i =>
    simp only [Channel.step]
    split
    next c hlive hwritten =>
      refine ⟨⟨{ h.copies with snapshot := fun c' hc => ?_ }, { h.numbered with },
        { h.evident with }⟩, .refl _⟩
      cases hc
      exact h.copies.written _ (mem_of_getElem? hwritten)
    · exact h.stays

end Safe

theorem safe_run (cfg : ChannelConfig A) (a : A) (evs : List (ChannelEvent A)) :
    (run (step cfg) (start a) evs).Safe cfg.services a :=
  run_invariant (fun _ e h => (h.step e).1) (.start a) evs

theorem disk_le_run (cfg : ChannelConfig A) {a : A} (h : t.Safe cfg.services a)
    (evs : List (ChannelEvent A)) : t.disk.le (run (step cfg) t evs).disk :=
  run_rel (R := fun t t' => t.disk.le t'.disk) (fun _ e h => (h.step e).1)
    (fun _ => .refl _) Copy.le.trans (fun _ e h => (h.step e).2) h evs

/-- **The channel is exactly-once.** The persisted assets come from the first ones by changes
of which no two are by the same operation; an applied row has its change there, the one that
its bundle asks for, in full or in part as the history says; a rejected or aborted row has none,
neither there nor in memory, now or later. -/
theorem asset_ops_exactly_once (cfg : ChannelConfig A) (a : A) (evs : List (ChannelEvent A)) :
    let t := Machine.run (step cfg) (start a) evs
    Chained a t.disk.changes t.disk.player.assets ∧ t.disk.effects.Nodup ∧
      (t.rows.map Row.key).Nodup ∧
      (∀ row ∈ t.rows, row.status = .applied ∨ row.status = .appliedPartial →
        ∃ change ∈ t.disk.changes, change.op = some row.request ∧
          t.disk.Makes cfg.services row.request change.before change.after) ∧
      (∀ row ∈ t.rows, row.status = .rejected ∨ row.status = .aborted → ∀ later,
        let t' := Machine.run (step cfg) t later
        row.key ∉ t'.disk.effects ∧ ∀ c, t'.live = some c → row.key ∉ c.effects) := by
  intro t
  have h : t.Safe cfg.services a := safe_run cfg a evs
  have hdisk := h.copies.disk_ok
  refine ⟨hdisk.chained, hdisk.effects_nodup, ?_, ?_, ?_⟩
  · have hkeys : t.ids.map (fun p => p.2.key) = t.rows.map Row.key := map_map
    exact hkeys ▸ h.numbered.keys
  · intro row hrow hstatus
    have hdecided : t.disk.Decides row.key true := by
      refine h.evident.rows row hrow true ?_
      rcases hstatus with hs | hs <;> rw [hs] <;> rfl
    obtain ⟨change, hchange, hop⟩ := mem_filterMap.1 (hdisk.mem_effects.2 hdecided)
    obtain ⟨request, hop, hkey⟩ := Option.map_eq_some_iff.1 hop
    obtain ⟨⟨m, hm, rfl⟩, hmakes⟩ := hdisk.made change hchange request hop
    have hrequest : m.request = row.request := h.numbered.sent_request hm hrow hkey
    rw [hrequest] at hop hmakes
    exact ⟨change, hchange, hop, hmakes⟩
  · intro row hrow hstatus later t'
    have h' : t'.Safe cfg.services a := Machine.run_invariant (fun _ e h => (h.step e).1) h later
    have hrejected : t.disk.Decides row.key false := by
      refine h.evident.rows row hrow false ?_
      rcases hstatus with hs | hs <;> rw [hs] <;> rfl
    have hlater := hrejected.mono (disk_le_run cfg h later)
    refine ⟨fun hm => ?_, fun c hc hm => ?_⟩
    · exact h'.copies.disk_ok.not_both (h'.copies.disk_ok.mem_effects.1 hm) hlater
    · have hok := h'.copies.live_ok hc
      exact hok.not_both (hok.mem_effects.1 hm) (hlater.mono (h'.copies.disk_le_live hc))

structure Purse where
  gold : Nat
  pieces : Nat
deriving DecidableEq, Repr

/-- Gold is currency 1; no other currency can be given. -/
def purseServices : AssetServices Purse where
  digest _ := List.replicate 32 0
  snapshotBytes _ := 0
  maxStackSize _ := some 9
  petKnown _ := false
  maxPets := 0
  knownCurrency _ := true
  gainBlockedCurrency _ := false
  gainBlockedItem _ := false
  parseItem _ := none
  parsePet _ := none
  canAfford purse _ amount := amount ≤ purse.gold
  currencyBlocked _ _ := false
  checkQuantities _ _ := .enough
  canRemoveGuids _ _ := true
  itemByGuid _ _ := none
  containsGuid _ _ := false
  hasSpaceFor _ _ _ := true
  activePet _ := 0
  pets _ := []
  removeItemsExact purse _ := .ok purse
  removeItemsByGuid purse _ := .done purse
  removePetForTrade purse _ := .ok purse
  deductCurrency purse c := .ok { purse with gold := purse.gold - c.amount }
  addItems purse items := .ok { purse with pieces := purse.pieces + (items.map (·.count)).sum }
  putInstance purse _ := .ok purse
  restorePet purse _ := .ok purse
  addCurrency purse c :=
    if c.currencyType = 1 then .ok { purse with gold := purse.gold + c.amount } else .error 1

def purseConfig : ChannelConfig Purse := ⟨purseServices, ⟨false, false, false, 0⟩, ⟨8, 64⟩, 1⟩

/-- A debit that is delivered, lost in a crash, delivered again and answered from the ledger
once it is saved; and a credit of items and two currencies, of which the second fails. -/
def redelivered : List (ChannelEvent Purse) :=
  let env : SceneEnv := ⟨true, true, false, true, false, false, true, false, true, true, true, 3⟩
  [.ensureSeqRow .guildDebit 7, .enqueue 1 .guildDebit 24 ⟨[⟨1, 5⟩], [], [], 0, [], none⟩ 0,
    .claim 0 1 9 3, .send 0 1, .load true, .deliver 0 env, .crash, .load true, .deliver 0 env,
    .save, .write, .saved 0, .deliver 0 env, .settle 0 (.reply 2) .error .error,
    .ensureSeqRow .systemCredit 7,
    .enqueue 2 .systemCredit 8 ⟨[⟨1, 7⟩, ⟨2, 9⟩], [⟨4, 3⟩], [], 0, [], none⟩ 0,
    .claim 1 1 9 4, .send 1 1, .deliver 1 env, .save, .write, .saved 1, .deliver 1 env,
    .settle 1 (.reply 4) .error .error]

theorem redelivered_exactly_once :
    let t := Machine.run (step purseConfig) (start ⟨100, 0⟩) redelivered
    t.rows.map (·.status) = [.applied, .appliedPartial] ∧ t.disk.player.assets = ⟨102, 3⟩ ∧
      t.disk.changes.map (·.after) = [⟨95, 0⟩, ⟨102, 3⟩] ∧ t.replies.length = 5 ∧
      t.disk.effects.Nodup := by
  refine ⟨?_, ?_, ?_, ?_, (asset_ops_exactly_once purseConfig ⟨100, 0⟩ redelivered).2.1⟩ <;>
    decide +kernel

end Channel

end Mmorpg.AssetOp
