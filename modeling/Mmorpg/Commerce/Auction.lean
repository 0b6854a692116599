import Mmorpg.Commerce.Life

/-!
# The life of a lot and of a bid

A lot (kind 5) escrows what is sold, takes bids, and ends with its delivery to the highest bidder,
or with its return when there is none. A bid (kind 100) freezes the money of the bidder, waits to
be accepted, is held by the lot, and ends as settled or with its refund.
-/

namespace Mmorpg.Commerce

open Blocks (bind_eq_ok Keeps Skips Flow)

/-! ## Lots -/

inductive LotLife (d : Draft) : Prop where
  | escrowing (hat : At d .escrow) (hlegs : d.w.legs = [] ∨ ∃ a, d.w.legs = [a] ∧ d.SellerDebit a)
  | opened {a : Leg} (hat : At d .lotOpen) (hlegs : d.w.legs = [a]) (ha : d.SellerDebit a)
      (hheld : isApplied a = true)
  | delivering {a x y : Leg} (hpaying : Paying d .deliver .delivering .settled)
      (hlegs : d.w.legs = [a, x, y]) (ha : d.SellerDebit a) (hbidder : d.w.highestBidder ≠ 0)
      (hx : x.Pays .buyerReceive d.w.highestBidder a)
      (hy : y.purpose =
        ⟨.sellerReceive, d.r.sellerPlayerId, .tradeCredit, bundle d.w.buyerAssets⟩)
  | refused {a : Leg} (hpaying : Paying d .giveBack .cancelPending .cancelled)
      (hlegs : d.w.legs = [a]) (ha : d.SellerDebit a) (hdone : isDone a = true)
      (hrefused : isApplied a = false)
  | returning {a x : Leg} (hpaying : Paying d .giveBack .cancelPending .cancelled)
      (hlegs : d.w.legs = [a, x]) (ha : d.SellerDebit a)
      (hx : x.Pays .sellerReturn d.r.sellerPlayerId a)

structure AuctionLot (d : Draft) : Prop where
  kind : d.r.kind = .auctionLot
  assets : d.w.sellerAssets.NonEmpty
  life : LotLife d

variable {d' : Draft}

namespace LotLife

variable {d : Draft}

theorem drift (h : LotLife d) (hd : Drift d d') : LotLife d' := by
  obtain ⟨⟨status, version, stage, legs, rfl⟩, hl, hstays, hdelivers, hreturns, -⟩ := hd
  dsimp only at hl
  cases h with
  | escrowing hat hlegs =>
    exact .escrowing (hstays hat (by decide)) (collecting_later hlegs hl)
  | opened hat hlegs ha hheld =>
    rw [hlegs] at hl
    rcases hl with _ | ⟨la, _ | _⟩
    exact .opened (hstays hat (by decide)) rfl (ha.later la) (la.isApplied hheld)
  | delivering hpaying hlegs ha hbidder hx hy =>
    rw [hlegs] at hl
    rcases hl with _ | ⟨la, _ | ⟨lx, _ | ⟨ly, _ | _⟩⟩⟩
    exact .delivering (hdelivers hpaying) rfl (ha.later la) hbidder (hx.later lx la)
      (ly.purpose.trans hy)
  | refused hpaying hlegs ha hdone hrefused =>
    rw [hlegs] at hl
    rcases hl with _ | ⟨la, _ | _⟩
    exact .refused (hreturns hpaying) rfl (ha.later la) (la.isDone hdone)
      (by rw [la.isApplied_eq hdone, hrefused])
  | returning hpaying hlegs ha hx =>
    rw [hlegs] at hl
    rcases hl with _ | ⟨la, _ | ⟨lx, _ | _⟩⟩
    exact .returning (hreturns hpaying) rfl (ha.later la) (hx.later lx la)

theorem stage_mem (h : LotLife d) :
    d.w.stage ∈ [.escrow, .lotOpen, .deliver, .giveBack, .done, .manual] := by
  cases h with
  | escrowing hat | opened hat => rcases hat with ⟨hs, -⟩ | ⟨hs, -⟩ <;> simp [hs]
  | delivering hp | refused hp | returning hp =>
    rcases hp with ⟨hs, -⟩ | ⟨hs | hs, -⟩ | ⟨hs, -⟩ <;> simp [hs]

structure ByStage (d : Draft) : Prop where
  escrow : d.w.stage = .escrow →
    d.r.status.terminal = false ∧ (d.w.legs = [] ∨ ∃ a, d.w.legs = [a] ∧ d.SellerDebit a)
  lotOpen : d.w.stage = .lotOpen → d.r.status.terminal = false ∧
    ∃ a, d.w.legs = [a] ∧ d.SellerDebit a ∧ isApplied a = true

theorem by_stage (h : LotLife d) : ByStage d := by
  cases h with
  | escrowing hat hlegs =>
    rcases hat with ⟨hs, hopen⟩ | ⟨hs, -⟩ <;> constructor <;> intro hs' <;>
      first | exact ⟨hopen, hlegs⟩ | cases hs.symm.trans hs'
  | opened hat hlegs ha hheld =>
    rcases hat with ⟨hs, hopen⟩ | ⟨hs, -⟩ <;> constructor <;> intro hs' <;>
      first | exact ⟨hopen, _, hlegs, ha, hheld⟩ | cases hs.symm.trans hs'
  | delivering hp | refused hp | returning hp =>
    rcases hp with ⟨hs, -⟩ | ⟨hs | hs, -⟩ | ⟨hs, -⟩ <;> constructor <;> intro hs' <;>
      cases hs.symm.trans hs'

end LotLife

theorem AuctionLot.drift {d d' : Draft} (h : AuctionLot d) (hd : Drift d d') : AuctionLot d' := by
  have hlife := h.life.drift hd
  obtain ⟨_, _, _, _, rfl⟩ := hd.shape
  exact ⟨h.kind, h.assets, hlife⟩

namespace AuctionLot

variable {p : Policy} {now : Nat}

theorem keeps_planEscrow : KeepsAt AuctionLot [.escrow] (planEscrow p) := by
  intro d f ⟨hkind, hassets, hlife⟩ hs hf
  rw [List.mem_singleton] at hs
  obtain ⟨hopen, hlegs⟩ := hlife.by_stage.escrow hs
  have hopened : d.r.kind.openStage = .lotOpen := by rw [hkind]; rfl
  obtain ⟨a, ha, h | ⟨hdone, hrefused, h⟩ | ⟨x, hx, h⟩ | ⟨hheld, h⟩⟩ :=
    planEscrow_single (by simp [hkind]) hs hlegs hf
  · rw [h]
    exact ⟨hkind, hassets, .escrowing (.inl ⟨hs, hopen⟩) (.inr ⟨a, rfl, ha⟩)⟩
  · rw [h]
    exact ⟨hkind, hassets, .refused (.inl ⟨rfl, rfl⟩) rfl ha hdone hrefused⟩
  · rw [h]
    exact ⟨hkind, hassets, .returning (.inl ⟨rfl, rfl⟩) rfl ha hx⟩
  · rw [h, hopened]
    exact ⟨hkind, hassets, .opened (.inl ⟨rfl, hopen⟩) rfl ha hheld⟩

/-- The highest bidder gets the lot and the seller the money of the winning bid. -/
theorem keeps_planLotClose : KeepsAt AuctionLot [.lotOpen] (planLotClose now) := by
  intro d f ⟨hkind, hassets, hlife⟩ _ hf
  unfold planLotClose at hf
  split at hf
  next hguard =>
    obtain ⟨-, a, hlegs, ha, hheld⟩ := hlife.by_stage.lotOpen hguard.1
    have hleg : leg (d.move .deliver .delivering).w .sellerDebit = some a := by
      simp [leg, Draft.move, hlegs, ha.role]
    obtain ⟨w₁, h₁, hf⟩ := bind_eq_ok hf
    cases hf
    rw [hleg] at h₁
    obtain ⟨x, hx, rfl⟩ := transferLeg_pays h₁ (by simp [Draft.move, hlegs, ha.role]) hheld
    rw [addLeg_of_not_mem (by simp [Draft.move, hlegs, ha.role, hx.role])]
    exact ⟨hkind, hassets, .delivering (.inl ⟨rfl, rfl⟩)
      (by simp [Draft.move, Flow.state, hlegs]; rfl) ha hguard.2.2 hx rfl⟩
  · cases hf
    exact ⟨hkind, hassets, hlife⟩

theorem keeps_planExpire : KeepsAt AuctionLot [.opened, .lotOpen] (planExpire now) := by
  intro d f ⟨hkind, hassets, hlife⟩ hs hf
  have hs : d.w.stage = .lotOpen := stage_eq_of hlife.stage_mem hs (by decide)
  unfold planExpire at hf
  split at hf
  · cases hf
    obtain ⟨hopen, a, hlegs, ha, hheld⟩ := hlife.by_stage.lotOpen hs
    exact ⟨hkind, hassets, .opened (.inl ⟨hs, hopen⟩) hlegs ha hheld⟩
  · cases hf
    exact ⟨hkind, hassets, hlife⟩

theorem keeps_planCancel : KeepsAt AuctionLot [.opened, .lotOpen, .marketOpen] planCancel := by
  intro d f ⟨hkind, hassets, hlife⟩ hs hf
  have hs : d.w.stage = .lotOpen := stage_eq_of hlife.stage_mem hs (by decide)
  obtain ⟨-, a, hlegs, ha, hheld⟩ := hlife.by_stage.lotOpen hs
  rcases planCancel_return (by simp [hkind]) hassets ha hheld (by simp [leg, hlegs, ha.role])
    (by simp [hlegs, ha.role]) hf with h | ⟨x, hx, -, h⟩
  · rw [h]
    exact ⟨hkind, hassets, hlife⟩
  · rw [h, hlegs]
    exact ⟨hkind, hassets, .returning (.inl ⟨rfl, rfl⟩) rfl ha hx⟩

variable {d : Draft}

theorem plan_keeps (h : AuctionLot d) (hplan : plan p now d = .ok d') : AuctionLot d' := by
  have hfinish : KeepsAt AuctionLot [.deliver, .giveBack] planFinish := fun _ _ h _ hf =>
    h.drift (.planFinish hf)
  exact plan_keeps_of (fun hd => by simp [hd.kind]) (by decide) (fun hd => hd.life.stage_mem)
    (by simpa [guardedBlocks] using
      ⟨keeps_planEscrow, keeps_planLotClose, keeps_planExpire, keeps_planCancel, hfinish⟩) h hplan

/-- An open lot stays open whatever bid it takes. -/
theorem bid_keeps {bid : Draft} {bidId : CommerceId} (h : AuctionLot d)
    (hs : d.w.stage = .lotOpen) : AuctionLot (takeBid bidId bid d) := by
  obtain ⟨hopen, a, hlegs, ha, hheld⟩ := h.life.by_stage.lotOpen hs
  exact ⟨h.kind, h.assets, .opened (.inl ⟨hs, hopen⟩) hlegs ha hheld⟩

theorem cancel_keeps (h : AuctionLot d) (hs : d.w.stage = .lotOpen) :
    AuctionLot d.cancelPending := by
  obtain ⟨-, a, hlegs, ha, hheld⟩ := h.life.by_stage.lotOpen hs
  exact ⟨h.kind, h.assets, .opened (.inl ⟨hs, rfl⟩) hlegs ha hheld⟩

theorem closed : Closed AuctionLot .auctionLot
    [.escrow, .lotOpen, .deliver, .giveBack, .done, .manual] where
  kind_eq h := h.kind
  stage_mem h := h.life.stage_mem
  later h hl := h.drift (.setLegs hl)
  manual h := h.drift .manual
  bump h := h.drift .bump
  plan h hplan := h.plan_keeps hplan
  cancelLot _ _ h hs := h.cancel_keeps hs
  bid _ _ _ _ h hs := h.bid_keeps hs

end AuctionLot

/-! ## Bids -/

/-- The debit of the bidder, who is the seller of the row. -/
abbrev Draft.BidDebit (d : Draft) (b : Leg) : Prop :=
  b.Debit .bidDebit d.r.sellerPlayerId d.w.sellerAssets

inductive BidLife (d : Draft) : Prop where
  | freezing (hat : At d .bidFreeze) (hlegs : d.w.legs = [] ∨ ∃ b, d.w.legs = [b] ∧ d.BidDebit b)
  | refused {b : Leg} (hpaying : Paying d .giveBack .cancelPending .cancelled)
      (hlegs : d.w.legs = [b]) (hb : d.BidDebit b) (hdone : isDone b = true)
      (hrefused : isApplied b = false)
  | frozen {b : Leg} {stage : Stage} (hat : At d stage)
      (hstage : stage = .bidReady ∨ stage = .bidHeld ∨ stage = .bidRefund)
      (hlegs : d.w.legs = [b]) (hb : d.BidDebit b) (hheld : isApplied b = true)
  | settled {b : Leg}
      (hat : (d.w.stage = .done ∧ d.r.status = .settled) ∨
        (d.w.stage = .manual ∧ d.r.status = .manual))
      (hlegs : d.w.legs = [b]) (hb : d.BidDebit b) (hheld : isApplied b = true)
  | returning {b x : Leg} (hpaying : Paying d .giveBack .cancelPending .cancelled)
      (hlegs : d.w.legs = [b, x]) (hb : d.BidDebit b)
      (hx : x.Pays .bidReturn d.r.sellerPlayerId b)

structure AuctionBid (d : Draft) : Prop where
  kind : d.r.kind = .bid
  life : BidLife d

namespace BidLife

variable {d : Draft}

theorem drift (h : BidLife d) (hd : Drift d d') : BidLife d' := by
  obtain ⟨⟨status, version, stage, legs, rfl⟩, hl, hstays, hdelivers, hreturns, hconcluded⟩ := hd
  dsimp only at hl
  cases h with
  | freezing hat hlegs =>
    exact .freezing (hstays hat (by decide)) (collecting_later hlegs hl)
  | refused hpaying hlegs hb hdone hrefused =>
    rw [hlegs] at hl
    rcases hl with _ | ⟨lb, _ | _⟩
    exact .refused (hreturns hpaying) rfl (hb.later lb) (lb.isDone hdone)
      (by rw [lb.isApplied_eq hdone, hrefused])
  | frozen hat hstage hlegs hb hheld =>
    rw [hlegs] at hl
    rcases hl with _ | ⟨lb, _ | _⟩
    exact .frozen (hstays hat (by rcases hstage with rfl | rfl | rfl <;> decide)) hstage rfl
      (hb.later lb) (lb.isApplied hheld)
  | settled hat hlegs hb hheld =>
    rw [hlegs] at hl
    rcases hl with _ | ⟨lb, _ | _⟩
    exact .settled (hconcluded hat) rfl (hb.later lb) (lb.isApplied hheld)
  | returning hpaying hlegs hb hx =>
    rw [hlegs] at hl
    rcases hl with _ | ⟨lb, _ | ⟨lx, _ | _⟩⟩
    exact .returning (hreturns hpaying) rfl (hb.later lb) (hx.later lx lb)

theorem stage_mem (h : BidLife d) :
    d.w.stage ∈ [.bidFreeze, .bidReady, .bidHeld, .bidRefund, .giveBack, .done, .manual] := by
  cases h with
  | freezing hat | settled hat => rcases hat with ⟨hs, -⟩ | ⟨hs, -⟩ <;> simp [hs]
  | frozen hat hstage =>
    rcases hat with ⟨hs, -⟩ | ⟨hs, -⟩
    · rcases hstage with hstage | hstage | hstage <;> simp [hs, hstage]
    · simp [hs]
  | refused hp | returning hp =>
    rcases hp with ⟨hs, -⟩ | ⟨hs | hs, -⟩ | ⟨hs, -⟩ <;> simp [hs]

structure ByStage (d : Draft) : Prop where
  bidFreeze : d.w.stage = .bidFreeze →
    d.r.status.terminal = false ∧ (d.w.legs = [] ∨ ∃ b, d.w.legs = [b] ∧ d.BidDebit b)
  frozen : d.w.stage = .bidReady ∨ d.w.stage = .bidHeld ∨ d.w.stage = .bidRefund →
    d.r.status.terminal = false ∧ ∃ b, d.w.legs = [b] ∧ d.BidDebit b ∧ isApplied b = true

theorem by_stage (h : BidLife d) : ByStage d := by
  cases h with
  | freezing hat hlegs =>
    rcases hat with ⟨hs, hopen⟩ | ⟨hs, -⟩ <;> constructor <;> intro hs' <;>
      first | exact ⟨hopen, hlegs⟩ | simp [hs] at hs'
  | frozen hat hstage hlegs hb hheld =>
    rcases hat with ⟨rfl, hopen⟩ | ⟨hs, -⟩ <;> constructor <;> intro hs' <;>
      first | exact ⟨hopen, _, hlegs, hb, hheld⟩ | simp [hs] at hs' | simp [hs'] at hstage
  | settled hat =>
    rcases hat with ⟨hs, -⟩ | ⟨hs, -⟩ <;> constructor <;> intro hs' <;> simp [hs] at hs'
  | refused hp | returning hp =>
    rcases hp with ⟨hs, -⟩ | ⟨hs | hs, -⟩ | ⟨hs, -⟩ <;> constructor <;> intro hs' <;>
      simp [hs] at hs'

end BidLife

theorem AuctionBid.drift {d d' : Draft} (h : AuctionBid d) (hd : Drift d d') : AuctionBid d' := by
  have hlife := h.life.drift hd
  obtain ⟨_, _, _, _, rfl⟩ := hd.shape
  exact ⟨h.kind, hlife⟩

namespace AuctionBid

variable {p : Policy} {now : Nat}

theorem keeps_planBidFreeze : KeepsAt AuctionBid [.bidFreeze] planBidFreeze := by
  intro d f ⟨hkind, hlife⟩ hs hf
  rw [List.mem_singleton] at hs
  obtain ⟨hopen, hlegs⟩ := hlife.by_stage.bidFreeze hs
  obtain ⟨b, hb, hadd, hleg⟩ := addLeg_collect hlegs (by simp)
  unfold planBidFreeze at hf
  rw [if_pos hs, hadd] at hf
  dsimp only at hf
  rw [hleg] at hf
  split at hf
  · cases hf
    exact ⟨hkind, .freezing (.inl ⟨hs, hopen⟩) (.inr ⟨b, rfl, hb⟩)⟩
  rename_i hdone
  rw [done_some, not_not] at hdone
  split at hf
  next happlied =>
    cases hf
    exact ⟨hkind, .frozen (.inl ⟨rfl, hopen⟩) (.inl rfl) rfl hb happlied⟩
  next hrefused =>
    cases hf
    refine ⟨hkind, .refused (.inr (.inr ⟨rfl, rfl, ?_⟩)) rfl hb hdone (by simpa using hrefused)⟩
    simp [Draft.move, Flow.state, hb.stream]

theorem keeps_planBidRefund : KeepsAt AuctionBid [.bidRefund] planBidRefund := by
  intro d f ⟨hkind, hlife⟩ hs hf
  rw [List.mem_singleton] at hs
  obtain ⟨-, b, hlegs, hb, hheld⟩ := hlife.by_stage.frozen (.inr (.inr hs))
  have hleg : leg d.w .bidDebit = some b := by simp [leg, hlegs, hb.role]
  unfold planBidRefund at hf
  rw [if_pos hs, hleg] at hf
  dsimp only at hf
  rw [if_neg (by simp [hheld])] at hf
  obtain ⟨w₁, h₁, hf⟩ := bind_eq_ok hf
  cases hf
  obtain ⟨x, hx, rfl⟩ := transferLeg_pays h₁ (by simp [hlegs, hb.role]) hheld
  exact ⟨hkind, .returning (.inl ⟨rfl, rfl⟩) (by simp [Draft.move, Flow.state, hlegs]) hb hx⟩

theorem keeps_planFinish : KeepsAt AuctionBid [.deliver, .giveBack] planFinish := fun _ _ h _ hf =>
  h.drift (.planFinish hf)

variable {d : Draft}

section

variable (h : AuctionBid d)

include h

theorem plan_keeps (hplan : plan p now d = .ok d') : AuctionBid d' := by
  exact plan_keeps_of (fun hd => by simp [hd.kind]) (by decide) (fun hd => hd.life.stage_mem)
    (by simpa [guardedBlocks] using
      ⟨keeps_planBidFreeze, keeps_planBidRefund, keeps_planFinish⟩) h hplan

theorem refund_keeps (hs : d.w.stage = .bidReady ∨ d.w.stage = .bidHeld) :
    AuctionBid d.refundBid := by
  obtain ⟨-, b, hlegs, hb, hheld⟩ := h.life.by_stage.frozen (hs.imp_right .inl)
  exact ⟨h.kind, .frozen (.inl ⟨rfl, rfl⟩) (.inr (.inr rfl)) hlegs hb hheld⟩

theorem take_keeps (hs : d.w.stage = .bidReady) : AuctionBid (d.enter .bidHeld) := by
  obtain ⟨hopen, b, hlegs, hb, hheld⟩ := h.life.by_stage.frozen (.inl hs)
  exact ⟨h.kind, .frozen (.inl ⟨rfl, hopen⟩) (.inr (.inl rfl)) hlegs hb hheld⟩

theorem settle_keeps (hs : d.w.stage = .bidHeld) : AuctionBid (d.move .done .settled) := by
  obtain ⟨-, b, hlegs, hb, hheld⟩ := h.life.by_stage.frozen (.inr (.inl hs))
  exact ⟨h.kind, .settled (.inl ⟨rfl, rfl⟩) hlegs hb hheld⟩

end

theorem closed : Closed AuctionBid .bid
    [.bidFreeze, .bidReady, .bidHeld, .bidRefund, .giveBack, .done, .manual] where
  kind_eq h := h.kind
  stage_mem h := h.life.stage_mem
  later h hl := h.drift (.setLegs hl)
  manual h := h.drift .manual
  bump h := h.drift .bump
  plan h hplan := h.plan_keeps hplan
  refund _ _ h hs := h.refund_keeps hs
  take _ _ h hs := h.take_keeps hs
  settle _ _ h hs := h.settle_keeps hs

end AuctionBid

end Mmorpg.Commerce
