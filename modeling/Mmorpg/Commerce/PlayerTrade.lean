import Mmorpg.Commerce.Life

/-!
# The life of a player trade

The legs of a trade between two players (kind 2) in every phase: the debit of the seller, the debit
of the buyer, and the credits that cross them over or give them back.
-/

namespace Mmorpg.Commerce

open Blocks (bind_eq_ok Keeps Skips Flow runBlocks_keeps)

abbrev Draft.BuyerDebit (d : Draft) (b : Leg) : Prop :=
  b.Debit .buyerDebit d.r.buyerPlayerId d.w.buyerAssets

/-- The phases of a player trade; a refused debit is final and not applied. -/
inductive TradeLife (d : Draft) : Prop where
  | offered (hat : At d .offerEscrow) (hconfirmed : d.w.sellerConfirmed = false)
      (hlegs : d.w.legs = [] ∨ ∃ a, d.w.legs = [a] ∧ d.SellerDebit a)
  | held {a : Leg} (hat : At d .confirm ∨ At d .buyerEscrow)
      (hconfirmed : d.w.sellerConfirmed = false) (hlegs : d.w.legs = [a]) (ha : d.SellerDebit a)
      (hheld : isApplied a = true)
  | collecting {a b : Leg} (hat : At d .buyerEscrow) (hconfirmed : d.w.sellerConfirmed = false)
      (hlegs : d.w.legs = [a, b]) (ha : d.SellerDebit a) (hheld : isApplied a = true)
      (hb : d.BuyerDebit b)
  | collected {a b : Leg} (hat : At d .confirm) (hconfirmed : d.w.sellerConfirmed = false)
      (hlegs : d.w.legs = [a, b]) (ha : d.SellerDebit a) (hheld : isApplied a = true)
      (hb : d.BuyerDebit b) (hdone : isDone b = true)
      (hrefused : isApplied b = false → d.w.cancelRequested = true)
  | agreed {a b : Leg} (hat : At d .escrow) (hlegs : d.w.legs = [a, b]) (ha : d.SellerDebit a)
      (hheld : isApplied a = true) (hb : d.BuyerDebit b) (hpaid : isApplied b = true)
  | crossing {a b x y : Leg} (hpaying : Paying d .deliver .delivering .settled)
      (hlegs : d.w.legs = [a, b, x, y]) (ha : d.SellerDebit a) (hb : d.BuyerDebit b)
      (hx : x.Pays .sellerReceive d.r.sellerPlayerId b)
      (hy : y.Pays .buyerReceive d.r.buyerPlayerId a)
  | refused {a : Leg} (hpaying : Paying d .giveBack .cancelPending .cancelled)
      (hlegs : d.w.legs = [a]) (ha : d.SellerDebit a) (hdone : isDone a = true)
      (hrefused : isApplied a = false)
  | returning {a x : Leg} (hpaying : Paying d .giveBack .cancelPending .cancelled)
      (hlegs : d.w.legs = [a, x]) (ha : d.SellerDebit a)
      (hx : x.Pays .sellerReturn d.r.sellerPlayerId a)
  | returningRefused {a b x : Leg} (hpaying : Paying d .giveBack .cancelPending .cancelled)
      (hlegs : d.w.legs = [a, b, x]) (ha : d.SellerDebit a) (hb : d.BuyerDebit b)
      (hdone : isDone b = true) (hrefused : isApplied b = false)
      (hx : x.Pays .sellerReturn d.r.sellerPlayerId a)
  | returningBoth {a b x y : Leg} (hpaying : Paying d .giveBack .cancelPending .cancelled)
      (hlegs : d.w.legs = [a, b, x, y]) (ha : d.SellerDebit a) (hb : d.BuyerDebit b)
      (hx : x.Pays .sellerReturn d.r.sellerPlayerId a)
      (hy : y.Pays .buyerReturn d.r.buyerPlayerId b)

variable {d' : Draft}

namespace TradeLife

variable {d : Draft}

theorem drift (h : TradeLife d) (hd : Drift d d') : TradeLife d' := by
  obtain ⟨⟨status, version, stage, legs, rfl⟩, hl, hstays, hdelivers, hreturns, -⟩ := hd
  cases h with
  | offered hat hconfirmed hlegs =>
    exact .offered (hstays hat (by decide)) hconfirmed (collecting_later hlegs hl)
  | held hat hconfirmed hlegs ha hheld =>
    rw [hlegs] at hl
    rcases hl with _ | ⟨la, _ | _⟩
    exact .held (hat.imp (hstays · (by decide)) (hstays · (by decide))) hconfirmed rfl
      (ha.later la) (la.isApplied hheld)
  | collecting hat hconfirmed hlegs ha hheld hb =>
    rw [hlegs] at hl
    rcases hl with _ | ⟨la, _ | ⟨lb, _ | _⟩⟩
    exact .collecting (hstays hat (by decide)) hconfirmed rfl (ha.later la)
      (la.isApplied hheld) (hb.later lb)
  | collected hat hconfirmed hlegs ha hheld hb hdone hrefused =>
    rw [hlegs] at hl
    rcases hl with _ | ⟨la, _ | ⟨lb, _ | _⟩⟩
    refine .collected (hstays hat (by decide)) hconfirmed rfl (ha.later la)
      (la.isApplied hheld) (hb.later lb) (lb.isDone hdone) fun hnot => hrefused ?_
    rwa [lb.isApplied_eq hdone] at hnot
  | agreed hat hlegs ha hheld hb hpaid =>
    rw [hlegs] at hl
    rcases hl with _ | ⟨la, _ | ⟨lb, _ | _⟩⟩
    exact .agreed (hstays hat (by decide)) rfl (ha.later la) (la.isApplied hheld)
      (hb.later lb) (lb.isApplied hpaid)
  | crossing hpaying hlegs ha hb hx hy =>
    rw [hlegs] at hl
    rcases hl with _ | ⟨la, _ | ⟨lb, _ | ⟨lx, _ | ⟨ly, _ | _⟩⟩⟩⟩
    exact .crossing (hdelivers hpaying) rfl (ha.later la) (hb.later lb) (hx.later lx lb)
      (hy.later ly la)
  | refused hpaying hlegs ha hdone hrefused =>
    rw [hlegs] at hl
    rcases hl with _ | ⟨la, _ | _⟩
    exact .refused (hreturns hpaying) rfl (ha.later la) (la.isDone hdone)
      (by rw [la.isApplied_eq hdone, hrefused])
  | returning hpaying hlegs ha hx =>
    rw [hlegs] at hl
    rcases hl with _ | ⟨la, _ | ⟨lx, _ | _⟩⟩
    exact .returning (hreturns hpaying) rfl (ha.later la) (hx.later lx la)
  | returningRefused hpaying hlegs ha hb hdone hrefused hx =>
    rw [hlegs] at hl
    rcases hl with _ | ⟨la, _ | ⟨lb, _ | ⟨lx, _ | _⟩⟩⟩
    exact .returningRefused (hreturns hpaying) rfl (ha.later la) (hb.later lb)
      (lb.isDone hdone) (by rw [lb.isApplied_eq hdone, hrefused]) (hx.later lx la)
  | returningBoth hpaying hlegs ha hb hx hy =>
    rw [hlegs] at hl
    rcases hl with _ | ⟨la, _ | ⟨lb, _ | ⟨lx, _ | ⟨ly, _ | _⟩⟩⟩⟩
    exact .returningBoth (hreturns hpaying) rfl (ha.later la) (hb.later lb) (hx.later lx la)
      (hy.later ly lb)

theorem stage_mem (h : TradeLife d) :
    d.w.stage ∈ [.offerEscrow, .confirm, .buyerEscrow, .escrow, .deliver, .giveBack, .done,
      .manual] := by
  cases h with
  | held hat => rcases hat with (⟨hs, -⟩ | ⟨hs, -⟩) | (⟨hs, -⟩ | ⟨hs, -⟩) <;> simp [hs]
  | offered hat | collecting hat | collected hat | agreed hat =>
    rcases hat with ⟨hs, -⟩ | ⟨hs, -⟩ <;> simp [hs]
  | crossing hp | refused hp | returning hp | returningRefused hp | returningBoth hp =>
    rcases hp with ⟨hs, -⟩ | ⟨hs | hs, -⟩ | ⟨hs, -⟩ <;> simp [hs]

/-! ## The phases by stage -/

structure ByStage (d : Draft) : Prop where
  offerEscrow : d.w.stage = .offerEscrow → d.r.status.terminal = false ∧
    d.w.sellerConfirmed = false ∧ (d.w.legs = [] ∨ ∃ a, d.w.legs = [a] ∧ d.SellerDebit a)
  buyerEscrow : d.w.stage = .buyerEscrow → d.r.status.terminal = false ∧ ∃ a, d.SellerDebit a ∧
    isApplied a = true ∧ d.w.sellerConfirmed = false ∧
      (d.w.legs = [a] ∨ ∃ b, d.w.legs = [a, b] ∧ d.BuyerDebit b)
  confirm : d.w.stage = .confirm → d.r.status.terminal = false ∧ ∃ a, d.SellerDebit a ∧
    isApplied a = true ∧ d.w.sellerConfirmed = false ∧
      (d.w.legs = [a] ∨ ∃ b, d.w.legs = [a, b] ∧ d.BuyerDebit b ∧ isDone b = true ∧
        (isApplied b = false → d.w.cancelRequested = true))
  escrow : d.w.stage = .escrow → ∃ a b, d.w.legs = [a, b] ∧ d.SellerDebit a ∧
    isApplied a = true ∧ d.BuyerDebit b ∧ isApplied b = true

theorem by_stage (h : TradeLife d) : ByStage d := by
  cases h with
  | offered hat hconfirmed hlegs =>
    rcases hat with ⟨hs, hopen⟩ | ⟨hs, -⟩ <;> constructor <;> intro hs' <;>
      first | exact ⟨hopen, hconfirmed, hlegs⟩ | cases hs.symm.trans hs'
  | held hat hconfirmed hlegs ha hheld =>
    rcases hat with (⟨hs, hopen⟩ | ⟨hs, -⟩) | (⟨hs, hopen⟩ | ⟨hs, -⟩) <;> constructor <;>
      intro hs' <;>
      first | exact ⟨hopen, _, ha, hheld, hconfirmed, .inl hlegs⟩ | cases hs.symm.trans hs'
  | collecting hat hconfirmed hlegs ha hheld hb =>
    rcases hat with ⟨hs, hopen⟩ | ⟨hs, -⟩ <;> constructor <;> intro hs' <;>
      first
        | exact ⟨hopen, _, ha, hheld, hconfirmed, .inr ⟨_, hlegs, hb⟩⟩
        | cases hs.symm.trans hs'
  | collected hat hconfirmed hlegs ha hheld hb hdone hrefused =>
    rcases hat with ⟨hs, hopen⟩ | ⟨hs, -⟩ <;> constructor <;> intro hs' <;>
      first
        | exact ⟨hopen, _, ha, hheld, hconfirmed, .inr ⟨_, hlegs, hb, hdone, hrefused⟩⟩
        | cases hs.symm.trans hs'
  | agreed hat hlegs ha hheld hb hpaid =>
    rcases hat with ⟨hs, -⟩ | ⟨hs, -⟩ <;> constructor <;> intro hs' <;>
      first | exact ⟨_, _, hlegs, ha, hheld, hb, hpaid⟩ | cases hs.symm.trans hs'
  | crossing hp | refused hp | returning hp | returningRefused hp | returningBoth hp =>
    rcases hp with ⟨hs, -⟩ | ⟨hs | hs, -⟩ | ⟨hs, -⟩ <;> constructor <;> intro hs' <;>
      cases hs.symm.trans hs'

end TradeLife

structure PlayerTrade (d : Draft) : Prop where
  kind : d.r.kind = .playerTrade
  life : TradeLife d

theorem PlayerTrade.drift {d d' : Draft} (h : PlayerTrade d) (hd : Drift d d') :
    PlayerTrade d' := by
  have hlife := h.life.drift hd
  obtain ⟨_, _, _, _, rfl⟩ := hd.shape
  exact ⟨h.kind, hlife⟩

namespace PlayerTrade

variable {p : Policy} {now : Nat}

/-! ## The blocks of the plan -/

theorem keeps_planOfferEscrow : KeepsAt PlayerTrade [.offerEscrow] (planOfferEscrow p) := by
  intro d f ⟨hkind, hlife⟩ hs hf
  rw [List.mem_singleton] at hs
  obtain ⟨hopen, hconfirmed, hlegs⟩ := hlife.by_stage.offerEscrow hs
  obtain ⟨a, ha, hadd, hleg⟩ := addLeg_collect hlegs (by simp)
  unfold planOfferEscrow at hf
  rw [if_pos hs, hadd] at hf
  dsimp only at hf
  rw [hleg] at hf
  split at hf
  · cases hf
    exact ⟨hkind, .offered (.inl ⟨hs, hopen⟩) hconfirmed (.inr ⟨a, rfl, ha⟩)⟩
  rename_i hdone
  rw [not_not] at hdone
  split at hf
  next hrefused =>
    cases hf
    refine ⟨hkind, .refused (.inr (.inr ⟨rfl, rfl, ?_⟩)) rfl ha hdone (by simpa using hrefused)⟩
    simp [Draft.move, Flow.state, ha.stream]
  next happlied =>
    cases hf
    exact ⟨hkind, .held (.inl (.inl ⟨rfl, rfl⟩)) hconfirmed rfl ha (by simpa using happlied)⟩

theorem keeps_planBuyerEscrow : KeepsAt PlayerTrade [.buyerEscrow] (planBuyerEscrow p) := by
  intro d f ⟨hkind, hlife⟩ hs hf
  rw [List.mem_singleton] at hs
  obtain ⟨hopen, a, ha, hheld, hconfirmed, hlegs⟩ := hlife.by_stage.buyerEscrow hs
  obtain ⟨b, hb, hadd, hleg⟩ := addLeg_collect hlegs (by simp [ha.role])
  unfold planBuyerEscrow at hf
  rw [if_pos hs, hadd] at hf
  dsimp only at hf
  rw [hleg] at hf
  split at hf
  · cases hf
    exact ⟨hkind, .collecting (.inl ⟨hs, hopen⟩) hconfirmed rfl ha hheld hb⟩
  rename_i hdone
  rw [not_not] at hdone
  cases hf
  refine ⟨hkind, .collected (.inl ⟨rfl, rfl⟩) hconfirmed rfl ha hheld hb hdone fun hnot => ?_⟩
  simp [Draft.move, Flow.state, hnot]

theorem keeps_planConfirm : KeepsAt PlayerTrade [.confirm] (planConfirm now) := by
  intro d f ⟨hkind, hlife⟩ _ hf
  unfold planConfirm at hf
  split at hf
  next hguard =>
    obtain ⟨-, a, ha, hheld, -, hlegs⟩ := hlife.by_stage.confirm hguard.2.1
    obtain ⟨w₁, h₁, hf⟩ := bind_eq_ok hf
    obtain ⟨w₂, h₂, hf⟩ := bind_eq_ok hf
    cases hf
    have hleg : leg (d.move .giveBack .cancelPending).w .sellerDebit = some a := by
      rcases hlegs with hlegs | ⟨b, hlegs, -⟩ <;> simp [leg, Draft.move, hlegs, ha.role]
    have hnew : ∀ l ∈ (d.move .giveBack .cancelPending).w.legs, l.role ≠ .sellerReturn := by
      rcases hlegs with hlegs | ⟨b, hlegs, hb, -⟩
      · simp [Draft.move, hlegs, ha.role]
      · simp [Draft.move, hlegs, ha.role, hb.role]
    rw [hleg] at h₁
    obtain ⟨x, hx, rfl⟩ := returnApplied_pays h₁ hnew hheld
    refine ⟨hkind, ?_⟩
    rcases hlegs with hlegs | ⟨b, hlegs, hb, hdone, -⟩
    · obtain rfl := returnApplied_of_not h₂
        (by simp [leg, Draft.move, hlegs, ha.role, hx.role])
      exact .returning (.inl ⟨rfl, rfl⟩) (by simp [Draft.move, Flow.state, hlegs]) ha hx
    · have hleg₂ : leg { (d.move .giveBack .cancelPending).w with
          legs := (d.move .giveBack .cancelPending).w.legs ++ [x] } .buyerDebit = some b := by
        simp [leg, Draft.move, hlegs, ha.role, hb.role]
      rw [hleg₂] at h₂
      by_cases hpaid : isApplied b = true
      · obtain ⟨y, hy, rfl⟩ := returnApplied_pays h₂
          (by simp [Draft.move, hlegs, ha.role, hb.role, hx.role]) hpaid
        exact .returningBoth (.inl ⟨rfl, rfl⟩) (by simp [Draft.move, Flow.state, hlegs]) ha hb hx hy
      · obtain rfl := returnApplied_of_not h₂ (by simpa using hpaid)
        exact .returningRefused (.inl ⟨rfl, rfl⟩) (by simp [Draft.move, Flow.state, hlegs]) ha hb
          hdone (eq_false_of_ne_true hpaid) hx
  · cases hf
    exact ⟨hkind, hlife⟩

theorem keeps_planEscrow : KeepsAt PlayerTrade [.escrow] (planEscrow p) := by
  intro d f ⟨hkind, hlife⟩ hs hf
  rw [List.mem_singleton] at hs
  obtain ⟨a, b, hlegs, ha, hheld, hb, hpaid⟩ := hlife.by_stage.escrow hs
  have hadd : addLeg d.w .sellerDebit d.r.sellerPlayerId .tradeDebit (bundle d.w.sellerAssets) =
      d.w := addLeg_of_mem ⟨a, by simp [hlegs], ha.role⟩ _ _ _
  have hadd' : addLeg d.w .buyerDebit d.r.buyerPlayerId .tradeDebit (bundle d.w.buyerAssets) =
      d.w := addLeg_of_mem ⟨b, by simp [hlegs], hb.role⟩ _ _ _
  have hlega : leg d.w .sellerDebit = some a := by simp [leg, hlegs, ha.role]
  have hlegb : leg d.w .buyerDebit = some b := by simp [leg, hlegs, ha.role, hb.role]
  have hdone : isDone a = true ∧ isDone b = true :=
    ⟨isDone_of_isApplied hheld, isDone_of_isApplied hpaid⟩
  unfold planEscrow at hf
  rw [if_pos hs, hadd] at hf
  dsimp only at hf
  rw [if_pos hkind, hadd', hlega, hlegb, if_neg (by simp [hdone])] at hf
  split at hf
  · obtain ⟨w₁, h₁, hf⟩ := bind_eq_ok hf
    obtain ⟨w₂, h₂, hf⟩ := bind_eq_ok hf
    cases hf
    obtain ⟨x, hx, rfl⟩ := returnApplied_pays h₁
      (by simp [Draft.move, hlegs, ha.role, hb.role]) hheld
    obtain ⟨y, hy, rfl⟩ := returnApplied_pays h₂
      (by simp [Draft.move, hlegs, ha.role, hb.role, hx.role]) hpaid
    exact ⟨hkind, .returningBoth (.inl ⟨rfl, rfl⟩) (by simp [Draft.move, Flow.state, hlegs])
      ha hb hx hy⟩
  · obtain ⟨w₁, h₁, hf⟩ := bind_eq_ok hf
    obtain ⟨w₂, h₂, hf⟩ := bind_eq_ok hf
    cases hf
    obtain ⟨x, hx, rfl⟩ := transferLeg_pays h₁
      (by simp [Draft.move, hlegs, ha.role, hb.role]) hpaid
    obtain ⟨y, hy, rfl⟩ := transferLeg_pays h₂
      (by simp [Draft.move, hlegs, ha.role, hb.role, hx.role]) hheld
    exact ⟨hkind, .crossing (.inl ⟨rfl, rfl⟩) (by simp [Draft.move, Flow.state, hlegs])
      ha hb hx hy⟩

variable {d : Draft}

theorem plan_keeps (h : PlayerTrade d) (hplan : plan p now d = .ok d') : PlayerTrade d' := by
  have hfinish : KeepsAt PlayerTrade [.deliver, .giveBack] planFinish := fun _ _ h _ hf =>
    h.drift (.planFinish hf)
  exact plan_keeps_of (fun hd => by simp [hd.kind]) (by decide) (fun hd => hd.life.stage_mem)
    (by simpa [guardedBlocks] using ⟨keeps_planOfferEscrow, keeps_planBuyerEscrow,
      keeps_planConfirm, keeps_planEscrow, hfinish⟩) h hplan

/-! ## The steps of a trade -/

theorem mutateConfirm_keeps {me : PlayerId} (h : PlayerTrade d)
    (hconfirm : mutateConfirm me now d = .ok d') : PlayerTrade d' := by
  unfold mutateConfirm at hconfirm
  split at hconfirm
  · cases hconfirm
  rename_i hguard
  simp only [not_or, not_not] at hguard
  obtain ⟨hopen, a, ha, hheld, hconfirmed, hlegs⟩ := h.life.by_stage.confirm hguard.2
  split at hconfirm
  · cases hconfirm
  rename_i hlive
  simp only [not_or] at hlive
  have hleg : applied (leg d.w .buyerDebit) = true → ∃ b, d.w.legs = [a, b] ∧ d.BuyerDebit b ∧
      isApplied b = true := by
    intro happlied
    rcases hlegs with hlegs | ⟨b, hlegs, hb, -⟩
    · simp [leg, hlegs, ha.role] at happlied
    · exact ⟨b, hlegs, hb, by simpa [leg, hlegs, ha.role, hb.role] using happlied⟩
  dsimp only at hconfirm
  split at hconfirm
  · -- The seller is the second to confirm.
    split at hconfirm
    · cases hconfirm
    rename_i hbuyer
    simp only [not_or, not_not] at hbuyer
    obtain ⟨b, hlegs, hb, hpaid⟩ := hleg hbuyer.2
    cases hconfirm
    rw [if_pos ⟨rfl, hbuyer.1⟩]
    exact ⟨h.kind, .agreed (.inl ⟨rfl, rfl⟩) hlegs ha hheld hb hpaid⟩
  split at hconfirm
  · split at hconfirm
    · cases hconfirm
    split at hconfirm
    next hunpaid =>
      cases hconfirm
      rw [if_neg (by simp [Draft.move, hconfirmed])]
      rcases hlegs with hlegs | ⟨b, hlegs, hb, -, hrefused⟩
      · exact ⟨h.kind, .held (.inr (.inl ⟨rfl, rfl⟩)) hconfirmed hlegs ha hheld⟩
      · have hnot : isApplied b = false := by
          simpa [leg, hlegs, ha.role, hb.role] using hunpaid
        exact absurd (hrefused hnot) (by simp [hlive.2])
    next hpaid =>
      cases hconfirm
      rw [if_neg (by simp [hconfirmed])]
      obtain ⟨b, hlegs, hb, hpaid⟩ := hleg (not_not.1 hpaid)
      exact ⟨h.kind, .collected (.inl ⟨hguard.2, hopen⟩) hconfirmed hlegs ha hheld hb
        (isDone_of_isApplied hpaid) fun hnot => by simp [hpaid] at hnot⟩
  · cases hconfirm

theorem cancel_keeps (h : PlayerTrade d)
    (hs : d.w.stage = .confirm ∨ d.w.stage = .offerEscrow ∨ d.w.stage = .buyerEscrow) :
    PlayerTrade d.cancelPending := by
  refine ⟨h.kind, ?_⟩
  rcases hs with hs | hs | hs
  · obtain ⟨-, a, ha, hheld, hconfirmed, hlegs⟩ := h.life.by_stage.confirm hs
    rcases hlegs with hlegs | ⟨b, hlegs, hb, hdone, -⟩
    · exact .held (.inl (.inl ⟨hs, rfl⟩)) hconfirmed hlegs ha hheld
    · exact .collected (.inl ⟨hs, rfl⟩) hconfirmed hlegs ha hheld hb hdone fun _ => rfl
  · obtain ⟨-, hconfirmed, hlegs⟩ := h.life.by_stage.offerEscrow hs
    exact .offered (.inl ⟨hs, rfl⟩) hconfirmed hlegs
  · obtain ⟨-, a, ha, hheld, hconfirmed, hlegs⟩ := h.life.by_stage.buyerEscrow hs
    rcases hlegs with hlegs | ⟨b, hlegs, hb⟩
    · exact .held (.inr (.inl ⟨hs, rfl⟩)) hconfirmed hlegs ha hheld
    · exact .collecting (.inl ⟨hs, rfl⟩) hconfirmed hlegs ha hheld hb

theorem closed : Closed PlayerTrade .playerTrade
    [.offerEscrow, .confirm, .buyerEscrow, .escrow, .deliver, .giveBack, .done, .manual] where
  kind_eq h := h.kind
  stage_mem h := h.life.stage_mem
  later h hl := h.drift (.setLegs hl)
  manual h := h.drift .manual
  bump h := h.drift .bump
  plan h hplan := h.plan_keeps hplan
  confirm _ _ _ _ _ h hconfirm := h.mutateConfirm_keeps hconfirm
  cancelTrade _ _ h hs := h.cancel_keeps hs

end PlayerTrade

end Mmorpg.Commerce
