import Mmorpg.Commerce.Drafts

/-!
# Phases of a contract

Common to the lives of all kinds of contracts: a contract is in a stage or was taken out of it as
Manual (`At`), and a contract that pays out ends when all credits are final (`Paying`). New rows by
kind (`Fresh`).
-/

namespace Mmorpg.Commerce

open List

open Blocks (bind_eq_ok Keeps Skips)

/-! ## Requests of players -/

variable {d d' : Draft} {me : PlayerId}

theorem mutateCancel_ok (h : mutateCancel me d = .ok (some d')) :
    d.r.status ≠ .cancelled ∧
      ((d.r.kind = .playerTrade ∧
          (d.w.stage = .confirm ∨ d.w.stage = .offerEscrow ∨ d.w.stage = .buyerEscrow)) ∨
        (me = d.r.sellerPlayerId ∧ (d.w.stage = .opened ∨ d.w.stage = .marketOpen ∨
          (d.w.stage = .lotOpen ∧ d.w.highestBidder = 0)))) ∧
      d' = ⟨{ d.r with status := .cancelPending }, { d.w with cancelRequested := true }⟩ := by
  unfold mutateCancel at h
  split at h
  · cases h
  split at h
  · cases h
  rename_i hopen
  split at h
  · cases h
    exact ⟨hopen, ‹_›, rfl⟩
  · cases h

variable {now : Nat}

theorem mutateConfirm_guard
    (h : mutateConfirm me now d = .ok d') : d.r.kind = .playerTrade ∧ d.w.stage = .confirm := by
  unfold mutateConfirm at h
  split at h
  · cases h
  next hguard =>
    rwa [not_or, not_not, not_not] at hguard

/-- A purchase reserves an open consignment and adds the debit of the buyer. -/
theorem mutateBuy_ok {dir : Directory}
    {requestId : String} (h : mutateBuy dir me now requestId d = .ok (some d')) :
    d.r.kind = .consignment ∧ d.w.stage = .opened ∧ d.w.quantityReserved < 32 ∧
      me ≠ d.r.sellerPlayerId ∧
      ∃ identity, d' =
        let v : TradeAssetSelection :=
          { currencyType := d.r.currencyType, currencyAmount := d.r.unitPrice }
        Draft.move ⟨{ d.r with buyerPlayerId := me },
          addLeg { d.w with
            buyerIdentity := some identity
            buyerAssets := v
            quantityReserved := d.w.quantityReserved + 1 }
            (.buyerPay (d.w.quantityReserved + 1) (some ⟨me, requestId⟩)) me .tradeDebit
            (bundle v)⟩ .pay .escrowing := by
  unfold mutateBuy at h
  dsimp only at h
  split at h
  · cases h
  split at h
  · split at h <;> cases h
  split at h
  · cases h
  split at h
  · cases h
  rename_i hguard
  simp only [not_or, not_not] at hguard
  split at h
  · cases h
  rename_i hself
  split at h
  · cases h
  rename_i hreserved
  obtain ⟨owned, -, h⟩ := bind_eq_ok h
  cases h
  exact ⟨hguard.1, hguard.2.1, by omega, hself, _, rfl⟩

theorem eligible_iff {lot : Draft} {bid : Record} : eligible now lot bid = true ↔
    lot.w.stage = .lotOpen ∧ lot.w.cancelRequested = false ∧ now < lot.r.expiresMs ∧
      lot.r.unitPrice ≤ bid.unitPrice ∧ (lot.w.highestBid = 0 ∨
        (lot.w.minimumIncrement ≤ sub64 maxInt64 lot.w.highestBid ∧
          add64 lot.w.highestBid lot.w.minimumIncrement ≤ bid.unitPrice)) := by
  simp [eligible, and_assoc]

/-! ## Phases -/

/-- In the stage and not closed, or taken out of it as Manual. -/
def At (d : Draft) (stage : Stage) : Prop :=
  (d.w.stage = stage ∧ d.r.status.terminal = false) ∨
    (d.w.stage = .manual ∧ d.r.status = .manual)

/-- Paying out in the stage with the status, Manual, or closed with all credits applied. -/
def Paying (d : Draft) (stage : Stage) (status closed : Status) : Prop :=
  (d.w.stage = stage ∧ d.r.status = status) ∨
    ((d.w.stage = .manual ∨ d.w.stage = .done) ∧ d.r.status = .manual) ∨
    (d.w.stage = .done ∧ d.r.status = closed ∧
      ∀ l ∈ d.w.legs, l.stream = .tradeCredit → isApplied l = true)

variable {stage : Stage}

theorem At.stage_eq {stage' : Stage} (h : At d stage) (hs : d.w.stage = stage')
    (hne : stage' ≠ .manual) : stage' = stage ∧ d.r.status.terminal = false := by
  rcases h with ⟨hstage, hstatus⟩ | ⟨hstage, -⟩
  · exact ⟨hs.symm.trans hstage, hstatus⟩
  · exact absurd (hs.symm.trans hstage) hne

variable {closed status : Status}

theorem Paying.stage_eq {stage' : Stage}
    (h : Paying d stage status closed) (hs : d.w.stage = stage') (hmanual : stage' ≠ .manual)
    (hdone : stage' ≠ .done) : stage' = stage ∧ d.r.status = status := by
  rcases h with ⟨hstage, hstatus⟩ | ⟨hstage | hstage, -⟩ | ⟨hstage, -⟩
  · exact ⟨hs.symm.trans hstage, hstatus⟩
  · exact absurd (hs.symm.trans hstage) hmanual
  · exact absurd (hs.symm.trans hstage) hdone
  · exact absurd (hs.symm.trans hstage) hdone

theorem At.manual : At (d.move .manual .manual) stage :=
  .inr ⟨rfl, rfl⟩

theorem Paying.manual :
    Paying (d.move .manual .manual) stage status closed :=
  .inr (.inl ⟨.inl rfl, rfl⟩)

theorem Paying.setLegs
    (h : Paying d stage status closed) {legs : List Leg} (hl : Forall₂ Later d.w.legs legs) :
    Paying (d.setLegs legs) stage status closed := by
  rcases h with h | h | ⟨hstage, hstatus, happlied⟩
  · exact .inl h
  · exact .inr (.inl h)
  · refine .inr (.inr ⟨hstage, hstatus, fun l' hl' hstream => ?_⟩)
    obtain ⟨l, hmem, hlater⟩ := exists_of_forall₂ hl hl'
    exact hlater.isApplied (happlied l hmem (hlater.stream ▸ hstream))

/-! ## The debit of the seller -/

abbrev Draft.SellerDebit (d : Draft) (a : Leg) : Prop :=
  a.Debit .sellerDebit d.r.sellerPlayerId d.w.sellerAssets

/-- The stage of a contract whose seller has paid in. -/
def Kind.openStage : Kind → Stage
  | .marketMatch => .marketOpen
  | .auctionLot => .lotOpen
  | _ => .opened

variable {p : Policy} {f : Blocks.Flow Draft}

/-- Of a contract that the seller alone pays into: the debit is under way, it was refused, it is
given back since the policy does not let the snapshot through, or the contract is open. -/
theorem planEscrow_single
    (hkind : d.r.kind ≠ .playerTrade) (hs : d.w.stage = .escrow)
    (hlegs : d.w.legs = [] ∨ ∃ a, d.w.legs = [a] ∧ d.SellerDebit a)
    (hf : planEscrow p d = .ok f) :
    ∃ a, d.SellerDebit a ∧ (f.state = d.setLegs [a] ∨
      (isDone a = true ∧ isApplied a = false ∧
        f.state = (d.setLegs [a]).move .giveBack .cancelPending) ∨
      (∃ x : Leg, x.Pays .sellerReturn d.r.sellerPlayerId a ∧
        f.state = (d.setLegs [a, x]).move .giveBack .cancelPending) ∨
      (isApplied a = true ∧ f.state = (d.setLegs [a]).enter d.r.kind.openStage)) := by
  obtain ⟨a, ha, hadd, hleg⟩ := addLeg_collect hlegs (by simp)
  have hbuyer : leg { d.w with legs := [] ++ [a] } .buyerDebit = none := by simp [leg, ha.role]
  unfold planEscrow at hf
  rw [if_pos hs, hadd] at hf
  dsimp only at hf
  rw [if_neg hkind, hleg, hbuyer] at hf
  simp only [hkind, false_and, or_false, done_some, applied_some, applied_none, if_false,
    Bool.false_eq_true] at hf
  refine ⟨a, ha, ?_⟩
  split at hf
  · cases hf
    exact .inl rfl
  rename_i hdone
  rw [not_not] at hdone
  split at hf
  · obtain ⟨w₁, h₁, hf⟩ := bind_eq_ok hf
    obtain ⟨w₂, h₂, hf⟩ := bind_eq_ok hf
    cases hf
    obtain rfl := returnApplied_of_not h₂ rfl
    by_cases happlied : isApplied a = true
    · obtain ⟨x, hx, rfl⟩ := returnApplied_pays h₁ (by simp [Draft.move, ha.role]) happlied
      exact .inr (.inr (.inl ⟨x, hx, rfl⟩))
    · obtain rfl := returnApplied_of_not h₁ (by simpa using happlied)
      exact .inr (.inl ⟨hdone, eq_false_of_ne_true happlied, rfl⟩)
  rename_i hheld
  have happlied : isApplied a = true := by
    by_contra hnot
    exact hheld (.inl hnot)
  refine .inr (.inr (.inr ⟨happlied, ?_⟩))
  split at hf
  next hmarket =>
    cases hf
    rw [hmarket]
    rfl
  split at hf
  next hlot =>
    cases hf
    rw [hlot]
    rfl
  · cases hf
    have hopened : d.r.kind.openStage = .opened := by
      revert hkind
      cases hk : d.r.kind <;> simp_all [Kind.openStage]
    rw [hopened]
    rfl

/-- The debit of the seller of a sale is given back when the sale is cancelled. -/
theorem planCancel_return {a : Leg}
    (hkind : d.r.kind ≠ .marketMatch) (hassets : d.w.sellerAssets.NonEmpty)
    (ha : d.SellerDebit a) (hheld : isApplied a = true) (hleg : leg d.w .sellerDebit = some a)
    (hnew : ∀ l ∈ d.w.legs, l.role ≠ .sellerReturn) (hf : planCancel d = .ok f) :
    f.state = d ∨ ∃ x : Leg, x.Pays .sellerReturn d.r.sellerPlayerId a ∧
      (d.w.stage = .lotOpen → d.w.highestBidder = 0) ∧
      f.state = (d.setLegs (d.w.legs ++ [x])).move .giveBack .cancelPending := by
  unfold planCancel at hf
  split at hf
  next hguard =>
    have hleg' : leg (d.move .giveBack .cancelPending).w .sellerDebit = some a := hleg
    have hkind' : (d.move .giveBack .cancelPending).r.kind ≠ .marketMatch := hkind
    dsimp only at hf
    rw [hleg'] at hf
    dsimp only at hf
    split at hf
    · cases hf
    rename_i b hb
    have hnonempty : nonEmpty b = true := transfer_nonEmpty hassets (ha.bundle ▸ hb)
    simp only [hkind', if_false, hnonempty, if_true] at hf
    rw [addLeg_of_not_mem (w := (d.move .giveBack .cancelPending).w) hnew] at hf
    cases hf
    refine .inr ⟨_, pays_newLeg hb hheld, fun hs => ?_, rfl⟩
    rcases hguard.2 with h | h | h
    · rw [hs] at h
      cases h
    · exact h.2
    · rw [hs] at h
      cases h
  · cases hf
    exact .inl rfl

/-- The last block closes a contract that pays out, as Manual unless all credits are applied. -/
theorem planFinish_ok (hf : planFinish d = .ok f) :
    f.state = d ∨ (d.w.stage = .deliver ∨ d.w.stage = .giveBack) ∧
      (f.state = d.move .done .manual ∨
        f.state = d.move .done (if d.r.status = .cancelPending then .cancelled else .settled) ∧
          ∀ l ∈ d.w.legs, l.stream = .tradeCredit → isApplied l = true) := by
  unfold planFinish at hf
  dsimp only at hf
  split at hf
  next hs =>
    split at hf
    next hready =>
      cases hf
      refine .inr ⟨hs, ?_⟩
      by_cases happlied : (finalCredits d.w).2 = true
      · rw [if_neg (not_not.2 happlied)]
        exact .inr ⟨rfl, finalCreditsOf_all (Prod.ext hready happlied)⟩
      · rw [if_pos happlied]
        exact .inl rfl
    · cases hf
      exact .inl rfl
  · cases hf
    exact .inl rfl

theorem planFinish_legs (hf : planFinish d = .ok f) : f.state.w.legs = d.w.legs := by
  rcases planFinish_ok hf with heq | ⟨-, heq | ⟨heq, -⟩⟩ <;> rw [heq] <;> rfl

/-- Settled, or taken out of that as Manual. -/
def Concluded (d : Draft) : Prop :=
  (d.w.stage = .done ∧ d.r.status = .settled) ∨ (d.w.stage = .manual ∧ d.r.status = .manual)

/-- A move within a phase: the legs may go on, and the phase says the same of stage and status. -/
structure Drift (d d' : Draft) : Prop where
  shape : ∃ status version stage legs,
    d' = ⟨{ d.r with status, version }, { d.w with stage, legs }⟩
  legs : Forall₂ Later d.w.legs d'.w.legs
  stays : ∀ {s}, At d s → s ≠ .deliver ∧ s ≠ .giveBack → At d' s
  delivers : Paying d .deliver .delivering .settled → Paying d' .deliver .delivering .settled
  returns : Paying d .giveBack .cancelPending .cancelled →
    Paying d' .giveBack .cancelPending .cancelled
  ended : Concluded d → Concluded d'

namespace Drift

theorem setLegs {legs : List Leg} (hl : Forall₂ Later d.w.legs legs) :
    Drift d (d.setLegs legs) :=
  ⟨⟨_, _, _, _, rfl⟩, hl, fun h _ => h, fun h => h.setLegs hl, fun h => h.setLegs hl, id⟩

theorem manual : Drift d (d.move .manual .manual) :=
  ⟨⟨_, _, _, _, rfl⟩, later_refl _, fun _ _ => .manual,
    fun _ => .manual, fun _ => .manual, fun _ => .inr ⟨rfl, rfl⟩⟩

theorem bump : Drift d d.bump :=
  ⟨⟨_, _, _, _, rfl⟩, later_refl _, fun h _ => h, id, id, id⟩

theorem planFinish (hf : planFinish d = .ok f) : Drift d f.state := by
  rcases planFinish_ok hf with heq | ⟨hs, hend⟩
  · rw [heq]
    exact ⟨⟨_, _, _, _, rfl⟩, later_refl _, fun h _ => h, id, id, id⟩
  obtain ⟨status, hstate⟩ : ∃ status, f.state = d.move .done status := by
    rcases hend with heq | ⟨heq, -⟩ <;> exact ⟨_, heq⟩
  have hpaying : ∀ {s status closed},
      (closed = if status = .cancelPending then .cancelled else .settled) →
      Paying d s status closed → Paying f.state s status closed := by
    rintro s status closed hclosed (⟨-, rfl⟩ | ⟨hs' | hs', -⟩ | ⟨hs', -⟩)
    · rcases hend with heq | ⟨heq, happlied⟩ <;> rw [heq]
      · exact .inr (.inl ⟨.inr rfl, rfl⟩)
      · exact .inr (.inr ⟨rfl, hclosed.symm, happlied⟩)
    all_goals simp [hs'] at hs
  refine ⟨⟨status, d.r.version, .done, d.w.legs, hstate⟩, ?_, fun hat h => ?_, hpaying rfl,
    hpaying rfl, fun h => ?_⟩
  · rw [hstate]
    exact later_refl _
  · rcases hs with hs | hs
    · exact absurd (hat.stage_eq hs (by decide)).1.symm h.1
    · exact absurd (hat.stage_eq hs (by decide)).1.symm h.2
  · rcases h with ⟨hs', -⟩ | ⟨hs', -⟩ <;> simp [hs'] at hs

end Drift

/-! ## Plans by stage -/

/-- The one stage that two lists have in common. -/
theorem stage_eq_of {stages acts : List Stage} (h : d.w.stage ∈ stages) (hs : d.w.stage ∈ acts)
    (hone : ∀ s ∈ stages, s ∈ acts → s = stage) : d.w.stage = stage :=
  hone _ h hs

/-- The blocks of the plan with the stages in which they act. -/
def guardedBlocks (p : Policy) (now : Nat) : List (PlanBlock × List Stage) :=
  [(planOfferEscrow p, [.offerEscrow]), (planBuyerEscrow p, [.buyerEscrow]),
    (planConfirm now, [.confirm]), (planBidFreeze, [.bidFreeze]), (planBidRefund, [.bidRefund]),
    (planEscrow p, [.escrow]), (planPay, [.pay]), (planLotClose now, [.lotOpen]),
    (planExpire now, [.opened, .lotOpen]), (planCancel, [.opened, .lotOpen, .marketOpen]),
    (planFinish, [.deliver, .giveBack])]

theorem planBlocks_eq (p : Policy) (now : Nat) :
    planBlocks p now = (guardedBlocks p now).map Prod.fst := rfl

theorem guardedBlocks_skip {x : PlanBlock × List Stage}
    (hx : x ∈ guardedBlocks p now) (hd : d.w.stage ∉ x.2) : x.1 d = .ok (.go d) := by
  simp only [guardedBlocks, mem_cons, not_mem_nil, or_false] at hx
  rcases hx with rfl | rfl | rfl | rfl | rfl | rfl | rfl | rfl | rfl | rfl | rfl <;>
    simp only [mem_cons, not_mem_nil, or_false, not_or] at hd
  · exact if_neg hd
  · exact if_neg hd
  · exact if_neg fun hc => hd hc.2.1
  · exact if_neg hd
  · exact if_neg hd
  · exact if_neg hd
  · exact if_neg hd
  · exact if_neg fun hc => hd hc.1
  · exact if_neg fun hc => hc.1.elim hd.1 hd.2
  · exact if_neg fun hc => hc.2.elim hd.1 fun hc => hc.elim (fun hc => hd.2.1 hc.1) hd.2.2
  · exact if_neg fun hc => hc.elim hd.1 hd.2

/-- Blocks that do not act in the stage leave the draft as it is. -/
theorem runBlocks_skip {blocks : List (PlanBlock × List Stage)}
    (hsub : blocks ⊆ guardedBlocks p now) (hs : ∀ x ∈ blocks, d.w.stage ∉ x.2) :
    Blocks.runBlocks (blocks.map Prod.fst) d = .ok d := by
  refine Blocks.runBlocks_of_skips (I := (· = d)) (fun b hb _ heq => ?_) rfl
  obtain ⟨x, hx, rfl⟩ := mem_map.1 hb
  rw [heq]
  exact guardedBlocks_skip (hsub hx) (hs x hx)

variable {stages : List Stage}

def KeepsAt (I : Draft → Prop) (stages : List Stage) (b : PlanBlock) : Prop :=
  ∀ d f, I d → d.w.stage ∈ stages → b d = .ok f → I f.state

/-- Only the blocks that act in one of the stages of the contract have to be looked at, and only in
those stages. -/
theorem plan_keeps_of {I : Draft → Prop}
    (hkind : ∀ {d}, I d → d.r.kind ≠ .rmbConsignment) (hofficial : .officialDeliver ∉ stages)
    (hstages : ∀ {d}, I d → d.w.stage ∈ stages)
    (hblocks : ∀ x ∈ (guardedBlocks p now).filter fun x => x.2.any (· ∈ stages), KeepsAt I x.2 x.1)
    (hd : I d) (hplan : plan p now d = .ok d') : I d' := by
  unfold plan at hplan
  have hne : d.w.stage ≠ .officialDeliver := fun hs => hofficial (hs ▸ hstages hd)
  rw [if_neg (hkind hd), if_neg hne, planBlocks_eq] at hplan
  refine Blocks.runBlocks_keeps (fun b hb d f hd hf => ?_) hd hplan
  obtain ⟨x, hx, rfl⟩ := mem_map.1 hb
  by_cases hs : d.w.stage ∈ x.2
  · have hacts : x.2.any (· ∈ stages) = true :=
      any_eq_true.2 ⟨_, hs, decide_eq_true (hstages hd)⟩
    exact hblocks x (mem_filter.2 ⟨hx, hacts⟩) d f hd hs hf
  · rw [guardedBlocks_skip hx hs] at hf
    cases hf
    exact hd

/-! ## Lives -/

def Draft.cancelPending (d : Draft) : Draft :=
  ⟨{ d.r with status := .cancelPending }, { d.w with cancelRequested := true }⟩

/-- A life of contracts of one kind: its phases are kept by all that can happen in its stages. What
belongs to another kind or to a stage that the life does not have needs no proof. -/
structure Closed (I : Draft → Prop) (kind : Kind) (stages : List Stage) : Prop where
  kind_eq : ∀ {d}, I d → d.r.kind = kind
  stage_mem : ∀ {d}, I d → d.w.stage ∈ stages
  later : ∀ {d legs}, I d → Forall₂ Later d.w.legs legs → I (d.setLegs legs)
  manual : ∀ {d}, I d → I (d.move .manual .manual)
  bump : ∀ {d}, I d → I d.bump
  plan : ∀ {p now d d'}, I d → plan p now d = .ok d' → I d'
  barrier : kind = .marketMatch →
    ∀ {unfinished bad d}, I d → I (marketBarrier unfinished bad d) := by
    exact fun h => absurd h (by decide)
  confirm : kind = .playerTrade →
    ∀ {me now d d'}, I d → mutateConfirm me now d = .ok d' → I d' := by
    exact fun h => absurd h (by decide)
  buy : kind = .consignment →
    ∀ {dir me now requestId d d'}, I d →
      mutateBuy dir me now requestId d = .ok (some d') → I d' := by
    exact fun h => absurd h (by decide)
  cancelTrade : kind = .playerTrade → ∀ {d}, I d →
    d.w.stage = .confirm ∨ d.w.stage = .offerEscrow ∨ d.w.stage = .buyerEscrow →
    I d.cancelPending := by
    exact fun h => absurd h (by decide)
  cancelOpened : .opened ∈ stages → ∀ {d}, I d → d.w.stage = .opened → I d.cancelPending := by
    exact fun h => absurd h (by decide)
  cancelMarket : .marketOpen ∈ stages → ∀ {d}, I d → d.w.stage = .marketOpen →
    I d.cancelPending := by exact fun h => absurd h (by decide)
  cancelLot : .lotOpen ∈ stages → ∀ {d}, I d → d.w.stage = .lotOpen → I d.cancelPending := by
    exact fun h => absurd h (by decide)
  rmb : kind = .rmbConsignment → ∀ {e id d d'}, I d → RmbMove e id d d' → I d' := by
    exact fun h => absurd h (by decide)
  fill : kind = .marketMatch →
    ∀ {qty d}, I d → d.r.side ≠ 0 → notOpen d = false → I (fill qty d) := by
    exact fun h => absurd h (by decide)
  refund : .bidReady ∈ stages ∨ .bidHeld ∈ stages → ∀ {d}, I d →
    d.w.stage = .bidReady ∨ d.w.stage = .bidHeld → I d.refundBid := by
    exact fun h => absurd h (by decide)
  take : .bidReady ∈ stages → ∀ {d}, I d → d.w.stage = .bidReady → I (d.enter .bidHeld) := by
    exact fun h => absurd h (by decide)
  settle : .bidHeld ∈ stages → ∀ {d}, I d → d.w.stage = .bidHeld → I (d.move .done .settled) := by
    exact fun h => absurd h (by decide)
  bid : .lotOpen ∈ stages →
    ∀ {bidId bid d}, I d → d.w.stage = .lotOpen → I (takeBid bidId bid d) := by
    exact fun h => absurd h (by decide)

theorem Closed.step {I : Draft → Prop} {kind : Kind}
    (h : Closed I kind stages) {cfg : Config} {t : Contracts} {e : Event} {id : CommerceId}
    (hd : I d) (hstep : DraftStep cfg t e id d d') : I d' := by
  have hkind := h.kind_eq hd
  have hmem : ∀ {stage}, d.w.stage = stage → stage ∈ stages := fun hs => hs ▸ h.stage_mem hd
  cases hstep with
  | common hstep =>
    cases hstep with
    | confirmed hconfirm =>
      exact h.confirm (hkind.symm.trans (mutateConfirm_guard hconfirm).1) hd hconfirm
    | bought hbuy => exact h.buy (hkind.symm.trans (mutateBuy_ok hbuy).1) hd hbuy
    | cancelled hcancel =>
      obtain ⟨-, ⟨htrade, hs⟩ | ⟨-, hs | hs | ⟨hs, -⟩⟩, rfl⟩ := mutateCancel_ok hcancel
      · exact h.cancelTrade (hkind.symm.trans htrade) hd hs
      · exact h.cancelOpened (hmem hs) hd hs
      · exact h.cancelMarket (hmem hs) hd hs
      · exact h.cancelLot (hmem hs) hd hs
    | advanced hchar hinput hadvance =>
      refine advanceDraft_keeps (fun d legs hd hl => h.later hd hl) (fun d hd => h.manual hd)
        (fun d d' hd hplan => h.plan hd hplan) (fun d hd => ?_) hd hadvance
      by_cases hmarket : kind = .marketMatch
      · exact h.barrier hmarket hd
      · rwa [marketBarrier, if_pos (.inl (by rwa [h.kind_eq hd]))]
    | quarantined he hdue heq =>
      subst heq
      exact h.manual hd
  | rmb hrmb hmove => exact h.rmb (hkind.symm.trans hrmb) hd hmove
  | filled he hmarket hside hopen hqty heq =>
    subst heq
    exact h.fill (hkind.symm.trans hmarket) hd hside hopen
  | bidRefunded he hs heq =>
    subst heq
    exact h.refund (hs.imp hmem hmem) hd hs
  | bidTaken he hs heq =>
    subst heq
    exact h.take (hmem hs) hd hs
  | lotTook he heligible heq =>
    subst heq
    have hs := (eligible_iff.1 heligible).1
    exact h.bid (hmem hs) hd hs
  | bidSettled hs heq =>
    subst heq
    exact h.settle (hmem hs) hd hs

theorem stage_absurd (h : d.w.stage ∈ stages)
    (hs : d.w.stage = stage) (hne : stage ∉ stages) {P : Prop} : P :=
  absurd (hs ▸ h) hne

end Mmorpg.Commerce
