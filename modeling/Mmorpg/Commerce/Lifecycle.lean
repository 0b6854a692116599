import Mmorpg.Commerce.PlayerTrade
import Mmorpg.Commerce.Consignment
import Mmorpg.Commerce.RmbListing
import Mmorpg.Commerce.Market
import Mmorpg.Commerce.Auction

/-!
# The lives of all contracts

Every row of the table is in a phase of the life of its kind (`run_life`): new rows are
(`Created.life`), and every transaction keeps it.
-/

namespace Mmorpg.Commerce

open List

open Blocks (bind_eq_ok Skips)

/-! ## Orders of the official mall -/

structure OfficialOrder (d : Draft) : Prop where
  kind : d.r.kind = .official
  legs : d.w.legs = [] ∨ ∃ c, d.w.legs = [c] ∧ c.role = .officialCredit
  life : At d .officialDeliver ∨
    ((d.w.stage = .officialRefund ∧ d.r.status.terminal = false ∨
        d.w.stage = .done ∧ d.r.status = .settled) ∧ ∀ l ∈ d.w.legs, isDone l = true)

namespace OfficialOrder

variable {p : Policy} {now : Nat} {d d' : Draft}

section

variable (h : OfficialOrder d)

include h

theorem stage_mem : d.w.stage ∈ [.officialDeliver, .officialRefund, .done, .manual] := by
  rcases h.life with (⟨hs, -⟩ | ⟨hs, -⟩) | ⟨⟨hs, -⟩ | ⟨hs, -⟩, -⟩ <;> simp [hs]

theorem setLegs {legs : List Leg} (hl : Forall₂ Later d.w.legs legs) :
    OfficialOrder (d.setLegs legs) := by
  refine ⟨h.kind, ?_, h.life.imp_right fun hclosed => ⟨hclosed.1, fun l' hl' => ?_⟩⟩
  · rcases h.legs with hlegs | ⟨c, hlegs, hc⟩
    · rw [hlegs] at hl
      rcases hl with _ | _
      exact .inl rfl
    · rw [hlegs] at hl
      rcases hl with _ | ⟨lc, _ | _⟩
      exact .inr ⟨_, rfl, lc.role.trans hc⟩
  · obtain ⟨l, hmem, hlater⟩ := exists_of_forall₂ hl hl'
    exact hlater.isDone (hclosed.2 l hmem)

/-- The credit of the order is added once and decides how it ends. -/
theorem planOfficial_keeps (hs : d.w.stage = .officialDeliver) :
    OfficialOrder (planOfficial d) := by
  have hopen : d.r.status.terminal = false := by
    rcases h.life with hat | ⟨⟨hs', -⟩ | ⟨hs', -⟩, -⟩
    · exact (hat.stage_eq hs (by decide)).2
    · simp [hs] at hs'
    · simp [hs] at hs'
  obtain ⟨c, hc, hadd, hleg⟩ : ∃ c : Leg, c.role = .officialCredit ∧
      addLeg d.w .officialCredit d.r.buyerPlayerId .tradeCredit d.w.officialBundle =
        { d.w with legs := [c] } ∧
      leg { d.w with legs := [c] } .officialCredit = some c := by
    rcases h.legs with hlegs | ⟨c, hlegs, hc⟩
    · refine ⟨newLeg .officialCredit d.r.buyerPlayerId .tradeCredit d.w.officialBundle, rfl, ?_, ?_⟩
      · rw [addLeg_of_not_mem (by simp [hlegs]), hlegs]
        rfl
      · simp [leg, newLeg]
    · refine ⟨c, hc, ?_, by simp [leg, hc]⟩
      rw [addLeg_of_mem ⟨c, by simp [hlegs], hc⟩, ← hlegs]
  unfold planOfficial
  rw [hadd]
  dsimp only
  rw [hleg]
  split
  · exact ⟨h.kind, .inr ⟨c, rfl, hc⟩, .inl (.inl ⟨hs, hopen⟩)⟩
  rename_i hdone
  rw [done_some, not_not] at hdone
  have hall : ∀ l ∈ [c], isDone l = true := by simpa using hdone
  split
  · exact ⟨h.kind, .inr ⟨c, rfl, hc⟩, .inr ⟨.inr ⟨rfl, rfl⟩, hall⟩⟩
  · exact ⟨h.kind, .inr ⟨c, rfl, hc⟩, .inr ⟨.inl ⟨rfl, rfl⟩, hall⟩⟩

theorem plan_keeps (hplan : plan p now d = .ok d') : OfficialOrder d' := by
  by_cases hs : d.w.stage = .officialDeliver
  · rw [plan, if_neg (by simp [h.kind]), if_pos hs] at hplan
    cases hplan
    exact h.planOfficial_keeps hs
  · have hstages : d.w.stage ∈ [.officialRefund, .done, .manual] := by
      have hmem := h.stage_mem
      simp only [mem_cons] at hmem ⊢
      exact hmem.resolve_left hs
    have hskip : Blocks.runBlocks (planBlocks p now) d = .ok d := by
      rw [planBlocks_eq]
      refine runBlocks_skip (List.Subset.refl _) ?_
      simp only [mem_cons, not_mem_nil, or_false] at hstages
      rcases hstages with hs | hs | hs <;> simp [guardedBlocks, hs]
    rw [plan, if_neg (by simp [h.kind]), if_neg hs, hskip] at hplan
    cases hplan
    exact h

end

theorem closed : Closed OfficialOrder .official
    [.officialDeliver, .officialRefund, .done, .manual] where
  kind_eq h := h.kind
  stage_mem h := h.stage_mem
  later h hl := h.setLegs hl
  manual h := ⟨h.kind, h.legs, .inl .manual⟩
  bump h := ⟨h.kind, h.legs, h.life⟩
  plan h hplan := h.plan_keeps hplan

end OfficialOrder

/-! ## New rows -/

variable {p : Policy}

theorem selection_nonEmpty {v : TradeAssetSelection} (h : p.selection v = .ok ()) :
    v.NonEmpty := by
  unfold Policy.selection at h
  split at h
  · cases h
  next hguard =>
    simp only [not_or, not_and_or] at hguard
    exact hguard.2.2.imp_right fun h => h

variable {d : Draft} {c : Contract} {dir : Directory} {lotId : CommerceId} {amount : Nat}
  {cfg : Config} {t : Contracts}

/-- The identities of the parties are all that `create` adds to a draft. -/
theorem create_ok {actor : Option Actor} (h : create dir actor d = .ok c) :
    ∃ seller buyer, c =
      Draft.row ⟨d.r, { d.w with sellerIdentity := seller, buyerIdentity := buyer }⟩ := by
  unfold create at h
  obtain ⟨-, -, h⟩ := bind_eq_ok h
  have hrest : (do
      let seller ← identityOf dir d.r.sellerPlayerId
      let buyer ← identityOf dir d.r.buyerPlayerId
      return Draft.insert ⟨d.r, { d.w with sellerIdentity := seller, buyerIdentity := buyer }⟩) =
        Except.ok c → ∃ seller buyer, c =
          Draft.row ⟨d.r, { d.w with sellerIdentity := seller, buyerIdentity := buyer }⟩ := by
    intro h
    obtain ⟨seller, -, h⟩ := bind_eq_ok h
    obtain ⟨buyer, -, h⟩ := bind_eq_ok h
    cases h
    exact ⟨seller, buyer, rfl⟩
  dsimp only at h
  split at h
  · obtain ⟨owned, -, h⟩ := bind_eq_ok h
    split at h
    · cases h
    split at h
    · cases h
    · exact hrest h
  · exact hrest h

variable {now : Nat} {me : PlayerId}

theorem createPlayerTrade_ok
    {i : CreatePlayerTradeRequest} (h : createPlayerTrade p now me i = .ok d) :
    d.r.kind = .playerTrade ∧ d.r.status = .escrowing ∧ d.w.stage = .offerEscrow ∧
      d.w.legs = [] ∧ d.w.sellerConfirmed = false := by
  unfold createPlayerTrade at h
  split at h
  · cases h
  split at h
  · cases h
  obtain ⟨-, -, h⟩ := bind_eq_ok h
  obtain ⟨-, -, h⟩ := bind_eq_ok h
  cases h
  exact ⟨rfl, rfl, rfl, rfl, rfl⟩

theorem createConsignment_ok
    {i : CreateConsignmentRequest} (h : createConsignment p now me i = .ok d) :
    d.r.kind = .consignment ∧ d.r.status = .escrowing ∧ d.w.stage = .escrow ∧ d.w.legs = [] ∧
      d.w.sellerAssets.NonEmpty := by
  unfold createConsignment at h
  obtain ⟨⟨⟩, hsel, h⟩ := bind_eq_ok h
  split at h
  · cases h
  · cases h
    exact ⟨rfl, rfl, rfl, rfl, selection_nonEmpty hsel⟩

theorem createLot_ok {i : CreateAuctionLotRequest} (h : createLot p now me i = .ok d) :
    d.r.kind = .auctionLot ∧ d.r.status = .escrowing ∧ d.w.stage = .escrow ∧ d.w.legs = [] ∧
      d.w.sellerAssets.NonEmpty ∧ d.w.highestBid = 0 ∧ d.w.highestBidder = 0 ∧
      d.w.winningBidId = 0 ∧ 0 < d.r.unitPrice ∧ 0 < d.w.minimumIncrement := by
  unfold createLot at h
  obtain ⟨⟨⟩, hsel, h⟩ := bind_eq_ok h
  split at h
  · cases h
  rename_i hguard
  cases h
  have hprice : validPrice i.openingPrice i.currencyType p = true := by
    by_contra hnot
    exact hguard (.inl hnot)
  simp only [validPrice, Bool.and_eq_true, decide_eq_true_eq] at hprice
  have hincrement : i.minimumIncrement ≠ 0 := fun hzero => hguard (.inr (.inl hzero))
  exact ⟨rfl, rfl, rfl, rfl, selection_nonEmpty hsel, rfl, rfl, rfl, hprice.1.1.1,
    Nat.pos_of_ne_zero hincrement⟩

structure NewOrder (d : Draft) : Prop where
  terms : OrderTerms d
  status : d.r.status = .escrowing
  stage : d.w.stage = .escrow
  legs : d.w.legs = []
  filled : d.r.filledQuantity = 0
  cancel : d.w.cancelRequested = false

theorem placeMarket_ok {i : PlaceMarketOrderRequest} (h : placeMarket p now me i = .ok d) :
    NewOrder d := by
  unfold placeMarket at h
  split at h
  · cases h
  rename_i hguard
  simp only [not_or, not_not, not_lt, gt_iff_lt, not_and_or, ne_eq] at hguard
  obtain ⟨hzero, hmax, -, -, -, hprice, hbound, hside⟩ := hguard
  simp only [validPrice, Bool.and_eq_true, decide_eq_true_eq] at hprice
  have hproduct : i.unitPrice * i.quantity ≤ maxInt64 :=
    (Nat.le_div_iff_mul_le (Nat.pos_of_ne_zero hzero)).1 hbound
  have hmul : mul64 i.unitPrice i.quantity = i.unitPrice * i.quantity := by
    unfold mul64
    unfold maxInt64 at hproduct
    exact Nat.mod_eq_of_lt (by omega)
  cases h
  refine ⟨⟨rfl, hside, ⟨Nat.pos_of_ne_zero hzero, hmax⟩, ⟨hprice.1.1.1, hproduct⟩, ?_⟩, rfl, rfl,
    rfl, rfl, rfl⟩
  dsimp only
  rw [hmul]

/-- A bid is for a lot that is there and is open. -/
theorem placeBid_ok {lot : Contract} (h : placeBid now me lotId amount lot = .ok d) :
    d.r.kind = .bid ∧ d.r.status = .escrowing ∧ d.w.stage = .bidFreeze ∧ d.w.legs = [] ∧
      d.r.parentId = lotId ∧ d.r.sellerPlayerId = me ∧ d.r.unitPrice = amount ∧
      d.w.sellerAssets = { currencyType := lot.currencyType, currencyAmount := amount } ∧
      lot.kind = .auctionLot ∧ lot.unitPrice ≤ amount ∧ amount ≤ maxInt64 ∧
      d.r.currencyType = lot.currencyType := by
  unfold placeBid at h
  split at h
  · cases h
  split at h
  · cases h
  rename_i hlot
  simp only [not_or, ne_eq, not_not] at hlot
  split at h
  · cases h
  split at h
  · cases h
  rename_i hamount
  simp only [not_or, not_lt, gt_iff_lt] at hamount
  cases h
  exact ⟨rfl, rfl, rfl, rfl, rfl, rfl, rfl, rfl, hlot.1, hamount.1, hamount.2.1, rfl⟩

theorem createRmb_ok {currencyTypes : List Nat}
    {i : CreateRmbConsignmentRequest} (h : createRmb p currencyTypes now me i = .ok d) :
    d.r.kind = .rmbConsignment ∧ d.r.status = .escrowing ∧ d.w.legs = [] ∧
      ∃ t, d.w.rmb = some t ∧ t.deliveryDigest = none ∧
        d.w.stage = if t.characterPlayerId ≠ 0 then .rmbFreezing else .rmbEscrow := by
  unfold createRmb at h
  split at h
  · cases h
  obtain ⟨-, -, h⟩ := bind_eq_ok h
  split at h
  · cases h
  · cases h
    exact ⟨rfl, rfl, rfl, _, rfl, rfl, rfl⟩

def Request.kind : Request → Kind
  | .playerTrade _ => .playerTrade
  | .consignment _ => .consignment
  | .lot _ => .auctionLot
  | .market _ => .marketMatch
  | .bid _ _ => .bid
  | .rmb _ => .rmbConsignment

theorem draftOf_bid (h : draftOf cfg t now me (.bid lotId amount) = .ok d) :
    ∃ lot, t.get lotId = some lot ∧ placeBid now me lotId amount lot = .ok d := by
  dsimp only [draftOf] at h
  split at h
  · cases h
  · exact ⟨_, ‹_›, h⟩

theorem draftOf_kind {request : Request}
    (h : draftOf cfg t now me request = .ok d) : d.r.kind = request.kind := by
  cases request with
  | playerTrade i => exact (createPlayerTrade_ok h).1
  | consignment i => exact (createConsignment_ok h).1
  | lot i => exact (createLot_ok h).1
  | market i => exact (placeMarket_ok h).terms.kind
  | rmb i => exact (createRmb_ok h).1
  | bid lotId amount =>
    obtain ⟨lot, -, hbid⟩ := draftOf_bid h
    exact (placeBid_ok hbid).1

theorem accept_ok {i : MallIntent}
    (h : accept dir now i = .ok c) : ∃ d : Draft, c = d.row ∧ OfficialOrder d := by
  unfold accept at h
  split at h
  · cases h
  obtain ⟨owned, -, h⟩ := bind_eq_ok h
  cases h
  refine ⟨_, rfl, rfl, .inl rfl, ?_⟩
  dsimp only
  split
  · exact .inr ⟨.inl ⟨rfl, rfl⟩, fun l hl => nomatch hl⟩
  · exact .inl (.inl ⟨rfl, rfl⟩)

/-! ## All contracts -/

inductive Life (d : Draft) : Prop where
  | official (h : OfficialOrder d)
  | playerTrade (h : PlayerTrade d)
  | consignment (h : Consignment d)
  | order (h : MarketOrder d)
  | fill (h : MarketFill d)
  | lot (h : AuctionLot d)
  | bid (h : AuctionBid d)
  | assets (h : AssetListing d)
  | character (h : CharacterListing d)

variable {cfg : Config} {t : Contracts} {e : Event} {id : CommerceId}

theorem Created.life (h : Created cfg t e id c) :
    ∃ d : Draft, c = d.row ∧ Life d := by
  cases h with
  | requested he hdraft hcreate =>
    rename_i dir actor now me request d
    obtain ⟨seller, buyer, rfl⟩ := create_ok hcreate
    refine ⟨_, rfl, ?_⟩
    cases request with
    | playerTrade i =>
      obtain ⟨hkind, hstatus, hstage, hlegs, hconfirmed⟩ := createPlayerTrade_ok hdraft
      exact .playerTrade ⟨hkind, .offered (.inl ⟨hstage, by rw [hstatus]; rfl⟩) hconfirmed
        (.inl hlegs)⟩
    | consignment i =>
      obtain ⟨hkind, hstatus, hstage, hlegs, hassets⟩ := createConsignment_ok hdraft
      exact .consignment ⟨hkind, hassets, .escrowing (.inl ⟨hstage, by rw [hstatus]; rfl⟩)
        (.inl hlegs)⟩
    | lot i =>
      obtain ⟨hkind, hstatus, hstage, hlegs, hassets, -⟩ := createLot_ok hdraft
      exact .lot ⟨hkind, hassets, .escrowing (.inl ⟨hstage, by rw [hstatus]; rfl⟩) (.inl hlegs)⟩
    | market i =>
      obtain ⟨hterms, hstatus, hstage, hlegs, hfilled, -⟩ := placeMarket_ok hdraft
      exact .order ⟨hterms.congr rfl rfl rfl rfl rfl rfl rfl,
        .escrowing (.inl ⟨hstage, by rw [hstatus]; rfl⟩) hfilled (.inl hlegs)⟩
    | bid lotId amount =>
      obtain ⟨lot, -, hbid⟩ := draftOf_bid hdraft
      obtain ⟨hkind, hstatus, hstage, hlegs, -⟩ := placeBid_ok hbid
      exact .bid ⟨hkind, .freezing (.inl ⟨hstage, by rw [hstatus]; rfl⟩) (.inl hlegs)⟩
    | rmb i =>
      obtain ⟨hkind, hstatus, hlegs, terms, hterms, -, hstage⟩ := createRmb_ok hdraft
      by_cases hchar : terms.characterPlayerId = 0
      · rw [if_neg (by simpa using hchar)] at hstage
        exact .assets ⟨hkind, ⟨terms, hterms, hchar⟩,
          .escrowing (.inl ⟨hstage, by rw [hstatus]; rfl⟩) (.inl hlegs)⟩
      · rw [if_pos hchar] at hstage
        exact .character ⟨hkind, ⟨terms, hterms, hchar⟩, hlegs,
          .live (.inl ⟨hstage, by rw [hstatus]; rfl⟩) (.head _)⟩
  | accepted haccept =>
    obtain ⟨d, hd, h⟩ := accept_ok haccept
    exact ⟨d, hd, .official h⟩
  | matched he hcross hprice heq =>
    refine ⟨_, heq, .fill ⟨rfl, rfl, ?_, .inl ⟨newMatch_stage _ _ _ _ _, rfl⟩⟩⟩
    rw [newMatch_legs]
    intro l hl
    rw [mem_append, mem_cons, mem_singleton] at hl
    rcases hl with (rfl | rfl) | hl
    · rfl
    · rfl
    · split at hl
      · rw [mem_singleton.1 hl]
        rfl
      · cases hl

theorem Life.step {d' : Draft} (h : Life d) (hstep : DraftStep cfg t e id d d') : Life d' := by
  cases h with
  | official h => exact .official (OfficialOrder.closed.step h hstep)
  | playerTrade h => exact .playerTrade (PlayerTrade.closed.step h hstep)
  | consignment h => exact .consignment (Consignment.closed.step h hstep)
  | order h => exact .order (MarketOrder.closed.step h hstep)
  | fill h => exact .fill (MarketFill.closed.step h hstep)
  | lot h => exact .lot (AuctionLot.closed.step h hstep)
  | bid h => exact .bid (AuctionBid.closed.step h hstep)
  | assets h => exact .assets (AssetListing.closed.step h hstep)
  | character h => exact .character (h.step_keeps hstep)

theorem Life.bump (h : Life d) : Life d.bump := by
  cases h with
  | official h => exact .official (OfficialOrder.closed.bump h)
  | playerTrade h => exact .playerTrade (PlayerTrade.closed.bump h)
  | consignment h => exact .consignment (Consignment.closed.bump h)
  | order h => exact .order (MarketOrder.closed.bump h)
  | fill h => exact .fill (MarketFill.closed.bump h)
  | lot h => exact .lot (AuctionLot.closed.bump h)
  | bid h => exact .bid (AuctionBid.closed.bump h)
  | assets h => exact .assets (AssetListing.closed.bump h)
  | character h => exact .character h.bump

theorem step_life {s : World} (hrows : Rows Life s.contracts) :
    Rows Life (step cfg s e).contracts :=
  step_rows hrows (fun _ _ hc => hc.life) (fun _ hd => hd.bump)
    (fun _ _ _ _ hd hstep => hd.step hstep)

theorem run_life (es : List Event) : Rows Life (Machine.run (step cfg) World.empty es).contracts :=
  Machine.run_invariant (I := fun s : World => Rows Life s.contracts)
    (fun _ _ hs => step_life hs) (Rows.empty Life) es

/-! ## A trade from its offer to its end -/

def sampleConfig : Config := ⟨⟨[1], [], [1], false⟩, []⟩

def sampleDirectory : Directory := fun _ => some ⟨"a", 1, 0⟩

/-- Every operation is applied; nothing was collected but what the leg names. -/
def sampleApplied : OpId → Option LegOutcome := fun _ => some ⟨.applied, .empty⟩

def sampleAdvance : Event := .advance 7 sampleDirectory (1, 2, 0) sampleApplied 1 (fun _ => 1)

/-- Player 1 gives five coins for two items of player 2. -/
def sampleTrade : List Event :=
  [.create 7 sampleDirectory none 0 1
      (.playerTrade ⟨2, { currencyType := 1, currencyAmount := 5 }, { items := [(1, 2)] }⟩),
    sampleAdvance, sampleAdvance,
    .mutate 7 sampleDirectory none 2 (1, 2) 1 .confirm, sampleAdvance, sampleAdvance,
    .mutate 7 sampleDirectory none 2 (1, 2) 1 .confirm,
    .mutate 7 sampleDirectory none 1 (1, 2) 1 .confirm, sampleAdvance, sampleAdvance]

end Mmorpg.Commerce
