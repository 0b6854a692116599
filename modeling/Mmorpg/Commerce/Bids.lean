import Mmorpg.Commerce.Fills

/-!
# Lots and their bids

A lot and its bids are rows of their own, changed by different workers. The lot names its winning
bid, and the named bid is the only one that is held (`Auctions`): `acceptBid` moves both in one
transaction, and nothing else moves a held bid but its settlement. The money of a bid is
therefore in one place at a time (`BidsPlaced`).
-/

namespace Mmorpg.Commerce

open List

open Blocks (bind_eq_ok Keeps Flow)
open AssetOp (AssetBundle)

variable {cfg : Config} {t : Contracts} {e : Event} {id : CommerceId}

/-! ## The money of a bid -/

/-- The debit of a bid that is still collected has no final outcome. -/
def Draft.Collects (d : Draft) : Prop := d.w.stage = .bidFreeze → ∀ b ∈ d.w.legs, isDone b = false

def Draft.isSettled (d : Draft) : Bool := d.w.stage = .done && d.r.status = .settled

def Draft.wins (d : Draft) : Bool := d.w.stage = .bidHeld || d.isSettled

variable {d : Draft}

theorem Draft.isSettled_of_wins (h : d.wins = false) : d.isSettled = false :=
  (Bool.or_eq_false_iff.1 h).2

variable {d' : Draft} {now : Nat}

/-- A bid whose debit is under way: the plan looks at the debit and nothing else. -/
theorem plan_bidFreeze {p : Policy} (hkind : d.r.kind = .bid) (hs : d.w.stage = .bidFreeze)
    (h : plan p now d = .ok d') :
    ∃ f, planBidFreeze d = .ok f ∧ d' = f.state := by
  unfold plan at h
  rw [if_neg (by simp [hkind]), if_neg (by simp [hs])] at h
  unfold planBlocks at h
  rw [Blocks.runBlocks, planOfferEscrow, if_neg (by simp [hs])] at h
  dsimp only at h
  rw [Blocks.runBlocks, planBuyerEscrow, if_neg (by simp [hs])] at h
  dsimp only at h
  rw [Blocks.runBlocks, planConfirm, if_neg (by simp [hs])] at h
  dsimp only at h
  rw [Blocks.runBlocks] at h
  split at h
  · cases h
  next s' hblock =>
    cases h
    exact ⟨_, hblock, rfl⟩
  next s' hblock =>
    refine ⟨_, hblock, ?_⟩
    have hstage : s'.w.stage ∈ [.bidFreeze, .bidReady, .done] := by
      unfold planBidFreeze at hblock
      rw [if_pos hs] at hblock
      dsimp only at hblock
      split at hblock
      · cases hblock
        simp [addLeg_stage, hs]
      split at hblock <;> cases hblock <;> simp [Draft.enter, Draft.move]
    have hrest : ∀ x ∈ (guardedBlocks p now).drop 4,
        ∀ s ∈ [Stage.bidFreeze, .bidReady, .done], s ∉ x.2 := by simp [guardedBlocks]
    have hskip := runBlocks_skip (drop_subset 4 (guardedBlocks p now))
      fun x hx => hrest x hx _ hstage
    exact Except.ok.inj (h.symm.trans hskip)

/-! ### The phases of a bid -/

namespace AuctionBid

variable {d : Draft}

theorem paid_of_wins (h : AuctionBid d) (hwins : d.wins = true) :
    ∃ b, d.w.legs = [b] ∧ b.role = .bidDebit ∧ isApplied b = true := by
  simp only [Draft.wins, Draft.isSettled, Bool.or_eq_true, Bool.and_eq_true,
    decide_eq_true_eq] at hwins
  rcases hwins with hs | ⟨hs, hstatus⟩
  · obtain ⟨-, b, hlegs, hb, hpaid⟩ := h.life.by_stage.frozen (.inr (.inl hs))
    exact ⟨b, hlegs, hb.role, hpaid⟩
  cases h.life with
  | settled hat hlegs hb hpaid => exact ⟨_, hlegs, hb.role, hpaid⟩
  | freezing hat => exact absurd (hat.stage_eq hs (by decide)).1 (by decide)
  | frozen hat hstage =>
    rw [← (hat.stage_eq hs (by decide)).1] at hstage
    simp at hstage
  | refused hp | returning hp =>
    rcases hp with ⟨-, hp⟩ | ⟨-, hp⟩ | ⟨-, hp, -⟩ <;> cases hstatus.symm.trans hp

theorem cancels (h : AuctionBid d) (hs : d.w.stage = .giveBack) :
    d.r.status = .cancelPending := by
  cases h.life with
  | refused hp | returning hp => exact (hp.stage_eq hs (by decide) (by decide)).2
  | freezing hat => exact absurd (hat.stage_eq hs (by decide)).1 (by decide)
  | frozen hat hstage =>
    rw [← (hat.stage_eq hs (by decide)).1] at hstage
    simp at hstage
  | settled hat => rcases hat with ⟨hs', -⟩ | ⟨hs', -⟩ <;> cases hs.symm.trans hs'

/-- What the plan makes of a bid that was `d` at first: it neither wins nor loses, and its debit
is not collected again. -/
structure Planned (d x : Draft) : Prop where
  bid : AuctionBid x
  wins : x.wins = d.wins
  isSettled : x.isSettled = d.isSettled
  frozen : x.w.stage = .bidFreeze → d.w.stage = .bidFreeze

/-- A move from a stage of a bid that does not win to another. -/
theorem Planned.move {x x' : Draft} (h : Planned d x) (hbid : AuctionBid x')
    (hwins : x.wins = false) (hwins' : x'.wins = false)
    (hs : x'.w.stage = .bidFreeze → x.w.stage = .bidFreeze) : Planned d x' :=
  ⟨hbid, hwins'.trans (hwins.symm.trans h.wins), (Draft.isSettled_of_wins hwins').trans
    ((Draft.isSettled_of_wins hwins).symm.trans h.isSettled), fun h' => h.frozen (hs h')⟩

theorem planned_planBidFreeze : KeepsAt (Planned d) [.bidFreeze] planBidFreeze := by
  intro x f h hs hf
  have hbid := keeps_planBidFreeze x f h.bid hs hf
  rw [mem_singleton] at hs
  have hwins : x.wins = false := by simp [Draft.wins, Draft.isSettled, hs]
  unfold planBidFreeze at hf
  rw [if_pos hs] at hf
  dsimp only at hf
  split at hf
  · cases hf
    exact h.move hbid hwins (by simp [Draft.wins, Draft.isSettled, Flow.state, addLeg_stage, hs])
      fun _ => hs
  split at hf <;> cases hf <;> exact h.move hbid hwins rfl fun _ => hs

theorem planned_planBidRefund : KeepsAt (Planned d) [.bidRefund] planBidRefund := by
  intro x f h hs hf
  have hbid := keeps_planBidRefund x f h.bid hs hf
  rw [mem_singleton] at hs
  have hwins : x.wins = false := by simp [Draft.wins, Draft.isSettled, hs]
  unfold planBidRefund at hf
  rw [if_pos hs] at hf
  dsimp only at hf
  split at hf
  · cases hf
  · obtain ⟨w, -, hf⟩ := bind_eq_ok hf
    cases hf
    exact h.move hbid hwins rfl fun hs => by cases hs

theorem planned_planFinish : KeepsAt (Planned d) [.deliver, .giveBack] planFinish := by
  intro x f h hs hf
  have hbid := keeps_planFinish x f h.bid hs hf
  have hs : x.w.stage = .giveBack := stage_eq_of h.bid.life.stage_mem hs (by decide)
  have hwins : x.wins = false := by simp [Draft.wins, Draft.isSettled, hs]
  unfold planFinish at hf
  rw [if_pos (.inr hs), h.bid.cancels hs] at hf
  dsimp only at hf
  split at hf
  · cases hf
    refine h.move hbid hwins ?_ fun hs => by cases hs
    split <;> rfl
  · cases hf
    exact h

theorem plan_planned {p : Policy} {d' : Draft} (h : AuctionBid d) (hplan : plan p now d = .ok d') :
    Planned d d' := by
  exact plan_keeps_of (fun hd => by simp [hd.bid.kind]) (by decide)
    (fun hd => hd.bid.life.stage_mem) (by simpa [guardedBlocks] using
      ⟨planned_planBidFreeze, planned_planBidRefund, planned_planFinish⟩)
    (I := Planned d) ⟨h, rfl, rfl, id⟩ hplan

/-- A bid that is still frozen after the plan has a debit that is not final. -/
theorem plan_frozen {p : Policy} {d' : Draft} (h : AuctionBid d) (hplan : plan p now d = .ok d') :
    d'.Collects := by
  intro hs'
  have hs := (h.plan_planned hplan).frozen hs'
  obtain ⟨f, hf, rfl⟩ := plan_bidFreeze h.kind hs hplan
  obtain ⟨-, hlegs⟩ := h.life.by_stage.bidFreeze hs
  obtain ⟨b, hb, hadd, hleg⟩ := addLeg_collect hlegs (by simp)
  unfold planBidFreeze at hf
  rw [if_pos hs, hadd] at hf
  dsimp only at hf
  rw [hleg] at hf
  split at hf
  next hopen =>
    cases hf
    simpa [Flow.state] using hopen
  split at hf <;> cases hf <;> cases hs'

variable {p : Policy} {i : AdvanceInput} {d' : Draft}

/-- The background advance makes no bid win, lose or be settled. -/
theorem advance (h : AuctionBid d) (hadvance : advanceDraft p i d = .ok d') :
    d'.Collects ∧ d'.wins = d.wins ∧ d'.isSettled = d.isSettled := by
  obtain ⟨legs, partly, hrecord, hrest⟩ := advanceDraft_sent hadvance
  have hlater := recordOutcomes_later hrecord
  rcases hrest with ⟨rfl, rfl⟩ | ⟨rfl, d₁, legs', hplan, hsent, rfl⟩
  · -- A leg was not final, so that the bid did not win.
    have hwins : d.wins = false := by
      by_contra hwins
      obtain ⟨b, hlegs, -, hpaid⟩ := h.paid_of_wins (eq_true_of_ne_false hwins)
      rw [recordOutcomes_done (by simp [hlegs, hpaid])] at hrecord
      cases hrecord
    exact ⟨nofun, hwins.symm, (Draft.isSettled_of_wins hwins).symm⟩
  · have hbid : AuctionBid (d.setLegs legs) := h.drift (.setLegs hlater)
    have hplanned := hbid.plan_planned hplan
    rw [marketBarrier, if_pos (.inl (by simp [hplanned.bid.kind]))] at hsent ⊢
    refine ⟨fun hs b hb => ?_, hplanned.wins, hplanned.isSettled⟩
    obtain ⟨a, ha, hab⟩ := exists_of_forall₂ hsent hb
    have hopen := hbid.plan_frozen hplan hs a ha
    rcases hab with rfl | ⟨-, op, rfl⟩ <;> exact hopen

/-- No step but the acceptance of a bid makes a bid win, and none but its quarantine makes it
lose. -/
theorem step (h : AuctionBid d) (haccept : e.isAccept = false)
    (hstep : DraftStep cfg t e id d d') :
    d'.Collects ∧ (d'.wins = d.wins ∨ d' = d.move .manual .manual) ∧
      (d'.isSettled = true → d.isSettled = true ∨
        ∃ parent : Contract, t.get d.r.parentId = some parent ∧ parent.status = .settled) := by
  have hkind := h.kind
  have hno : ∀ {P : Prop}, e.isAccept = true → P := fun htrue => by
    rw [haccept] at htrue
    cases htrue
  cases hstep with
  | common hstep =>
    cases hstep with
    | confirmed hconfirm =>
      cases (mutateConfirm_guard hconfirm).1.symm.trans hkind
    | bought hbuy => cases (mutateBuy_ok hbuy).1.symm.trans hkind
    | cancelled hcancel =>
      obtain ⟨-, ⟨hplayer, -⟩ | ⟨-, hs | hs | ⟨hs, -⟩⟩, -⟩ := mutateCancel_ok hcancel
      · cases hplayer.symm.trans hkind
      all_goals exact stage_absurd h.life.stage_mem hs (by decide)
    | advanced hchar hinput hadvance =>
      obtain ⟨hcollects, hwins, hsettled⟩ := h.advance hadvance
      exact ⟨hcollects, .inl hwins, fun htrue => .inl (hsettled ▸ htrue)⟩
    | quarantined hq hdue heq =>
      subst heq
      exact ⟨nofun, .inr rfl, nofun⟩
  | rmb hrmb => cases hrmb.symm.trans hkind
  | filled he hmarket => cases hmarket.symm.trans hkind
  | bidRefunded he | bidTaken he | lotTook he => exact hno he
  | bidSettled hs heq hparent hsettled =>
    subst heq
    exact ⟨nofun, .inl (by simp [Draft.wins, Draft.isSettled, Draft.move, hs]),
      fun _ => .inr ⟨_, hparent, hsettled⟩⟩

end AuctionBid

/-! ## Lots and bids -/

/-- No step but the acceptance of a bid changes what the lot or the bid is about. -/
theorem DraftStep.sameTrade (hkind : d.r.kind = .auctionLot ∨ d.r.kind = .bid)
    (haccept : e.isAccept = false) (hstep : DraftStep cfg t e id d d') : SameTrade d d' := by
  have hne : ∀ {kind : Kind}, d.r.kind = kind → kind ≠ .auctionLot → kind ≠ .bid →
      SameTrade d d' := by
    rintro kind rfl hlot hbid
    exact hkind.elim (absurd · hlot) (absurd · hbid)
  have hno : e.isAccept = true → SameTrade d d' := fun htrue => by
    rw [haccept] at htrue
    cases htrue
  cases hstep with
  | common hstep =>
    cases hstep with
    | confirmed hconfirm => exact hne (mutateConfirm_guard hconfirm).1 (by decide) (by decide)
    | bought hbuy => exact hne (mutateBuy_ok hbuy).1 (by decide) (by decide)
    | cancelled hcancel =>
      obtain ⟨-, -, rfl⟩ := mutateCancel_ok hcancel
      exact .of_terms (.refl _) _ _ _ _
    | advanced _ _ hadvance => exact advanceDraft_same hadvance
    | quarantined _ _ heq =>
      subst heq
      exact .of_terms (.refl _) _ _ _ _
  | rmb hrmb => exact hne hrmb (by decide) (by decide)
  | filled _ hmarket => exact hne hmarket (by decide) (by decide)
  | bidRefunded he | bidTaken he | lotTook he => exact hno he
  | bidSettled hs heq =>
    subst heq
    exact .of_terms (.refl _) _ _ _ _

structure Takes (lot bid : Draft) : Prop where
  price : lot.w.highestBid = bid.r.unitPrice
  bidder : lot.w.highestBidder = bid.r.sellerPlayerId
  assets : lot.w.buyerAssets = bid.w.sellerAssets

structure BidRow (t : Contracts) (k : CommerceId) (d : Draft) : Prop where
  key : k ≠ 0
  collects : d.Collects
  amount : d.w.sellerAssets =
    { currencyType := d.r.currencyType, currencyAmount := d.r.unitPrice }
  positive : 0 < d.r.unitPrice
  bound : d.r.unitPrice ≤ maxInt64
  lot : ∃ lot : Draft, t.get d.r.parentId = some lot.row ∧ lot.r.kind = .auctionLot ∧
    (d.wins = true → lot.w.winningBidId = k) ∧
    (d.isSettled = true → lot.r.status = .settled)

/-- The bid wins, or it did when it was taken out. -/
def Draft.Stands (d : Draft) : Prop :=
  d.wins = true ∨ d.r.status = .manual ∧ ∀ x ∈ d.w.legs, x.role ≠ .bidReturn

/-- What the table knows of a lot: it has no bid, or its bid is there and stands. -/
structure LotRow (t : Contracts) (k : CommerceId) (d : Draft) : Prop where
  price : 0 < d.r.unitPrice
  increment : 0 < d.w.minimumIncrement
  winner : (d.w.winningBidId = 0 ∧ d.w.highestBid = 0 ∧ d.w.highestBidder = 0) ∨
    ∃ bid : Draft, t.get d.w.winningBidId = some bid.row ∧ bid.r.kind = .bid ∧
      bid.r.parentId = k ∧ bid.Stands ∧ Takes d bid

structure Auctions (t : Contracts) : Prop where
  rows : Rows Life t
  bid : ∀ k d, t.get k = some (Draft.row d) → d.r.kind = .bid → BidRow t k d
  lot : ∀ k d, t.get k = some (Draft.row d) → d.r.kind = .auctionLot → LotRow t k d

/-- A new row has a number, which is not zero. -/
def Event.Numbered (e : Event) : Prop :=
  ∀ id dir actor now me request, e = .create id dir actor now me request → id ≠ 0

structure Carried (t : Contracts) (d d' : Draft) : Prop where
  fixed : d'.r.fixed = d.r.fixed
  terms : d.r.kind = .auctionLot ∨ d.r.kind = .bid → SameTerms d.w d'.w
  collects : d.r.kind = .bid → d.Collects → d'.Collects
  wins : d.r.kind = .bid → d'.wins = true → d.wins = true
  stands : d.r.kind = .bid → d.Stands → d'.Stands
  settled : d.r.kind = .bid → d'.isSettled = true → d.isSettled = true ∨
    ∃ parent : Contract, t.get d.r.parentId = some parent ∧ parent.status = .settled
  closed : d.r.kind = .auctionLot → d.r.status = .settled → d'.r.status = .settled

theorem Carried.refl (d : Draft) : Carried t d d :=
  ⟨rfl, fun _ => .refl _, fun _ => id, fun _ => id, fun _ => id, fun _ => .inl, fun _ => id⟩

section

variable {s : World} {d : Draft}

theorem Life.kind_of_stage (h : Life d)
    (hs : d.w.stage = .bidReady ∨ d.w.stage = .bidHeld) : d.r.kind = .bid := by
  have hne : ∀ {stages : List Stage}, d.w.stage ∈ stages → .bidReady ∉ stages →
      .bidHeld ∉ stages → d.r.kind = .bid := fun hmem hready hheld =>
    hs.elim (stage_absurd hmem · hready) (stage_absurd hmem · hheld)
  cases h with
  | bid h => exact h.kind
  | official h => exact hne (OfficialOrder.closed.stage_mem h) (by decide) (by decide)
  | playerTrade h => exact hne (PlayerTrade.closed.stage_mem h) (by decide) (by decide)
  | consignment h => exact hne (Consignment.closed.stage_mem h) (by decide) (by decide)
  | order h => exact hne (MarketOrder.closed.stage_mem h) (by decide) (by decide)
  | fill h => exact hne (MarketFill.closed.stage_mem h) (by decide) (by decide)
  | lot h => exact hne (AuctionLot.closed.stage_mem h) (by decide) (by decide)
  | assets h => exact hne (AssetListing.closed.stage_mem h) (by decide) (by decide)
  | character h => exact hne h.life.stage_mem (by decide) (by decide)

/-- What a row is, by its kind. -/
theorem Life.auction (h : Life d) :
    (d.r.kind = .auctionLot → AuctionLot d) ∧ (d.r.kind = .bid → AuctionBid d) := by
  cases h with
  | lot h => exact ⟨fun _ => h, fun hkind => by simp [h.kind] at hkind⟩
  | bid h => exact ⟨fun hkind => by simp [h.kind] at hkind, fun _ => h⟩
  | official h | playerTrade h | consignment h | fill h | assets h | character h => simp [h.kind]
  | order h => simp [h.terms.kind]

theorem step_carried (cfg : Config) (hrows : Rows Life s.contracts)
    (haccept : e.isAccept = false) (hget : s.contracts.get id = some d.row) :
    ∃ d' : Draft, (step cfg s e).contracts.get id = some d'.row ∧ Carried s.contracts d d' := by
  cases (step_row e id : RowChange cfg s.contracts e _ id) with
  | same hsame => exact ⟨d, hsame.trans hget, .refl d⟩
  | created hnone => cases hget.symm.trans hnone
  | stepped hget₁ hget' hstep =>
    cases hget.symm.trans hget₁
    rcases hstep.stepped with rfl | ⟨d', hd', rfl⟩
    · exact ⟨d, hget', .refl d⟩
    have hlife := hrows.get hget
    have hfrozen : d.r.kind = .auctionLot ∨ d.r.kind = .bid → d.r.status.terminal = true →
        Frozen d d' := by
      intro hkind ht
      refine hd'.frozen hlife ht hget ?_ fun hmarket => ?_
      · rintro ⟨g, hg, -, hrmb, -⟩
        cases draft_of_row (Option.some_inj.1 (hget.symm.trans hg))
        rcases hkind with hkind | hkind <;> cases hrmb.symm.trans hkind
      · rcases hkind with hkind | hkind <;> cases hmarket.symm.trans hkind
    have hbid := fun hkind => (hlife.auction.2 hkind).step haccept hd'
    refine ⟨d'.bump, hget', hd'.fixed, fun hkind => (hd'.sameTrade hkind haccept).terms,
      fun hkind _ => (hbid hkind).1, fun hkind htrue => ?_, fun hkind hstands => ?_,
      fun hkind => (hbid hkind).2.2, fun hkind hsettled => ?_⟩
    · rcases (hbid hkind).2.1 with hwins | rfl
      · exact hwins ▸ htrue
      · cases htrue
    · rcases hstands with hwins | ⟨hmanual, hroles⟩
      · rcases (hbid hkind).2.1 with hsame | rfl
        · exact .inl (hsame.trans hwins)
        · obtain ⟨b, hlegs, hrole, -⟩ := (hlife.auction.2 hkind).paid_of_wins hwins
          exact .inr ⟨rfl, by simp [Draft.bump, Draft.move, hlegs, hrole]⟩
      · have hsame := hfrozen (.inr hkind) (by rw [hmanual]; rfl)
        refine .inr ⟨hsame.status.trans hmanual, fun x hx hrole => ?_⟩
        obtain ⟨y, hy, hpurpose⟩ := mem_map.1 (hsame.legs ▸ mem_map_of_mem hx)
        exact hroles y hy ((congrArg Purpose.role hpurpose).trans hrole)
    · exact (hfrozen (.inl hkind) (by rw [hsettled]; rfl)).status.trans hsettled

/-- A new row that is a lot or a bid was requested by a player. -/
theorem Created.requested_of (h : Created cfg t e id d.row)
    (hkind : d.r.kind = .auctionLot ∨ d.r.kind = .bid) :
    ∃ dir actor now me request, e = .create id dir actor now me request ∧
      ∃ (d₀ : Draft) (seller buyer : Option TradeRoleIdentity),
        draftOf cfg t now me request = .ok d₀ ∧
        d = ⟨d₀.r, { d₀.w with sellerIdentity := seller, buyerIdentity := buyer }⟩ := by
  cases h with
  | requested he hdraft hcreate =>
    obtain ⟨seller, buyer, hrow⟩ := create_ok hcreate
    exact ⟨_, _, _, _, _, he, _, seller, buyer, hdraft, draft_of_row hrow⟩
  | accepted haccept =>
    obtain ⟨d₀, hrow, hofficial⟩ := accept_ok haccept
    cases draft_of_row hrow
    simp [hofficial.kind] at hkind
  | matched he hcross hprice heq =>
    have hd : d.r.kind = .marketMatch := congrArg (fun c : Contract => c.kind) heq
    simp [hd] at hkind

theorem Created.newBid (he : e.Numbered) (hauctions : Auctions t)
    (h : Created cfg t e id d.row) (hkind : d.r.kind = .bid) :
    id ≠ 0 ∧ d.Collects ∧ d.wins = false ∧ 0 < d.r.unitPrice ∧ d.r.unitPrice ≤ maxInt64 ∧
      d.w.sellerAssets = { currencyType := d.r.currencyType, currencyAmount := d.r.unitPrice } ∧
      ∃ lot : Draft, t.get d.r.parentId = some lot.row ∧ lot.r.kind = .auctionLot := by
  obtain ⟨dir, actor, now, me, request, hevent, d₀, seller, buyer, hdraft, rfl⟩ :=
    h.requested_of (.inr hkind)
  have hrequest : request.kind = .bid := (draftOf_kind hdraft).symm.trans hkind
  cases request <;> cases hrequest
  obtain ⟨lot, hlot, hbid⟩ := draftOf_bid hdraft
  obtain ⟨-, hstatus, hstage, hlegs, hparent, -, hprice, hassets, hlotKind, hopening,
    hbound, hcurrency⟩ := placeBid_ok hbid
  obtain ⟨lotDraft, rfl, -⟩ := hauctions.rows _ lot hlot
  have hpositive : 0 < d₀.r.unitPrice :=
    hprice ▸ (hauctions.lot _ lotDraft hlot hlotKind).price.trans_le hopening
  refine ⟨he _ _ _ _ _ _ hevent, by simp [Draft.Collects, hlegs],
    by simp [Draft.wins, Draft.isSettled, hstage], hpositive, hprice ▸ hbound, ?_, lotDraft, ?_,
    hlotKind⟩
  · rw [hprice, hcurrency]
    exact hassets
  · rw [hparent]
    exact hlot

theorem Created.newLot {t' : Contracts} (h : Created cfg t e id d.row)
    (hkind : d.r.kind = .auctionLot) :
    LotRow t' id d := by
  obtain ⟨dir, actor, now, me, request, -, d₀, seller, buyer, hdraft, rfl⟩ :=
    h.requested_of (.inl hkind)
  have hrequest : request.kind = .auctionLot := (draftOf_kind hdraft).symm.trans hkind
  cases request <;> cases hrequest
  obtain ⟨-, -, -, -, -, hbid, hbidder, hwinner, hprice, hincrement⟩ := createLot_ok hdraft
  exact ⟨hprice, hincrement, .inl ⟨hwinner, hbid, hbidder⟩⟩

/-- Where every row is carried and the others are new, the table knows its auctions. -/
theorem Auctions.carried (cfg : Config) {t' : Contracts} (h : Auctions t)
    (he : e.Numbered) (hrows : Rows Life t')
    (hkeep : ∀ {k : CommerceId} {d : Draft}, t.get k = some d.row →
      ∃ d' : Draft, t'.get k = some d'.row ∧ Carried t d d')
    (hback : ∀ {k : CommerceId} {d' : Draft}, t'.get k = some d'.row →
      Created cfg t e k d'.row ∨ ∃ d : Draft, t.get k = some d.row) : Auctions t' := by
  have hcases : ∀ {k : CommerceId} {d' : Draft}, t'.get k = some d'.row →
      Created cfg t e k d'.row ∨ ∃ d, t.get k = some (Draft.row d) ∧ Carried t d d' := by
    intro k d' hget'
    refine (hback hget').imp_right fun ⟨d, hget⟩ => ?_
    obtain ⟨d₁, hd₁, hc⟩ := hkeep hget
    cases draft_eq_of_get hget' hd₁
    exact ⟨d, hget, hc⟩
  refine ⟨hrows, fun k d' hget' hkind' => ?_, fun k d' hget' hkind' => ?_⟩
  · -- The lot of a bid is carried, with the bid that it names.
    have hlot : ∀ {p : CommerceId} {lot : Draft}, t.get p = some lot.row →
        lot.r.kind = .auctionLot → ∃ lot' : Draft, t'.get p = some lot'.row ∧
          lot'.r.kind = .auctionLot ∧ lot'.w.winningBidId = lot.w.winningBidId ∧
          (lot.r.status = .settled → lot'.r.status = .settled) := by
      intro p lot hlot hlotKind
      obtain ⟨lot', hlot', hc⟩ := hkeep hlot
      obtain ⟨stage, legs, cancel, hw⟩ := hc.terms (.inl hlotKind)
      exact ⟨lot', hlot', (congrArg Record.kind hc.fixed).trans hlotKind, by rw [hw],
        hc.closed hlotKind⟩
    rcases hcases hget' with hnew | ⟨d, hget, hc⟩
    · obtain ⟨hkey, hcollects, hwins, hpositive, hbound, hassets, lot, hlotGet, hlotKind⟩ :=
        hnew.newBid he h hkind'
      obtain ⟨lot', hlot', hlotKind', -⟩ := hlot hlotGet hlotKind
      refine ⟨hkey, hcollects, hassets, hpositive, hbound, lot', hlot', hlotKind',
        fun htrue => ?_, fun htrue => ?_⟩
      · cases hwins.symm.trans htrue
      · cases (Draft.isSettled_of_wins hwins).symm.trans htrue
    have hf : ∀ {α : Type} (f : Record → α), f d'.r.fixed = f d.r.fixed := fun f => by
      rw [hc.fixed]
    have hkind : d.r.kind = .bid := (hf Record.kind).symm.trans hkind'
    have hbid := h.bid k d hget hkind
    obtain ⟨stage, legs, cancel, hw⟩ := hc.terms (.inr hkind)
    have hprice : d'.r.unitPrice = d.r.unitPrice := hf Record.unitPrice
    have hcurrency : d'.r.currencyType = d.r.currencyType := hf Record.currencyType
    have hparent : d'.r.parentId = d.r.parentId := hf Record.parentId
    obtain ⟨lot, hlotGet, hlotKind, hwinner, hclosed⟩ := hbid.lot
    obtain ⟨lot', hlot', hlotKind', hsame, hstatus⟩ := hlot hlotGet hlotKind
    refine ⟨hbid.key, hc.collects hkind hbid.collects, ?_, hprice ▸ hbid.positive,
      hprice ▸ hbid.bound, lot', by rw [hparent, hlot'], hlotKind', fun htrue => ?_,
      fun htrue => ?_⟩
    · rw [hw, hprice, hcurrency]
      exact hbid.amount
    · rw [hsame]
      exact hwinner (hc.wins hkind htrue)
    · rcases hc.settled hkind htrue with htrue | ⟨parent, hparent, hpsettled⟩
      · exact hstatus (hclosed htrue)
      · cases hlotGet.symm.trans hparent
        exact hstatus hpsettled
  · rcases hcases hget' with hnew | ⟨d, hget, hc⟩
    · exact hnew.newLot hkind'
    have hkind : d.r.kind = .auctionLot := (congrArg Record.kind hc.fixed).symm.trans hkind'
    obtain ⟨hprice, hincrement, hwinner⟩ := h.lot k d hget hkind
    have hprice' : d'.r.unitPrice = d.r.unitPrice := (congrArg Record.unitPrice hc.fixed :)
    obtain ⟨r', w'⟩ := d'
    obtain ⟨stage, legs, cancel, rfl⟩ := hc.terms (.inl hkind)
    refine ⟨hprice' ▸ hprice, hincrement, ?_⟩
    rcases hwinner with hnone | ⟨bid, hbidGet, hbidKind, hparent, hstands, htakes⟩
    · exact .inl hnone
    · obtain ⟨bid', hbidGet', hcb⟩ := hkeep hbidGet
      have hf : ∀ {α : Type} (f : Record → α), f bid'.r.fixed = f bid.r.fixed := fun f => by
        rw [hcb.fixed]
      obtain ⟨stage', legs', cancel', hw'⟩ := hcb.terms (.inr hbidKind)
      refine .inr ⟨bid', hbidGet', (hf Record.kind).trans hbidKind,
        (hf Record.parentId).trans hparent, hcb.stands hbidKind hstands,
        htakes.price.trans (hf Record.unitPrice).symm,
        htakes.bidder.trans (hf Record.sellerPlayerId).symm, ?_⟩
      rw [hw']
      exact htakes.assets

/-- An event that accepts no bid keeps what the table knows of auctions. -/
theorem step_auctions_other (h : Auctions s.contracts) (he : e.Numbered)
    (haccept : e.isAccept = false) : Auctions (step cfg s e).contracts := by
  refine h.carried cfg he (step_life h.rows) (step_carried cfg h.rows haccept) ?_
  intro k d' hget'
  rcases step_draft h.rows hget' with hsame | ⟨d, -, hget, -⟩ | ⟨-, hnew⟩
  · exact .inr ⟨d', hsame⟩
  · exact .inr ⟨d, hget⟩
  · exact .inl hnew

/-! ### Bids that are accepted -/

variable {k : CommerceId}

theorem Auctions.kind_of_stage (h : Auctions t)
    (hget : t.get k = some d.row) (hs : d.w.stage = .bidReady ∨ d.w.stage = .bidHeld) :
    d.r.kind = .bid :=
  (h.rows.get hget).kind_of_stage hs

variable {d' : Draft}

theorem draft_eq_of_save (hget : t.get k = some d.row)
    (hget' : t.get k = some d'.save) : d = d'.bump :=
  draft_eq_of_get hget hget'

theorem get_ne_of_kind {k' : CommerceId} (hget : t.get k = some d.row)
    (hget' : t.get k' = some d'.row) (hkind : d.r.kind ≠ d'.r.kind) : k ≠ k' := by
  rintro rfl
  cases draft_eq_of_get hget hget'
  exact hkind rfl

theorem refused_auctions (cfg : Config) {bid : Draft} (h : Auctions t)
    (he : e.Numbered) (hrows : Rows Life (t.put id bid.refundBid.save))
    (hget : t.get id = some bid.row)
    (hstage : bid.w.stage = .bidReady) : Auctions (t.put id bid.refundBid.save) := by
  have hkind := h.kind_of_stage hget (.inl hstage)
  refine h.carried cfg he hrows (fun {k d} hd => ?_) fun {k d'} hd' => .inr ?_
  · by_cases hk : k = id
    · subst hk
      cases draft_eq_of_get hd hget
      refine ⟨bid.refundBid.bump, Table.get_put_self _ _ _, rfl, fun _ => ⟨_, _, _, rfl⟩,
        nofun, nofun, fun _ hstands => ?_, nofun, ?_⟩
      · -- A bid that waits does not stand.
        obtain ⟨hopen, -⟩ := ((h.rows.get hget).auction.2 hkind).life.by_stage.frozen (.inl hstage)
        rcases hstands with hwins | ⟨hmanual, -⟩
        · simp [Draft.wins, Draft.isSettled, hstage] at hwins
        · rw [hmanual] at hopen
          cases hopen
      · exact fun hlot => absurd (hkind.symm.trans hlot) (by decide)
    · exact ⟨d, (Table.get_put_of_ne hk).trans hd, .refl d⟩
  · by_cases hk : k = id
    · exact ⟨bid, hk ▸ hget⟩
    · exact ⟨d', (Table.get_put_of_ne hk).symm.trans hd'⟩

/-- A lot that takes a bid lets go of the one before. -/
theorem taken_auctions {bidId : CommerceId} {bid lot : Draft} {t₁ t' : Contracts}
    (h : Auctions t) (hrows : Rows Life t') (htaken : Taken now bidId bid lot t t₁ t') :
    Auctions t' := by
  have hkind := h.kind_of_stage htaken.bidRow (.inl htaken.ready)
  have hbid := h.bid bidId bid htaken.bidRow hkind
  have hlotKind : lot.r.kind = .auctionLot := by
    obtain ⟨lot₀, hlot₀, hlotKind, -⟩ := hbid.lot
    cases draft_eq_of_get hlot₀ htaken.lotRow
    exact hlotKind
  have hlotRow := h.lot _ lot htaken.lotRow hlotKind
  have hne : bid.r.parentId ≠ bidId :=
    get_ne_of_kind htaken.lotRow htaken.bidRow (by simp [hlotKind, hkind])
  have hlot' : t'.get bid.r.parentId = some (takeBid bidId bid lot).bump.row := by
    rcases htaken.get bid.r.parentId with ⟨heq, -⟩ | ⟨-, -, hget⟩ | ⟨-, heq, -⟩ | ⟨-, heq, -⟩
    · exact absurd heq hne
    · exact hget
    · exact absurd rfl heq
    · exact absurd rfl heq
  have hbid' : t'.get bidId = some (bid.enter .bidHeld).bump.row := by
    rcases htaken.get bidId with ⟨-, hget⟩ | ⟨-, heq, -⟩ | ⟨heq, -⟩ | ⟨heq, -⟩
    · exact hget
    all_goals exact absurd rfl heq
  -- The bid that is let go belongs to the lot.
  have hold : ∀ {old : Draft}, lot.w.winningBidId ≠ 0 →
      t.get lot.w.winningBidId = some old.row → old.r.parentId = bid.r.parentId := by
    intro old hzero hget
    rcases hlotRow.winner with ⟨hnone, -⟩ | ⟨winner, hwinner, -, hparent, -⟩
    · exact absurd hnone hzero
    · cases draft_eq_of_get hget hwinner
      exact hparent
  refine ⟨hrows, fun k d' hget' hkind' => ?_, fun k d' hget' hkind' => ?_⟩
  · rcases htaken.get k with ⟨hk, hget⟩ | ⟨hk, -, hget⟩ |
      ⟨-, -, hk, hzero, old, hget, hheld, hgetOld⟩ | ⟨-, hparent, hk, hsame⟩
    · subst hk
      cases draft_eq_of_save hget' hget
      exact { hbid with
        collects := nofun
        lot := ⟨_, hlot', hlotKind, fun _ => rfl, nofun⟩ }
    · cases draft_eq_of_save hget' hget
      cases hlotKind.symm.trans hkind'
    · have hkindOld := h.kind_of_stage hget (.inr hheld)
      have hparent := hold (hk ▸ hzero) (hk ▸ hget)
      cases draft_eq_of_save hget' hgetOld
      exact { h.bid k old hget hkindOld with
        collects := nofun
        lot := ⟨_, (congrArg t'.get hparent).trans hlot', hlotKind, nofun, nofun⟩ }
    · have hget := hsame.symm.trans hget'
      have hrow := h.bid k d' hget hkind'
      obtain ⟨lot₀, hlot₀, hlotKind₀, hwinner, hclosed⟩ := hrow.lot
      by_cases hp : d'.r.parentId = bid.r.parentId
      · -- A bid of the same lot: it does not win, since the winning bid was let go.
        cases draft_eq_of_get hlot₀ (hp ▸ htaken.lotRow)
        exact { hrow with
          lot := ⟨_, (congrArg t'.get hp).trans hlot', hlotKind,
            fun htrue => absurd (hk (hwinner htrue).symm) hrow.key, hclosed⟩ }
      · refine { hrow with lot := ⟨lot₀, ?_, hlotKind₀, hwinner, hclosed⟩ }
        rcases htaken.get d'.r.parentId with ⟨heq, -⟩ | ⟨heq, -⟩ |
          ⟨-, -, -, -, old, hget, hheld, -⟩ | ⟨-, -, -, hsame⟩
        · cases draft_eq_of_get (heq ▸ hlot₀) htaken.bidRow
          cases hkind.symm.trans hlotKind₀
        · exact absurd heq hp
        · have hkindOld := h.kind_of_stage hget (.inr hheld)
          cases draft_eq_of_get hget hlot₀
          cases hkindOld.symm.trans hlotKind₀
        · exact hsame.trans hlot₀
  · rcases htaken.get k with ⟨hk, hget⟩ | ⟨hk, -, hget⟩ |
      ⟨-, -, hk, hzero, old, hget, hheld, hgetOld⟩ | ⟨-, hparent, hk, hsame⟩
    · cases draft_eq_of_save hget' hget
      cases hkind.symm.trans hkind'
    · cases draft_eq_of_save hget' hget
      exact ⟨hlotRow.price, hlotRow.increment,
        .inr ⟨_, hbid', hkind, hk.symm, .inl rfl, rfl, rfl, rfl⟩⟩
    · have hkindOld := h.kind_of_stage hget (.inr hheld)
      cases draft_eq_of_save hget' hgetOld
      cases hkindOld.symm.trans hkind'
    · have hget := hsame.symm.trans hget'
      refine { h.lot k d' hget hkind' with winner := ?_ }
      rcases (h.lot k d' hget hkind').winner with hnone |
        ⟨winner, hwinner, hwinnerKind, hwparent, hstands, htakes⟩
      · exact .inl hnone
      · refine .inr ⟨winner, ?_, hwinnerKind, hwparent, hstands, htakes⟩
        rcases htaken.get d'.w.winningBidId with ⟨heq, -⟩ | ⟨heq, -⟩ | ⟨-, -, heq, hzero, -⟩ |
          ⟨-, -, -, hsame⟩
        · cases draft_eq_of_get (heq ▸ hwinner) htaken.bidRow
          exact absurd hwparent.symm hparent
        · cases draft_eq_of_get (heq ▸ hwinner) htaken.lotRow
          cases hlotKind.symm.trans hwinnerKind
        · -- Two lots do not have the same winning bid.
          rw [heq] at hwinner hzero
          exact absurd (hwparent.symm.trans (hold hzero hwinner)) hparent
        · exact hsame.trans hwinner

theorem step_accept (haccept : e.isAccept = true) :
    ∃ now bidId, AcceptEffect now bidId s.contracts (step cfg s e).contracts := by
  obtain ⟨bidId, dir, now, rfl⟩ : ∃ k dir now, e = .acceptBid k dir now := by
    cases e <;> first | exact ⟨_, _, _, rfl⟩ | cases haccept
  refine ⟨now, bidId, ?_⟩
  have hstep : step cfg s (.acceptBid bidId dir now) = s.transact (acceptBid dir now bidId) := rfl
  rw [hstep]
  unfold World.transact
  split
  · exact .none rfl
  · exact acceptBid_effect ‹_›

theorem step_auctions (h : Auctions s.contracts) (he : e.Numbered) :
    Auctions (step cfg s e).contracts := by
  have hrows : Rows Life (step cfg s e).contracts := step_life h.rows
  by_cases haccept : e.isAccept = true
  · obtain ⟨now, bidId, heffect⟩ := @step_accept cfg e s haccept
    cases heffect with
    | none hsame => exact hsame ▸ h
    | refused hget hstage hput =>
      rw [hput] at hrows ⊢
      exact refused_auctions cfg h he hrows hget hstage
    | taken htaken => exact taken_auctions h hrows htaken
  · exact step_auctions_other h he (eq_false_of_ne_true haccept)

/-- Every run of regular events knows where the bids are. -/
theorem run_auctions (es : List Event) (hes : ∀ e ∈ es, e.Numbered) :
    Auctions (Machine.run (step cfg) World.empty es).contracts := by
  refine Machine.run_invariant_of_admits (I := fun s : World => Auctions s.contracts)
    (fun _ _ hs he => step_auctions hs he) ⟨Rows.empty Life, ?_, ?_⟩
    (Machine.admits_of_forall hes)
  · exact fun k d h => by simp [World.empty] at h
  · exact fun k d h => by simp [World.empty] at h

end

/-! ## What players see of an auction -/

inductive BidPlace where
  | waiting
  | held
  | refund
  | settled
  | manual
deriving DecidableEq, Repr

def Draft.bidAmount (d : Draft) : AssetBundle :=
  bundle { currencyType := d.r.currencyType, currencyAmount := d.r.unitPrice }

/-- The refund is planned next, or there is one leg that returns the whole amount; it is applied
when the bid is cancelled. -/
def Draft.Refunds (d : Draft) : Prop :=
  d.w.stage = .bidRefund ∨
    (d.r.status = .cancelPending ∨ d.r.status = .cancelled) ∧
      ∃ x, d.w.legs.filter (·.role = .bidReturn) = [x] ∧
        x.purpose = ⟨.bidReturn, d.r.sellerPlayerId, .tradeCredit, d.bidAmount⟩ ∧
        (d.r.status = .cancelled → isApplied x = true)

/-- A bid is Manual when its debit was applied in part, its refund failed or an operator took it
out. -/
def Draft.MoneyIn (d : Draft) : BidPlace → Prop
  | .waiting => d.w.stage = .bidReady
  | .held => d.w.stage = .bidHeld
  | .refund => d.Refunds
  | .settled => d.isSettled = true
  | .manual => d.r.status = .manual

/-- A held bid is the winning bid of its lot, and the lot has no other. -/
def HeldBidsWin (t : Contracts) : Prop :=
  ∀ k d, t.get k = some (Draft.row d) → d.r.kind = .bid → d.w.stage = .bidHeld →
    ∃ lot : Draft, t.get d.r.parentId = some lot.row ∧ lot.r.kind = .auctionLot ∧
      lot.w.winningBidId = k ∧ ∀ k' d', t.get k' = some (Draft.row d') → d'.r.kind = .bid →
        d'.r.parentId = d.r.parentId → d'.w.stage = .bidHeld → k' = k

/-- The highest bid of a lot stays, is the first one, or grows by the minimum increment. -/
def HighestBidGrows (t t' : Contracts) : Prop :=
  ∀ k lot, t.get k = some (Draft.row lot) → lot.r.kind = .auctionLot →
    ∃ lot' : Draft, t'.get k = some lot'.row ∧
      (lot'.w.highestBid = lot.w.highestBid ∨
        (lot.w.winningBidId = 0 ∧ lot.r.unitPrice ≤ lot'.w.highestBid) ∨
        (0 < lot.w.minimumIncrement ∧
          lot.w.highestBid + lot.w.minimumIncrement ≤ lot'.w.highestBid))

def BidsPlaced (t : Contracts) : Prop :=
  ∀ k d b, t.get k = some (Draft.row d) → d.r.kind = .bid → leg d.w .bidDebit = some b →
    isApplied b = true → b.bundle = d.bidAmount ∧ ∃! place, d.MoneyIn place

/-- The seller of a lot is credited the amount of the winning bid, once, and no amount of another
bid; a settled lot has credited it, and a settled bid belongs to a settled lot. -/
def SellersPaid (t : Contracts) : Prop :=
  (∀ k lot, t.get k = some (Draft.row lot) → lot.r.kind = .auctionLot →
    (lot.w.legs.countP fun x => x.role = .sellerReceive) ≤ 1 ∧
      (∀ x ∈ lot.w.legs, x.role = .sellerReceive → ∃ bid : Draft,
        t.get lot.w.winningBidId = some bid.row ∧ bid.r.kind = .bid ∧ bid.r.parentId = k ∧
          (bid.MoneyIn .held ∨ bid.MoneyIn .settled ∨
            bid.MoneyIn .manual ∧ ∀ y ∈ bid.w.legs, y.role ≠ .bidReturn) ∧
          x.purpose = ⟨.sellerReceive, lot.r.sellerPlayerId, .tradeCredit, bid.bidAmount⟩) ∧
      (lot.r.status = .settled → ∃ x ∈ lot.w.legs, x.role = .sellerReceive ∧ isApplied x = true)) ∧
    ∀ k d, t.get k = some (Draft.row d) → d.r.kind = .bid → d.MoneyIn .settled →
      ∃ lot : Draft, t.get d.r.parentId = some lot.row ∧ lot.r.kind = .auctionLot ∧
        lot.w.winningBidId = k ∧ lot.r.status = .settled

section

variable {s : World}

theorem Auctions.heldBidsWin (h : Auctions t) : HeldBidsWin t := by
  intro k d hget hkind hheld
  have hwins : ∀ {d : Draft}, d.w.stage = .bidHeld → d.wins = true := fun hs => by
    simp [Draft.wins, hs]
  obtain ⟨lot, hlot, hlotKind, hwinner, -⟩ := (h.bid k d hget hkind).lot
  refine ⟨lot, hlot, hlotKind, hwinner (hwins hheld), fun k' d' hget' hkind' hparent hheld' => ?_⟩
  obtain ⟨lot', hlot', -, hwinner', -⟩ := (h.bid k' d' hget' hkind').lot
  cases draft_eq_of_get hlot (hparent ▸ hlot')
  exact (hwinner' (hwins hheld')).symm.trans (hwinner (hwins hheld))

/-- A bid that a lot can take is above the highest one by the minimum increment. -/
theorem eligible_grows {lot : Draft} {bid : Record} (h : eligible now lot bid = true)
    (hne : lot.w.highestBid ≠ 0) (hbound : lot.w.highestBid ≤ maxInt64) :
    lot.w.highestBid + lot.w.minimumIncrement ≤ bid.unitPrice := by
  obtain ⟨-, -, -, -, hzero | ⟨hroom, hprice⟩⟩ := eligible_iff.1 h
  · exact absurd hzero hne
  · unfold sub64 maxInt64 at hroom
    unfold add64 at hprice
    unfold maxInt64 at hbound
    omega

theorem step_highestBid (h : Auctions s.contracts) :
    HighestBidGrows s.contracts (step cfg s e).contracts := by
  intro k lot hlot hkind
  by_cases haccept : e.isAccept = true
  · obtain ⟨now, bidId, heffect⟩ := @step_accept cfg e s haccept
    cases heffect with
    | none hsame => exact ⟨lot, hsame ▸ hlot, .inl rfl⟩
    | refused hget hstage hput =>
      rw [hput]
      have hbidKind := h.kind_of_stage hget (.inl hstage)
      exact ⟨lot, (Table.get_put_of_ne
        (get_ne_of_kind hlot hget (by simp [hkind, hbidKind]))).trans hlot, .inl rfl⟩
    | @taken bid lot₀ t₁ htaken =>
      rcases htaken.get k with ⟨rfl, -⟩ | ⟨rfl, -, hget⟩ | ⟨-, -, -, -, old, hget, hheld, -⟩ |
        ⟨-, -, -, hsame⟩
      · cases draft_eq_of_get hlot htaken.bidRow
        cases (h.kind_of_stage hlot (.inl htaken.ready)).symm.trans hkind
      · cases draft_eq_of_get hlot htaken.lotRow
        refine ⟨(takeBid bidId bid lot).bump, hget, .inr ?_⟩
        obtain ⟨-, hincrement, hwinner⟩ := h.lot _ lot hlot hkind
        rcases hwinner with ⟨hnone, -⟩ | ⟨winner, hget, hwinnerKind, -, -, htakes⟩
        · exact .inl ⟨hnone, (eligible_iff.1 htaken.eligible).2.2.2.1⟩
        have hrow := h.bid _ winner hget hwinnerKind
        refine .inr ⟨hincrement, eligible_grows htaken.eligible ?_ ?_⟩
        · rw [htakes.price]
          exact hrow.positive.ne'
        · rw [htakes.price]
          exact hrow.bound
      · cases draft_eq_of_get hlot hget
        cases (h.kind_of_stage hlot (.inr hheld)).symm.trans hkind
      · exact ⟨lot, hsame.trans hlot, .inl rfl⟩
  · obtain ⟨lot', hlot', hc⟩ := step_carried cfg h.rows (eq_false_of_ne_true haccept) hlot
    obtain ⟨stage, legs, cancel, hw⟩ := hc.terms (.inl hkind)
    exact ⟨lot', hlot', .inl (by rw [hw])⟩

theorem transfer_coins {currencyType amount : Nat} {b : AssetBundle}
    {snapshot : Option AssetOp.AssetSnapshot}
    (h : transfer (bundle { currencyType := currencyType, currencyAmount := amount }) snapshot =
      some b) : b = bundle { currencyType := currencyType, currencyAmount := amount } := by
  obtain ⟨hcurrencies, hitems, hinstances, hpet, huuids, hpetId⟩ := transfer_some h
  cases b
  subst hcurrencies hitems huuids hpetId
  have hnone := length_eq_zero_iff.1 hinstances
  subst hnone
  have hpet' := hpet.2 rfl
  subst hpet'
  rfl

variable {d : Draft}

theorem AuctionBid.placed {b : Leg} (h : AuctionBid d) (hcollects : d.Collects)
    (hamount : d.w.sellerAssets =
      { currencyType := d.r.currencyType, currencyAmount := d.r.unitPrice })
    (hleg : leg d.w .bidDebit = some b) (hpaid : isApplied b = true) :
    b.bundle = d.bidAmount ∧ ∃! place, d.MoneyIn place := by
  have hfirst : ∀ {b₀ : Leg} {rest : List Leg}, d.w.legs = b₀ :: rest → d.BidDebit b₀ → b₀ = b :=
    fun hlegs hb => by simpa [leg, hlegs, hb.role] using hleg
  have hbundle : ∀ {b₀ : Leg} {rest : List Leg}, d.w.legs = b₀ :: rest → d.BidDebit b₀ →
      b.bundle = d.bidAmount := fun hlegs hb => by
    rw [← hfirst hlegs hb, hb.bundle, hamount]
    rfl
  have hmanual : (d.w.stage = .manual ∨ d.w.stage = .done) → d.r.status = .manual →
      ∃! place, d.MoneyIn place := by
    intro hs hstatus
    refine ⟨.manual, hstatus, ?_⟩
    rcases hs with hs | hs <;>
      rintro (_ | _ | _ | _ | _) <;>
      simp [Draft.MoneyIn, Draft.Refunds, Draft.isSettled, hs, hstatus]
  cases h.life with
  | freezing hat hlegs =>
    rcases hlegs with hnil | ⟨b₀, hlegs, hb⟩
    · simp [leg, hnil] at hleg
    · rcases hat with ⟨hs, -⟩ | ⟨hs, hstatus⟩
      · have hopen := hcollects hs b₀ (by simp [hlegs])
        rw [hfirst hlegs hb, isDone_of_isApplied hpaid] at hopen
        cases hopen
      · exact ⟨hbundle hlegs hb, hmanual (.inl hs) hstatus⟩
  | refused hp hlegs hb hdone hrefused =>
    rw [hfirst hlegs hb, hpaid] at hrefused
    cases hrefused
  | frozen hat hstage hlegs hb =>
    refine ⟨hbundle hlegs hb, ?_⟩
    rcases hat with ⟨hs, hopen⟩ | ⟨hs, hstatus⟩
    · have hstatus : d.r.status ≠ .manual := fun h => by
        rw [h] at hopen
        cases hopen
      rcases hstage with rfl | rfl | rfl
      · refine ⟨.waiting, hs, ?_⟩
        rintro (_ | _ | _ | _ | _) <;>
          simp [Draft.MoneyIn, Draft.Refunds, Draft.isSettled, hs, hstatus, hlegs, hb.role]
      · refine ⟨.held, hs, ?_⟩
        rintro (_ | _ | _ | _ | _) <;>
          simp [Draft.MoneyIn, Draft.Refunds, Draft.isSettled, hs, hstatus, hlegs, hb.role]
      · refine ⟨.refund, .inl hs, ?_⟩
        rintro (_ | _ | _ | _ | _) <;> simp [Draft.MoneyIn, Draft.isSettled, hs, hstatus]
    · exact hmanual (.inl hs) hstatus
  | settled hat hlegs hb =>
    refine ⟨hbundle hlegs hb, ?_⟩
    rcases hat with ⟨hs, hstatus⟩ | ⟨hs, hstatus⟩
    · refine ⟨.settled, by simp [Draft.MoneyIn, Draft.isSettled, hs, hstatus], ?_⟩
      rintro (_ | _ | _ | _ | _) <;> simp [Draft.MoneyIn, Draft.Refunds, hs, hstatus]
    · exact hmanual (.inl hs) hstatus
  | @returning b₀ x hp hlegs hb hx =>
    refine ⟨hbundle hlegs hb, ?_⟩
    have hreturn : d.w.legs.filter (·.role = .bidReturn) = [x] := by
      simp [hlegs, hb.role, hx.role]
    have hpurpose : x.purpose = ⟨.bidReturn, d.r.sellerPlayerId, .tradeCredit, d.bidAmount⟩ := by
      have hsource := hx.source
      rw [hb.bundle, hamount] at hsource
      rw [Leg.purpose, hx.role, hx.player, hx.stream, transfer_coins hsource]
      rfl
    rcases hp with ⟨hs, hstatus⟩ | ⟨hs, hstatus⟩ | ⟨hs, hstatus, happlied⟩
    · refine ⟨.refund, .inr ⟨.inl hstatus, x, hreturn, hpurpose, by simp [hstatus]⟩, ?_⟩
      rintro (_ | _ | _ | _ | _) <;> simp [Draft.MoneyIn, Draft.isSettled, hs, hstatus]
    · exact hmanual hs hstatus
    · refine ⟨.refund, .inr ⟨.inr hstatus, x, hreturn, hpurpose,
        fun _ => happlied x (by simp [hlegs]) hx.stream⟩, ?_⟩
      rintro (_ | _ | _ | _ | _) <;> simp [Draft.MoneyIn, Draft.isSettled, hs, hstatus]

theorem Auctions.bidsPlaced (h : Auctions t) : BidsPlaced t := by
  intro k d b hget hkind hleg hpaid
  have hbid := h.bid k d hget hkind
  exact ((h.rows.get hget).auction.2 hkind).placed hbid.collects hbid.amount hleg hpaid

structure SellerReceive (d : Draft) : Prop where
  count : (d.w.legs.countP fun x => x.role = .sellerReceive) ≤ 1
  purpose : ∀ x ∈ d.w.legs, x.role = .sellerReceive → d.w.highestBidder ≠ 0 ∧ x.purpose =
    ⟨.sellerReceive, d.r.sellerPlayerId, .tradeCredit, bundle d.w.buyerAssets⟩
  settled : d.r.status = .settled → ∃ x ∈ d.w.legs, x.role = .sellerReceive ∧ isApplied x = true

theorem AuctionLot.sellerReceive (h : AuctionLot d) : SellerReceive d := by
  -- A lot without such a leg is not settled.
  have hnone : (∀ l ∈ d.w.legs, l.role ≠ .sellerReceive) → d.r.status ≠ .settled →
      SellerReceive d := by
    intro hroles hstatus
    refine ⟨?_, fun x hx hrole => absurd hrole (hroles x hx), fun h => absurd h hstatus⟩
    rw [countP_eq_zero.2 fun x hx => by simpa using hroles x hx]
    exact Nat.zero_le 1
  have hat : ∀ {stage : Stage}, At d stage → d.r.status ≠ .settled := by
    rintro stage (⟨-, hopen⟩ | ⟨-, hstatus⟩) heq
    · rw [heq] at hopen
      cases hopen
    · cases heq.symm.trans hstatus
  have hpaying : Paying d .giveBack .cancelPending .cancelled → d.r.status ≠ .settled := by
    rintro (⟨-, hstatus⟩ | ⟨-, hstatus⟩ | ⟨-, hstatus, -⟩) heq <;> cases heq.symm.trans hstatus
  cases h.life with
  | escrowing hat' hlegs =>
    refine hnone ?_ (hat hat')
    rcases hlegs with hnil | ⟨a, hone, ha⟩
    · simp [hnil]
    · simp [hone, ha.role]
  | opened hat' hlegs ha => exact hnone (by simp [hlegs, ha.role]) (hat hat')
  | refused hp hlegs ha => exact hnone (by simp [hlegs, ha.role]) (hpaying hp)
  | returning hp hlegs ha hx => exact hnone (by simp [hlegs, ha.role, hx.role]) (hpaying hp)
  | @delivering a x y hp hlegs ha hbidder hx hy =>
    have hyrole : y.role = .sellerReceive := congrArg Purpose.role hy
    have hystream : y.stream = .tradeCredit := congrArg Purpose.stream hy
    refine ⟨?_, fun l hl hrole => ⟨hbidder, ?_⟩, fun hsettled => ⟨y, by simp [hlegs], hyrole, ?_⟩⟩
    · simp [hlegs, ha.role, hx.role, hyrole]
    · rw [hlegs] at hl
      simp only [mem_cons, not_mem_nil, or_false] at hl
      rcases hl with rfl | rfl | rfl
      · cases ha.role.symm.trans hrole
      · cases hx.role.symm.trans hrole
      · exact hy
    · rcases hp with ⟨-, hstatus⟩ | ⟨-, hstatus⟩ | ⟨-, -, happlied⟩
      · cases hsettled.symm.trans hstatus
      · cases hsettled.symm.trans hstatus
      · exact happlied y (by simp [hlegs]) hystream

theorem Auctions.sellersPaid (h : Auctions t) : SellersPaid t := by
  refine ⟨fun k lot hget hkind => ?_, fun k d hget hkind hsettled => ?_⟩
  · obtain ⟨hcount, hcredits, hsettled⟩ := ((h.rows.get hget).auction.1 hkind).sellerReceive
    refine ⟨hcount, fun x hx hrole => ?_, hsettled⟩
    obtain ⟨hbidder, hpurpose⟩ := hcredits x hx hrole
    rcases (h.lot k lot hget hkind).winner with ⟨-, -, hzero⟩ |
      ⟨bid, hbid, hbidKind, hparent, hstands, htakes⟩
    · exact absurd hzero hbidder
    · refine ⟨bid, hbid, hbidKind, hparent, ?_, ?_⟩
      · rcases hstands with hwins | hmanual
        · have hplace : bid.MoneyIn .held ∨ bid.MoneyIn .settled := by
            simpa [Draft.wins, Draft.MoneyIn] using hwins
          exact hplace.imp_right .inl
        · exact .inr (.inr hmanual)
      · rw [hpurpose, htakes.assets, (h.bid _ bid hbid hbidKind).amount]
        rfl
  · obtain ⟨lot, hlot, hlotKind, hwinner, hclosed⟩ := (h.bid k d hget hkind).lot
    have hwins : d.wins = true := by
      rw [Draft.wins, hsettled, Bool.or_true]
    exact ⟨lot, hlot, hlotKind, hwinner hwins, hclosed hsettled⟩

end

/-- The money of every bid of a lot is in one place, the highest bid only grows, and the seller is
paid the winning bid. -/
theorem auction_money (cfg : Config) (es : List Event) (hes : ∀ e ∈ es, e.Numbered) :
    let s := Machine.run (step cfg) World.empty es
    HeldBidsWin s.contracts ∧ BidsPlaced s.contracts ∧ SellersPaid s.contracts ∧
      ∀ e : Event, HighestBidGrows s.contracts (step cfg s e).contracts := by
  have h : Auctions (Machine.run (step cfg) World.empty es).contracts := run_auctions es hes
  exact ⟨h.heldBidsWin, h.bidsPlaced, h.sellersPaid, fun e => step_highestBid h⟩

/-- Player 3 outbids player 2 for two items of player 1, whose opening price is below the
increment; `refund` is what the refund of player 2 ends with. -/
def sampleAuction (refund : OpId → Option LegOutcome) : List Event :=
  let advance (id : CommerceId) (seen : PlayerId × PlayerId × PlayerId) (now : Nat)
      (results : OpId → Option LegOutcome) : Event :=
    .advance id sampleDirectory seen results now (fun _ => 1)
  [.create 7 sampleDirectory none 0 1 (.lot ⟨{ items := [(1, 2)] }, 1, 1, 500, 60000⟩),
    advance 7 (1, 0, 0) 1 sampleApplied, advance 7 (1, 0, 0) 1 sampleApplied,
    .create 8 sampleDirectory none 2 2 (.bid 7 1),
    advance 8 (2, 0, 0) 2 sampleApplied, advance 8 (2, 0, 0) 2 sampleApplied,
    .create 9 sampleDirectory none 2 3 (.bid 7 501),
    advance 9 (3, 0, 0) 2 sampleApplied, advance 9 (3, 0, 0) 2 sampleApplied,
    .acceptBid 8 sampleDirectory 3, .acceptBid 9 sampleDirectory 3,
    advance 8 (2, 0, 0) 4 sampleApplied, advance 8 (2, 0, 0) 4 refund,
    advance 7 (1, 3, 3) 60000 sampleApplied, advance 7 (1, 3, 3) 60000 sampleApplied,
    .settleHeldBid 9]

theorem auction_money_sampleAuction :
    let s := Machine.run (step sampleConfig) World.empty (sampleAuction sampleApplied)
    (HeldBidsWin s.contracts ∧ BidsPlaced s.contracts ∧ SellersPaid s.contracts ∧
      ∀ e : Event, HighestBidGrows s.contracts (step sampleConfig s e).contracts) ∧
      ([7, 8, 9].map fun k => (s.contracts.get k).map (·.status)) =
        [some .settled, some .cancelled, some .settled] := by
  refine ⟨auction_money sampleConfig (sampleAuction sampleApplied)
    fun e he k dir actor now me request h => ?_, by decide +kernel⟩
  subst h
  simp only [sampleAuction, mem_cons, not_mem_nil, reduceCtorEq, or_false, false_or] at he
  rcases he with ⟨rfl, -⟩ | ⟨rfl, -⟩ | ⟨rfl, -⟩ <;> decide

/-- The first bid raises the highest bid from 0 to the opening price of 1, by less than the
increment. When the refund of the bid is rejected, its money has left the bidder and is in none of
the other places: the row is Manual. -/
theorem first_bid_below_increment :
    let row := fun es k => (Machine.run (step sampleConfig) World.empty es).contracts.get k
    let lot := fun n => (row ((sampleAuction sampleApplied).take n) 7).bind fun c =>
      c.workflow.map fun w => (w.highestBid, w.minimumIncrement)
    let bid := (row (sampleAuction fun _ => some ⟨.rejected, .empty⟩) 8).bind fun c =>
      c.workflow.map fun w => (c.status, w.stage, w.legs.map fun l => (l.role, l.outcome))
    (lot 9 = some (0, 500) ∧ lot 10 = some (1, 500)) ∧
      bid = some (.manual, .done, [(.bidDebit, .applied), (.bidReturn, .rejected)]) := by
  decide +kernel

end Mmorpg.Commerce
