import Mmorpg.Commerce.Book
import Mmorpg.Commerce.Escrow
import Mmorpg.Lib.TableSum

/-!
# What orders pay and get

The money of an order is split over the matches that filled it and the part that is returned. Every
match pays exactly what its buyer put in for the matched quantity (`MatchTerms`), an order is filled
by the sum of its matches (`Filled`), and what a cancelled order gets back is the rest. The sums
hold when the order ends, unless the credit of the rest failed while a match was still open: then
the order waits for the match and ends as if the credit had been applied.
-/

namespace Mmorpg.Commerce

open List Machine

open Blocks (bind_eq_ok Keeps Flow)
open AssetOp (AssetBundle)

variable {cfg : Config} {t : Contracts} {e : Event} {id : CommerceId}

/-! ## The credits of an order that ended -/

/-- An order that waits for its matches or ended has paid back what it owes. -/
def Honest (d : Draft) : Prop :=
  d.w.stage = .marketWait ∨ (d.w.stage = .done ∧ d.r.status ≠ .manual) →
    ∀ l ∈ d.w.legs, l.stream = .tradeCredit → isApplied l = true

/-- The leg has failed, or the results of its operations say that it has. -/
def Leg.fails (results : OpId → Option LegOutcome) (l : Leg) : Bool :=
  isFailed l || (l.opId ≠ 0 && !isDone l && (results l.opId).any fun out =>
    out.status.isFinal && out.status ≠ .applied && out.status ≠ .appliedPartial)

theorem Recorded.fails {results : OpId → Option LegOutcome} {l l' : Leg}
    (h : Recorded results l l') (hfailed : isFailed l' = true) : l.fails results = true := by
  rcases h with rfl | ⟨hop, hopen, out, hout, hfinal, hsome, hwrite⟩
  · simp [Leg.fails, hfailed]
  · have houtcome : l'.outcome = out.status := by
      unfold writeOutcome at hwrite
      split at hwrite <;> cases hwrite <;> rfl
    simp only [isFailed, isApplied, houtcome, Bool.and_eq_true] at hfailed
    simp [Leg.fails, hop, hopen, hout, hfinal, hsome, hfailed.2]

/-- The final legs of the workflow are among these: a plan adds legs that are not final. -/
def FinalIn (legs : List Leg) (w : Workflow) : Prop := ∀ l ∈ w.legs, isDone l = true → l ∈ legs

namespace FinalIn

variable {legs : List Leg} {w w' : Workflow} {d : Draft} {f : Flow Draft}

theorem move (h : FinalIn legs d.w) (stage : Stage) (status : Status) :
    FinalIn legs (d.move stage status).w := h

theorem addLeg (h : FinalIn legs w) {role : Role} {player : PlayerId}
    {stream : AssetOp.AssetOpStream} {b : AssetBundle} :
    FinalIn legs (addLeg w role player stream b) := by
  unfold Commerce.addLeg
  split
  · exact h
  · intro l hl hdone
    rcases mem_append.1 hl with hl | hl
    · exact h l hl hdone
    · rw [mem_singleton.1 hl] at hdone
      cases hdone

theorem returnApplied (h : FinalIn legs w) {role : Role} {receiver : PlayerId} {src : Option Leg}
    (hreturn : returnApplied w role receiver src = .ok w') : FinalIn legs w' := by
  unfold Commerce.returnApplied at hreturn
  split at hreturn
  · obtain ⟨l, b, -, -, rfl⟩ := transferLeg_ok hreturn
    exact h.addLeg
  · cases hreturn
    exact h

theorem planEscrow {p : Policy} (h : FinalIn legs d.w) (hkind : d.r.kind = .marketMatch)
    (hf : planEscrow p d = .ok f) : FinalIn legs f.state.w := by
  unfold Commerce.planEscrow at hf
  split at hf
  · simp only [hkind, reduceCtorEq, if_false] at hf
    have hdebit : FinalIn legs (Draft.mk d.r (Commerce.addLeg d.w .sellerDebit
      d.r.sellerPlayerId .tradeDebit (bundle d.w.sellerAssets))).w := h.addLeg
    split at hf
    · cases hf
      exact hdebit
    split at hf
    · obtain ⟨w₁, hw₁, hf⟩ := bind_eq_ok hf
      obtain ⟨w₂, hw₂, hf⟩ := bind_eq_ok hf
      cases hf
      exact ((hdebit.move _ _).returnApplied hw₁).returnApplied hw₂
    · cases hf
      exact hdebit
  · cases hf
    exact h

theorem planCancel (h : FinalIn legs d.w) (hf : planCancel d = .ok f) :
    FinalIn legs f.state.w := by
  unfold Commerce.planCancel at hf
  split at hf
  · dsimp only at hf
    split at hf
    · cases hf
    split at hf
    · cases hf
    cases hf
    split <;> split
    all_goals first | exact h | exact (h.move _ _).addLeg
  · cases hf
    exact h

theorem planFinish (h : FinalIn legs d.w) (hf : planFinish d = .ok f) :
    FinalIn legs f.state.w := by
  rw [FinalIn, planFinish_legs hf]
  exact h

end FinalIn

namespace Honest

variable {d d' : Draft} {p : Policy} {now : Nat}

theorem of_stage (hwait : d.w.stage ≠ .marketWait) (hdone : d.w.stage ≠ .done) : Honest d :=
  fun h => h.elim (absurd · hwait) fun h => absurd h.1 hdone

theorem move (d : Draft) {stage : Stage} (status : Status) (hwait : stage ≠ .marketWait)
    (hdone : stage ≠ .done) : Honest (d.move stage status) := of_stage hwait hdone

theorem setLegs (h : Honest d) {legs : List Leg} (hl : List.Forall₂ Later d.w.legs legs) :
    Honest (d.setLegs legs) := by
  intro hs l' hl' hstream
  obtain ⟨l, hmem, hlater⟩ := exists_of_forall₂ hl hl'
  exact hlater.isApplied (h hs l hmem (hlater.stream.symm.trans hstream))

theorem keeps_planEscrow :
    KeepsAt (fun d => MarketOrder d ∧ Honest d) [.escrow] (planEscrow p) := by
  intro d f ⟨horder, h⟩ hs hf
  refine ⟨MarketOrder.keeps_planEscrow d f horder hs hf, ?_⟩
  rw [mem_singleton] at hs
  have hopened : d.r.kind.openStage = .marketOpen := by rw [horder.terms.kind]; rfl
  obtain ⟨a, -, heq | ⟨-, -, heq⟩ | ⟨x, -, heq⟩ | ⟨-, heq⟩⟩ :=
    planEscrow_single (by simp [horder.terms.kind]) hs (horder.life.by_stage.escrow hs).2.2 hf
  · rw [heq]
    exact of_stage (by simp [Draft.setLegs, hs]) (by simp [Draft.setLegs, hs])
  · rw [heq]
    exact move _ _ (by decide) (by decide)
  · rw [heq]
    exact move _ _ (by decide) (by decide)
  · rw [heq, hopened]
    exact of_stage (by simp [Draft.enter]) (by simp [Draft.enter])

theorem keeps_planCancel :
    KeepsAt (fun d => MarketOrder d ∧ Honest d) [.opened, .lotOpen, .marketOpen] planCancel := by
  intro d f ⟨horder, h⟩ hs hf
  refine ⟨MarketOrder.keeps_planCancel d f horder hs hf, ?_⟩
  rcases planCancel_stage hf with heq | ⟨hstage, -⟩
  · rwa [heq]
  · exact of_stage (by simp [hstage]) (by simp [hstage])

theorem keeps_planFinish :
    KeepsAt (fun d => MarketOrder d ∧ Honest d) [.deliver, .giveBack] planFinish := by
  intro d f ⟨horder, h⟩ hs hf
  refine ⟨MarketOrder.keeps_planFinish d f horder hs hf, ?_⟩
  unfold planFinish at hf
  dsimp only at hf
  split at hf
  · split at hf
    next hready =>
      cases hf
      rintro (hs | ⟨-, hstatus⟩)
      · cases hs
      · have happlied : (finalCredits d.w).2 = true := by
          by_contra hnot
          simp [Flow.state, Draft.move, hnot] at hstatus
        exact finalCreditsOf_all (Prod.ext hready happlied)
    · cases hf
      exact h
  · cases hf
    exact h

variable (horder : MarketOrder d)

include horder

theorem plan_keeps (h : Honest d) (hplan : plan p now d = .ok d') :
    (MarketOrder d' ∧ Honest d') ∧ FinalIn d.w.legs d'.w :=
  MarketOrder.plan_keeps_of_blocks
    (I := fun x => (MarketOrder x ∧ Honest x) ∧ FinalIn d.w.legs x.w) (fun h => h.1.1)
    (fun x f hx hs hf =>
      ⟨keeps_planEscrow x f hx.1 hs hf, hx.2.planEscrow hx.1.1.terms.kind hf⟩)
    (fun x f hx hs hf => ⟨keeps_planCancel x f hx.1 hs hf, hx.2.planCancel hf⟩)
    (fun x f hx hs hf => ⟨keeps_planFinish x f hx.1 hs hf, hx.2.planFinish hf⟩)
    ⟨⟨horder, h⟩, fun _ hl _ => hl⟩ hplan

theorem plan_manual (hs : d.w.stage = .manual) (hplan : plan p now d = .ok d') :
    d'.w.stage = .manual :=
  (plan_keeps_of (I := fun x => x.r.kind = .marketMatch ∧ x.w.stage = .manual)
    (fun hx => by simp [hx.1]) (by decide) (fun hx => mem_singleton.2 hx.2)
    (by simp [guardedBlocks]) ⟨horder.terms.kind, hs⟩ hplan).2

/-- The barrier lets an order with a failed credit wait only when a match is open and none is
Manual. -/
theorem barrier (h : Honest d) (unfinished bad : Nat)
    (hlost : bad = 0 → d.w.stage = .done → 0 < unfinished →
      ∀ l ∈ d.w.legs, l.stream = .tradeCredit → isFailed l = false) :
    Honest (marketBarrier unfinished bad d) := by
  have hside : d.r.side ≠ 0 := by rcases horder.terms.side with h | h <;> omega
  cases MarketOrder.marketBarrier_effect horder.terms.kind hside unfinished bad with
  | manual _ heq =>
    rw [heq]
    exact move _ _ (by decide) (by decide)
  | waits hbad hs hopen heq =>
    rw [heq]
    intro _ l hl hstream
    obtain ⟨a, credits, -, -, -, -, hclosing⟩ := horder.life.by_stage.closing (.inr (.inr hs))
    have hdone : isDone l = true := by
      rcases hclosing with ⟨hs', -⟩ | ⟨hs', -⟩ | ⟨-, -, hall⟩ | ⟨hs', -⟩
      · cases hs.symm.trans hs'
      · cases hs.symm.trans hs'
      · exact hall l hl
      · cases hs.symm.trans hs'
    have hnot := hlost hbad hs hopen l hl hstream
    simpa [isFailed, hdone] using hnot
  | cancelled _ hs _ heq =>
    rw [heq]
    exact fun _ => h (.inl hs)
  | settled _ hs _ _ heq =>
    obtain ⟨-, a, hlegs, ha, -⟩ := horder.life.by_stage.marketOpen hs
    rw [heq]
    intro _ l hl hstream
    rw [Draft.move, hlegs, mem_singleton] at hl
    rw [hl, ha.stream] at hstream
    cases hstream
  | same _ _ heq => rwa [heq]

theorem step (h : Honest d) (hstep : DraftStep cfg t e id d d')
    (hlost : ∀ dir seen results now opIds, e = .advance id dir seen results now opIds →
      badMatches t id = 0 → 0 < unfinishedMatches t id → d.w.stage ≠ .manual →
      ∀ l ∈ d.w.legs, l.stream = .tradeCredit → l.fails results = false) : Honest d' := by
  cases horder.marketStep hstep with
  | cancelled hs heq =>
    subst heq
    refine of_stage (fun hwait => ?_) fun hdone => ?_
    · change d.w.stage = .marketWait at hwait
      simp [hwait] at hs
    · change d.w.stage = .done at hdone
      simp [hdone] at hs
  | advanced hunfinished hbad he hadvance =>
    obtain ⟨dir, seen, he⟩ := he
    obtain ⟨legs, partly, hrecord, ⟨-, rfl⟩ | ⟨-, d₁, legs', hplan, hlegs', rfl⟩⟩ :=
      advanceDraft_ok hadvance
    · exact move _ _ (by decide) (by decide)
    · have hlater := recordOutcomes_later hrecord
      have horder₀ := MarketOrder.closed.later horder hlater
      obtain ⟨⟨horder₁, h₁⟩, hfinal⟩ := plan_keeps horder₀ (h.setLegs hlater) hplan
      refine (h₁.barrier horder₁ _ _ fun hnone hdone hopen l hl hstream => ?_).setLegs hlegs'
      -- A credit that failed is a leg from before, and what was read for it says so.
      by_contra hfailed
      have hfailed : isFailed l = true := by simpa using hfailed
      obtain ⟨l₀, hl₀, hrecorded⟩ := exists_of_forall₂ (recordOutcomes_recorded hrecord)
        (hfinal l hl (Bool.and_eq_true_iff.1 hfailed).1)
      have hstage : d.w.stage ≠ .manual := fun hs =>
        absurd ((plan_manual horder₀ hs hplan).symm.trans hdone) (by decide)
      have hnot := hlost dir seen _ _ _ he (hbad ▸ hnone) (hunfinished ▸ hopen) hstage l₀ hl₀
        (hrecorded.later.stream.symm.trans hstream)
      rw [hrecorded.fails hfailed] at hnot
      cases hnot
  | quarantined heq =>
    subst heq
    exact move _ _ (by decide) (by decide)
  | filled hside hopen hqty heq =>
    subst heq
    have hs := (notOpen_iff.1 hopen).1
    exact of_stage (fun h => absurd (hs.symm.trans h) (by decide))
      fun h => absurd (hs.symm.trans h) (by decide)

end Honest

/-! ## Matches -/

/-- What a match pays out: the items, their price, and what the buyer put in over the price. -/
def matchPurposes (buy sell m : Record) : List Purpose :=
  [⟨.buyerReceive, buy.sellerPlayerId, .tradeCredit, itemBundle buy.itemConfigId m.quantity⟩,
    ⟨.sellerReceive, sell.sellerPlayerId, .tradeCredit,
      currencyBundle buy.currencyType (m.quantity * m.unitPrice)⟩] ++
  if buy.unitPrice > m.unitPrice then
    [⟨.buyerSurplus, buy.sellerPlayerId, .tradeCredit,
      currencyBundle buy.currencyType (m.quantity * (buy.unitPrice - m.unitPrice))⟩]
  else []

structure MatchTerms (t : Contracts) (m buy sell : Draft) : Prop where
  buyRow : t.get m.r.parentId = some buy.row
  sellRow : t.get m.r.counterpartyId = some sell.row
  buyKind : buy.r.kind = .marketMatch
  sellKind : sell.r.kind = .marketMatch
  buySide : buy.r.side = 1
  sellSide : sell.r.side = 2
  price : sell.r.unitPrice ≤ m.r.unitPrice ∧ m.r.unitPrice ≤ buy.r.unitPrice
  quantity : 0 < m.r.quantity ∧ m.r.quantity ≤ buy.r.quantity
  legs : m.w.legs.map Leg.purpose = matchPurposes buy.r sell.r m.r

def Matches (t : Contracts) : Prop :=
  ∀ k m, t.get k = some (Draft.row m) → m.r.kind = .marketMatch → m.r.side = 0 →
    ∃ buy sell, MatchTerms t m buy sell

def Record.fixed (r : Record) : Record :=
  { r with status := .manual, buyerPlayerId := 0, filledQuantity := 0, version := 0 }

theorem SameRow.fixed {r r' : Record} (h : SameRow r r') :
    r'.fixed = r.fixed ∧ r'.filledQuantity = r.filledQuantity := by
  obtain ⟨status, buyer, rfl⟩ := h
  exact ⟨rfl, rfl⟩

variable {d d' : Draft}

theorem DraftStep.fixed (h : DraftStep cfg t e id d d') :
    d'.r.fixed = d.r.fixed := by
  rcases h.row with hsame | ⟨qty, -, -, -, -, -, rfl⟩
  · exact hsame.fixed.1
  · rfl

variable {s : World}

theorem step_fixed (hget : s.contracts.get id = some d.row) :
    ∃ d' : Draft, (step cfg s e).contracts.get id = some d'.row ∧ d'.r.fixed = d.r.fixed := by
  cases (step_row e id : RowChange cfg s.contracts e _ id) with
  | same hsame => exact ⟨d, hsame.trans hget, rfl⟩
  | created hnone => cases hget.symm.trans hnone
  | stepped hget₁ hget' hstep =>
    cases hget.symm.trans hget₁
    rcases hstep.stepped with rfl | ⟨d', hd', rfl⟩
    · exact ⟨d, hget', rfl⟩
    · exact ⟨d'.bump, hget', hd'.fixed⟩

theorem Life.marketFill (h : Life d) (hkind : d.r.kind = .marketMatch)
    (hside : d.r.side = 0) : MarketFill d := by
  cases h with
  | fill h => exact h
  | order h => rcases h.terms.side with h | h <;> omega
  | official h | playerTrade h | consignment h | lot h | bid h | assets h | character h =>
    simp [h.kind] at hkind

variable {now : Nat}

theorem MarketFill.plan_legs {p : Policy} (h : MarketFill d)
    (hplan : plan p now d = .ok d') : d'.w.legs = d.w.legs := by
  have hfinish : KeepsAt (fun x => MarketFill x ∧ x.w.legs = d.w.legs) [.deliver, .giveBack]
      planFinish := fun _ _ hd _ hf =>
    ⟨hd.1.drift (.planFinish hf), (planFinish_legs hf).trans hd.2⟩
  exact (plan_keeps_of (I := fun x => MarketFill x ∧ x.w.legs = d.w.legs)
    (fun hd => by simp [hd.1.kind]) (by decide) (fun hd => hd.1.stage_mem)
    (by simpa [guardedBlocks] using hfinish) ⟨h, rfl⟩ hplan).2

theorem MarketFill.purposes_step (h : MarketFill d)
    (hstep : DraftStep cfg t e id d d') :
    d'.w.legs.map Leg.purpose = d.w.legs.map Leg.purpose := by
  cases hstep.market h.kind h.stage_mem (by decide) (by decide) (by decide) with
  | cancelled hs heq | quarantined heq =>
    subst heq
    rfl
  | advanced _ _ _ hadvance =>
    obtain ⟨legs, partly, hrecord, ⟨-, rfl⟩ | ⟨-, d₁, legs', hplan, hlegs', rfl⟩⟩ :=
      advanceDraft_ok hadvance
    · exact map_purpose_later (recordOutcomes_later hrecord)
    · have hlater := recordOutcomes_later hrecord
      rw [marketBarrier_legs, (h.drift (.setLegs hlater)).plan_legs hplan] at hlegs'
      exact (map_purpose_later hlegs').trans (map_purpose_later hlater)
  | filled hside => exact absurd h.side hside

/-- The orders of a match keep their columns and so does the match. -/
theorem MatchTerms.step {m m' buy sell : Draft} (h : MatchTerms s.contracts m buy sell)
    (hfixed : m'.r.fixed = m.r.fixed)
    (hlegs : m'.w.legs.map Leg.purpose = m.w.legs.map Leg.purpose) :
    ∃ buy' sell', MatchTerms (Commerce.step cfg s e).contracts m' buy' sell' := by
  obtain ⟨buy', hbuy, hbuy'⟩ : ∃ d' : Draft,
      (Commerce.step cfg s e).contracts.get m.r.parentId = some d'.row ∧
        d'.r.fixed = buy.r.fixed := step_fixed h.buyRow
  obtain ⟨sell', hsell, hsell'⟩ : ∃ d' : Draft,
      (Commerce.step cfg s e).contracts.get m.r.counterpartyId = some d'.row ∧
        d'.r.fixed = sell.r.fixed := step_fixed h.sellRow
  have hm : ∀ {α : Type} (f : Record → α), f m'.r.fixed = f m.r.fixed := fun f => by rw [hfixed]
  have hb : ∀ {α : Type} (f : Record → α), f buy'.r.fixed = f buy.r.fixed := fun f => by rw [hbuy']
  have hs : ∀ {α : Type} (f : Record → α), f sell'.r.fixed = f sell.r.fixed := fun f => by
    rw [hsell']
  have hquantity : m'.r.quantity = m.r.quantity := hm Record.quantity
  have hprice : m'.r.unitPrice = m.r.unitPrice := hm Record.unitPrice
  have hbprice : buy'.r.unitPrice = buy.r.unitPrice := hb Record.unitPrice
  have hbquantity : buy'.r.quantity = buy.r.quantity := hb Record.quantity
  have hsprice : sell'.r.unitPrice = sell.r.unitPrice := hs Record.unitPrice
  have hparent : m'.r.parentId = m.r.parentId := hm Record.parentId
  have hcounter : m'.r.counterpartyId = m.r.counterpartyId := hm Record.counterpartyId
  have hpurposes : matchPurposes buy'.r sell'.r m'.r = matchPurposes buy.r sell.r m.r := by
    have h₁ : buy'.r.sellerPlayerId = buy.r.sellerPlayerId := hb Record.sellerPlayerId
    have h₂ : buy'.r.itemConfigId = buy.r.itemConfigId := hb Record.itemConfigId
    have h₃ : buy'.r.currencyType = buy.r.currencyType := hb Record.currencyType
    have h₄ : sell'.r.sellerPlayerId = sell.r.sellerPlayerId := hs Record.sellerPlayerId
    simp only [matchPurposes, h₁, h₂, h₃, h₄, hquantity, hprice, hbprice]
  refine ⟨buy', sell', ?_, ?_, (hb Record.kind).trans h.buyKind, (hs Record.kind).trans h.sellKind,
    (hb Record.side).trans h.buySide, (hs Record.side).trans h.sellSide, ?_, ?_, ?_⟩
  · rw [hparent]
    exact hbuy
  · rw [hcounter]
    exact hsell
  · rw [hsprice, hprice, hbprice]
    exact h.price
  · rw [hquantity, hbquantity]
    exact h.quantity
  · rw [hpurposes, hlegs]
    exact h.legs

theorem mul64_eq {a b : Nat} (h : a * b ≤ maxInt64) : mul64 a b = a * b := by
  unfold maxInt64 at h
  exact Nat.mod_eq_of_lt (by omega)

theorem Kept.orderTerms (h : Kept d) (hkind : d.r.kind = .marketMatch)
    (hside : d.r.side ≠ 0) : OrderTerms d := (h.life.marketOrder hkind hside).terms

variable {buy sell : Locked}

/-- What crossing orders are, in a table whose rows are kept. -/
theorem Crossing.orders (h : Crossing t buy sell) (hrows : Rows Kept t) :
    MarketOrder buy.d ∧ MarketOrder sell.d ∧ OrderState buy.d ∧ OrderState sell.d := by
  have hb := hrows.get h.buyRow
  have hc := hrows.get h.sellRow
  have hside : buy.d.r.side ≠ 0 := by rw [h.buySide]; decide
  exact ⟨hb.life.marketOrder h.buyKind hside, hc.life.marketOrder h.sellKind h.sellSide.2,
    hb.order h.buyKind hside, hc.order h.sellKind h.sellSide.2⟩

/-- The matched quantity is what is left of both orders, without wrapping. -/
theorem Crossing.quantity (h : Crossing t buy sell) (hrows : Rows Kept t) :
    0 < matchQuantity buy.d sell.d ∧
      buy.d.r.filledQuantity + matchQuantity buy.d sell.d ≤ buy.d.r.quantity ∧
      sell.d.r.filledQuantity + matchQuantity buy.d sell.d ≤ sell.d.r.quantity := by
  obtain ⟨hbuy, hsell, -, -⟩ := h.orders hrows
  have hpos := (matchQuantity_pos hbuy.terms hsell.terms h.buyOpen h.sellOpen).1
  have hb' := (notOpen_iff.1 h.buyOpen).2.2
  have hs' := (notOpen_iff.1 h.sellOpen).2.2
  refine ⟨hpos, ?_, ?_⟩
  · have hle : matchQuantity buy.d sell.d ≤ sub32 buy.d.r.quantity buy.d.r.filledQuantity :=
      min_le_left ..
    unfold sub32 at hle
    omega
  · have hle : matchQuantity buy.d sell.d ≤ sub32 sell.d.r.quantity sell.d.r.filledQuantity :=
      min_le_right ..
    unfold sub32 at hle
    omega

/-- The products in a new match do not wrap. -/
theorem newMatch_purposes {price qty : Nat} (hterms : OrderTerms buy.d)
    (hprice : price ≤ buy.d.r.unitPrice) (hqty : qty ≤ buy.d.r.quantity) :
    (newMatch now price qty buy sell).w.legs.map Leg.purpose =
      matchPurposes buy.d.r sell.d.r (newMatch now price qty buy sell).r := by
  have hbound := hterms.price.2
  have hpaid : mul64 qty price = qty * price := mul64_eq <| calc
    qty * price ≤ buy.d.r.quantity * buy.d.r.unitPrice := Nat.mul_le_mul hqty hprice
    _ ≤ maxInt64 := by rwa [Nat.mul_comm]
  have hsub : sub64 buy.d.r.unitPrice price = buy.d.r.unitPrice - price := by
    have hunit : buy.d.r.unitPrice ≤ maxInt64 :=
      (Nat.le_mul_of_pos_right _ hterms.quantity.1).trans hbound
    unfold sub64
    unfold maxInt64 at hunit
    omega
  have hsurplus : mul64 qty (buy.d.r.unitPrice - price) = qty * (buy.d.r.unitPrice - price) :=
    mul64_eq <| calc
      qty * (buy.d.r.unitPrice - price) ≤ buy.d.r.quantity * buy.d.r.unitPrice :=
        Nat.mul_le_mul hqty (Nat.sub_le ..)
      _ ≤ maxInt64 := by rwa [Nat.mul_comm]
  rw [newMatch_legs, hpaid, hsub, hsurplus]
  unfold matchPurposes newMatch
  split <;> rfl

theorem step_matches (hrows : Rows Kept s.contracts) (h : Matches s.contracts) :
    Matches (step cfg s e).contracts := by
  intro k m hget hkind hside
  rcases step_draft hrows hget with hsame | ⟨m₀, m', hm₀, hkept, hstep, heq⟩ | ⟨-, hnew⟩
  · obtain ⟨buy, sell, hterms⟩ := h k m hsame hkind hside
    exact hterms.step rfl rfl
  · cases draft_of_row heq
    have hfixed : m'.bump.r.fixed = m₀.r.fixed := hstep.fixed
    have hkind₀ : m₀.r.kind = .marketMatch :=
      (congrArg Record.kind hfixed).symm.trans hkind
    have hside₀ : m₀.r.side = 0 := (congrArg Record.side hfixed).symm.trans hside
    obtain ⟨buy, sell, hterms⟩ := h k m₀ hm₀ hkind₀ hside₀
    have hlegs := (hkept.life.marketFill hkind₀ hside₀).purposes_step hstep
    exact hterms.step hfixed hlegs
  · rcases hnew.market hkind with ⟨d, heq, hnew⟩ | ⟨now, price, buy, sell, -, hcross, hprice, heq⟩
    · cases draft_of_row heq
      rcases hnew.terms.side with h | h <;> exact absurd (h.symm.trans hside) (by decide)
    · have hm : m = newMatch now price (matchQuantity buy.d sell.d) buy sell := draft_of_row heq
      obtain ⟨hbuy, hsell, -, -⟩ := hcross.orders hrows
      obtain ⟨hpos, hle, -⟩ := hcross.quantity hrows
      have hcrossing := hcross.price
      have hsellSide : sell.d.r.side = 2 :=
        hsell.terms.side.resolve_left hcross.sellSide.1
      have hterms : MatchTerms s.contracts m buy.d sell.d := by
        subst hm
        refine ⟨hcross.buyRow, hcross.sellRow, hcross.buyKind, hcross.sellKind, hcross.buySide,
          hsellSide, ?_, ⟨hpos, ?_⟩, newMatch_purposes hbuy.terms ?_ ?_⟩
        · change sell.d.r.unitPrice ≤ price ∧ price ≤ buy.d.r.unitPrice
          omega
        · change matchQuantity buy.d sell.d ≤ buy.d.r.quantity
          omega
        · omega
        · omega
      exact hterms.step rfl rfl

/-! ## What was filled -/

def matchedPart (id : CommerceId) (c : Contract) : Nat :=
  if isMatchOf id c.toRecord then c.quantity else 0

def matchedQuantity (t : Contracts) (id : CommerceId) : Nat := t.sum (matchedPart id)

def Filled (t : Contracts) : Prop :=
  ∀ id d, t.get id = some (Draft.row d) → d.r.kind = .marketMatch → d.r.side ≠ 0 →
    d.r.filledQuantity = matchedQuantity t id

/-- A row that an event leaves as to what is filled: a new one is no match. -/
inductive Undealt (t t' : Contracts) (k : CommerceId) : Prop where
  | same (h : t'.get k = t.get k)
  | changed {d d' : Draft} (hget : t.get k = some d.row) (hget' : t'.get k = some d'.row)
      (hfixed : d'.r.fixed = d.r.fixed) (hfilled : d'.r.filledQuantity = d.r.filledQuantity)
  | created {d : Draft} (hget : t.get k = none) (hget' : t'.get k = some d.row)
      (hnew : d.r.kind = .marketMatch → NewOrder d)

/-- An event is a match of two orders, or it changes nothing of what is filled. -/
theorem step_fills (hrows : Rows Kept s.contracts) :
    (∃ now price qty matchId buy sell,
      Traded now price qty matchId buy sell s.contracts (step cfg s e).contracts) ∨
      ∀ k, Undealt s.contracts (step cfg s e).contracts k := by
  by_cases he : e.isMatch = true
  · cases e with
    | matchMarket k dir now matchId =>
      have hstep : step cfg s (.matchMarket k dir now matchId) =
          s.transact (matchMarket dir now matchId k) := rfl
      rw [hstep, World.transact]
      split
      · exact .inr fun k' => .same rfl
      rename_i t' h
      cases matchMarket_effect h with
      | none h => exact .inr fun k' => .same (by rw [h])
      | traded h => exact .inl ⟨_, _, _, _, _, _, h⟩
      | @removed otherId other hget hkind hstatus h =>
        subst h
        refine .inr fun k' => ?_
        by_cases hk : k' = otherId
        · subst hk
          obtain ⟨d, rfl, -⟩ := hrows k' other hget
          have hput : (s.contracts.put k' (quarantineLocked d.row)).get k' =
              some (d.move .manual .manual).bump.row := Table.get_put_self ..
          exact .changed hget hput rfl rfl
        · exact .same (Table.get_put_of_ne hk)
    | _ => cases he
  · refine .inr fun k => ?_
    cases hget' : (step cfg s e).contracts.get k with
    | none =>
      cases (step_row e k : RowChange cfg s.contracts e _ k) with
      | same h => exact .same h
      | stepped _ h | created _ h => cases hget'.symm.trans h
    | some c =>
      rcases step_draft hrows hget' with hsame | ⟨d, d', hget, -, hstep, rfl⟩ | ⟨hnone, hnew⟩
      · exact .same (hget'.trans hsame.symm)
      · rcases hstep.row with hrow | ⟨qty, hmatch, -⟩
        · exact .changed hget hget' hrow.fixed.1 hrow.fixed.2
        · exact absurd hmatch he
      · obtain ⟨d, rfl, -⟩ := hnew.life
        refine .created hnone hget' fun hkind => ?_
        rcases hnew.market hkind with ⟨d', heq, hnew⟩ | ⟨now, price, buy, sell, hmatch, -⟩
        · cases draft_of_row heq
          exact hnew
        · exact absurd hmatch he

theorem isMatchOf_fixed {r r' : Record} (h : r'.fixed = r.fixed) :
    isMatchOf id r' = isMatchOf id r := by
  have heq := congrArg (isMatchOf id) h
  exact heq

theorem NewOrder.not_isMatchOf (h : NewOrder d) : isMatchOf id d.r = false := by
  rcases h.terms.side with hs | hs <;> simp [isMatchOf, hs]

theorem Undealt.value_eq {t' : Contracts} {k : CommerceId} (h : Undealt t t' k) :
    Table.value (matchedPart id) t' k = Table.value (matchedPart id) t k := by
  cases h with
  | same h => rw [Table.value, Table.value, h]
  | changed hget hget' hfixed hfilled =>
    rw [Table.value_of_get hget, Table.value_of_get hget']
    have hquantity := congrArg Record.quantity hfixed
    unfold matchedPart
    rw [isMatchOf_fixed hfixed]
    exact if_congr Iff.rfl hquantity rfl
  | @created d hget hget' hnew =>
    rw [Table.value_of_none hget, Table.value_of_get hget']
    refine if_neg fun hmatch => ?_
    have horder := hnew (isMatchOf_iff.1 hmatch).1
    exact absurd hmatch (by rw [horder.not_isMatchOf]; decide)

/-- An order that is not there has no matches. -/
theorem Matches.matchedQuantity_eq_zero (h : Matches t) (hrows : Rows Kept t)
    (hnone : t.get id = none) : matchedQuantity t id = 0 := by
  refine Table.sum_eq_zero fun k c hget => if_neg fun hmatch => ?_
  obtain ⟨m, rfl, -⟩ := hrows k c hget
  obtain ⟨hkind, hside, hparent⟩ := isMatchOf_iff.1 hmatch
  obtain ⟨buy, sell, hterms⟩ := h k m hget hkind hside
  rcases hparent with rfl | rfl
  · cases hnone.symm.trans hterms.buyRow
  · cases hnone.symm.trans hterms.sellRow

/-- What a match adds to the filled quantity of an order. -/
theorem Traded.matchedQuantity {price qty : Nat} {matchId : CommerceId}
    {t' : Contracts} (h : Traded now price qty matchId buy sell t t') :
    Commerce.matchedQuantity t' id =
      Commerce.matchedQuantity t id + if id = buy.id ∨ id = sell.id then qty else 0 := by
  have hcross := h.crossing
  have hbuyNe : matchId ≠ buy.id := by
    rintro rfl
    cases h.fresh.symm.trans hcross.buyRow
  have hsellNe : matchId ≠ sell.id := by
    rintro rfl
    cases h.fresh.symm.trans hcross.sellRow
  -- The rows of the orders are no matches, before and after.
  have hnone : ∀ {d : Draft}, d.r.side ≠ 0 → matchedPart id d.save = 0 ∧
      matchedPart id d.row = 0 := fun hside =>
    ⟨if_neg fun hmatch => hside (isMatchOf_iff.1 hmatch).2.1,
      if_neg fun hmatch => hside (isMatchOf_iff.1 hmatch).2.1⟩
  have hbuySide : buy.d.r.side ≠ 0 := by rw [hcross.buySide]; decide
  refine Table.sum_add h.fresh ?_ fun k hk => ?_
  · rw [Table.value_of_get (r := (newMatch now price qty buy sell).insert)
      (by rw [h.get, if_neg hbuyNe, if_neg hsellNe, if_pos rfl])]
    refine if_congr ?_ rfl rfl
    rw [isMatchOf_iff]
    constructor
    · rintro ⟨-, -, hparent⟩
      exact hparent.imp Eq.symm Eq.symm
    · exact fun hid => ⟨rfl, rfl, hid.imp Eq.symm Eq.symm⟩
  · by_cases hbuy : k = buy.id
    · subst hbuy
      rw [Table.value_of_get (r := (fill qty buy.d).save) (by rw [h.get, if_pos rfl]),
        Table.value_of_get hcross.buyRow]
      exact ((hnone (d := fill qty buy.d) hbuySide).1).trans (hnone hbuySide).2.symm
    by_cases hsell : k = sell.id
    · subst hsell
      rw [Table.value_of_get (r := (fill qty sell.d).save)
          (by rw [h.get, if_neg hbuy, if_pos rfl]), Table.value_of_get hcross.sellRow]
      exact ((hnone (d := fill qty sell.d) hcross.sellSide.2).1).trans
        (hnone hcross.sellSide.2).2.symm
    · rw [Table.value, Table.value, h.get, if_neg hbuy, if_neg hsell, if_neg hk]

theorem step_filled (hrows : Rows Kept s.contracts) (hmatches : Matches s.contracts)
    (h : Filled s.contracts) : Filled (step cfg s e).contracts := by
  intro id d hget hkind hside
  rcases (step_fills hrows : _ ∨ ∀ k, Undealt s.contracts (step cfg s e).contracts k) with
    ⟨now, price, qty, matchId, buy, sell, htraded⟩ | hundealt
  · rw [htraded.matchedQuantity]
    have hcross := htraded.crossing
    obtain ⟨hpos, hbuyLe, hsellLe⟩ := hcross.quantity hrows
    obtain ⟨hbuy, hsell, -, -⟩ := hcross.orders hrows
    have hadd : ∀ n, n + qty ≤ 4096 → add32 n qty = n + qty := fun n hn => by
      unfold add32
      omega
    rw [← htraded.quantity] at hbuyLe hsellLe
    have hbuyMax := hbuy.terms.quantity.2
    have hsellMax := hsell.terms.quantity.2
    have hgets := htraded.get id
    rw [hget] at hgets
    by_cases hid : id = buy.id
    · rw [if_pos hid] at hgets
      rw [if_pos (.inl hid)]
      have hd : d = (fill qty buy.d).bump := draft_of_row (Option.some.inj hgets)
      have hfilled := h buy.id buy.d hcross.buyRow hcross.buyKind (by rw [hcross.buySide]; decide)
      subst hid hd
      rw [← hfilled]
      exact hadd _ (by omega)
    rw [if_neg hid] at hgets
    by_cases hid' : id = sell.id
    · rw [if_pos hid'] at hgets
      rw [if_pos (.inr hid')]
      have hd : d = (fill qty sell.d).bump := draft_of_row (Option.some.inj hgets)
      have hfilled := h sell.id sell.d hcross.sellRow hcross.sellKind hcross.sellSide.2
      subst hid' hd
      rw [← hfilled]
      exact hadd _ (by omega)
    rw [if_neg hid'] at hgets
    rw [if_neg (by simp [hid, hid'])]
    split at hgets
    · have hd : d = newMatch now price qty buy sell := draft_of_row (Option.some.inj hgets)
      exact absurd (congrArg (fun d : Draft => d.r.side) hd) hside
    · exact h id d hgets.symm hkind hside
  · have hsum : matchedQuantity (step cfg s e).contracts id = matchedQuantity s.contracts id :=
      Table.sum_congr fun k => (hundealt k).value_eq
    rw [hsum]
    cases hundealt id with
    | same hsame => exact h id d (hsame.symm.trans hget) hkind hside
    | @changed d₀ d' hget₀ hget' hfixed hfilled =>
      cases draft_eq_of_get hget' hget
      rw [hfilled]
      exact h id d₀ hget₀ ((congrArg Record.kind hfixed).symm.trans hkind)
        fun hzero => hside ((congrArg Record.side hfixed).trans hzero)
    | created hnone hget' hnew =>
      cases draft_eq_of_get hget' hget
      rw [(hnew hkind).filled, hmatches.matchedQuantity_eq_zero hrows hnone]

/-! ## What was paid -/

def coins (b : AssetBundle) : Nat := (b.currencies.map AssetOp.CurrencyAmount.amount).sum

def pieces (b : AssetBundle) : Nat := (b.items.map AssetOp.ItemGrant.count).sum

def moved (measure : AssetBundle → Nat) (stream : AssetOp.AssetOpStream) (legs : List Leg) : Nat :=
  ((legs.filter fun l => l.stream = stream && isApplied l).map fun l => measure l.bundle).sum

def paidPart (measure : AssetBundle → Nat) (id : CommerceId) (c : Contract) : Nat :=
  if isMatchOf id c.toRecord then
    c.workflow.elim 0 fun w => moved measure .tradeCredit w.legs
  else 0

def matchesPaid (measure : AssetBundle → Nat) (t : Contracts) (id : CommerceId) : Nat :=
  t.sum (paidPart measure id)

/-- All legs of the stream were applied: what they moved is what they are for. -/
theorem moved_of_applied {measure : AssetBundle → Nat} {stream : AssetOp.AssetOpStream}
    {legs : List Leg} (h : ∀ l ∈ legs, l.stream = stream ∧ isApplied l = true) :
    moved measure stream legs =
      ((legs.map Leg.purpose).map fun p => measure p.bundle).sum := by
  have hfilter : (legs.filter fun l => l.stream = stream && isApplied l) = legs :=
    filter_eq_self.2 fun l hl => by simp [h l hl]
  rw [moved, hfilter, map_map]
  rfl

/-- A match that is settled paid exactly what its buyer put in for the quantity, and the items. -/
theorem MatchTerms.moved_eq {m buy sell : Draft} (h : MatchTerms t m buy sell)
    (hall : ∀ l ∈ m.w.legs, l.stream = .tradeCredit ∧ isApplied l = true) :
    moved coins .tradeCredit m.w.legs = buy.r.unitPrice * m.r.quantity ∧
      moved pieces .tradeCredit m.w.legs = m.r.quantity := by
  rw [moved_of_applied hall, moved_of_applied hall, h.legs]
  have hprice := h.price.2
  unfold matchPurposes
  split
  next hover =>
    refine ⟨?_, by simp [pieces, itemBundle, currencyBundle, emptyBundle]⟩
    have hsplit : m.r.quantity * m.r.unitPrice + m.r.quantity * (buy.r.unitPrice - m.r.unitPrice) =
        buy.r.unitPrice * m.r.quantity := by
      rw [← Nat.mul_add, Nat.add_sub_cancel' hprice, Nat.mul_comm]
    simpa [coins, itemBundle, currencyBundle, emptyBundle] using hsplit
  · have heq : m.r.unitPrice = buy.r.unitPrice := by omega
    refine ⟨?_, by simp [pieces, itemBundle, currencyBundle, emptyBundle]⟩
    simp [coins, itemBundle, currencyBundle, emptyBundle, heq, Nat.mul_comm]

/-- The matches of an order whose matches are closed. -/
theorem matchesPaid_eq (hrows : Rows Kept t) (hmatches : Matches t)
    (hget : t.get id = some d.row) (hclosed : unfinishedMatches t id = 0) :
    (d.r.side = 1 → matchesPaid coins t id = d.r.unitPrice * matchedQuantity t id) ∧
      matchesPaid pieces t id = 1 * matchedQuantity t id := by
  -- Every match of the order is settled with all its credits.
  have hsettled : ∀ k m, t.get k = some (Draft.row m) → isMatchOf id m.r = true →
      ∃ buy sell, MatchTerms t m buy sell ∧
        ∀ l ∈ m.w.legs, l.stream = .tradeCredit ∧ isApplied l = true := by
    intro k m hm hmatch
    obtain ⟨hkind, hzero, -⟩ := isMatchOf_iff.1 hmatch
    obtain ⟨buy, sell, hterms⟩ := hmatches k m hm hkind hzero
    refine ⟨buy, sell, hterms, ?_⟩
    have hkept := hrows.get hm
    have hfill := hkept.life.marketFill hkind hzero
    have hstatus := unfinishedMatches_eq_zero.1 hclosed k _ hm hmatch
    rcases hfill.paying with ⟨-, hs⟩ | ⟨-, hs⟩ | ⟨-, -, happlied⟩
    · simp [hs] at hstatus
    · simp [hs] at hstatus
    · exact fun l hl => ⟨hfill.credits l hl, happlied l hl (hfill.credits l hl)⟩
  refine ⟨fun hbuy => ?_, ?_⟩
  · refine Table.sum_eq_mul fun k c hc => ?_
    obtain ⟨m, rfl, -⟩ := hrows k c hc
    unfold paidPart matchedPart
    by_cases hmatch : isMatchOf id m.r = true
    · obtain ⟨buy, sell, hterms, hall⟩ := hsettled k m hc hmatch
      rw [if_pos hmatch, if_pos hmatch]
      have hlimit : buy.r.unitPrice = d.r.unitPrice := by
        rcases (isMatchOf_iff.1 hmatch).2.2 with rfl | rfl
        · cases draft_eq_of_get hterms.buyRow hget
          rfl
        · cases draft_eq_of_get hterms.sellRow hget
          cases hterms.sellSide.symm.trans hbuy
      rw [← hlimit]
      exact (hterms.moved_eq hall).1
    · rw [if_neg hmatch, if_neg hmatch, Nat.mul_zero]
  · refine Table.sum_eq_mul fun k c hc => ?_
    obtain ⟨m, rfl, -⟩ := hrows k c hc
    unfold paidPart matchedPart
    by_cases hmatch : isMatchOf id m.r = true
    · obtain ⟨buy, sell, hterms, hall⟩ := hsettled k m hc hmatch
      rw [if_pos hmatch, if_pos hmatch, Nat.one_mul]
      exact (hterms.moved_eq hall).2
    · rw [if_neg hmatch, if_neg hmatch]

theorem OrderTerms.escrow (h : OrderTerms d) :
    (d.r.side = 1 → coins (bundle d.w.sellerAssets) = d.r.unitPrice * d.r.quantity) ∧
      (d.r.side ≠ 1 → pieces (bundle d.w.sellerAssets) = d.r.quantity) := by
  have hpos : 0 < d.r.unitPrice * d.r.quantity := Nat.mul_pos h.price.1 h.quantity.1
  refine ⟨fun hside => ?_, fun hside => ?_⟩
  · rw [h.assets, if_pos hside]
    simp [coins, bundle, hpos]
  · rw [h.assets, if_neg hside]
    simp [pieces, bundle]

theorem coins_remainder (h : OrderTerms d) (hfilled : d.r.filledQuantity ≤ d.r.quantity)
    (hside : d.r.side = 1) :
    coins (remainder d.r) = (d.r.quantity - d.r.filledQuantity) * d.r.unitPrice := by
  have hquantity := h.quantity
  have hsub : sub32 d.r.quantity d.r.filledQuantity = d.r.quantity - d.r.filledQuantity := by
    unfold sub32
    omega
  have hmul : mul64 (d.r.quantity - d.r.filledQuantity) d.r.unitPrice =
      (d.r.quantity - d.r.filledQuantity) * d.r.unitPrice := mul64_eq <| calc
    (d.r.quantity - d.r.filledQuantity) * d.r.unitPrice ≤ d.r.quantity * d.r.unitPrice :=
      Nat.mul_le_mul_right _ (Nat.sub_le ..)
    _ ≤ maxInt64 := by
      rw [Nat.mul_comm]
      exact h.price.2
  unfold remainder
  dsimp only
  rw [hsub]
  split
  next hzero =>
    rw [hzero, Nat.zero_mul]
    rfl
  · rw [hmul]
    simp [coins, currencyBundle]

theorem pieces_remainder (h : OrderTerms d)
    (hfilled : d.r.filledQuantity ≤ d.r.quantity) (hside : d.r.side ≠ 1) :
    pieces (remainder d.r) = d.r.quantity - d.r.filledQuantity := by
  have hquantity := h.quantity
  have hsub : sub32 d.r.quantity d.r.filledQuantity = d.r.quantity - d.r.filledQuantity := by
    unfold sub32
    omega
  unfold remainder
  dsimp only
  rw [hsub]
  split
  next hzero =>
    rw [hzero]
    rfl
  · simp [pieces, itemBundle]

def Ended (d : Draft) : Prop := d.r.status = .settled ∨ d.r.status = .cancelled

theorem MarketOrder.ended_stage (h : MarketOrder d) (hended : Ended d) :
    d.w.stage = .done ∧ d.r.status ≠ .manual := by
  have hterminal : d.r.status.terminal = true := by
    rcases hended with hs | hs <;> rw [hs] <;> rfl
  have hne : d.r.status ≠ .manual := by
    rcases hended with hs | hs <;> rw [hs] <;> decide
  have hfinal := (Life.order h).final hterminal
  have hstages := h.life.stage_mem
  have hstage := hfinal.stage
  simp only [finalStages, mem_cons, not_mem_nil, or_false] at hstage hstages
  rcases hstage with hs | hs | hs | hs
  · exact ⟨hs, hne⟩
  · exact absurd (h.life.by_stage.manual hs) hne
  · simp [hs] at hstages
  · simp [hs] at hstages

/-- What an order that ended has got back, with what its matches took, is what it put in. -/
theorem MarketOrder.ended_balance (h : MarketOrder d) (hended : Ended d)
    (hhonest : Honest d) (hfilled : d.r.filledQuantity ≤ d.r.quantity) :
    (d.r.side = 1 → d.r.unitPrice * d.r.filledQuantity + moved coins .tradeCredit d.w.legs =
        moved coins .tradeDebit d.w.legs) ∧
      (d.r.side ≠ 1 → d.r.filledQuantity + moved pieces .tradeCredit d.w.legs =
        moved pieces .tradeDebit d.w.legs) := by
  obtain ⟨hdone, hne⟩ := h.ended_stage hended
  obtain ⟨a, credits, hlegs, ha, hdone', hcredits, -⟩ := h.life.by_stage.closing (.inr (.inr hdone))
  have hquantity := h.terms.quantity
  have hescrow := h.terms.escrow
  rw [← ha.bundle] at hescrow
  rcases hcredits with ⟨rfl, ⟨hrefused, hzero⟩ | ⟨hheld, hfull⟩⟩ | ⟨x, rfl, hheld, -, hx⟩
  · simp [moved, hlegs, ha.stream, hrefused, hzero]
  · have heq : d.r.filledQuantity = d.r.quantity := by
      unfold sub32 at hfull
      omega
    refine ⟨fun hside => ?_, fun hside => ?_⟩
    · simp [moved, hlegs, ha.stream, hheld, heq, hescrow.1 hside]
    · simp [moved, hlegs, ha.stream, hheld, heq, hescrow.2 hside]
  · have hstream : x.stream = .tradeCredit := congrArg Purpose.stream hx
    have hbundle : x.bundle = remainder d.r := congrArg Purpose.bundle hx
    have happlied : isApplied x = true :=
      hhonest (.inr ⟨hdone, hne⟩) x (by rw [hlegs]; simp) hstream
    refine ⟨fun hside => ?_, fun hside => ?_⟩
    · have hsum : d.r.unitPrice * d.r.filledQuantity +
          (d.r.quantity - d.r.filledQuantity) * d.r.unitPrice = d.r.unitPrice * d.r.quantity := by
        rw [Nat.mul_comm (_ - _), ← Nat.mul_add, Nat.add_sub_cancel' hfilled]
      simpa [moved, hlegs, ha.stream, hheld, hstream, happlied, hbundle, hescrow.1 hside,
        coins_remainder h.terms hfilled hside] using hsum
    · have hsum : d.r.filledQuantity + (d.r.quantity - d.r.filledQuantity) = d.r.quantity :=
        Nat.add_sub_cancel' hfilled
      simpa [moved, hlegs, ha.stream, hheld, hstream, happlied, hbundle, hescrow.2 hside,
        pieces_remainder h.terms hfilled hside] using hsum

/-! ## All runs -/

/-- The event advances the order, whose return has failed by then, while a match of the order is
open and none is Manual. -/
def losesReturn (id : CommerceId) (s : World) : Event → Bool
  | .advance k _ _ results _ _ =>
    k = id && badMatches s.contracts id = 0 && 0 < unfinishedMatches s.contracts id &&
      (s.contracts.get id).any fun c => c.workflow.any fun w => w.stage ≠ .manual &&
        w.legs.any fun l => l.stream = .tradeCredit && l.fails results
  | _ => false

def HonestRow (id : CommerceId) (t : Contracts) : Prop :=
  ∀ d, t.get id = some (Draft.row d) → d.r.kind = .marketMatch → d.r.side ≠ 0 → Honest d

theorem step_honest (hrows : Rows Kept s.contracts) (h : HonestRow id s.contracts)
    (hok : losesReturn id s e = false) : HonestRow id (step cfg s e).contracts := by
  intro d hget hkind hside
  rcases step_draft hrows hget with hsame | ⟨d₀, d', hd₀, hkept, hstep, heq⟩ | ⟨-, hnew⟩
  · exact h d hsame hkind hside
  · cases draft_of_row heq
    have horder := hkept.life.order_of hstep hkind hside
    have hside₀ : d₀.r.side ≠ 0 := by rcases horder.terms.side with h | h <;> omega
    have hhonest := h d₀ hd₀ horder.terms.kind hside₀
    change Honest d'
    refine hhonest.step horder hstep fun dir seen results now opIds he hbad hopen hs l hl hl' => ?_
    subst he
    by_contra hfails
    have hfails : l.fails results = true := by simpa using hfails
    have hlegs : d₀.w.legs.any (fun l => l.stream = .tradeCredit && l.fails results) = true :=
      any_eq_true.2 ⟨l, hl, by simp [hl', hfails]⟩
    simp [losesReturn, hbad, hopen, hd₀, hs, hlegs] at hok
  · rcases hnew.market hkind with ⟨d', heq, hnew⟩ | ⟨now, price, buy, sell, -, -, -, heq⟩
    · cases draft_of_row heq
      exact Honest.of_stage (by rw [hnew.stage]; decide) (by rw [hnew.stage]; decide)
    · exact absurd (congrArg (fun c => c.side) heq) hside

theorem run_filled (es : List Event) :
    Rows Kept (run (step cfg) World.empty es).contracts ∧
      Matches (run (step cfg) World.empty es).contracts ∧
      Filled (run (step cfg) World.empty es).contracts :=
  run_invariant
    (I := fun s : World => Rows Kept s.contracts ∧ Matches s.contracts ∧ Filled s.contracts)
    (fun _ _ hs => ⟨step_kept hs.1, step_matches hs.1 hs.2.1, step_filled hs.1 hs.2.1 hs.2.2⟩)
    ⟨Rows.empty Kept, fun k m h => by simp [World.empty] at h,
      fun k d h => by simp [World.empty] at h⟩ es

theorem run_honest (es : List Event)
    (hok : Admits (step cfg) (fun s e => losesReturn id s e = false) World.empty es) :
    HonestRow id (run (step cfg) World.empty es).contracts :=
  (run_invariant_of_admits
    (I := fun s : World => Rows Kept s.contracts ∧ HonestRow id s.contracts)
    (fun _ _ hs hok => ⟨step_kept hs.1, step_honest hs.1 hs.2 hok⟩)
    ⟨Rows.empty Kept, fun d h => by simp [World.empty] at h⟩ hok).2

structure FilledOrder (t : Contracts) (id : CommerceId) (d : Draft) : Prop where
  le : d.r.filledQuantity ≤ d.r.quantity
  eq : d.r.filledQuantity = matchedQuantity t id
  product : d.r.unitPrice * d.r.quantity ≤ maxInt64

/-- What an order put in went to the sellers, back to the buyer as surplus, and back as the rest; of
an order that sells, to the buyers and back. -/
structure Balanced (t : Contracts) (id : CommerceId) (d : Draft) : Prop where
  buy : d.r.side = 1 → matchesPaid coins t id + moved coins .tradeCredit d.w.legs =
    moved coins .tradeDebit d.w.legs
  sell : d.r.side ≠ 1 → matchesPaid pieces t id + moved pieces .tradeCredit d.w.legs =
    moved pieces .tradeDebit d.w.legs

/-- **Orders conserve their escrow.** In every reachable table the matches trade within the limits
of both orders and pay exact products, and every order is filled by its matches. An order that
ended has its escrow paid out in full, if no advance of the order in the run lost its return. -/
theorem market_conserved (cfg : Config) (es : List Event) :
    let t := (Machine.run (step cfg) World.empty es).contracts
    (∀ k m, t.get k = some (Draft.row m) → m.r.kind = .marketMatch → m.r.side = 0 →
      ∃ buy sell, MatchTerms t m buy sell ∧ buy.r.unitPrice * m.r.quantity ≤ maxInt64) ∧
    ∀ id d, t.get id = some (Draft.row d) → d.r.kind = .marketMatch → d.r.side ≠ 0 →
      FilledOrder t id d ∧
        (Machine.Admits (step cfg) (fun s e => losesReturn id s e = false) World.empty es →
          Ended d → Balanced t id d) := by
  intro t
  obtain ⟨hrows, hmatches, hfilled⟩ : Rows Kept t ∧ Matches t ∧ Filled t := run_filled es
  refine ⟨fun k m hget hkind hside => ?_, fun id d hget hkind hside => ?_⟩
  · obtain ⟨buy, sell, hterms⟩ := hmatches k m hget hkind hside
    have hkept := hrows.get hterms.buyRow
    have horder := hkept.orderTerms hterms.buyKind (by rw [hterms.buySide]; decide)
    exact ⟨buy, sell, hterms,
      (Nat.mul_le_mul_left _ hterms.quantity.2).trans horder.price.2⟩
  · have hkept := hrows.get hget
    have horder := hkept.life.marketOrder hkind hside
    have hle := (hkept.order hkind hside).filled
    have hsum := hfilled id d hget hkind hside
    refine ⟨⟨hle, hsum, horder.terms.price.2⟩, fun hok hended => ?_⟩
    have hquiet : unfinishedMatches t id = 0 :=
      run_quiet es id d hget hkind hside (horder.ended_stage hended).1
    obtain ⟨hcoins, hpieces⟩ := matchesPaid_eq hrows hmatches hget hquiet
    obtain ⟨hbuy, hsell⟩ :=
      horder.ended_balance hended (run_honest es hok d hget hkind hside) hle
    refine ⟨fun hs => ?_, fun hs => ?_⟩
    · rw [hcoins hs, ← hsum]
      exact hbuy hs
    · rw [hpieces, ← hsum, Nat.one_mul]
      exact hsell hs

/-! ## An order that is cancelled while it is matched -/

def sampleSettle (id : CommerceId) (seller buyer : PlayerId) (status : OpStatus) : Event :=
  .advance id sampleDirectory (seller, buyer, 0) (fun _ => some ⟨status, .empty⟩) 1 (fun _ => 1)

/-- Player 1 sells two items, player 2 buys one of them, and player 1 cancels the rest. -/
def sampleCancelled : List Event :=
  [.create 1 sampleDirectory none 0 1 (.market ⟨1, 1, 2, 5, 2, 1⟩)] ++ sampleOpen 1 1 ++
    [sampleOrder 2 2 1 5] ++ sampleOpen 2 2 ++
    [.matchMarket 2 sampleDirectory 2 9, .mutate 1 sampleDirectory none 1 (1, 0) 2 .cancel,
      sampleSettle 1 1 0 .applied]

def sampleEnd : List Event :=
  [sampleSettle 9 1 2 .applied, sampleSettle 9 1 2 .applied, sampleSettle 1 1 0 .applied]

theorem market_conserved_cancelled :
    let t := (Machine.run (step sampleConfig) World.empty
      (sampleCancelled ++ [sampleSettle 1 1 0 .applied] ++ sampleEnd)).contracts
    matchesPaid pieces t 1 = 1 ∧ ∃ d : Draft, t.get 1 = some d.row ∧ d.r.status = .cancelled ∧
      FilledOrder t 1 d ∧ Balanced t 1 d := by
  have h := (market_conserved sampleConfig
    (sampleCancelled ++ [sampleSettle 1 1 0 .applied] ++ sampleEnd)).2 1
    (sampleDraft (sampleCancelled ++ [sampleSettle 1 1 0 .applied] ++ sampleEnd) 1) rfl
    (by decide +kernel) (by decide +kernel)
  exact ⟨by decide +kernel, _, rfl, by decide +kernel, h.1,
    h.2 (by decide +kernel) (.inr (by decide +kernel))⟩

/-- The return is rejected while the match is open: the order ends as Cancelled, and the item that
was not sold is gone. -/
theorem return_lost : ¬ ∀ (cfg : Config) (es : List Event) (id : CommerceId) (d : Draft),
    (Machine.run (step cfg) World.empty es).contracts.get id = some d.row →
    d.r.kind = .marketMatch → d.r.side ≠ 0 → Ended d →
    Balanced (Machine.run (step cfg) World.empty es).contracts id d := by
  intro h
  have hbalanced :=
    h sampleConfig (sampleCancelled ++ [sampleSettle 1 1 0 .rejected] ++ sampleEnd) 1
    (sampleDraft (sampleCancelled ++ [sampleSettle 1 1 0 .rejected] ++ sampleEnd) 1) rfl
    (by decide +kernel) (by decide +kernel) (.inr (by decide +kernel))
  have hsell := hbalanced.sell (by decide +kernel)
  revert hsell
  decide +kernel

end Mmorpg.Commerce
