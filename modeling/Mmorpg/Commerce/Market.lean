import Mmorpg.Commerce.Life

/-!
# The life of an order and of a match

An order (kind 4 with a side) escrows what it offers, is open for matches, and ends when it is
filled or when it was cancelled and the part that is not filled was returned. A match (kind 4
without a side) pays out what the two orders have escrowed.
-/

namespace Mmorpg.Commerce

open Blocks (bind_eq_ok Keeps Skips Flow runBlocks_keeps)

/-! ## Orders -/

variable {d : Draft}

theorem notOpen_iff : notOpen d = false ↔ d.w.stage = .marketOpen ∧
    d.w.cancelRequested = false ∧ d.r.filledQuantity < d.r.quantity := by
  simp [notOpen, and_assoc]

/-- What an order escrows; the products do not overflow. -/
structure OrderTerms (d : Draft) : Prop where
  kind : d.r.kind = .marketMatch
  side : d.r.side = 1 ∨ d.r.side = 2
  quantity : 0 < d.r.quantity ∧ d.r.quantity ≤ 4096
  price : 0 < d.r.unitPrice ∧ d.r.unitPrice * d.r.quantity ≤ maxInt64
  assets : d.w.sellerAssets =
    if d.r.side = 1 then
      { currencyType := d.r.currencyType, currencyAmount := d.r.unitPrice * d.r.quantity }
    else { items := [(d.r.itemConfigId, d.r.quantity)] }

def OrderClosing (d : Draft) : Prop :=
  (d.w.stage = .giveBack ∧ d.r.status = .cancelPending) ∨
    (d.w.stage = .marketWait ∧ d.r.status = .cancelPending ∧ ∀ l ∈ d.w.legs, isDone l = true) ∨
    (d.w.stage = .done ∧ d.r.status.terminal = true ∧ ∀ l ∈ d.w.legs, isDone l = true) ∨
    (d.w.stage = .manual ∧ d.r.status = .manual)

/-- What a closing order pays back: nothing if the debit was refused or the order is filled, and
the part that is not filled otherwise. -/
def OrderCredits (d : Draft) (a : Leg) (credits : List Leg) : Prop :=
  (credits = [] ∧ ((isApplied a = false ∧ d.r.filledQuantity = 0) ∨
      (isApplied a = true ∧ sub32 d.r.quantity d.r.filledQuantity = 0))) ∨
    ∃ x : Leg, credits = [x] ∧ isApplied a = true ∧
      sub32 d.r.quantity d.r.filledQuantity ≠ 0 ∧
      x.purpose = ⟨.sellerReturn, d.r.sellerPlayerId, .tradeCredit, remainder d.r⟩

inductive OrderLife (d : Draft) : Prop where
  | escrowing (hat : At d .escrow) (hfilled : d.r.filledQuantity = 0)
      (hlegs : d.w.legs = [] ∨ ∃ a, d.w.legs = [a] ∧ d.SellerDebit a)
  | opened {a : Leg} (hat : At d .marketOpen) (hlegs : d.w.legs = [a]) (ha : d.SellerDebit a)
      (hheld : isApplied a = true)
  | closing {a : Leg} {credits : List Leg} (hclosing : OrderClosing d)
      (hlegs : d.w.legs = a :: credits) (ha : d.SellerDebit a) (hdone : isDone a = true)
      (hcredits : OrderCredits d a credits)

structure MarketOrder (d : Draft) : Prop where
  terms : OrderTerms d
  life : OrderLife d

/-- The debit of an order is returned as it was asked for. -/
theorem OrderTerms.transfer_eq (h : OrderTerms d) (hfilled : d.r.filledQuantity = 0)
    {s : Option AssetOp.AssetSnapshot} {b : AssetOp.AssetBundle}
    (hb : transfer (bundle d.w.sellerAssets) s = some b) :
    b = remainder d.r ∧ sub32 d.r.quantity d.r.filledQuantity ≠ 0 := by
  obtain ⟨hcurrencies, hitems, hinstances, hpet, huuids, hpetId⟩ := transfer_some hb
  have hquantity := h.quantity
  have hprice := h.price
  have hremaining : sub32 d.r.quantity d.r.filledQuantity = d.r.quantity := by
    unfold sub32
    omega
  have hmul : mul64 d.r.quantity d.r.unitPrice = d.r.unitPrice * d.r.quantity := by
    unfold mul64
    rw [Nat.mul_comm]
    unfold maxInt64 at hprice
    exact Nat.mod_eq_of_lt (by omega)
  have hne : d.r.quantity ≠ 0 := by omega
  refine ⟨?_, by rw [hremaining]; exact hne⟩
  unfold remainder
  rw [hremaining, if_neg hne, hmul]
  rw [h.assets] at hcurrencies hitems hinstances hpet
  obtain ⟨currencies, items, uuids, petId, instances, pet⟩ := b
  dsimp only at *
  subst huuids hpetId hcurrencies hitems
  split at hinstances
  next hside =>
    simp_all [bundle, currencyBundle, emptyBundle]
  · simp_all [bundle, itemBundle, emptyBundle]

namespace OrderLife

variable {d : Draft}

section

variable (h : OrderLife d)

include h

theorem setLegs {legs : List Leg} (hl : List.Forall₂ Later d.w.legs legs) :
    OrderLife (d.setLegs legs) := by
  cases h with
  | escrowing hat hfilled hlegs =>
    exact .escrowing hat hfilled (collecting_later hlegs hl)
  | opened hat hlegs ha hheld =>
    rw [hlegs] at hl
    rcases hl with _ | ⟨la, _ | _⟩
    exact .opened hat rfl (ha.later la) (la.isApplied hheld)
  | closing hclosing hlegs ha hdone hcredits =>
    have hdones : (∀ l ∈ d.w.legs, isDone l = true) → ∀ l ∈ legs, isDone l = true := by
      intro hall l' hl'
      obtain ⟨l, hmem, hlater⟩ := exists_of_forall₂ hl hl'
      exact hlater.isDone (hall l hmem)
    have hclosing' : OrderClosing (d.setLegs legs) :=
      hclosing.imp_right (.imp (fun h => ⟨h.1, h.2.1, hdones h.2.2⟩)
        (.imp_left fun h => ⟨h.1, h.2.1, hdones h.2.2⟩))
    rw [hlegs] at hl
    rcases hl with _ | ⟨la, lcredits⟩
    refine .closing hclosing' rfl (ha.later la) (la.isDone hdone) ?_
    rcases hcredits with ⟨rfl, h⟩ | ⟨x, rfl, happlied, hopen, hx⟩
    · rcases lcredits with _ | _
      refine .inl ⟨rfl, ?_⟩
      rwa [la.isApplied_eq hdone]
    · rcases lcredits with _ | ⟨lx, _ | _⟩
      exact .inr ⟨_, rfl, la.isApplied happlied, hopen, lx.purpose.trans hx⟩

theorem manual : OrderLife (d.move .manual .manual) := by
  cases h with
  | escrowing hat hfilled hlegs => exact .escrowing .manual hfilled hlegs
  | opened hat hlegs ha hheld => exact .opened .manual hlegs ha hheld
  | closing hclosing hlegs ha hdone hcredits =>
    exact .closing (.inr (.inr (.inr ⟨rfl, rfl⟩))) hlegs ha hdone hcredits

theorem bump : OrderLife d.bump := by
  cases h with
  | escrowing hat hfilled hlegs => exact .escrowing hat hfilled hlegs
  | opened hat hlegs ha hheld => exact .opened hat hlegs ha hheld
  | closing hclosing hlegs ha hdone hcredits => exact .closing hclosing hlegs ha hdone hcredits

theorem stage_mem : d.w.stage ∈ [.escrow, .marketOpen, .giveBack, .marketWait, .done, .manual] := by
  cases h with
  | escrowing hat | opened hat => rcases hat with ⟨hs, -⟩ | ⟨hs, -⟩ <;> simp [hs]
  | closing hclosing =>
    rcases hclosing with ⟨hs, -⟩ | ⟨hs, -⟩ | ⟨hs, -⟩ | ⟨hs, -⟩ <;> simp [hs]

end

structure ByStage (d : Draft) : Prop where
  manual : d.w.stage = .manual → d.r.status = .manual
  escrow : d.w.stage = .escrow → d.r.status.terminal = false ∧ d.r.filledQuantity = 0 ∧
    (d.w.legs = [] ∨ ∃ a, d.w.legs = [a] ∧ d.SellerDebit a)
  marketOpen : d.w.stage = .marketOpen → d.r.status.terminal = false ∧
    ∃ a, d.w.legs = [a] ∧ d.SellerDebit a ∧ isApplied a = true
  closing : d.w.stage = .giveBack ∨ d.w.stage = .marketWait ∨ d.w.stage = .done →
    ∃ a credits, d.w.legs = a :: credits ∧ d.SellerDebit a ∧ isDone a = true ∧
      OrderCredits d a credits ∧ OrderClosing d

theorem by_stage (h : OrderLife d) : ByStage d := by
  cases h with
  | escrowing hat hfilled hlegs =>
    rcases hat with ⟨hs, hopen⟩ | ⟨hs, hstatus⟩ <;> constructor <;> intro hs' <;>
      first | exact hstatus | exact ⟨hopen, hfilled, hlegs⟩ | simp [hs] at hs'
  | opened hat hlegs ha hheld =>
    rcases hat with ⟨hs, hopen⟩ | ⟨hs, hstatus⟩ <;> constructor <;> intro hs' <;>
      first | exact hstatus | exact ⟨hopen, _, hlegs, ha, hheld⟩ | simp [hs] at hs'
  | closing hclosing hlegs ha hdone hcredits =>
    have hclosed := hclosing
    rcases hclosing with ⟨hs, -⟩ | ⟨hs, -⟩ | ⟨hs, -⟩ | ⟨hs, hstatus⟩ <;> constructor <;>
      intro hs' <;>
      first | exact hstatus | exact ⟨_, _, hlegs, ha, hdone, hcredits, hclosed⟩ | simp [hs] at hs'

end OrderLife

variable {d' : Draft}

/-- The terms do not depend on the stage, the status, the legs and what was filled. -/
theorem OrderTerms.congr (h : OrderTerms d) (hkind : d'.r.kind = d.r.kind)
    (hside : d'.r.side = d.r.side) (hquantity : d'.r.quantity = d.r.quantity)
    (hprice : d'.r.unitPrice = d.r.unitPrice) (hcurrency : d'.r.currencyType = d.r.currencyType)
    (hitem : d'.r.itemConfigId = d.r.itemConfigId)
    (hassets : d'.w.sellerAssets = d.w.sellerAssets) : OrderTerms d' := by
  obtain ⟨h₁, h₂, h₃, h₄, h₅⟩ := h
  constructor <;> simp_all

theorem marketBarrier_legs (unfinished bad : Nat) (d : Draft) :
    (marketBarrier unfinished bad d).w.legs = d.w.legs := by
  unfold marketBarrier
  split
  · rfl
  split
  · rfl
  · dsimp only
    split <;> split <;> split <;> rfl

namespace MarketOrder

variable {p : Policy} {now : Nat}

/-! ## The blocks of the plan -/

theorem keeps_planEscrow : KeepsAt MarketOrder [.escrow] (planEscrow p) := by
  intro d f ⟨hterms, hlife⟩ hs hf
  rw [List.mem_singleton] at hs
  obtain ⟨hopen, hfilled, hlegs⟩ := hlife.by_stage.escrow hs
  have hopened : d.r.kind.openStage = .marketOpen := by rw [hterms.kind]; rfl
  obtain ⟨a, ha, h | ⟨hdone, hrefused, h⟩ | ⟨x, hx, h⟩ | ⟨hheld, h⟩⟩ :=
    planEscrow_single (by simp [hterms.kind]) hs hlegs hf
  · rw [h]
    exact ⟨hterms.congr rfl rfl rfl rfl rfl rfl rfl,
      .escrowing (.inl ⟨hs, hopen⟩) hfilled (.inr ⟨a, rfl, ha⟩)⟩
  · rw [h]
    exact ⟨hterms.congr rfl rfl rfl rfl rfl rfl rfl,
      .closing (.inl ⟨rfl, rfl⟩) rfl ha hdone (.inl ⟨rfl, .inl ⟨hrefused, hfilled⟩⟩)⟩
  · obtain ⟨hbundle, hremaining⟩ := hterms.transfer_eq hfilled (ha.bundle ▸ hx.source)
    rw [h]
    refine ⟨hterms.congr rfl rfl rfl rfl rfl rfl rfl, .closing (.inl ⟨rfl, rfl⟩) rfl ha
      (isDone_of_isApplied hx.held) (.inr ⟨x, rfl, hx.held, hremaining, ?_⟩)⟩
    rw [Leg.purpose, hx.role, hx.player, hx.stream, hbundle]
    rfl
  · rw [h, hopened]
    exact ⟨hterms.congr rfl rfl rfl rfl rfl rfl rfl, .opened (.inl ⟨rfl, hopen⟩) rfl ha hheld⟩

theorem nonEmpty_remainder {r : Record} :
    nonEmpty (remainder r) = true ↔ sub32 r.quantity r.filledQuantity ≠ 0 := by
  unfold remainder
  dsimp only
  split
  · simp [*, nonEmpty, emptyBundle]
  split <;> simp [*, nonEmpty, currencyBundle, itemBundle, emptyBundle]

theorem keeps_planCancel : KeepsAt MarketOrder [.opened, .lotOpen, .marketOpen] planCancel := by
  intro d f ⟨hterms, hlife⟩ hs hf
  have hs : d.w.stage = .marketOpen := stage_eq_of hlife.stage_mem hs (by decide)
  obtain ⟨hopen, a, hlegs, ha, hheld⟩ := hlife.by_stage.marketOpen hs
  unfold planCancel at hf
  split at hf
  · have hleg : leg (d.move .giveBack .cancelPending).w .sellerDebit = some a := by
      simp [leg, Draft.move, hlegs, ha.role]
    have hkind : (d.move .giveBack .cancelPending).r.kind = .marketMatch := hterms.kind
    dsimp only at hf
    rw [hleg] at hf
    dsimp only at hf
    split at hf
    · cases hf
    simp only [hkind, if_true] at hf
    split at hf
    next hremaining =>
      rw [addLeg_of_not_mem (by simp [Draft.move, hlegs, ha.role])] at hf
      cases hf
      exact ⟨hterms.congr rfl rfl rfl rfl rfl rfl rfl,
        .closing (.inl ⟨rfl, rfl⟩) (by simp [Draft.move, Flow.state, hlegs]; rfl) ha
          (isDone_of_isApplied hheld)
          (.inr ⟨_, rfl, hheld, nonEmpty_remainder.1 hremaining, rfl⟩)⟩
    next hremaining =>
      cases hf
      refine ⟨hterms.congr rfl rfl rfl rfl rfl rfl rfl, .closing (.inl ⟨rfl, rfl⟩) hlegs ha
        (isDone_of_isApplied hheld) (.inl ⟨rfl, .inr ⟨hheld, ?_⟩⟩)⟩
      by_contra hne
      exact hremaining (nonEmpty_remainder.2 hne)
  · cases hf
    exact ⟨hterms, hlife⟩

/-- The one credit of an order decides how it ends. -/
theorem keeps_planFinish : KeepsAt MarketOrder [.deliver, .giveBack] planFinish := by
  intro d f ⟨hterms, hlife⟩ hs hf
  have hs : d.w.stage = .giveBack := stage_eq_of hlife.stage_mem hs (by decide)
  obtain ⟨a, credits, hlegs, ha, hdone, hcredits, hclosing⟩ := hlife.by_stage.closing (.inl hs)
  unfold planFinish at hf
  rw [if_pos (.inr hs)] at hf
  dsimp only at hf
  split at hf
  next hready =>
    cases hf
    refine ⟨hterms.congr rfl rfl rfl rfl rfl rfl rfl,
      .closing (.inr (.inr (.inl ⟨rfl, ?_, ?_⟩))) hlegs ha hdone hcredits⟩
    · dsimp only [Draft.move, Flow.state]
      split
      · rfl
      · split <;> rfl
    · dsimp only [Draft.move, Flow.state]
      rw [hlegs]
      refine List.forall_mem_cons.2 ⟨hdone, ?_⟩
      rcases hcredits with ⟨rfl, -⟩ | ⟨x, rfl, -, -, hx⟩
      · exact fun l hl => nomatch hl
      have hstream : x.stream = .tradeCredit := congrArg Purpose.stream hx
      have hx : isDone x = true := by
        by_contra hnot
        simp [finalCredits, hlegs, finalCreditsOf, ha.stream, hstream, hnot] at hready
      simpa using hx
  · cases hf
    exact ⟨hterms, hlife⟩

variable {d : Draft}

/-- Three blocks of the plan act on an order. -/
theorem plan_keeps_of_blocks {I : Draft → Prop} (hI : ∀ {d}, I d → MarketOrder d)
    (hescrow : KeepsAt I [.escrow] (planEscrow p))
    (hcancel : KeepsAt I [.opened, .lotOpen, .marketOpen] planCancel)
    (hfinish : KeepsAt I [.deliver, .giveBack] planFinish) (h : I d)
    (hplan : plan p now d = .ok d') : I d' := by
  exact plan_keeps_of (fun hd => by simp [(hI hd).terms.kind]) (by decide)
    (fun hd => (hI hd).life.stage_mem)
    (by simpa [guardedBlocks] using ⟨hescrow, hcancel, hfinish⟩) h hplan

theorem plan_keeps (h : MarketOrder d) (hplan : plan p now d = .ok d') : MarketOrder d' :=
  plan_keeps_of_blocks id keeps_planEscrow keeps_planCancel keeps_planFinish h hplan

/-! ## The barrier -/

inductive BarrierEffect (unfinished bad : Nat) (d d' : Draft) : Prop where
  | manual (hbad : 0 < bad) (h : d' = d.move .manual .manual)
  | waits (hbad : bad = 0) (hstage : d.w.stage = .done) (hopen : 0 < unfinished)
      (h : d' = d.move .marketWait .cancelPending)
  | cancelled (hbad : bad = 0) (hstage : d.w.stage = .marketWait) (hclosed : unfinished = 0)
      (h : d' = d.move .done .cancelled)
  | settled (hbad : bad = 0) (hstage : d.w.stage = .marketOpen)
      (hfilled : d.r.quantity = d.r.filledQuantity) (hclosed : unfinished = 0)
      (h : d' = d.move .done .settled)
  | same (hbad : bad = 0) (hdone : d.w.stage = .done → unfinished = 0) (h : d' = d)

theorem marketBarrier_effect (hkind : d.r.kind = .marketMatch) (hside : d.r.side ≠ 0)
    (unfinished bad : Nat) :
    BarrierEffect unfinished bad d (marketBarrier unfinished bad d) := by
  unfold marketBarrier
  rw [if_neg (by simp [hkind, hside])]
  split
  · exact .manual ‹_› rfl
  rename_i hbad
  have hbad : bad = 0 := by omega
  by_cases hdone : d.w.stage = .done
  · by_cases hopen : unfinished > 0
    · have hne : unfinished ≠ 0 := by omega
      simp only [hdone, hopen, and_self, if_true, Draft.move, hne, and_false, if_false,
        reduceCtorEq]
      exact .waits hbad hdone hopen rfl
    · simp only [hdone, hopen, and_false, if_false, reduceCtorEq, false_and]
      exact .same hbad (fun _ => by omega) rfl
  by_cases hwait : d.w.stage = .marketWait
  · by_cases hclosed : unfinished = 0
    · simp only [hwait, hclosed, reduceCtorEq, false_and, if_false, and_self, if_true, Draft.move]
      exact .cancelled hbad hwait rfl rfl
    · simp only [hwait, hclosed, reduceCtorEq, false_and, and_false, if_false]
      exact .same hbad (fun h => absurd h hdone) rfl
  · simp only [hdone, hwait, false_and, if_false]
    split
    next hfilled =>
      exact .settled hbad hfilled.1 hfilled.2.1 hfilled.2.2 rfl
    · exact .same hbad (fun h => absurd h hdone) rfl

theorem barrier_keeps (h : MarketOrder d) (unfinished bad : Nat) :
    MarketOrder (marketBarrier unfinished bad d) := by
  have hside : d.r.side ≠ 0 := by rcases h.terms.side with h | h <;> omega
  -- An order that leaves the stage or comes back to it has nothing under way.
  have hdones : d.w.stage = .marketWait ∨ d.w.stage = .done → ∀ l ∈ d.w.legs, isDone l = true := by
    intro hs
    obtain ⟨a, credits, -, -, -, -, hclosing⟩ := h.life.by_stage.closing (.inr hs)
    rcases hclosing with ⟨hs', -⟩ | ⟨-, -, hall⟩ | ⟨-, -, hall⟩ | ⟨hs', -⟩
    · simp [hs'] at hs
    · exact hall
    · exact hall
    · simp [hs'] at hs
  cases marketBarrier_effect h.terms.kind hside unfinished bad with
  | manual hbad heq =>
    rw [heq]
    exact ⟨h.terms.congr rfl rfl rfl rfl rfl rfl rfl, h.life.manual⟩
  | waits hbad hs hopen heq =>
    obtain ⟨a, credits, hlegs, ha, hdone, hcredits, -⟩ := h.life.by_stage.closing (.inr (.inr hs))
    rw [heq]
    exact ⟨h.terms.congr rfl rfl rfl rfl rfl rfl rfl,
      .closing (.inr (.inl ⟨rfl, rfl, hdones (.inr hs)⟩)) hlegs ha hdone hcredits⟩
  | cancelled hbad hs hclosed heq =>
    obtain ⟨a, credits, hlegs, ha, hdone, hcredits, -⟩ := h.life.by_stage.closing (.inr (.inl hs))
    rw [heq]
    exact ⟨h.terms.congr rfl rfl rfl rfl rfl rfl rfl,
      .closing (.inr (.inr (.inl ⟨rfl, rfl, hdones (.inl hs)⟩))) hlegs ha hdone hcredits⟩
  | settled hbad hs hfilled hclosed heq =>
    obtain ⟨-, a, hlegs, ha, hheld⟩ := h.life.by_stage.marketOpen hs
    have hdone := isDone_of_isApplied hheld
    rw [heq]
    refine ⟨h.terms.congr rfl rfl rfl rfl rfl rfl rfl,
      .closing (.inr (.inr (.inl ⟨rfl, rfl, ?_⟩))) hlegs ha hdone
        (.inl ⟨rfl, .inr ⟨hheld, ?_⟩⟩)⟩
    · simp [Draft.move, hlegs, hdone]
    · simp [Draft.move, sub32, hfilled]
  | same hbad hopen heq => rwa [heq]

/-! ## The steps of an order -/

theorem fill_keeps {qty : Nat} (h : MarketOrder d) (hopen : notOpen d = false) :
    MarketOrder (fill qty d) := by
  have hs := (notOpen_iff.1 hopen).1
  obtain ⟨hlive, a, hlegs, ha, hheld⟩ := h.life.by_stage.marketOpen hs
  refine ⟨h.terms.congr rfl rfl rfl rfl rfl rfl rfl, .opened (.inl ⟨hs, ?_⟩) hlegs ha hheld⟩
  dsimp only [fill]
  split
  · rfl
  · exact hlive

theorem cancel_keeps (h : MarketOrder d) (hs : d.w.stage = .marketOpen) :
    MarketOrder d.cancelPending := by
  obtain ⟨-, a, hlegs, ha, hheld⟩ := h.life.by_stage.marketOpen hs
  exact ⟨h.terms.congr rfl rfl rfl rfl rfl rfl rfl, .opened (.inl ⟨hs, rfl⟩) hlegs ha hheld⟩

theorem closed : Closed MarketOrder .marketMatch
    [.escrow, .marketOpen, .giveBack, .marketWait, .done, .manual] where
  kind_eq h := h.terms.kind
  stage_mem h := h.life.stage_mem
  later h hl := ⟨h.terms.congr rfl rfl rfl rfl rfl rfl rfl, h.life.setLegs hl⟩
  manual h := ⟨h.terms.congr rfl rfl rfl rfl rfl rfl rfl, h.life.manual⟩
  bump h := ⟨h.terms.congr rfl rfl rfl rfl rfl rfl rfl, h.life.bump⟩
  plan h hplan := h.plan_keeps hplan
  barrier _ _ _ _ h := h.barrier_keeps _ _
  cancelMarket _ _ h hs := h.cancel_keeps hs
  fill _ _ _ h _ hopen := h.fill_keeps hopen

end MarketOrder

/-! ## Steps of rows of the market -/

inductive MarketStep (cfg : Config) (t : Contracts) (e : Event) (id : CommerceId) (d d' : Draft) :
    Prop where
  | cancelled (hs : d.w.stage = .opened ∨ d.w.stage = .marketOpen ∨ d.w.stage = .lotOpen)
      (h : d' = d.cancelPending)
  | advanced {i : AdvanceInput} (hunfinished : i.unfinished = unfinishedMatches t id)
      (hbad : i.bad = badMatches t id)
      (he : ∃ dir seen, e = .advance id dir seen i.results i.now i.opIds)
      (h : advanceDraft cfg.policy i d = .ok d')
  | quarantined (h : d' = d.move .manual .manual)
  | filled {qty : Nat} (hside : d.r.side ≠ 0) (hopen : notOpen d = false)
      (hqty : qty ≤ sub32 d.r.quantity d.r.filledQuantity) (h : d' = fill qty d)

variable {cfg : Config} {t : Contracts} {id : CommerceId}

theorem DraftStep.market {e : Event} (hstep : DraftStep cfg t e id d d')
    (hkind : d.r.kind = .marketMatch) {stages : List Stage} (hstages : d.w.stage ∈ stages)
    (hlot : .lotOpen ∉ stages) (hready : .bidReady ∉ stages) (hheld : .bidHeld ∉ stages) :
    MarketStep cfg t e id d d' := by
  cases hstep with
  | common hstep =>
    cases hstep with
    | confirmed hconfirm =>
      cases hkind.symm.trans (mutateConfirm_guard hconfirm).1
    | bought hbuy => cases hkind.symm.trans (mutateBuy_ok hbuy).1
    | cancelled hcancel =>
      obtain ⟨-, ⟨htrade, -⟩ | ⟨-, hs⟩, rfl⟩ := mutateCancel_ok hcancel
      · cases hkind.symm.trans htrade
      · exact .cancelled (hs.imp_right (Or.imp_right And.left)) rfl
    | advanced hchar hinput hadvance =>
      obtain ⟨hunfinished, hbad, he⟩ := hinput.resolve_left (by simp [hkind])
      exact .advanced hunfinished hbad he hadvance
    | quarantined he hdue heq => exact .quarantined heq
  | rmb hrmb => cases hkind.symm.trans hrmb
  | filled he hmarket hside hopen hqty heq => exact .filled hside hopen hqty heq
  | bidRefunded he hs =>
    exact hs.elim (stage_absurd hstages · hready) (stage_absurd hstages · hheld)
  | bidTaken he hs => exact stage_absurd hstages hs hready
  | lotTook he heligible => exact stage_absurd hstages (eligible_iff.1 heligible).1 hlot
  | bidSettled hs => exact stage_absurd hstages hs hheld

theorem MarketOrder.marketStep {e : Event} (h : MarketOrder d) (hstep : DraftStep cfg t e id d d') :
    MarketStep cfg t e id d d' :=
  hstep.market h.terms.kind h.life.stage_mem (by decide) (by decide) (by decide)

/-! ## Matches -/

/-- The legs of a new match: what the buyer and the seller receive, and what the buyer has paid in
over the price. -/
theorem newMatch_legs (now price qty : Nat) (buy sell : Locked) :
    (newMatch now price qty buy sell).w.legs =
      [newLeg .buyerReceive buy.d.r.sellerPlayerId .tradeCredit
          (itemBundle buy.d.r.itemConfigId qty),
        newLeg .sellerReceive sell.d.r.sellerPlayerId .tradeCredit
          (currencyBundle buy.d.r.currencyType (mul64 qty price))] ++
      if buy.d.r.unitPrice > price then
        [newLeg .buyerSurplus buy.d.r.sellerPlayerId .tradeCredit
          (currencyBundle buy.d.r.currencyType (mul64 qty (sub64 buy.d.r.unitPrice price)))]
      else [] := by
  unfold newMatch
  dsimp only
  split <;> simp [addLeg, newLeg]

theorem newMatch_stage (now price qty : Nat) (buy sell : Locked) :
    (newMatch now price qty buy sell).w.stage = .deliver := by
  unfold newMatch
  dsimp only
  split <;> simp [addLeg, newLeg]

/-- A match pays out and ends with its credits. -/
structure MarketFill (d : Draft) : Prop where
  kind : d.r.kind = .marketMatch
  side : d.r.side = 0
  credits : ∀ l ∈ d.w.legs, l.stream = .tradeCredit
  paying : Paying d .deliver .delivering .settled

namespace MarketFill

variable {d : Draft}

theorem stage_mem (h : MarketFill d) : d.w.stage ∈ [.deliver, .done, .manual] := by
  rcases h.paying with ⟨hs, -⟩ | ⟨hs | hs, -⟩ | ⟨hs, -⟩ <;> simp [hs]

theorem drift (h : MarketFill d) (hd : Drift d d') : MarketFill d' := by
  obtain ⟨⟨_, _, _, _, rfl⟩, hl, -, hdelivers, -⟩ := hd
  refine ⟨h.kind, h.side, fun l' hl' => ?_, hdelivers h.paying⟩
  obtain ⟨l, hmem, hlater⟩ := exists_of_forall₂ hl hl'
  exact hlater.stream.trans (h.credits l hmem)

theorem keeps_planFinish : KeepsAt MarketFill [.deliver, .giveBack] planFinish := fun _ _ h _ hf =>
  h.drift (.planFinish hf)

theorem closed : Closed MarketFill .marketMatch [.deliver, .done, .manual] where
  kind_eq h := h.kind
  stage_mem h := h.stage_mem
  later h hl := h.drift (.setLegs hl)
  manual h := h.drift .manual
  bump h := h.drift .bump
  plan h hplan := plan_keeps_of (fun hd => by simp [hd.kind]) (by decide) (fun hd => hd.stage_mem)
    (by simpa [guardedBlocks] using keeps_planFinish) h hplan
  barrier _ _ _ _ h := by rwa [marketBarrier, if_pos (.inr h.side)]
  fill _ _ _ h hside _ := absurd h.side hside

end MarketFill

end Mmorpg.Commerce
