import Mmorpg.Commerce.Terminal

/-!
# The book of orders

`marketCounterparty` selects by the status column, and `matchMarket` trades by the stage of the
workflow. An order has the selected status both while it is open and while its debit is still under
way (`OrderState`), so the best row of the selection can be one that nobody can trade with. A call
of `matchMarket` has an effect exactly when it is not (`match_effect_iff`).
-/

namespace Mmorpg.Commerce

open List Machine

open Blocks (bind_eq_ok Keeps Flow)

/-! ## Status and stage of an order -/

structure OrderState (d : Draft) : Prop where
  filled : d.r.filledQuantity ≤ d.r.quantity
  escrow : d.w.stage = .escrow → d.r.status = .escrowing ∧ d.w.cancelRequested = false
  opened : d.w.stage = .marketOpen → d.r.status =
    if d.w.cancelRequested then .cancelPending
    else if d.r.filledQuantity = d.r.quantity then .delivering
    else .escrowing

variable {d : Draft}

/-- The block of the plan that acts on a request to cancel moves the contract on. -/
theorem planCancel_stage {f : Flow Draft} (hf : planCancel d = .ok f) :
    f.state = d ∨
      (f.state.w.stage = .giveBack ∧ f.state.r = { d.r with status := .cancelPending }) := by
  unfold planCancel at hf
  split at hf
  · dsimp only at hf
    split at hf
    · cases hf
    split at hf
    · cases hf
    cases hf
    refine .inr ⟨?_, rfl⟩
    dsimp only [Flow.state]
    split <;> split <;> first | exact addLeg_stage .. | rfl
  · cases hf
    exact .inl rfl

namespace OrderState

variable {d d' : Draft} {p : Policy} {now : Nat}

/-- Of an order that is not open and not in escrow only the columns matter. -/
theorem of_stage (h : d.r.filledQuantity ≤ d.r.quantity) (hescrow : d.w.stage ≠ .escrow)
    (hopen : d.w.stage ≠ .marketOpen) : OrderState d :=
  ⟨h, fun hs => absurd hs hescrow, fun hs => absurd hs hopen⟩

theorem move (h : OrderState d) {stage : Stage} (status : Status) (hescrow : stage ≠ .escrow)
    (hopen : stage ≠ .marketOpen) : OrderState (d.move stage status) :=
  of_stage h.filled hescrow hopen

theorem setLegs (h : OrderState d) (legs : List Leg) : OrderState (d.setLegs legs) :=
  ⟨h.filled, h.escrow, h.opened⟩

theorem bump (h : OrderState d) : OrderState d.bump := ⟨h.filled, h.escrow, h.opened⟩

theorem keeps_planEscrow :
    KeepsAt (fun d => MarketOrder d ∧ OrderState d) [.escrow] (planEscrow p) := by
  intro d f ⟨horder, h⟩ hs hf
  refine ⟨MarketOrder.keeps_planEscrow d f horder hs hf, ?_⟩
  rw [mem_singleton] at hs
  obtain ⟨-, hfilled, hlegs⟩ := horder.life.by_stage.escrow hs
  have hopened : d.r.kind.openStage = .marketOpen := by rw [horder.terms.kind]; rfl
  obtain ⟨a, -, heq | ⟨-, -, heq⟩ | ⟨x, -, heq⟩ | ⟨-, heq⟩⟩ :=
    planEscrow_single (by simp [horder.terms.kind]) hs hlegs hf
  · rw [heq]
    exact h.setLegs _
  · rw [heq]
    exact (h.setLegs _).move _ (by decide) (by decide)
  · rw [heq]
    exact (h.setLegs _).move _ (by decide) (by decide)
  · rw [heq, hopened]
    refine ⟨h.filled, fun hs => (nomatch hs), fun _ => ?_⟩
    obtain ⟨hstatus, hcancel⟩ := h.escrow hs
    have hquantity := horder.terms.quantity
    simp only [Draft.enter, Draft.setLegs, hstatus, hcancel, hfilled, Bool.false_eq_true,
      if_false]
    rw [if_neg (by omega)]

theorem keeps_planCancel : KeepsAt (fun d => MarketOrder d ∧ OrderState d)
    [.opened, .lotOpen, .marketOpen] planCancel := by
  intro d f ⟨horder, h⟩ hs hf
  refine ⟨MarketOrder.keeps_planCancel d f horder hs hf, ?_⟩
  rcases planCancel_stage hf with heq | ⟨hstage, hrow⟩
  · rwa [heq]
  · exact of_stage (by rw [hrow]; exact h.filled) (by simp [hstage]) (by simp [hstage])

theorem keeps_planFinish :
    KeepsAt (fun d => MarketOrder d ∧ OrderState d) [.deliver, .giveBack] planFinish := by
  intro d f ⟨horder, h⟩ hs hf
  refine ⟨MarketOrder.keeps_planFinish d f horder hs hf, ?_⟩
  unfold planFinish at hf
  dsimp only at hf
  split at hf
  · split at hf
    · cases hf
      exact h.move _ (by decide) (by decide)
    · cases hf
      exact h
  · cases hf
    exact h

theorem plan_keeps (horder : MarketOrder d) (h : OrderState d) (hplan : plan p now d = .ok d') :
    MarketOrder d' ∧ OrderState d' :=
  MarketOrder.plan_keeps_of_blocks (I := fun d => MarketOrder d ∧ OrderState d) And.left
    keeps_planEscrow keeps_planCancel keeps_planFinish ⟨horder, h⟩ hplan

theorem barrier (horder : MarketOrder d) (h : OrderState d) (unfinished bad : Nat) :
    OrderState (marketBarrier unfinished bad d) := by
  have hside : d.r.side ≠ 0 := by rcases horder.terms.side with h | h <;> omega
  cases MarketOrder.marketBarrier_effect horder.terms.kind hside unfinished bad with
  | manual _ heq | waits _ _ _ heq | cancelled _ _ _ heq | settled _ _ _ _ heq =>
    rw [heq]
    exact h.move _ (by decide) (by decide)
  | same _ _ heq => rwa [heq]

theorem fill {qty : Nat} (horder : MarketOrder d) (h : OrderState d) (hopen : notOpen d = false)
    (hqty : qty ≤ sub32 d.r.quantity d.r.filledQuantity) : OrderState (fill qty d) := by
  obtain ⟨hs, hcancel, hfilled⟩ := notOpen_iff.1 hopen
  have hquantity := horder.terms.quantity
  have hsum : add32 d.r.filledQuantity qty = d.r.filledQuantity + qty ∧
      d.r.filledQuantity + qty ≤ d.r.quantity := by
    unfold add32
    unfold sub32 at hqty
    omega
  refine ⟨?_, fun hescrow => ?_, fun _ => ?_⟩
  · dsimp only [Commerce.fill]
    omega
  · cases hs.symm.trans hescrow
  · have hstatus := h.opened hs
    rw [hcancel, if_neg (by decide), if_neg (by omega)] at hstatus
    simp only [Commerce.fill, hcancel, hstatus, Bool.false_eq_true, if_false]

variable {cfg : Config} {t : Contracts} {e : Event} {id : CommerceId}

theorem step (horder : MarketOrder d) (h : OrderState d) (hstep : DraftStep cfg t e id d d') :
    OrderState d' := by
  cases horder.marketStep hstep with
  | cancelled hs heq =>
    subst heq
    refine ⟨h.filled, fun hescrow => ?_, fun _ => rfl⟩
    change d.w.stage = .escrow at hescrow
    simp [hescrow] at hs
  | advanced _ _ _ hadvance =>
    obtain ⟨legs, partly, hrecord, ⟨-, rfl⟩ | ⟨-, d₁, legs', hplan, -, rfl⟩⟩ :=
      advanceDraft_ok hadvance
    · exact (h.setLegs legs).move _ (by decide) (by decide)
    · have horder₀ := MarketOrder.closed.later horder (recordOutcomes_later hrecord)
      obtain ⟨horder₁, h₁⟩ := plan_keeps horder₀ (h.setLegs legs) hplan
      exact (h₁.barrier horder₁ _ _).setLegs legs'
  | quarantined heq =>
    subst heq
    exact h.move _ (by decide) (by decide)
  | filled _ hopen hqty heq =>
    subst heq
    exact h.fill horder hopen hqty

end OrderState

structure Kept (d : Draft) : Prop where
  life : Life d
  order : d.r.kind = .marketMatch → d.r.side ≠ 0 → OrderState d

variable {cfg : Config} {t : Contracts} {e : Event} {id : CommerceId}

theorem Created.kept {c : Contract} (h : Created cfg t e id c) :
    ∃ d : Draft, c = d.row ∧ Kept d := by
  obtain ⟨d, rfl, hlife⟩ := h.life
  refine ⟨d, rfl, hlife, fun hkind hside => ?_⟩
  rcases h.market hkind with ⟨d', heq, hnew⟩ | ⟨now, price, buy, sell, -, -, -, heq⟩
  · cases draft_of_row heq
    refine ⟨by rw [hnew.filled]; exact Nat.zero_le _, fun _ => ⟨hnew.status, hnew.cancel⟩,
      fun hopen => ?_⟩
    cases hnew.stage.symm.trans hopen
  · exact absurd (congrArg (fun c => c.side) heq) hside

theorem step_kept {s : World} (hrows : Rows Kept s.contracts) :
    Rows Kept (step cfg s e).contracts := by
  refine step_rows hrows (fun _ _ hc => hc.kept)
    (fun d hd => ⟨hd.life.bump, fun hkind hside => (hd.order hkind hside).bump⟩)
    (fun k d d' hget hd hstep => ⟨hd.life.step hstep, fun hkind hside => ?_⟩)
  have horder := hd.life.order_of hstep hkind hside
  have hside : d.r.side ≠ 0 := by rcases horder.terms.side with h | h <;> omega
  exact (hd.order horder.terms.kind hside).step horder hstep

theorem run_kept (es : List Event) : Rows Kept (run (step cfg) World.empty es).contracts :=
  run_invariant (I := fun s : World => Rows Kept s.contracts)
    (fun _ _ hs => step_kept hs) (Rows.empty Kept) es

/-- An order that the status filter selects is open, or its debit is still under way. -/
theorem Kept.of_escrowing (h : Kept d) (hkind : d.r.kind = .marketMatch)
    (hside : d.r.side ≠ 0) (hstatus : d.r.status = .escrowing) :
    d.w.cancelRequested = false ∧ (d.w.stage = .escrow ∨ d.w.stage = .marketOpen) := by
  have hstate := h.order hkind hside
  have horder := h.life.marketOrder hkind hside
  rcases horder.life with ⟨hat, -, -⟩ | ⟨hat, -, -, -⟩ | ⟨hclosing, -, -, -, -⟩
  · rcases hat with ⟨hs, -⟩ | ⟨-, hs⟩
    · exact ⟨(hstate.escrow hs).2, .inl hs⟩
    · cases hstatus.symm.trans hs
  · rcases hat with ⟨hs, -⟩ | ⟨-, hs⟩
    · refine ⟨?_, .inr hs⟩
      have hopen := hstate.opened hs
      rw [hstatus] at hopen
      by_contra hcancel
      rw [if_pos (by simpa using hcancel)] at hopen
      cases hopen
    · cases hstatus.symm.trans hs
  · rcases hclosing with ⟨-, hs⟩ | ⟨-, hs, -⟩ | ⟨-, hs, -⟩ | ⟨-, hs⟩
    · cases hstatus.symm.trans hs
    · cases hstatus.symm.trans hs
    · rw [hstatus] at hs
      cases hs
    · cases hstatus.symm.trans hs

/-! ## The selection -/

/-- The first element of a list comes before all others, in an order that is total on it. -/
theorem firstBy_le {α : Type} {lt : α → α → Bool} {l : List α} {x : α}
    (htrans : ∀ a b c, lt a b = true → lt b c = true → lt a c = true)
    (htotal : ∀ a ∈ l, ∀ b ∈ l, a = b ∨ lt a b = true ∨ lt b a = true)
    (h : firstBy lt l = some x) : ∀ y ∈ l, y = x ∨ lt x y = true := by
  induction l generalizing x with
  | nil => cases h
  | cons z l ih =>
    have ih' : ∀ w, firstBy lt l = some w → ∀ y ∈ l, y = w ∨ lt w y = true := fun w hw =>
      ih (fun a ha b hb => htotal a (.tail z ha) b (.tail z hb)) hw
    unfold firstBy at h
    split at h
    next hnone =>
      cases h
      have hnil : l = [] := by
        cases l with
        | nil => rfl
        | cons w l =>
          unfold firstBy at hnone
          split at hnone
          · cases hnone
          · split at hnone <;> cases hnone
      simp [hnil]
    rename_i w hw
    have hfirst := ih' w hw
    split at h
    next hlt =>
      cases h
      refine forall_mem_cons.2 ⟨.inr hlt, hfirst⟩
    next hlt =>
      cases h
      refine forall_mem_cons.2 ⟨.inl rfl, fun y hy => ?_⟩
      have hzw : z = w ∨ lt z w = true := by
        rcases htotal z (.head l) w (.tail z (firstBy_mem hw)) with heq | hlt' | hlt'
        · exact .inl heq
        · exact .inr hlt'
        · exact absurd hlt' hlt
      rcases hfirst y hy with rfl | hwy
      · exact hzw.imp Eq.symm id
      · rcases hzw with rfl | hzw
        · exact .inr hwy
        · exact .inr (htrans z w y hzw hwy)

theorem firstBy_isSome {α : Type} {lt : α → α → Bool} {l : List α} {x : α} (h : x ∈ l) :
    ∃ y, firstBy lt l = some y := by
  cases l with
  | nil => cases h
  | cons z l =>
    unfold firstBy
    split
    · exact ⟨_, rfl⟩
    · split <;> exact ⟨_, rfl⟩

variable {taker : Record}

theorem precedes_iff {x y : CommerceId × Contract} : precedes taker x y = true ↔
    (if taker.side = 1 then x.2.unitPrice < y.2.unitPrice else y.2.unitPrice < x.2.unitPrice) ∨
      (x.2.unitPrice = y.2.unitPrice ∧
        (x.2.createdMs < y.2.createdMs ∨ (x.2.createdMs = y.2.createdMs ∧ x.1 < y.1))) := by
  simp [precedes]

theorem precedes_trans (taker : Record) (x y z : CommerceId × Contract)
    (hxy : precedes taker x y = true) (hyz : precedes taker y z = true) :
    precedes taker x z = true := by
  rw [precedes_iff] at *
  unfold CommerceId at *
  by_cases hside : taker.side = 1
  · rw [if_pos hside] at *
    omega
  · rw [if_neg hside] at *
    omega

theorem precedes_total (taker : Record) (x y : CommerceId × Contract) (hne : x.1 ≠ y.1) :
    precedes taker x y = true ∨ precedes taker y x = true := by
  rw [precedes_iff, precedes_iff]
  unfold CommerceId at *
  by_cases hside : taker.side = 1
  · rw [if_pos hside, if_pos hside]
    omega
  · rw [if_neg hside, if_neg hside]
    omega

/-- The row that `marketCounterparty` selects comes before every other row of the selection. -/
theorem marketCounterparty_first {other c : Contract} {otherId k : CommerceId}
    (h : marketCounterparty t taker = some otherId) (hother : t.get otherId = some other)
    (hget : t.get k = some c) (hfilter : marketFilter taker c.toRecord = true) (hne : k ≠ otherId) :
    precedes taker (otherId, other) (k, c) = true := by
  unfold marketCounterparty at h
  obtain ⟨⟨k', c'⟩, hfirst, rfl⟩ := Option.map_eq_some_iff.1 h
  have hmem := (mem_filter.1 (firstBy_mem hfirst)).1
  cases (Table.mem_rows.1 hmem).symm.trans hother
  have hle := firstBy_le (precedes_trans taker) (fun x hx y hy => ?_) hfirst (k, c)
    (mem_filter.2 ⟨Table.mem_rows.2 hget, hfilter⟩)
  · exact hle.resolve_left fun heq => hne (congrArg Prod.fst heq)
  · by_cases hxy : x.1 = y.1
    · left
      have hx' := Table.mem_rows.1 (mem_filter.1 hx).1
      have hy' := Table.mem_rows.1 (mem_filter.1 hy).1
      rw [hxy, hy'] at hx'
      exact Prod.ext hxy (Option.some.inj hx').symm
    · exact .inr (precedes_total taker x y hxy)

/-! ## A call of `matchMarket` -/

/-- An order of another player on the other side that is open and crosses. -/
structure Tradable (dir : Directory) (t : Contracts) (taker : Record) (k : CommerceId) (d : Draft) :
    Prop where
  get : t.get k = some d.row
  kind : d.r.kind = .marketMatch
  side : d.r.side = if taker.side = 1 then 2 else 1
  market : d.r.marketId = taker.marketId
  item : d.r.itemConfigId = taker.itemConfigId
  currency : d.r.currencyType = taker.currencyType
  player : d.r.sellerPlayerId ≠ taker.sellerPlayerId
  price : if taker.side = 1 then d.r.unitPrice ≤ taker.unitPrice
    else d.r.unitPrice ≥ taker.unitPrice
  opened : notOpen d = false
  healthy : Healthy dir d

/-- The taker is filled against the best and oldest of the orders it can trade with. -/
def FillsBest (dir : Directory) (now : Nat) (matchId id : CommerceId) (taker : Draft)
    (t t' : Contracts) : Prop :=
  ∃ k d, Tradable dir t taker.r k d ∧
    (∀ k' d', Tradable dir t taker.r k' d' → k' ≠ k →
      precedes taker.r (k, d.row) (k', d'.row) = true) ∧
    ∃ price qty, 0 < qty ∧ (Traded now price qty matchId ⟨id, taker⟩ ⟨k, d⟩ t t' ∨
      Traded now price qty matchId ⟨k, d⟩ ⟨id, taker⟩ t t')

/-- An order that can never trade is taken off the book. -/
def RemovesDefective (dir : Directory) (t t' : Contracts) : Prop :=
  ∃ k c, t.get k = some c ∧ c.status = .escrowing ∧ counterpartyDefect dir c = .ok true ∧
    t' = t.put k (quarantineLocked c)

/-- The best row of the selection can be dealt with: it is defective, or it is not in escrow any
more and both orders are as they should be. -/
def FrontTradable (dir : Directory) (matchId : CommerceId) (taker : Draft) (t : Contracts) : Prop :=
  taker.r.filledQuantity < taker.r.quantity ∧
    ∃ k front, marketCounterparty t taker.r = some k ∧ t.get k = some (Draft.row front) ∧
      lockRoles dir none 0 [taker.r.sellerPlayerId, front.r.sellerPlayerId] = .ok () ∧
      (counterpartyDefect dir front.row = .ok true ∨
        (front.w.stage ≠ .escrow ∧ Healthy dir front ∧ Healthy dir taker ∧ t.get matchId = none))

theorem Traded.ne {now price qty : Nat} {matchId : CommerceId} {buy sell : Locked}
    {t' : Contracts} (h : Traded now price qty matchId buy sell t t') : t' ≠ t := by
  rintro rfl
  have hget := h.get matchId
  rw [h.fresh] at hget
  split at hget
  · cases hget
  split at hget
  · cases hget
  rw [if_pos rfl] at hget
  cases hget

theorem RemovesDefective.ne {dir : Directory} {t' : Contracts} (h : RemovesDefective dir t t') :
    t' ≠ t := by
  rintro rfl
  obtain ⟨k, c, hget, -, -, heq⟩ := h
  have hput : t'.get k = some (quarantineLocked c) := by
    rw [heq]
    exact Table.get_put_self ..
  have hversion : (quarantineLocked c).version = c.version + 1 := by
    unfold quarantineLocked
    split <;> rfl
  have hsame : c = quarantineLocked c := Option.some.inj (hget.symm.trans hput)
  rw [← hsame] at hversion
  omega

theorem Tradable.filter {dir : Directory} {k : CommerceId}
    (h : Tradable dir t taker k d) (hrows : Rows Kept t) : marketFilter taker d.r = true := by
  obtain ⟨hs, hcancel, hfilled⟩ := notOpen_iff.1 h.opened
  have hkept := hrows.get h.get
  have hside : d.r.side ≠ 0 := by
    rw [h.side]
    split <;> decide
  have hstatus := (hkept.order h.kind hside).opened hs
  rw [hcancel, if_neg (by decide), if_neg (by omega)] at hstatus
  exact marketFilter_iff.2 ⟨h.kind, h.side, h.market, h.item, h.currency, hstatus, hfilled,
    h.player, h.price⟩

section

variable {dir : Directory} {now : Nat} {matchId : CommerceId} {taker : Draft} {k : CommerceId}
  {front : Draft}

/-- `matchMarket` for an order whose selection is not empty. -/
theorem matchMarket_eq (hget : t.get id = some taker.row)
    (hkind : taker.r.kind = .marketMatch) (hside : taker.r.side ≠ 0)
    (hfilled : taker.r.filledQuantity ≠ taker.r.quantity)
    (hfront : marketCounterparty t taker.r = some k) (hk : t.get k = some front.row) :
    matchMarket dir now matchId id t = (do
      lockRoles dir none 0 [taker.r.sellerPlayerId, front.r.sellerPlayerId]
      if ← counterpartyDefect dir front.row then return t.put k (quarantineLocked front.row)
      else if id > k then matchLocked dir now matchId ⟨k, front⟩ ⟨id, taker⟩ t
      else matchLocked dir now matchId ⟨id, taker⟩ ⟨k, front⟩ t) := by
  unfold matchMarket
  rw [hget]
  dsimp only [Draft.row]
  rw [if_neg (by simp [hkind, hside, hfilled]), hfront]
  dsimp only
  rw [hk]

variable {a b : Locked} {t' : Contracts}

theorem Deal.fresh (h : Deal now matchId a b t t') : t.get matchId = none := by
  obtain ⟨price, h | h⟩ := h <;> exact h.fresh

theorem Deal.opened (h : Deal now matchId a b t t') :
    notOpen a.d = false ∧ notOpen b.d = false := by
  obtain ⟨price, h | h⟩ := h
  · exact ⟨h.crossing.buyOpen, h.crossing.sellOpen⟩
  · exact ⟨h.crossing.sellOpen, h.crossing.buyOpen⟩

/-- Both orders are open and as they should be: they trade. -/
theorem matchLocked_deal (hopposed : Opposed t a b)
    (hopen : notOpen a.d = false ∧ notOpen b.d = false)
    (hhealthy : Healthy dir a.d ∧ Healthy dir b.d) (hfresh : t.get matchId = none) :
    ∃ t', matchLocked dir now matchId a b t = .ok t' ∧ Deal now matchId a b t t' := by
  have hlocked : matchLocked dir now matchId a b t =
      if a.d.r.side = 1 then trade now (makerPrice a b) matchId a b t
      else trade now (makerPrice a b) matchId b a t := by
    unfold matchLocked
    rw [hhealthy.1.1, hhealthy.2.1]
    simp only [hopen.1, hopen.2, Bool.false_eq_true, or_self, if_false, bind, Except.bind]
  rw [hlocked]
  split
  next hbuy =>
    exact (trade_traded (hopposed.crossing hbuy hopen) (makerPrice_eq a b) hopposed.players
      ⟨hhealthy.1.2, hhealthy.2.2⟩ hfresh).imp fun t' htraded => ⟨htraded.1, _, .inl htraded.2⟩
  next hsell =>
    exact (trade_traded (hopposed.symm.crossing (hopposed.side_of_ne hsell) hopen.symm)
      (makerPrice_eq a b).symm hopposed.players.symm ⟨hhealthy.2.2, hhealthy.1.2⟩ hfresh).imp
      fun t' htraded => ⟨htraded.1, _, .inr htraded.2⟩

theorem matchOrdered_deal {c : Prop} [Decidable c] (hopposed : Opposed t a b)
    (hopen : notOpen a.d = false ∧ notOpen b.d = false)
    (hhealthy : Healthy dir a.d ∧ Healthy dir b.d) (hfresh : t.get matchId = none) :
    ∃ t', (if c then matchLocked dir now matchId b a t else matchLocked dir now matchId a b t) =
      .ok t' ∧ Deal now matchId a b t t' := by
  split
  · exact (matchLocked_deal hopposed.symm hopen.symm hhealthy.symm hfresh).imp
      fun t' hdeal => ⟨hdeal.1, hdeal.2.symm⟩
  · exact matchLocked_deal hopposed hopen hhealthy hfresh

theorem counterpartyDefect_of_healthy {d : Draft} (h : Healthy dir d) :
    counterpartyDefect dir d.row = .ok false := by
  unfold counterpartyDefect Draft.row
  dsimp only
  rw [h.1]

structure Front (t : Contracts) (taker : Draft) (k : CommerceId) (front : Draft) : Prop where
  get : t.get k = some front.row
  filter : marketFilter taker.r front.r = true
  cancel : front.w.cancelRequested = false
  stage : front.w.stage = .escrow ∨ front.w.stage = .marketOpen

theorem Front.of_counterparty (hrows : Rows Kept t)
    (h : marketCounterparty t taker.r = some k) : ∃ front, Front t taker k front := by
  obtain ⟨c, hget, hfilter⟩ := marketCounterparty_some h
  obtain ⟨front, rfl, hkept⟩ := hrows k c hget
  obtain ⟨hkind, hside, -, -, -, hstatus, -⟩ := marketFilter_iff.1 hfilter
  have hside' : front.r.side ≠ 0 := by
    change front.r.side = _ at hside
    rw [hside]
    split <;> decide
  obtain ⟨hcancel, hstage⟩ := hkept.of_escrowing hkind hside' hstatus
  exact ⟨front, hget, hfilter, hcancel, hstage⟩

section

variable (h : Front t taker k front)

include h

theorem Front.notOpen (hstage : front.w.stage ≠ .escrow) : notOpen front = false :=
  notOpen_iff.2 ⟨h.stage.resolve_left hstage, h.cancel,
    (marketFilter_iff.1 h.filter).2.2.2.2.2.2.1⟩

theorem Front.tradable (hopen : Commerce.notOpen front = false) (hhealthy : Healthy dir front) :
    Tradable dir t taker.r k front := by
  obtain ⟨hkind, hside, hmarket, hitem, hcurrency, -, -, hplayer, hprice⟩ :=
    marketFilter_iff.1 h.filter
  exact ⟨h.get, hkind, hside, hmarket, hitem, hcurrency, hplayer, hprice, hopen, hhealthy⟩

theorem Front.order (hrows : Rows Kept t) : MarketOrder front := by
  have hkept := hrows.get h.get
  obtain ⟨hkind, hside, -⟩ := marketFilter_iff.1 h.filter
  refine hkept.life.marketOrder hkind ?_
  rw [hside]
  split <;> decide

end

theorem matchQuantity_pos {buy sell : Draft} (hbuy : OrderTerms buy) (hsell : OrderTerms sell)
    (hopen : Commerce.notOpen buy = false) (hopen' : Commerce.notOpen sell = false) :
    0 < matchQuantity buy sell ∧ 0 < matchQuantity sell buy := by
  have h₁ := (notOpen_iff.1 hopen).2.2
  have h₂ := (notOpen_iff.1 hopen').2.2
  have hq₁ := hbuy.quantity
  have hq₂ := hsell.quantity
  unfold matchQuantity sub32
  omega

end

/-- **A call of `matchMarket` for an open order that crosses an open one has an effect exactly when
the best row that the status filter selects can be dealt with.** The filter also selects orders
whose debit is still under way; while such a row is the best one, the call does nothing. -/
theorem match_effect_iff (cfg : Config) (es : List Event) (dir : Directory) (now : Nat)
    (matchId id : CommerceId) (taker : Draft)
    (hget : (Machine.run (step cfg) World.empty es).contracts.get id = some taker.row)
    (hkind : taker.r.kind = .marketMatch) (hside : taker.r.side ≠ 0)
    (hopen : taker.w.stage = .marketOpen ∧ taker.w.cancelRequested = false)
    (hcross : ∃ k d, Tradable dir (Machine.run (step cfg) World.empty es).contracts taker.r k d) :
    (∃ t', matchMarket dir now matchId id (Machine.run (step cfg) World.empty es).contracts =
        .ok t' ∧
      (FillsBest dir now matchId id taker (Machine.run (step cfg) World.empty es).contracts t' ∨
        RemovesDefective dir (Machine.run (step cfg) World.empty es).contracts t')) ↔
      FrontTradable dir matchId taker (Machine.run (step cfg) World.empty es).contracts := by
  have hrows : Rows Kept (Machine.run (step cfg) World.empty es).contracts := run_kept es
  generalize (Machine.run (step cfg) World.empty es).contracts = t at *
  have hkept := hrows.get hget
  have horder := hkept.life.marketOrder hkind hside
  have hle := (hkept.order hkind hside).filled
  -- There is a crossing order, so the selection has a best row.
  obtain ⟨k, hk⟩ : ∃ k, marketCounterparty t taker.r = some k := by
    obtain ⟨k', d', hd'⟩ := hcross
    have hmem : (k', d'.row) ∈ t.rows.filter fun x => marketFilter taker.r x.2.toRecord :=
      mem_filter.2 ⟨Table.mem_rows.2 hd'.get, hd'.filter hrows⟩
    obtain ⟨x, hx⟩ : ∃ x, firstBy (precedes taker.r)
        (t.rows.filter fun x => marketFilter taker.r x.2.toRecord) = some x := firstBy_isSome hmem
    exact ⟨x.1, by rw [marketCounterparty, hx]; rfl⟩
  obtain ⟨front, hfront⟩ := Front.of_counterparty hrows hk
  have hfilter := marketFilter_iff.1 hfront.filter
  have hopposed := opposed_of_filter hget hfront.get hkind hside hfront.filter
  have hfirst : ∀ k' d', Tradable dir t taker.r k' d' → k' ≠ k →
      precedes taker.r (k, front.row) (k', d'.row) = true := fun k' d' hd' hne =>
    marketCounterparty_first hk hfront.get hd'.get (hd'.filter hrows) hne
  constructor
  · rintro ⟨t', h, heffect⟩
    have hne : t' ≠ t := by
      rcases heffect with ⟨k', d', -, -, price, qty, -, htraded | htraded⟩ | hremoved
      · exact htraded.ne
      · exact htraded.ne
      · exact hremoved.ne
    have hfilled : taker.r.filledQuantity ≠ taker.r.quantity := by
      intro hfull
      unfold matchMarket at h
      rw [hget] at h
      dsimp only [Draft.row] at h
      rw [if_pos (.inr (.inr hfull))] at h
      cases h
      exact hne rfl
    rw [matchMarket_eq hget hkind hside hfilled hk hfront.get] at h
    obtain ⟨⟨⟩, hlock, h⟩ := bind_eq_ok h
    obtain ⟨defect, hdefect, h⟩ := bind_eq_ok h
    refine ⟨by omega, k, front, hk, hfront.get, hlock, ?_⟩
    cases defect with
    | true => exact .inl hdefect
    | false =>
      rw [if_neg (by decide)] at h
      rcases matchOrdered_effect hopposed h with heq | ⟨ht, hf, hdeal⟩
      · exact absurd heq hne
      · exact .inr ⟨by rw [(notOpen_iff.1 hdeal.opened.2).1]; decide, hf, ht, hdeal.fresh⟩
  · rintro ⟨hfilled, k', front', hk', hget', hlock, hrest⟩
    cases hk.symm.trans hk'
    cases draft_eq_of_get hfront.get hget'
    rw [matchMarket_eq hget hkind hside (by omega) hk hfront.get, hlock]
    rcases hrest with hdefect | ⟨hstage, hf, ht, hfresh⟩
    · rw [hdefect]
      exact ⟨_, rfl, .inr ⟨k, front.row, hfront.get, hfilter.2.2.2.2.2.1, hdefect, rfl⟩⟩
    have hopenf := hfront.notOpen hstage
    have hopent : notOpen taker = false := notOpen_iff.2 ⟨hopen.1, hopen.2, hfilled⟩
    have hbest := hfront.tradable hopenf hf
    have hqty := matchQuantity_pos horder.terms (hfront.order hrows).terms hopent hopenf
    rw [counterpartyDefect_of_healthy hf]
    obtain ⟨t', h, price, htraded⟩ : ∃ t', _ = Except.ok t' ∧
        Deal now matchId ⟨id, taker⟩ ⟨k, front⟩ t t' :=
      matchOrdered_deal (c := id > k) hopposed ⟨hopent, hopenf⟩ ⟨ht, hf⟩ hfresh
    refine ⟨t', h, .inl ⟨k, front, hbest, hfirst, price, ?_⟩⟩
    rcases htraded with htraded | htraded
    · exact ⟨_, hqty.1, .inl htraded⟩
    · exact ⟨_, hqty.2, .inr htraded⟩

/-! ## A book with an open order on each side -/

def sampleOrder (id : CommerceId) (me : PlayerId) (side price : Nat) : Event :=
  .create id sampleDirectory none 0 me (.market ⟨1, 1, side, price, 1, 1⟩)

def sampleOpen (id : CommerceId) (me : PlayerId) : List Event :=
  [.advance id sampleDirectory (me, 0, 0) sampleApplied 1 (fun _ => 1),
    .advance id sampleDirectory (me, 0, 0) sampleApplied 1 (fun _ => 1)]

def sampleBook : List Event :=
  [sampleOrder 1 1 2 5] ++ sampleOpen 1 1 ++ [sampleOrder 2 2 1 5] ++ sampleOpen 2 2

def sampleDraft (es : List Event) (id : CommerceId) : Draft :=
  match (run (step sampleConfig) World.empty es).contracts.get id with
  | some ⟨r, some w⟩ => ⟨r, w⟩
  | _ => ⟨{ kind := .marketMatch, status := .manual }, { stage := .manual }⟩

theorem match_effect_sampleBook :
    ∃ t', matchMarket sampleDirectory 2 9 2
        (Machine.run (step sampleConfig) World.empty sampleBook).contracts = .ok t' ∧
      (FillsBest sampleDirectory 2 9 2 (sampleDraft sampleBook 2)
          (Machine.run (step sampleConfig) World.empty sampleBook).contracts t' ∨
        RemovesDefective sampleDirectory
          (Machine.run (step sampleConfig) World.empty sampleBook).contracts t') := by
  have hmaker : Tradable sampleDirectory
      (Machine.run (step sampleConfig) World.empty sampleBook).contracts
      (sampleDraft sampleBook 2).r 1 (sampleDraft sampleBook 1) :=
    ⟨rfl, rfl, rfl, rfl, rfl, rfl, by decide +kernel, by decide +kernel, rfl, rfl,
      by decide +kernel⟩
  refine (match_effect_iff sampleConfig sampleBook sampleDirectory 2 9 2 (sampleDraft sampleBook 2)
    rfl rfl (by decide +kernel) ⟨rfl, rfl⟩ ⟨1, sampleDraft sampleBook 1, hmaker⟩).2 ?_
  exact ⟨by decide +kernel, 1, sampleDraft sampleBook 1, rfl, rfl, rfl,
    .inr ⟨by decide +kernel, hmaker.healthy, ⟨rfl, by decide +kernel⟩, rfl⟩⟩

/-- Player 3 sells at four and its debit is still under way: nobody can trade at five. -/
theorem match_without_effect : ¬ ∀ (cfg : Config) (es : List Event) (dir : Directory) (now : Nat)
    (matchId id : CommerceId) (taker : Draft),
    (Machine.run (step cfg) World.empty es).contracts.get id = some taker.row →
    taker.r.kind = .marketMatch → taker.r.side ≠ 0 →
    taker.w.stage = .marketOpen ∧ taker.w.cancelRequested = false →
    taker.r.filledQuantity < taker.r.quantity →
    (∃ k d, Tradable dir (Machine.run (step cfg) World.empty es).contracts taker.r k d) →
    Healthy dir taker → (Machine.run (step cfg) World.empty es).contracts.get matchId = none →
    ∃ t', matchMarket dir now matchId id (Machine.run (step cfg) World.empty es).contracts =
        .ok t' ∧
      (FillsBest dir now matchId id taker (Machine.run (step cfg) World.empty es).contracts t' ∨
        RemovesDefective dir (Machine.run (step cfg) World.empty es).contracts t') := by
  intro h
  obtain ⟨t', hmatch, heffect⟩ := h sampleConfig (sampleBook ++ [sampleOrder 3 3 2 4])
    sampleDirectory 2 9 2 (sampleDraft (sampleBook ++ [sampleOrder 3 3 2 4]) 2) rfl rfl
    (by decide +kernel) ⟨rfl, rfl⟩ (by decide +kernel)
    ⟨1, sampleDraft (sampleBook ++ [sampleOrder 3 3 2 4]) 1, rfl, rfl, rfl, rfl, rfl, rfl,
      by decide +kernel, by decide +kernel, rfl, rfl, by decide +kernel⟩
    ⟨rfl, by decide +kernel⟩ rfl
  have hnone : t' = (Machine.run (step sampleConfig) World.empty
      (sampleBook ++ [sampleOrder 3 3 2 4])).contracts :=
    Except.ok.inj (hmatch.symm.trans rfl)
  rcases heffect with ⟨k, d, -, -, price, qty, -, htraded | htraded⟩ | hremoved
  · exact htraded.ne hnone
  · exact htraded.ne hnone
  · exact hremoved.ne hnone

end Mmorpg.Commerce
