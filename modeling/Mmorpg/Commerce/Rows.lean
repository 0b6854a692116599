import Mmorpg.Commerce.Legs
import Mmorpg.Commerce.World

/-!
# What an event does to a row

The transactions over several rows in terms of what is read afterwards (`MatchEffect`,
`AcceptEffect`), and the summary over all events (`step_row`): a row is left alone, changed by one
of the transactions (`RowStep`), or new (`Created`).
-/

namespace Mmorpg.Commerce

open List

open Blocks (bind_eq_ok)

/-! ## Matches -/

theorem firstBy_mem {α : Type} {lt : α → α → Bool} {l : List α} {x : α}
    (h : firstBy lt l = some x) : x ∈ l := by
  induction l generalizing x with
  | nil => cases h
  | cons y l ih =>
    unfold firstBy at h
    split at h
    · cases h
      exact mem_cons_self
    · split at h <;> cases h
      · exact mem_cons_of_mem y (ih ‹_›)
      · exact mem_cons_self

variable {t : Contracts} {id : CommerceId}

theorem marketCounterparty_some {taker : Record}
    (h : marketCounterparty t taker = some id) :
    ∃ c, t.get id = some c ∧ marketFilter taker c.toRecord = true := by
  unfold marketCounterparty at h
  obtain ⟨⟨k, c⟩, hfirst, rfl⟩ := Option.map_eq_some_iff.1 h
  have hmem := mem_filter.1 (firstBy_mem hfirst)
  exact ⟨c, Table.mem_rows.1 hmem.1, hmem.2⟩

def Locked.row (l : Locked) : Contract := ⟨l.d.r, some l.d.w⟩

structure Crossing (t : Contracts) (buy sell : Locked) : Prop where
  buyRow : t.get buy.id = some buy.row
  sellRow : t.get sell.id = some sell.row
  buyKind : buy.d.r.kind = .marketMatch
  sellKind : sell.d.r.kind = .marketMatch
  buySide : buy.d.r.side = 1
  sellSide : sell.d.r.side ≠ 1 ∧ sell.d.r.side ≠ 0
  item : sell.d.r.itemConfigId = buy.d.r.itemConfigId
  currency : sell.d.r.currencyType = buy.d.r.currencyType
  price : sell.d.r.unitPrice ≤ buy.d.r.unitPrice
  buyOpen : notOpen buy.d = false
  sellOpen : notOpen sell.d = false

variable {buy sell : Locked}

theorem Crossing.ne (h : Crossing t buy sell) :
    buy.id ≠ sell.id := by
  intro heq
  have hrow : some buy.row = some sell.row := by rw [← h.buyRow, ← h.sellRow, heq]
  have hr : buy.d.r = sell.d.r := congrArg Contract.toRecord (Option.some.inj hrow)
  exact h.sellSide.1 (hr ▸ h.buySide)

structure Traded (now price qty : Nat) (matchId : CommerceId) (buy sell : Locked)
    (t t' : Contracts) : Prop where
  crossing : Crossing t buy sell
  fresh : t.get matchId = none
  atPrice : price = buy.d.r.unitPrice ∨ price = sell.d.r.unitPrice
  quantity : qty = matchQuantity buy.d sell.d
  get : ∀ k, t'.get k =
    if k = buy.id then some (fill qty buy.d).save
    else if k = sell.id then some (fill qty sell.d).save
    else if k = matchId then some (newMatch now price qty buy sell).insert
    else t.get k

inductive MatchEffect (now : Nat) (matchId : CommerceId) (t t' : Contracts) : Prop where
  | none (h : t' = t)
  | removed {otherId : CommerceId} {other : Contract} (hget : t.get otherId = some other)
      (hkind : other.kind = .marketMatch) (hstatus : other.status = .escrowing)
      (h : t' = t.put otherId (quarantineLocked other))
  | traded {price qty : Nat} {buy sell : Locked} (h : Traded now price qty matchId buy sell t t')

variable {now : Nat} {matchId : CommerceId}

/-- Two orders of different players that cross do trade. -/
theorem trade_traded {price : Nat}
    (hcross : Crossing t buy sell)
    (hprice : price = buy.d.r.unitPrice ∨ price = sell.d.r.unitPrice)
    (hself : buy.d.r.sellerPlayerId ≠ sell.d.r.sellerPlayerId)
    (hidentity : buy.d.w.sellerIdentity ≠ none ∧ sell.d.w.sellerIdentity ≠ none)
    (hfresh : t.get matchId = none) :
    ∃ t', trade now price matchId buy sell t = .ok t' ∧
      Traded now price (matchQuantity buy.d sell.d) matchId buy sell t t' := by
  have hne := hcross.ne
  unfold trade
  rw [if_neg (by simp [hself, hcross.price]), if_neg (by simp [hidentity]),
    if_neg (by simp [hfresh])]
  refine ⟨_, rfl, hcross, hfresh, hprice, rfl, fun k => ?_⟩
  simp only [Table.get_put]
  by_cases hsell : k = sell.id
  · simp [hsell, hne.symm]
  · simp [hsell]

variable {t' : Contracts}

theorem trade_effect {price : Nat} (hcross : Crossing t buy sell)
    (hprice : price = buy.d.r.unitPrice ∨ price = sell.d.r.unitPrice)
    (h : trade now price matchId buy sell t = .ok t') :
    t' = t ∨ (buy.d.w.sellerIdentity ≠ none ∧ sell.d.w.sellerIdentity ≠ none ∧
      Traded now price (matchQuantity buy.d sell.d) matchId buy sell t t') := by
  have htrade := h
  unfold trade at h
  split at h
  · cases h
    exact .inl rfl
  rename_i hguard
  simp only [not_or, not_lt] at hguard
  split at h
  · cases h
  rename_i hidentity
  simp only [not_or] at hidentity
  split at h
  · cases h
  rename_i hfresh
  simp only [ne_eq, not_not] at hfresh
  obtain ⟨t'', heq, htraded⟩ : ∃ t'', trade now price matchId buy sell t = .ok t'' ∧
      Traded now price (matchQuantity buy.d sell.d) matchId buy sell t t'' :=
    trade_traded hcross hprice hguard.2 hidentity hfresh
  cases htrade.symm.trans heq
  exact .inr ⟨hidentity.1, hidentity.2, htraded⟩

def Healthy (dir : Directory) (d : Draft) : Prop :=
  checkContractIdentities dir d.r d.w = .ok () ∧ d.w.sellerIdentity ≠ none

variable {dir : Directory}

/-- Two orders on opposite sides of the book whose prices cross. -/
structure Opposed (t : Contracts) (a b : Locked) : Prop where
  rows : t.get a.id = some a.row ∧ t.get b.id = some b.row
  kinds : a.d.r.kind = .marketMatch ∧ b.d.r.kind = .marketMatch
  sides : (a.d.r.side = 1 ∧ b.d.r.side ≠ 1 ∧ b.d.r.side ≠ 0 ∧ b.d.r.unitPrice ≤ a.d.r.unitPrice) ∨
    (b.d.r.side = 1 ∧ a.d.r.side ≠ 1 ∧ a.d.r.side ≠ 0 ∧ a.d.r.unitPrice ≤ b.d.r.unitPrice)
  item : a.d.r.itemConfigId = b.d.r.itemConfigId
  currency : a.d.r.currencyType = b.d.r.currencyType
  players : a.d.r.sellerPlayerId ≠ b.d.r.sellerPlayerId

variable {a b : Locked}

theorem Opposed.symm (h : Opposed t a b) : Opposed t b a :=
  ⟨h.rows.symm, h.kinds.symm, h.sides.symm, h.item.symm, h.currency.symm, h.players.symm⟩

theorem Opposed.crossing (h : Opposed t a b) (hbuy : a.d.r.side = 1)
    (hopen : notOpen a.d = false ∧ notOpen b.d = false) : Crossing t a b := by
  obtain ⟨-, hsell, hzero, hle⟩ := h.sides.resolve_right fun hs => hs.2.1 hbuy
  exact ⟨h.rows.1, h.rows.2, h.kinds.1, h.kinds.2, hbuy, ⟨hsell, hzero⟩, h.item.symm,
    h.currency.symm, hle, hopen.1, hopen.2⟩

theorem Opposed.side_of_ne (h : Opposed t a b) (hne : a.d.r.side ≠ 1) : b.d.r.side = 1 :=
  (h.sides.resolve_left fun hs => hne hs.1).1

def Deal (now : Nat) (matchId : CommerceId) (a b : Locked) (t t' : Contracts) : Prop :=
  ∃ price, Traded now price (matchQuantity a.d b.d) matchId a b t t' ∨
    Traded now price (matchQuantity b.d a.d) matchId b a t t'

theorem Deal.symm (h : Deal now matchId a b t t') : Deal now matchId b a t t' :=
  h.imp fun _ => Or.symm

theorem makerPrice_eq (a b : Locked) :
    makerPrice a b = a.d.r.unitPrice ∨ makerPrice a b = b.d.r.unitPrice := by
  unfold makerPrice
  split
  · exact .inr rfl
  · exact .inl rfl

/-- The two orders as the buying and the selling one. -/
theorem matchLocked_effect (hopposed : Opposed t a b)
    (h : matchLocked dir now matchId a b t = .ok t') :
    t' = t ∨ (Healthy dir a.d ∧ Healthy dir b.d ∧ Deal now matchId a b t t') := by
  unfold matchLocked at h
  obtain ⟨⟨⟩, hida, h⟩ := bind_eq_ok h
  obtain ⟨⟨⟩, hidb, h⟩ := bind_eq_ok h
  split at h
  · cases h
    exact .inl rfl
  rename_i hopen
  simp only [not_or, Bool.not_eq_true] at hopen
  split at h
  next hbuy =>
    refine (trade_effect (hopposed.crossing hbuy hopen) (makerPrice_eq a b) h).imp_right ?_
    exact fun ⟨hbuyer, hseller, htraded⟩ => ⟨⟨hida, hbuyer⟩, ⟨hidb, hseller⟩, _, .inl htraded⟩
  next hsell =>
    refine (trade_effect (hopposed.symm.crossing (hopposed.side_of_ne hsell) hopen.symm)
      (makerPrice_eq a b).symm h).imp_right ?_
    exact fun ⟨hbuyer, hseller, htraded⟩ => ⟨⟨hida, hseller⟩, ⟨hidb, hbuyer⟩, _, .inr htraded⟩

/-- The orders are locked in the order of their keys, which does not matter. -/
theorem matchOrdered_effect {c : Prop} [Decidable c] (hopposed : Opposed t a b)
    (h : (if c then matchLocked dir now matchId b a t else matchLocked dir now matchId a b t) =
      .ok t') :
    t' = t ∨ (Healthy dir a.d ∧ Healthy dir b.d ∧ Deal now matchId a b t t') := by
  split at h
  · refine (matchLocked_effect hopposed.symm h).imp_right ?_
    exact fun ⟨hb, ha, hdeal⟩ => ⟨ha, hb, hdeal.symm⟩
  · exact matchLocked_effect hopposed h

theorem marketFilter_iff {taker c : Record} : marketFilter taker c = true ↔
    c.kind = .marketMatch ∧ c.side = (if taker.side = 1 then 2 else 1) ∧
      c.marketId = taker.marketId ∧ c.itemConfigId = taker.itemConfigId ∧
      c.currencyType = taker.currencyType ∧ c.status = .escrowing ∧
      c.filledQuantity < c.quantity ∧ c.sellerPlayerId ≠ taker.sellerPlayerId ∧
      (if taker.side = 1 then c.unitPrice ≤ taker.unitPrice
        else c.unitPrice ≥ taker.unitPrice) := by
  unfold marketFilter
  split <;> simp [and_assoc]

theorem opposed_of_filter {taker other : Draft} {otherId : CommerceId}
    (htaker : t.get id = some ⟨taker.r, some taker.w⟩)
    (hother : t.get otherId = some ⟨other.r, some other.w⟩)
    (hkind : taker.r.kind = .marketMatch) (hside : taker.r.side ≠ 0)
    (hfilter : marketFilter taker.r other.r = true) : Opposed t ⟨id, taker⟩ ⟨otherId, other⟩ := by
  obtain ⟨hokind, hoside, -, hitem, hcurrency, -, -, hplayer, hprice⟩ := marketFilter_iff.1 hfilter
  refine ⟨⟨htaker, hother⟩, ⟨hkind, hokind⟩, ?_, hitem.symm, hcurrency.symm, hplayer.symm⟩
  dsimp only
  split at hoside <;> simp_all

theorem matchMarket_effect (h : matchMarket dir now matchId id t = .ok t') :
    MatchEffect now matchId t t' := by
  unfold matchMarket at h
  split at h
  · cases h
  rename_i taker htaker
  split at h
  · cases h
    exact .none rfl
  rename_i hguard
  simp only [not_or, not_not] at hguard
  obtain ⟨hkind, hside, -⟩ := hguard
  split at h
  · cases h
    exact .none rfl
  rename_i otherId hother
  obtain ⟨other, hget, hfilter⟩ := marketCounterparty_some hother
  rw [hget] at h
  obtain ⟨hokind, -, -, -, -, hstatus, -⟩ := marketFilter_iff.1 hfilter
  obtain ⟨-, -, h⟩ := bind_eq_ok h
  obtain ⟨defect, -, h⟩ := bind_eq_ok h
  split at h
  · cases h
    exact .removed hget hokind hstatus rfl
  split at h
  next w v hw hv =>
    have hopposed : Opposed t ⟨id, taker.toRecord, w⟩ ⟨otherId, other.toRecord, v⟩ :=
      opposed_of_filter (by rw [htaker, ← hw]) (by rw [hget, ← hv]) hkind hside hfilter
    rcases matchOrdered_effect hopposed h with heq | ⟨-, -, price, htraded | htraded⟩
    · exact .none heq
    · exact .traded htraded
    · exact .traded htraded
  · cases h

/-! ## Bids -/

/-- The table after a bid was taken; `t₁` is the table after the outbid one went into refund. -/
structure Taken (now : Nat) (id : CommerceId) (bid lot : Draft) (t t₁ t' : Contracts) : Prop where
  bidRow : t.get id = some ⟨bid.r, some bid.w⟩
  ready : bid.w.stage = .bidReady
  lotRow : t.get bid.r.parentId = some ⟨lot.r, some lot.w⟩
  eligible : eligible now lot bid.r = true
  outbid : refundOld t lot.w.winningBidId = .ok t₁
  result : t' = (t₁.put bid.r.parentId (takeBid id bid lot).save).put id (bid.enter .bidHeld).save

inductive AcceptEffect (now : Nat) (id : CommerceId) (t t' : Contracts) : Prop where
  | none (h : t' = t)
  | refused {bid : Draft} (hbid : t.get id = some ⟨bid.r, some bid.w⟩)
      (hstage : bid.w.stage = .bidReady) (h : t' = t.put id bid.refundBid.save)
  | taken {bid lot : Draft} {t₁ : Contracts} (h : Taken now id bid lot t t₁ t')

theorem acceptingLot_some {parent : Option Contract} {lot : Draft}
    (h : acceptingLot dir parent = .ok (some lot)) : parent = some ⟨lot.r, some lot.w⟩ := by
  unfold acceptingLot at h
  split at h
  · cases h
  rename_i c
  split at h
  · cases h
  rename_i w hw
  split at h <;> cases h
  rw [← hw]

theorem acceptBid_effect
    (h : acceptBid dir now id t = .ok t') : AcceptEffect now id t t' := by
  unfold acceptBid at h
  split at h
  · cases h
  rename_i c hget
  obtain ⟨-, -, h⟩ := bind_eq_ok h
  split at h
  · cases h
  rename_i w hw
  have hbid : t.get id = some ⟨(Draft.mk c.toRecord w).r, some (Draft.mk c.toRecord w).w⟩ := by
    rw [hget, ← hw]
  split at h
  · cases h
    exact .none rfl
  rename_i hstage
  simp only [ne_eq, not_not] at hstage
  obtain ⟨-, -, h⟩ := bind_eq_ok h
  obtain ⟨lot?, hlot, h⟩ := bind_eq_ok h
  split at h
  · cases h
    exact .refused hbid hstage rfl
  rename_i lot
  split at h
  · cases h
    exact .refused hbid hstage rfl
  rename_i heligible
  simp only [not_not] at heligible
  obtain ⟨t₁, hold, h⟩ := bind_eq_ok h
  split at h
  · cases h
  · cases h
    exact .taken
      ⟨hbid, hstage, acceptingLot_some hlot, heligible, hold, rfl⟩

theorem refundOld_ok {t₁ : Contracts} {win : CommerceId} (h : refundOld t win = .ok t₁) :
    (win = 0 ∧ t₁ = t) ∨ ∃ old : Draft, win ≠ 0 ∧ t.get win = some ⟨old.r, some old.w⟩ ∧
      old.w.stage = .bidHeld ∧ t₁ = t.put win old.refundBid.save := by
  unfold refundOld at h
  split at h
  · cases h
    exact .inl ⟨‹_›, rfl⟩
  split at h
  · cases h
  rename_i old hget
  split at h
  · cases h
  rename_i ow how
  split at h
  · cases h
  · cases h
    exact .inr ⟨⟨old.toRecord, ow⟩, ‹_›, by rw [hget, ← how], by simpa using ‹¬ ow.stage ≠ _›, rfl⟩

theorem settleHeldBid_ok (h : settleHeldBid id t = .ok t') :
    t' = t ∨ ∃ (bid : Draft) (parent : Contract), t.get id = some ⟨bid.r, some bid.w⟩ ∧
      bid.w.stage = .bidHeld ∧ t.get bid.r.parentId = some parent ∧ parent.status = .settled ∧
      t' = t.put id (bid.move .done .settled).save := by
  unfold settleHeldBid at h
  split at h
  · cases h
  rename_i c hget
  split at h
  · cases h
  rename_i parent hparent
  split at h
  · cases h
    exact .inl rfl
  rename_i hstatus
  simp only [ne_eq, not_not] at hstatus
  split at h
  · cases h
  rename_i w hw
  split at h
  · cases h
    exact .inl rfl
  · cases h
    exact .inr ⟨⟨c.toRecord, w⟩, parent, by rw [hget, ← hw], by simpa using ‹¬ w.stage ≠ _›,
      hparent, hstatus, rfl⟩

/-! ## All events -/

def Event.isMatch : Event → Bool
  | .matchMarket .. => true
  | _ => false

def Event.isAccept : Event → Bool
  | .acceptBid .. => true
  | _ => false

/-- A transaction of the event on the row with the key `id`. -/
inductive RowStep (cfg : Config) (t : Contracts) (e : Event) (id : CommerceId) (c c' : Contract) :
    Prop where
  | mutated {dir : Directory} {actor : Option Actor} {me : PlayerId} {seen : PlayerId × PlayerId}
      {now : Nat} {action : Action} (h : mutate dir actor me seen now action c = .ok c')
  | advanced {dir : Directory} {seen : PlayerId × PlayerId × PlayerId}
      {results : OpId → Option LegOutcome} {now : Nat} {opIds : Role → OpId}
      (he : e = .advance id dir seen results now opIds) (hchar : c.isCharacter = false)
      (h : advance cfg.policy dir seen
        ⟨results, now, opIds, unfinishedMatches t id, badMatches t id⟩ c = .ok c')
  | quarantined (he : e = .quarantine id ∨ c.kind = .marketMatch) (hdue : c.status.isDue = true)
      (h : c' = quarantineLocked c)
  | rmbCancelled {dir : Directory} {account : String} (he : e = .rmbCancel id dir account)
      (h : rmbCancel dir id account c = .ok c')
  | rmbStepped {i : RmbInput} (hkind : c.kind = .rmbConsignment)
      (h : rmbStep cfg.policy i id c = .ok c')
  | delivered {i : DeliverInput} {o : RmbDelivery} {receipt : Option ReceiptState}
      (h : deliver i o c = .ok (c', receipt))
  | returned {dir : Directory} {o : RmbReturn} (he : e = .returned id dir o)
      (h : returned dir id o c = .ok c')
  | filled {d : Draft} {qty : Nat} (he : e.isMatch = true) (hc : c = ⟨d.r, some d.w⟩)
      (hkind : d.r.kind = .marketMatch) (hside : d.r.side ≠ 0) (hopen : notOpen d = false)
      (hqty : qty ≤ sub32 d.r.quantity d.r.filledQuantity) (h : c' = (fill qty d).save)
  | bidRefunded {d : Draft} (he : e.isAccept = true) (hc : c = ⟨d.r, some d.w⟩)
      (hstage : d.w.stage = .bidReady ∨ d.w.stage = .bidHeld) (h : c' = d.refundBid.save)
  | bidTaken {d : Draft} (he : e.isAccept = true) (hc : c = ⟨d.r, some d.w⟩)
      (hstage : d.w.stage = .bidReady)
      (h : c' = (d.enter .bidHeld).save)
  | lotTook {d bid : Draft} {now : Nat} {bidId : CommerceId} (he : e.isAccept = true)
      (hc : c = ⟨d.r, some d.w⟩)
      (heligible : eligible now d bid.r = true) (h : c' = (takeBid bidId bid d).save)
  | bidSettled {d : Draft} {parent : Contract} (hc : c = ⟨d.r, some d.w⟩)
      (hstage : d.w.stage = .bidHeld) (h : c' = (d.move .done .settled).save)
      (hparent : t.get d.r.parentId = some parent) (hsettled : parent.status = .settled)

inductive Created (cfg : Config) (t : Contracts) (e : Event) (id : CommerceId) (c : Contract) :
    Prop where
  | requested {dir : Directory} {actor : Option Actor} {now : Nat} {me : PlayerId}
      {request : Request} {d : Draft} (he : e = .create id dir actor now me request)
      (hdraft : draftOf cfg t now me request = .ok d)
      (h : create dir actor d = .ok c)
  | accepted {dir : Directory} {now : Nat} {i : MallIntent} (h : accept dir now i = .ok c)
  | matched {now price : Nat} {buy sell : Locked} (he : e.isMatch = true)
      (hcross : Crossing t buy sell)
      (hprice : price = buy.d.r.unitPrice ∨ price = sell.d.r.unitPrice)
      (h : c = (newMatch now price (matchQuantity buy.d sell.d) buy sell).insert)

inductive RowChange (cfg : Config) (t : Contracts) (e : Event) (t' : Contracts) (id : CommerceId) :
    Prop where
  | same (h : t'.get id = t.get id)
  | stepped {c c' : Contract} (hget : t.get id = some c) (hget' : t'.get id = some c')
      (h : RowStep cfg t e id c c')
  | created {c : Contract} (hget : t.get id = none) (hget' : t'.get id = some c)
      (h : Created cfg t e id c)

variable {cfg : Config} {t t' : Contracts} {s : World} {e : Event} {id : CommerceId}
  {k : CommerceId}

theorem RowChange.put {c c' : Contract} (hget : t.get k = some c)
    (h : RowStep cfg t e k c c') (id : CommerceId) : RowChange cfg t e (t.put k c') id := by
  by_cases hk : id = k
  · subst hk
    exact .stepped hget (Table.get_put_self ..) h
  · exact .same (Table.get_put_of_ne hk)

theorem insert_change {r : Except Err Contract}
    (h : ∀ c, r = .ok c → Created cfg s.contracts e k c) (id : CommerceId) :
    RowChange cfg s.contracts e (s.insert k r).contracts id := by
  unfold World.insert
  split
  · exact .same rfl
  split
  next c hfree =>
    by_cases hk : id = k
    · subst hk
      exact .created hfree (Table.get_put_self ..) (h c rfl)
    · exact .same (Table.get_put_of_ne hk)
  · exact .same rfl

theorem update_change {f : Contract → Except Err Contract}
    (h : ∀ c c', f c = .ok c' → RowStep cfg s.contracts e k c c') (id : CommerceId) :
    RowChange cfg s.contracts e (s.update k f).contracts id := by
  unfold World.update
  split
  · exact .same rfl
  rename_i c hget
  split
  · exact .same rfl
  · exact .put hget (h c _ ‹_›) id

theorem transact_change {f : Contracts → Except Err Contracts}
    (h : ∀ t', f s.contracts = .ok t' → RowChange cfg s.contracts e t' id) :
    RowChange cfg s.contracts e (s.transact f).contracts id := by
  unfold World.transact
  split
  · exact .same rfl
  · exact h _ ‹_›

theorem MatchEffect.rowChange (he : e.isMatch = true)
    (h : MatchEffect now matchId t t') (id : CommerceId) : RowChange cfg t e t' id := by
  cases h with
  | none h => exact .same (by rw [h])
  | removed hget hkind hstatus h =>
    subst h
    exact .put hget (.quarantined (.inr hkind) (by rw [hstatus]; rfl) rfl) id
  | @traded price qty buy sell h =>
    have hcr := h.crossing
    obtain rfl := h.quantity
    have hle : matchQuantity buy.d sell.d ≤ sub32 buy.d.r.quantity buy.d.r.filledQuantity ∧
        matchQuantity buy.d sell.d ≤ sub32 sell.d.r.quantity sell.d.r.filledQuantity :=
      ⟨min_le_left .., min_le_right ..⟩
    by_cases hbuy : id = buy.id
    · exact .stepped (by rw [hbuy, hcr.buyRow]; rfl) (by rw [h.get, if_pos hbuy])
        (.filled he rfl hcr.buyKind (by rw [hcr.buySide]; decide) hcr.buyOpen hle.1 rfl)
    by_cases hsell : id = sell.id
    · exact .stepped (by rw [hsell, hcr.sellRow]; rfl)
        (by rw [h.get, if_neg hbuy, if_pos hsell])
        (.filled he rfl hcr.sellKind hcr.sellSide.2 hcr.sellOpen hle.2 rfl)
    by_cases hmatch : id = matchId
    · exact .created (hmatch ▸ h.fresh) (by rw [h.get, if_neg hbuy, if_neg hsell, if_pos hmatch])
        (.matched he hcr h.atPrice rfl)
    · exact .same (by rw [h.get, if_neg hbuy, if_neg hsell, if_neg hmatch])

/-- The lot, the bid and the outbid one are three rows, told apart by their stages. -/
theorem Taken.get {bidId : CommerceId} {bid lot : Draft} {t₁ : Contracts}
    (h : Taken now bidId bid lot t t₁ t') (k : CommerceId) :
    (k = bidId ∧ t'.get k = some (bid.enter .bidHeld).save) ∨
      (k = bid.r.parentId ∧ k ≠ bidId ∧ t'.get k = some (takeBid bidId bid lot).save) ∨
      (k ≠ bidId ∧ k ≠ bid.r.parentId ∧ k = lot.w.winningBidId ∧ k ≠ 0 ∧ ∃ old : Draft,
        t.get k = some ⟨old.r, some old.w⟩ ∧ old.w.stage = .bidHeld ∧
          t'.get k = some old.refundBid.save) ∨
      (k ≠ bidId ∧ k ≠ bid.r.parentId ∧ (k = lot.w.winningBidId → k = 0) ∧ t'.get k = t.get k) := by
  rw [h.result]
  by_cases hbid : k = bidId
  · exact .inl ⟨hbid, by rw [hbid, Table.get_put_self]⟩
  rw [Table.get_put_of_ne hbid]
  by_cases hlot : k = bid.r.parentId
  · exact .inr (.inl ⟨hlot, hbid, by rw [hlot, Table.get_put_self]⟩)
  rw [Table.get_put_of_ne hlot]
  rcases refundOld_ok h.outbid with ⟨hzero, ht⟩ | ⟨old, hne, hold, hheld, ht⟩
  · exact .inr (.inr (.inr ⟨hbid, hlot, fun hk => hk.trans hzero, by rw [ht]⟩))
  by_cases hwin : k = lot.w.winningBidId
  · refine .inr (.inr (.inl ⟨hbid, hlot, hwin, hwin ▸ hne, old, hwin ▸ hold, hheld, ?_⟩))
    rw [ht, hwin, Table.get_put_self]
  · refine .inr (.inr (.inr ⟨hbid, hlot, fun hk => absurd hk hwin, ?_⟩))
    rw [ht, Table.get_put_of_ne hwin]

theorem AcceptEffect.rowChange {bidId : CommerceId} (he : e.isAccept = true)
    (h : AcceptEffect now bidId t t') (id : CommerceId) : RowChange cfg t e t' id := by
  cases h with
  | none h => exact .same (by rw [h])
  | refused hbid hstage h =>
    subst h
    exact .put hbid (.bidRefunded he rfl (.inl hstage) rfl) id
  | taken h =>
    rcases h.get id with ⟨hid, hget⟩ | ⟨hid, -, hget⟩ | ⟨-, -, -, -, old, hold, hheld, hget⟩ |
      ⟨-, -, -, hget⟩
    · exact .stepped (hid ▸ h.bidRow) hget (.bidTaken he rfl h.ready rfl)
    · exact .stepped (hid ▸ h.lotRow) hget (.lotTook he rfl h.eligible rfl)
    · exact .stepped hold hget (.bidRefunded he rfl (.inr hheld) rfl)
    · exact .same hget

theorem step_row (e : Event) (id : CommerceId) :
    RowChange cfg s.contracts e (step cfg s e).contracts id := by
  cases e with
  | create k dir actor now me request =>
    refine insert_change (fun c hc => ?_) id
    obtain ⟨d, hd, hc⟩ := bind_eq_ok hc
    exact .requested rfl hd hc
  | accept k dir now i => exact insert_change (fun c hc => .accepted hc) id
  | mutate k dir actor me seen now action => exact update_change (fun c c' h => .mutated h) id
  | advance k dir seen results now opIds =>
    refine update_change (fun c c' h => ?_) id
    split at h
    · cases h
    · exact .advanced rfl (eq_false_of_ne_true ‹_›) h
  | matchMarket k dir now matchId =>
    exact transact_change fun t' h => (matchMarket_effect h).rowChange rfl id
  | acceptBid k dir now => exact transact_change fun t' h => (acceptBid_effect h).rowChange rfl id
  | settleHeldBid k =>
    refine transact_change fun t' h => ?_
    rcases settleHeldBid_ok h with rfl | ⟨bid, parent, hget, hstage, hparent, hsettled, rfl⟩
    · exact .same rfl
    · exact .put hget (.bidSettled rfl hstage rfl hparent hsettled) id
  | quarantine k =>
    refine update_change (fun c c' h => ?_) id
    unfold Commerce.quarantine at h
    split at h <;> cases h
    exact .quarantined (.inl rfl) ‹_› rfl
  | rmbCancel k dir account => exact update_change (fun c c' h => .rmbCancelled rfl h) id
  | rmbStep k i =>
    refine update_change (fun c c' h => ?_) id
    split at h
    · exact .rmbStepped ‹_› h
    · cases h
  | deliver i o mallOk =>
    unfold step World.deliver
    dsimp only
    split
    · exact .same rfl
    rename_i c hget
    split
    · exact .same rfl
    · exact .put hget (.delivered ‹_›) id
  | returned k dir o => exact update_change (fun c c' h => .returned rfl h) id

end Mmorpg.Commerce
