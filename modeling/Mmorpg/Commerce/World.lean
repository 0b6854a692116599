import Mmorpg.Commerce.Engine
import Mmorpg.Lib.Run

/-!
# The table of contracts

The transactions that touch several rows: a match of two orders (market.go), the acceptance of a
bid (auction.go) and the settlement of a held bid (tick_isolation.go). With the transactions on one
row they are the events of a machine over the table.

**What an event does to a row** (`step_get`): a row that is there stays there and is changed by one
of the transactions (`RowStep`), and a row that was not there is new (`Created`).
-/

namespace Mmorpg.Commerce

/-! ## Matching orders -/

/-- The `WHERE` of `marketCounterparty`. -/
def marketFilter (taker c : Record) : Bool :=
  c.kind = .marketMatch && c.side = (if taker.side = 1 then 2 else 1) &&
    c.marketId = taker.marketId && c.itemConfigId = taker.itemConfigId &&
    c.currencyType = taker.currencyType && c.status = .escrowing &&
    c.filledQuantity < c.quantity && c.sellerPlayerId ≠ taker.sellerPlayerId &&
    if taker.side = 1 then c.unitPrice ≤ taker.unitPrice else c.unitPrice ≥ taker.unitPrice

/-- The `ORDER BY` of `marketCounterparty`. -/
def precedes (taker : Record) (x y : CommerceId × Contract) : Bool :=
  let better := if taker.side = 1 then x.2.unitPrice < y.2.unitPrice
    else x.2.unitPrice > y.2.unitPrice
  better ∨ (x.2.unitPrice = y.2.unitPrice ∧
    (x.2.createdMs < y.2.createdMs ∨ (x.2.createdMs = y.2.createdMs ∧ x.1 < y.1)))

def firstBy {α : Type} (lt : α → α → Bool) : List α → Option α
  | [] => none
  | x :: xs =>
    match firstBy lt xs with
    | none => some x
    | some y => if lt y x then some y else some x

abbrev Contracts := Table CommerceId Contract

def marketCounterparty (t : Contracts) (taker : Record) : Option CommerceId :=
  (firstBy (precedes taker) (t.rows.filter fun x => marketFilter taker x.2.toRecord)).map (·.1)

/-- `counterpartyDefect`: the order can never trade; reading the directory may fail. -/
def counterpartyDefect (dir : Directory) (c : Contract) : Except Err Bool :=
  match c.workflow with
  | none => .ok true
  | some w =>
    match checkContractIdentities dir c.toRecord w with
    | .ok () => .ok false
    | .error .corrupt => .ok true
    | .error .roleConflict => .ok true
    | .error e => .error e

structure Locked where
  id : CommerceId
  d : Draft

def fill (qty : Nat) (d : Draft) : Draft :=
  let filled := add32 d.r.filledQuantity qty
  ⟨{ d.r with
      filledQuantity := filled
      status := if filled = d.r.quantity then .delivering else d.r.status }, d.w⟩

def newMatch (now price qty : Nat) (buy sell : Locked) : Draft :=
  let w : Workflow :=
    { stage := .deliver
      sellerIdentity := sell.d.w.sellerIdentity, buyerIdentity := buy.d.w.sellerIdentity }
  let w := addLeg w .buyerReceive buy.d.r.sellerPlayerId .tradeCredit
    (itemBundle buy.d.r.itemConfigId qty)
  let w := addLeg w .sellerReceive sell.d.r.sellerPlayerId .tradeCredit
    (currencyBundle buy.d.r.currencyType (mul64 qty price))
  let w := if buy.d.r.unitPrice > price then
      addLeg w .buyerSurplus buy.d.r.sellerPlayerId .tradeCredit
        (currencyBundle buy.d.r.currencyType (mul64 qty (sub64 buy.d.r.unitPrice price)))
    else w
  { r :=
      { kind := .marketMatch, status := .delivering, sellerPlayerId := sell.d.r.sellerPlayerId
        buyerPlayerId := buy.d.r.sellerPlayerId, marketId := buy.d.r.marketId
        itemConfigId := buy.d.r.itemConfigId, unitPrice := price, quantity := qty
        currencyType := buy.d.r.currencyType, createdMs := now
        parentId := buy.id, counterpartyId := sell.id }
    w := w }

def notOpen (d : Draft) : Bool :=
  d.w.stage ≠ .marketOpen || d.w.cancelRequested || d.r.filledQuantity ≥ d.r.quantity

def makerPrice (a b : Locked) : Nat :=
  if b.d.r.createdMs < a.d.r.createdMs ∨ (b.d.r.createdMs = a.d.r.createdMs ∧ b.id < a.id) then
    b.d.r.unitPrice
  else a.d.r.unitPrice

def matchQuantity (buy sell : Draft) : Nat :=
  min (sub32 buy.r.quantity buy.r.filledQuantity) (sub32 sell.r.quantity sell.r.filledQuantity)

/-- The match of a buying and a selling order at a price; a used key fails the transaction. -/
def trade (now price : Nat) (matchId : CommerceId) (buy sell : Locked) (t : Contracts) :
    Except Err Contracts :=
  if buy.d.r.unitPrice < sell.d.r.unitPrice ∨
      buy.d.r.sellerPlayerId = sell.d.r.sellerPlayerId then .ok t
  else if buy.d.w.sellerIdentity = none ∨ sell.d.w.sellerIdentity = none then .error .corrupt
  else if t.get matchId ≠ none then .error .sql
  else
    let qty := matchQuantity buy.d sell.d
    let t := t.put matchId (newMatch now price qty buy sell).insert
    let t := t.put buy.id (fill qty buy.d).save
    .ok (t.put sell.id (fill qty sell.d).save)

/-- The rest of `matchMarket` on the two locked orders, `a` with the smaller key. -/
def matchLocked (dir : Directory) (now : Nat) (matchId : CommerceId) (a b : Locked)
    (t : Contracts) : Except Err Contracts := do
  checkContractIdentities dir a.d.r a.d.w
  checkContractIdentities dir b.d.r b.d.w
  if notOpen a.d ∨ notOpen b.d then return t
  else if a.d.r.side = 1 then trade now (makerPrice a b) matchId a b t
  else trade now (makerPrice a b) matchId b a t

def matchMarket (dir : Directory) (now : Nat) (matchId id : CommerceId) (t : Contracts) :
    Except Err Contracts :=
  match t.get id with
  | none => .error .sql
  | some taker =>
    if taker.kind ≠ .marketMatch ∨ taker.side = 0 ∨ taker.filledQuantity = taker.quantity then .ok t
    else
      match marketCounterparty t taker.toRecord with
      | none => .ok t
      | some otherId =>
        match t.get otherId with
        | none => .error .sql
        | some other => do
          lockRoles dir none 0 [taker.sellerPlayerId, other.sellerPlayerId]
          if ← counterpartyDefect dir other then return t.put otherId (quarantineLocked other)
          else
            match taker.workflow, other.workflow with
            | some w, some v =>
              let a : Locked := ⟨id, ⟨taker.toRecord, w⟩⟩
              let b : Locked := ⟨otherId, ⟨other.toRecord, v⟩⟩
              if id > otherId then matchLocked dir now matchId b a t
              else matchLocked dir now matchId a b t
            | _, _ => .error .corrupt

/-- How many matches of the order are not closed, and how many are Manual. -/
def isMatchOf (id : CommerceId) (c : Record) : Bool :=
  c.kind = .marketMatch && c.side = 0 && (c.parentId = id || c.counterpartyId = id)

def unfinishedMatches (t : Contracts) (id : CommerceId) : Nat :=
  (t.rows.filter fun x => isMatchOf id x.2.toRecord &&
    (x.2.status ≠ .cancelled && x.2.status ≠ .settled)).length

def badMatches (t : Contracts) (id : CommerceId) : Nat :=
  (t.rows.filter fun x => isMatchOf id x.2.toRecord && x.2.status = .manual).length

/-! ## Bids -/

/-- The lot as far as it can accept bids: it is decodable and its parties are who they were. -/
def acceptingLot (dir : Directory) (lot : Option Contract) : Except Err (Option Draft) :=
  match lot with
  | none => .ok none
  | some c =>
    match c.workflow with
    | none => .ok none
    | some w =>
      match checkContractIdentities dir c.toRecord w with
      | .ok () => .ok (some ⟨c.toRecord, w⟩)
      | .error .corrupt => .ok none
      | .error .roleConflict => .ok none
      | .error e => .error e

def eligible (now : Nat) (lot : Draft) (bid : Record) : Bool :=
  lot.w.stage = .lotOpen && !lot.w.cancelRequested && lot.r.expiresMs > now &&
    bid.unitPrice ≥ lot.r.unitPrice &&
    (lot.w.highestBid = 0 || (lot.w.minimumIncrement ≤ sub64 maxInt64 lot.w.highestBid &&
      bid.unitPrice ≥ add64 lot.w.highestBid lot.w.minimumIncrement))

def Draft.refundBid (d : Draft) : Draft := d.move .bidRefund .cancelPending

def refundOld (t : Contracts) (winningBidId : CommerceId) : Except Err Contracts :=
  if winningBidId = 0 then .ok t
  else
    match t.get winningBidId with
    | none => .error .sql
    | some old =>
      match old.workflow with
      | none => .error .corrupt
      | some ow =>
        if ow.stage ≠ .bidHeld then .error .sql
        else .ok (t.put winningBidId (Draft.refundBid ⟨old.toRecord, ow⟩).save)

def takeBid (bidId : CommerceId) (bid lot : Draft) : Draft :=
  ⟨{ lot.r with buyerPlayerId := bid.r.sellerPlayerId },
    { lot.w with
      highestBid := bid.r.unitPrice, highestBidder := bid.r.sellerPlayerId
      winningBidId := bidId, buyerAssets := bid.w.sellerAssets
      buyerIdentity := bid.w.sellerIdentity }⟩

def acceptBid (dir : Directory) (now : Nat) (id : CommerceId) (t : Contracts) :
    Except Err Contracts :=
  match t.get id with
  | none => .error .sql
  | some c => do
    let parent := t.get c.parentId
    lockRoles dir none 0 [c.sellerPlayerId, (parent.map (·.sellerPlayerId)).getD 0,
      (parent.map (·.buyerPlayerId)).getD 0]
    match c.workflow with
    | none => .error .corrupt
    | some w =>
      if w.stage ≠ .bidReady then return t
      else do
        let bid : Draft := ⟨c.toRecord, w⟩
        checkContractIdentities dir bid.r bid.w
        match ← acceptingLot dir parent with
        | none => return t.put id bid.refundBid.save
        | some lot =>
          if ¬ eligible now lot bid.r then return t.put id bid.refundBid.save
          else do
            let t ← refundOld t lot.w.winningBidId
            if bid.w.sellerIdentity = none then .error .corrupt
            else
              let t := t.put c.parentId (takeBid id bid lot).save
              return t.put id (bid.enter .bidHeld).save

def settleHeldBid (id : CommerceId) (t : Contracts) : Except Err Contracts :=
  match t.get id with
  | none => .error .sql
  | some c =>
    match t.get c.parentId with
    | none => .error .corrupt
    | some parent =>
      if parent.status ≠ .settled then .ok t
      else
        match c.workflow with
        | none => .error .corrupt
        | some w =>
          if w.stage ≠ .bidHeld then .ok t
          else .ok (t.put id (Draft.move ⟨c.toRecord, w⟩ .done .settled).save)

/-! ## The machine -/

structure Config where
  policy : Policy
  /-- The currencies that may be sold for money. -/
  rmbCurrencies : List Nat

structure Receipt where
  order : String
  commerceId : CommerceId
  state : ReceiptState
deriving DecidableEq, Repr

structure World where
  contracts : Contracts
  /-- The delivery receipts that the mall took. -/
  receipts : List Receipt

def World.empty : World := ⟨∅, []⟩

inductive Request where
  | playerTrade (i : CreatePlayerTradeRequest)
  | consignment (i : CreateConsignmentRequest)
  | lot (i : CreateAuctionLotRequest)
  | market (i : PlaceMarketOrderRequest)
  | bid (lotId : CommerceId) (amount : Nat)
  | rmb (i : CreateRmbConsignmentRequest)

inductive Event where
  | create (id : CommerceId) (dir : Directory) (actor : Option Actor) (now : Nat) (me : PlayerId)
      (request : Request)
  | accept (id : CommerceId) (dir : Directory) (now : Nat) (i : MallIntent)
  | mutate (id : CommerceId) (dir : Directory) (actor : Option Actor) (me : PlayerId)
      (seen : PlayerId × PlayerId) (now : Nat) (action : Action)
  | advance (id : CommerceId) (dir : Directory) (seen : PlayerId × PlayerId × PlayerId)
      (results : OpId → Option LegOutcome) (now : Nat) (opIds : Role → OpId)
  | matchMarket (id : CommerceId) (dir : Directory) (now : Nat) (matchId : CommerceId)
  | acceptBid (id : CommerceId) (dir : Directory) (now : Nat)
  | settleHeldBid (id : CommerceId)
  | quarantine (id : CommerceId)
  | rmbCancel (id : CommerceId) (dir : Directory) (account : String)
  | rmbStep (id : CommerceId) (i : RmbInput)
  | deliver (i : DeliverInput) (order : RmbDelivery) (mallOk : Bool)
  | returned (id : CommerceId) (dir : Directory) (o : RmbReturn)

def draftOf (cfg : Config) (t : Contracts) (now : Nat) (me : PlayerId) : Request → Except Err Draft
  | .playerTrade i => createPlayerTrade cfg.policy now me i
  | .consignment i => createConsignment cfg.policy now me i
  | .lot i => createLot cfg.policy now me i
  | .market i => placeMarket cfg.policy now me i
  | .bid lotId amount =>
    match t.get lotId with
    | none => .error .sql
    | some lot => placeBid now me lotId amount lot
  | .rmb i => createRmb cfg.policy cfg.rmbCurrencies now me i

/-- The contract is a consignment of a character; `advance` is not called for it. -/
def Contract.isCharacter (c : Contract) : Bool :=
  c.workflow.any fun w => w.rmb.any fun t => t.characterPlayerId ≠ 0

def World.insert (s : World) (id : CommerceId) (r : Except Err Contract) : World :=
  match r with
  | .error _ => s
  | .ok c => if s.contracts.get id = none then { s with contracts := s.contracts.put id c } else s

def World.update (s : World) (id : CommerceId) (f : Contract → Except Err Contract) : World :=
  match s.contracts.get id with
  | none => s
  | some c =>
    match f c with
    | .error _ => s
    | .ok c' => { s with contracts := s.contracts.put id c' }

def World.transact (s : World) (f : Contracts → Except Err Contracts) : World :=
  match f s.contracts with
  | .error _ => s
  | .ok t => { s with contracts := t }

/-- `deliver` and its receipt; a receipt that the mall does not take fails the call only. -/
def World.deliver (s : World) (i : DeliverInput) (o : RmbDelivery) (mallOk : Bool) : World :=
  match s.contracts.get o.listing with
  | none => s
  | some c =>
    match Commerce.deliver i o c with
    | .error _ => s
    | .ok (c', receipt) =>
      { contracts := s.contracts.put o.listing c'
        receipts := match receipt, mallOk with
          | some state, true => s.receipts ++ [⟨o.order, o.listing, state⟩]
          | _, _ => s.receipts }

def step (cfg : Config) (s : World) : Event → World
  | .create id dir actor now me request =>
    s.insert id (draftOf cfg s.contracts now me request >>= Commerce.create dir actor)
  | .accept id dir now i => s.insert id (Commerce.accept dir now i)
  | .mutate id dir actor me seen now action =>
    s.update id (Commerce.mutate dir actor me seen now action)
  | .advance id dir seen results now opIds =>
    s.update id fun c =>
      if c.isCharacter then .error .corrupt
      else Commerce.advance cfg.policy dir seen
        ⟨results, now, opIds, unfinishedMatches s.contracts id, badMatches s.contracts id⟩ c
  | .matchMarket id dir now matchId => s.transact (Commerce.matchMarket dir now matchId id)
  | .acceptBid id dir now => s.transact (Commerce.acceptBid dir now id)
  | .settleHeldBid id => s.transact (Commerce.settleHeldBid id)
  | .quarantine id => s.update id Commerce.quarantine
  | .rmbCancel id dir account => s.update id (Commerce.rmbCancel dir id account)
  | .rmbStep id i => s.update id fun c =>
      if c.kind = .rmbConsignment then Commerce.rmbStep cfg.policy i id c else .error .corrupt
  | .deliver i o mallOk => s.deliver i o mallOk
  | .returned id dir o => s.update id (Commerce.returned dir id o)

end Mmorpg.Commerce
