import Mmorpg.Commerce.Plan
import Mmorpg.Lib.Table

/-!
# The commerce engine

The transactions of engine.go, market.go, auction.go, tick_isolation.go and rmb.go as functions
from rows to rows, and the engine as a machine over the table of contracts. A transaction locks
the roles it needs, then the rows, and is rolled back when it fails, so one event is one
transaction. What the transaction reads elsewhere is part of the event: the clock, the role
directory, the outbox, the answers of the mall and of the data service. A row of an earlier read
shows up only in what the code compares with the locked row.

A background step is chosen by the stage of a row that was read before; the row may be further when
it is locked. Here a step is possible in every state of the row.
-/

namespace Mmorpg.Commerce

open AssetOp (AssetBundle)

/-! ## Roles -/

structure AccountRoleOwnership where
  account : String
  ownerRevision : Nat
  tradeListingId : CommerceId
deriving DecidableEq, Repr

/-- The table `account_role`. -/
abbrev Directory := PlayerId → Option AccountRoleOwnership

def validAccount (account : String) : Bool :=
  0 < account.utf8ByteSize && account.utf8ByteSize ≤ 191

/-- `RoleAuthority.Ownership` -/
def ownership (dir : Directory) (player : PlayerId) : Except Err AccountRoleOwnership :=
  match dir player with
  | none => .error .sql
  | some o =>
    if player = 0 then .error .sql
    else if ¬ validAccount o.account ∨ o.ownerRevision = 0 then .error .roleConflict
    else .ok o

/-- `RoleAuthority.Lock`, in ascending order of the players. -/
def lockAll (dir : Directory) (allowListing : CommerceId) : List PlayerId → Except Err Unit
  | [] => .ok ()
  | id :: ids =>
    if id = 0 then lockAll dir allowListing ids
    else do
      let role ← ownership dir id
      if role.tradeListingId ≠ 0 ∧ role.tradeListingId ≠ allowListing then .error .roleConflict
      else lockAll dir allowListing ids

structure Actor where
  player : PlayerId
  account : String
  ownerRevision : Nat

def lockRoles (dir : Directory) (actor : Option Actor) (allowListing : CommerceId)
    (players : List PlayerId) : Except Err Unit :=
  match actor with
  | none => lockAll dir allowListing (players.insertionSort (· ≤ ·))
  | some me => do
    lockAll dir allowListing ((players ++ [me.player]).insertionSort (· ≤ ·))
    let current ← ownership dir me.player
    if current.account ≠ me.account ∨ current.ownerRevision ≠ me.ownerRevision then
      .error .roleConflict
    else .ok ()

def checkIdentity (dir : Directory) (player : PlayerId) (identity : Option TradeRoleIdentity) :
    Except Err Unit :=
  if player = 0 then .ok ()
  else
    match identity with
    | none => .error .corrupt
    | some i =>
      if ¬ validAccount i.account ∨ i.ownerRevision = 0 then .error .corrupt
      else do
        let owned ← ownership dir player
        if owned.account ≠ i.account ∨ owned.ownerRevision ≠ i.ownerRevision then
          .error .roleConflict
        else .ok ()

def checkContractIdentities (dir : Directory) (r : Record) (w : Workflow) : Except Err Unit := do
  checkIdentity dir r.sellerPlayerId w.sellerIdentity
  checkIdentity dir r.buyerPlayerId w.buyerIdentity

/-! ## New contracts -/

/-- The total of the counts stays within 4096 from entry to entry. -/
def selectionItems (p : Policy) : Nat → List (Nat × Nat) → Except Err Unit
  | _, [] => .ok ()
  | total, (id, n) :: rest =>
    if id = 0 ∨ n = 0 ∨ n > 4096 ∨ id ∉ p.items then .error .notTradable
    else if total + n > 4096 then .error .invalid
    else selectionItems p (total + n) rest

def Policy.selection (p : Policy) (v : TradeAssetSelection) : Except Err Unit :=
  if v.items.length > 16 ∨ v.itemUuids.length > 8 ∨
      (v.items.length + v.itemUuids.length = 0 ∧ v.petId = 0 ∧ v.currencyAmount = 0) then
    .error .invalid
  else if (v.currencyAmount = 0 ∧ v.currencyType ≠ 0) ∨ v.currencyAmount > maxInt64 then
    .error .invalid
  else if v.currencyAmount > 0 ∧ (v.currencyType = 2 ∨ v.currencyType ∉ p.currencies) then
    .error .notTradable
  else do
    selectionItems p 0 v.items
    if 0 ∈ v.itemUuids ∨ ¬ v.itemUuids.Nodup then .error .invalid
    else if (v.itemUuids.length > 0 ∨ v.petId ≠ 0) ∧ ¬ p.allowInstances then .error .notTradable
    else .ok ()

def validPrice (price currencyType : Nat) (p : Policy) : Bool :=
  price > 0 && price ≤ maxInt64 && currencyType ≠ 2 && currencyType ∈ p.currencies

structure CreatePlayerTradeRequest where
  buyerPlayerId : PlayerId
  sellerAssets : TradeAssetSelection
  buyerAssets : TradeAssetSelection

def createPlayerTrade (p : Policy) (now : Nat) (me : PlayerId) (i : CreatePlayerTradeRequest) :
    Except Err Draft :=
  if i.buyerPlayerId = 0 then .error .invalid
  else if i.buyerPlayerId = me then .error .self
  else do
    p.selection i.sellerAssets
    p.selection i.buyerAssets
    return {
      r :=
        { kind := .playerTrade, status := .escrowing, sellerPlayerId := me
          buyerPlayerId := i.buyerPlayerId, createdMs := now, expiresMs := now + 15 * 60 * 1000 }
      w := { sellerAssets := i.sellerAssets, buyerAssets := i.buyerAssets, stage := .offerEscrow } }

structure CreateConsignmentRequest where
  assets : TradeAssetSelection
  price : Nat
  currencyType : Nat
  durationMs : Nat

def createConsignment (p : Policy) (now : Nat) (me : PlayerId) (i : CreateConsignmentRequest) :
    Except Err Draft := do
  p.selection i.assets
  if ¬ validPrice i.price i.currencyType p ∨ i.durationMs < 60000 ∨
      i.durationMs > 30 * 24 * 3600000 then .error .invalid
  else
    return {
      r :=
        { kind := .consignment, status := .escrowing, sellerPlayerId := me, unitPrice := i.price
          currencyType := i.currencyType, createdMs := now, expiresMs := now + i.durationMs }
      w := { sellerAssets := i.assets, stage := .escrow } }

structure CreateAuctionLotRequest where
  assets : TradeAssetSelection
  openingPrice : Nat
  currencyType : Nat
  minimumIncrement : Nat
  durationMs : Nat

def createLot (p : Policy) (now : Nat) (me : PlayerId) (i : CreateAuctionLotRequest) :
    Except Err Draft := do
  p.selection i.assets
  if ¬ validPrice i.openingPrice i.currencyType p ∨ i.minimumIncrement = 0 ∨
      i.minimumIncrement > maxInt64 ∨ i.durationMs < 60000 ∨ i.durationMs > 7 * 24 * 3600000 then
    .error .invalid
  else
    return {
      r :=
        { kind := .auctionLot, status := .escrowing, sellerPlayerId := me
          unitPrice := i.openingPrice, currencyType := i.currencyType, createdMs := now
          expiresMs := now + i.durationMs }
      w := { sellerAssets := i.assets, stage := .escrow, minimumIncrement := i.minimumIncrement } }

structure PlaceMarketOrderRequest where
  marketId : Nat
  itemConfigId : Nat
  side : Nat
  unitPrice : Nat
  quantity : Nat
  currencyType : Nat

def placeMarket (p : Policy) (now : Nat) (me : PlayerId) (i : PlaceMarketOrderRequest) :
    Except Err Draft :=
  if i.quantity = 0 ∨ i.quantity > 4096 ∨ i.marketId ≠ 1 ∨
      p.currencies.head? ≠ some i.currencyType ∨ i.itemConfigId ∉ p.items ∨
      ¬ validPrice i.unitPrice i.currencyType p ∨ i.unitPrice > maxInt64 / i.quantity ∨
      (i.side ≠ 1 ∧ i.side ≠ 2) then .error .invalid
  else
    let sel : TradeAssetSelection := if i.side = 1 then
        { currencyType := i.currencyType, currencyAmount := mul64 i.unitPrice i.quantity }
      else { items := [(i.itemConfigId, i.quantity)] }
    .ok {
      r :=
        { kind := .marketMatch, status := .escrowing, sellerPlayerId := me
          marketId := i.marketId, itemConfigId := i.itemConfigId, side := i.side
          unitPrice := i.unitPrice, quantity := i.quantity, currencyType := i.currencyType
          createdMs := now }
      w := { sellerAssets := sel, stage := .escrow } }

/-- `PlaceBid`, given the row of the lot. -/
def placeBid (now : Nat) (me : PlayerId) (lotId : CommerceId) (amount : Nat) (lot : Contract) :
    Except Err Draft :=
  match lot.workflow with
  | none => .error .corrupt
  | some w =>
    if lot.kind ≠ .auctionLot ∨ w.stage ≠ .lotOpen ∨ lot.expiresMs ≤ now then .error .ended
    else if me = lot.sellerPlayerId then .error .self
    else if amount < lot.unitPrice ∨ amount > maxInt64 ∨
        (w.highestBid > 0 ∧ (w.minimumIncrement > sub64 maxInt64 w.highestBid ∨
          amount < add64 w.highestBid w.minimumIncrement)) then .error .tooLow
    else
      .ok {
        r :=
          { kind := .bid, status := .escrowing, sellerPlayerId := me, parentId := lotId
            unitPrice := amount, currencyType := lot.currencyType, createdMs := now
            expiresMs := lot.expiresMs }
        w :=
          { sellerAssets := { currencyType := lot.currencyType, currencyAmount := amount }
            stage := .bidFreeze } }

structure CreateRmbConsignmentRequest where
  account : String
  ownerRevision : Nat
  characterPlayerId : PlayerId
  assets : TradeAssetSelection
  priceFen : Nat

/-- `RmbConsignments.selection`: exactly one sort of asset, or a character and none. -/
def rmbSelection (p : Policy) (currencyTypes : List Nat) (i : CreateRmbConsignmentRequest) :
    Except Err Unit :=
  let v := i.assets
  let item := decide (v.items.length + v.itemUuids.length > 0)
  let pet := decide (v.petId ≠ 0)
  let currency := decide (v.currencyAmount ≠ 0)
  let count := ([item, pet, currency].filter id).length
  if i.characterPlayerId ≠ 0 then
    if count ≠ 0 ∨ v.currencyType ≠ 0 then .error .invalid else .ok ()
  else if count ≠ 1 then .error .invalid
  else if v.currencyType = 2 then .error .notTradable
  else
    Policy.selection { p with currencies := if currencyTypes = [] then [0] else currencyTypes } v

def createRmb (p : Policy) (currencyTypes : List Nat) (now : Nat) (me : PlayerId)
    (i : CreateRmbConsignmentRequest) : Except Err Draft :=
  if ¬ validAccount i.account ∨ me = 0 ∨ i.ownerRevision = 0 ∨ i.priceFen = 0 ∨
      i.priceFen > 9000000000000000 then .error .invalid
  else do
    rmbSelection p currencyTypes i
    if i.characterPlayerId ≠ 0 ∧ me ≠ i.characterPlayerId then .error .invalid
    else
      return {
        r :=
          { kind := .rmbConsignment, status := .escrowing, sellerPlayerId := me
            unitPrice := i.priceFen, createdMs := now, expiresMs := now + 15 * 60 * 1000 }
        w :=
          { sellerAssets := i.assets
            stage := if i.characterPlayerId ≠ 0 then .rmbFreezing else .rmbEscrow
            rmb := some ⟨i.account, i.ownerRevision, i.characterPlayerId, i.priceFen, "", "", "",
              "", 0, false, none, 0⟩ } }

def identityOf (dir : Directory) (player : PlayerId) : Except Err (Option TradeRoleIdentity) :=
  if player = 0 then .ok none
  else do
    let owned ← ownership dir player
    return some ⟨owned.account, owned.ownerRevision⟩

/-- The transaction of `Create`; `Insert` of a used key fails. -/
def create (dir : Directory) (actor : Option Actor) (d : Draft) : Except Err Contract := do
  lockRoles dir actor 0 [d.r.sellerPlayerId, d.r.buyerPlayerId]
  if d.r.kind = .rmbConsignment then do
    let owned ← ownership dir d.r.sellerPlayerId
    match d.w.rmb with
    | none => .error .invalid
    | some t =>
      if owned.account ≠ t.sellerAccount ∨ owned.ownerRevision ≠ t.sellerOwnerRevision ∨
          owned.tradeListingId ≠ 0 then .error .conflict
      else .ok ()
  else .ok ()
  let seller ← identityOf dir d.r.sellerPlayerId
  let buyer ← identityOf dir d.r.buyerPlayerId
  return Draft.insert ⟨d.r, { d.w with sellerIdentity := seller, buyerIdentity := buyer }⟩

/-- `mallIntent`, as far as the contract uses it. -/
structure MallIntent where
  buyer : PlayerId
  account : String
  ownerRevision : Nat
  config : Nat
  count : Nat
  quantity : Nat

/-- `Mall.accept` -/
def accept (dir : Directory) (now : Nat) (i : MallIntent) : Except Err Contract :=
  if i.buyer = 0 ∨ ¬ validAccount i.account ∨ i.config = 0 ∨ i.count = 0 ∨ i.count > 4096 ∨
      i.quantity = 0 then .error .invalid
  else do
    let owned ← ownership dir i.buyer
    let refund : Bool := owned.account ≠ i.account || owned.ownerRevision ≠ i.ownerRevision ||
      owned.tradeListingId ≠ 0
    return Draft.insert {
      r :=
        { kind := .official, status := if refund then .refundPending else .delivering
          buyerPlayerId := i.buyer, createdMs := now }
      w :=
        { stage := if refund then .officialRefund else .officialDeliver
          officialBundle := itemBundle i.config i.count
          buyerIdentity := some ⟨i.account, i.ownerRevision⟩ } }

/-! ## Requests of players -/

inductive Action where
  | confirm
  | buy (requestId : String)
  | cancel
deriving DecidableEq, Repr

def mutateConfirm (me : PlayerId) (now : Nat) (d : Draft) : Except Err Draft :=
  if d.r.kind ≠ .playerTrade ∨ d.w.stage ≠ .confirm then .error .conflict
  else if d.r.expiresMs ≤ now ∨ d.w.cancelRequested then .error .conflict
  else do
    let d ←
      if me = d.r.sellerPlayerId then
        if ¬ d.w.buyerConfirmed ∨ ¬ applied (leg d.w .buyerDebit) then .error .conflict
        else .ok (⟨d.r, { d.w with sellerConfirmed := true }⟩ : Draft)
      else if me = d.r.buyerPlayerId then
        if ¬ applied (leg d.w .sellerDebit) then .error .conflict
        else
          let d : Draft := ⟨d.r, { d.w with buyerConfirmed := true }⟩
          if ¬ applied (leg d.w .buyerDebit) then .ok (d.move .buyerEscrow .escrowing) else .ok d
      else .error .missing
    return if d.w.sellerConfirmed ∧ d.w.buyerConfirmed then d.move .escrow .escrowing else d

def Role.hasKey (key : BuyKey) : Role → Bool
  | .buyerPay _ (some k) => k = key
  | _ => false

/-- The result is absent when nothing is saved. -/
def mutateBuy (dir : Directory) (me : PlayerId) (now : Nat) (requestId : String) (d : Draft) :
    Except Err (Option Draft) :=
  let key : BuyKey := ⟨me, requestId⟩
  let bought : Bool := d.r.buyerPlayerId = me &&
    (d.w.stage = .pay || d.w.stage = .deliver || d.w.stage = .done)
  if requestId.utf8ByteSize < 8 ∨ requestId.utf8ByteSize > 80 then .error .invalid
  else if d.w.legs.any fun l => l.role.hasKey key then
    if bought then .ok none else .error .conflict
  else if d.r.kind = .consignment ∧ bought then .ok none
  else if d.r.kind ≠ .consignment ∨ d.w.stage ≠ .opened ∨ d.r.expiresMs ≤ now ∨
      d.r.buyerPlayerId ≠ 0 then .error .conflict
  else if me = d.r.sellerPlayerId then .error .self
  else if d.w.quantityReserved ≥ 32 then .error .conflict
  else do
    let owned ← ownership dir me
    let w := { d.w with
      buyerIdentity := some ⟨owned.account, owned.ownerRevision⟩
      buyerAssets := { currencyType := d.r.currencyType, currencyAmount := d.r.unitPrice }
      quantityReserved := d.w.quantityReserved + 1 }
    let w := addLeg w (.buyerPay w.quantityReserved (some key)) me .tradeDebit
      (bundle w.buyerAssets)
    return some (Draft.move ⟨{ d.r with buyerPlayerId := me }, w⟩ .pay .escrowing)

def mutateCancel (me : PlayerId) (d : Draft) : Except Err (Option Draft) :=
  if me ≠ d.r.sellerPlayerId ∧ me ≠ d.r.buyerPlayerId then .error .missing
  else if d.r.status = .cancelled then .ok none
  else if (d.r.kind = .playerTrade ∧ (d.w.stage = .confirm ∨ d.w.stage = .offerEscrow ∨
        d.w.stage = .buyerEscrow)) ∨
      (me = d.r.sellerPlayerId ∧ (d.w.stage = .opened ∨ d.w.stage = .marketOpen ∨
        (d.w.stage = .lotOpen ∧ d.w.highestBidder = 0))) then
    .ok (some ⟨{ d.r with status := .cancelPending }, { d.w with cancelRequested := true }⟩)
  else .error .conflict

def mutateDraft (dir : Directory) (me : PlayerId) (now : Nat) (action : Action) (d : Draft) :
    Except Err (Option Draft) :=
  match action with
  | .confirm => some <$> mutateConfirm me now d
  | .buy requestId => mutateBuy dir me now requestId d
  | .cancel => mutateCancel me d

/-- `Mutate`; `seen` are the seller and the buyer of the row that was read first. -/
def mutate (dir : Directory) (actor : Option Actor) (me : PlayerId) (seen : PlayerId × PlayerId)
    (now : Nat) (action : Action) (c : Contract) : Except Err Contract := do
  lockRoles dir actor 0 [me, seen.1, seen.2]
  match c.workflow with
  | none => .error .corrupt
  | some w =>
    if c.sellerPlayerId ≠ seen.1 ∨ c.buyerPlayerId ≠ seen.2 then .error .conflict
    else do
      checkContractIdentities dir c.toRecord w
      match ← mutateDraft dir me now action ⟨c.toRecord, w⟩ with
      | none => return c
      | some d => return d.save

/-! ## Background steps on one row -/

/-- `advance`; `seen` are the players whose roles were locked after the first read. -/
def advance (p : Policy) (dir : Directory) (seen : PlayerId × PlayerId × PlayerId)
    (i : AdvanceInput) (c : Contract) : Except Err Contract := do
  lockRoles dir none 0 [seen.1, seen.2.1, seen.2.2]
  match c.workflow with
  | none => .error .corrupt
  | some w =>
    if c.sellerPlayerId ≠ seen.1 ∨ c.buyerPlayerId ≠ seen.2.1 then .error .stale
    else do
      checkContractIdentities dir c.toRecord w
      let d ← advanceDraft p i ⟨c.toRecord, w⟩
      return d.save

/-- `quarantineLockedTx`; of a row that cannot be decoded only the status is written. -/
def quarantineLocked (c : Contract) : Contract :=
  match c.workflow with
  | none => { c with status := .manual, version := c.version + 1 }
  | some w => (Draft.move ⟨c.toRecord, w⟩ .manual .manual).save

def Status.isDue : Status → Bool
  | .waiting | .escrowing | .delivering | .cancelPending | .refundPending => true
  | .cancelled | .manual | .settled => false

/-- `quarantine`: nothing is done unless the row is still at the version that `Due` returned, and
then it has the status under which it was selected. -/
def quarantine (c : Contract) : Except Err Contract :=
  if c.status.isDue then .ok (quarantineLocked c) else .error .stale

/-! ## Consignments for money -/

/-- `RmbConsignments.save`: the row is still at the version that was read. -/
def rmbSave (dir : Directory) (id : CommerceId) (body : Draft → Except Err Draft) (c : Contract) :
    Except Err Contract := do
  lockRoles dir none id [c.sellerPlayerId, c.buyerPlayerId]
  match c.workflow with
  | none => .error .corrupt
  | some w =>
    if w.rmb = none then .error .corrupt
    else do
      let d ← body ⟨c.toRecord, w⟩
      return d.save

/-- `RmbConsignments.Cancel` -/
def rmbCancel (dir : Directory) (id : CommerceId) (account : String) (c : Contract) :
    Except Err Contract :=
  match c.workflow with
  | none => .error .corrupt
  | some w =>
    match w.rmb with
    | none => .error .missing
    | some t =>
      if c.kind ≠ .rmbConsignment ∨ t.sellerAccount ≠ account then .error .missing
      else if c.status = .settled ∨ w.stage = .rmbDelivery then .error .conflict
      else if c.status = .cancelled then .ok c
      else rmbSave dir id (fun d =>
        if d.w.stage = .rmbDelivery ∨ d.r.status = .settled then .error .conflict
        else .ok ⟨{ d.r with status := .cancelPending }, { d.w with cancelRequested := true }⟩) c

/-- `AccountRoleTradeState` -/
inductive RoleTradeState where
  | freezing
  | frozen
  | cancelPending
  | cancelled
  | transferred
deriving DecidableEq, Repr

/-- The states of a listing of the mall that the step of a listed consignment tells apart. -/
inductive ListingState where
  | returning
  | returned
  | other
deriving DecidableEq, Repr

/-- What a step of a consignment for money reads: the directory under the lock and through the data
service, the answers to its calls (absent when the call failed), the computed proof, and what
`advance` reads. -/
structure RmbInput where
  dir : Directory
  lookup : Directory
  begun : Option RoleTradeState
  sealed : Bool
  confirmed : Option (RoleTradeState × Bool)
  cancelState : Option RoleTradeState
  transferred : Bool
  proof : String
  registered : Bool
  listing : Option ListingState
  seen : PlayerId × PlayerId × PlayerId
  input : AdvanceInput

/-- `Directory.Lookup` of the data service. -/
def lookupRole (lookup : Directory) (player : PlayerId) : Except Err AccountRoleOwnership :=
  match lookup player with
  | none => .error .sql
  | some o => .ok o

def checkAssetIdentity (lookup : Directory) (r : Record) (t : RmbTerms) (stage : Stage) :
    Except Err Unit := do
  let owned ← lookupRole lookup r.sellerPlayerId
  if owned.account ≠ t.sellerAccount ∨ owned.ownerRevision ≠ t.sellerOwnerRevision ∨
      owned.tradeListingId ≠ 0 then .error .roleConflict
  else if stage = .rmbDelivery then do
    let buyer ← lookupRole lookup r.buyerPlayerId
    if buyer.account ≠ t.buyerAccount ∨ buyer.ownerRevision ≠ t.buyerOwnerRevision ∨
        buyer.tradeListingId ≠ 0 then .error .roleConflict
    else .ok ()
  else .ok ()

def cancelRole (i : RmbInput) (id : CommerceId) (c : Contract) : Except Err Contract :=
  match i.cancelState with
  | none => .error .sql
  | some state =>
    if state ≠ .cancelled then .error .conflict
    else rmbSave i.dir id (fun d =>
      if d.w.stage = .rmbDelivery ∨ d.w.stage = .rmbDelivered then .error .conflict
      else .ok (d.move .rmbReturned .cancelled)) c

def transferRole (i : RmbInput) (id : CommerceId) (t : RmbTerms) (c : Contract) :
    Except Err Contract :=
  if t.transferTxId = 0 ∨ ¬ validAccount t.buyerAccount then .error .corrupt
  else if ¬ i.transferred then .error .sql
  else rmbSave i.dir id (fun d =>
    if d.w.stage ≠ .rmbDelivery then .error .conflict
    else .ok (d.move .rmbDelivered .settled)) c

def Draft.setTerms (d : Draft) (f : RmbTerms → RmbTerms) : Draft :=
  ⟨d.r, { d.w with rmb := d.w.rmb.map f }⟩

def freezeRole (i : RmbInput) (id : CommerceId) (c : Contract) : Except Err Contract :=
  match i.begun with
  | none => .error .sql
  | some first =>
    if first = .cancelPending ∨ first = .cancelled then cancelRole i id c
    else if first = .transferred then .error .corrupt
    else if ¬ i.sealed then .error .sql
    else
      match i.confirmed with
      | none => .error .sql
      | some (state, evidence) =>
        if state ≠ .frozen ∨ ¬ evidence then .error .conflict
        else rmbSave i.dir id (fun d =>
          if d.w.stage ≠ .rmbFreezing then .ok d
          else .ok ((d.setTerms fun t => { t with freezeReceipt := true }).enter .rmbReady)) c

def readyRmb (i : RmbInput) (id : CommerceId) (t : RmbTerms) (c : Contract) : Except Err Contract :=
  rmbSave i.dir id (fun d =>
    if d.w.stage ≠ .rmbReady then .ok d
    else if d.w.cancelRequested then .ok (d.move .rmbReturn .cancelPending)
    else if t.characterPlayerId = 0 ∧ ¬ applied (leg d.w .sellerDebit) then .error .corrupt
    else
      .ok ((d.setTerms fun t => { t with
        escrowProof := i.proof, escrowReference := s!"trade:{id}" }).enter .rmbRegistering)) c

/-- `RmbConsignments.step`; a step that only defers the row leaves it. -/
def rmbStep (p : Policy) (i : RmbInput) (id : CommerceId) (c : Contract) : Except Err Contract :=
  match c.workflow with
  | none => .error .corrupt
  | some w =>
    match w.rmb with
    | none => .error .corrupt
    | some t =>
      match w.stage with
      | .rmbEscrow | .rmbDelivery | .rmbReturn =>
        if t.characterPlayerId = 0 then do
          checkAssetIdentity i.lookup c.toRecord t w.stage
          advance p i.dir i.seen i.input c
        else if w.stage = .rmbReturn then cancelRole i id c
        else if w.stage = .rmbDelivery then transferRole i id t c
        else .error .corrupt
      | .rmbFreezing => if w.cancelRequested then cancelRole i id c else freezeRole i id c
      | .rmbReady => readyRmb i id t c
      | .rmbRegistering =>
        if ¬ i.registered then .error .sql
        else rmbSave i.dir id (fun d =>
          if d.w.stage ≠ .rmbRegistering then .ok d else .ok (d.move .rmbListed .waiting)) c
      | .rmbListed =>
        if ¬ w.cancelRequested then .ok c
        else
          match i.listing with
          | none => .error .sql
          | some state =>
            if state = .other then .error .conflict
            else rmbSave i.dir id (fun d =>
              if d.w.stage = .rmbListed then .ok (d.move .rmbReturn .cancelPending) else .ok d) c
      | .rmbRefund | .rmbDelivered | .rmbReturned | .manual => .ok c
      | _ => .error .corrupt

inductive ReceiptState where
  | delivered
  | refundPending
  | manual
deriving DecidableEq, Repr

def receiptOf : Status → Option ReceiptState
  | .settled => some .delivered
  | .refundPending => some .refundPending
  | .manual => some .manual
  | _ => none

/-- What `deliver` reads: the data service, the directory under the lock, the identifier for a
transfer of a character. -/
structure DeliverInput where
  lookup : Directory
  dir : Directory
  transferTxId : Nat

def Draft.decideRefund (d : Draft) (o : RmbDelivery) : Draft :=
  (d.setTerms fun t => { t with
    deliveryDigest := some o, buyerAccount := o.account, mallOrderId := o.order }).move
      .rmbRefund .refundPending

/-- The delivery of the order begins; a payment wins over a request to cancel. -/
def Draft.startDelivery (d : Draft) (o : RmbDelivery) (ownerRevision transferTxId : Nat) : Draft :=
  let d := d.setTerms fun t => { t with
    buyerAccount := o.account, buyerOwnerRevision := ownerRevision, mallOrderId := o.order,
    deliveryDigest := some o,
    transferTxId := if t.characterPlayerId ≠ 0 then transferTxId else 0 }
  Draft.move ⟨{ d.r with buyerPlayerId := o.buyer },
    { d.w with cancelRequested := false, buyerIdentity := some ⟨o.account, o.revision⟩ }⟩
    .rmbDelivery .delivering

def refundBody (o : RmbDelivery) (d : Draft) : Except Err Draft :=
  match d.w.rmb with
  | none => .error .corrupt
  | some t =>
    if t.deliveryDigest ≠ none then
      if t.deliveryDigest ≠ some o then .error .replay else .ok d
    else if d.w.stage ≠ .rmbListed then .error .conflict
    else .ok (d.decideRefund o)

/-- The transaction of `deliver` that starts the delivery; absent when another call was first. -/
def deliveryBody (i : DeliverInput) (o : RmbDelivery) (d : Draft) : Except Err (Option Draft) :=
  match d.w.rmb with
  | none => .error .conflict
  | some t =>
    if t.deliveryDigest ≠ none then
      if t.deliveryDigest ≠ some o then .error .replay else .ok none
    else if d.w.stage ≠ .rmbListed ∨ o.account = t.sellerAccount then .error .conflict
    else do
      let owned ← ownership i.dir o.buyer
      if owned.account ≠ o.account ∨ owned.ownerRevision ≠ o.revision ∨
          owned.tradeListingId ≠ 0 then .error .conflict
      else return some (d.startDelivery o owned.ownerRevision i.transferTxId)

/-- `deliver` up to the receipt: the row that it leaves and the receipt that it goes on to send. -/
def deliver (i : DeliverInput) (o : RmbDelivery) (c : Contract) :
    Except Err (Contract × Option ReceiptState) :=
  match c.workflow with
  | none => .error .corrupt
  | some w =>
    match w.rmb with
    | none => .error .replay
    | some t =>
      if o.buyer = 0 ∨ o.revision = 0 ∨ ¬ validAccount o.account then .error .invalid
      else if c.kind ≠ .rmbConsignment ∨ o.reference ≠ t.escrowReference ∨
          o.proof ≠ t.escrowProof ∨ o.amount ≠ t.priceFen then .error .replay
      else if t.deliveryDigest ≠ none then
        if t.deliveryDigest ≠ some o then .error .replay
        else .ok (c, receiptOf c.status)
      else do
        let owned ← lookupRole i.lookup o.buyer
        if owned.account ≠ o.account ∨ owned.ownerRevision ≠ o.revision ∨
            owned.tradeListingId ≠ 0 then do
          let c ← rmbSave i.dir o.listing (refundBody o) c
          return (c, some .refundPending)
        else do
          lockRoles i.dir none o.listing [c.sellerPlayerId, o.buyer]
          match ← deliveryBody i o ⟨c.toRecord, w⟩ with
          | none => return (c, receiptOf c.status)
          | some d => return (d.save, receiptOf d.save.status)

structure RmbReturn where
  seller : PlayerId
  account : String
  reference : String
  proof : String

/-- `returned`; of a cancelled consignment it only sends the receipt of the return. -/
def returned (dir : Directory) (id : CommerceId) (o : RmbReturn) (c : Contract) :
    Except Err Contract :=
  match c.workflow with
  | none => .error .corrupt
  | some w =>
    match w.rmb with
    | none => .error .replay
    | some t =>
      if c.kind ≠ .rmbConsignment ∨ o.seller ≠ c.sellerPlayerId ∨ o.account ≠ t.sellerAccount ∨
          o.reference ≠ t.escrowReference ∨ o.proof ≠ t.escrowProof then .error .replay
      else if c.status = .cancelled then .ok c
      else if w.stage ≠ .rmbListed ∧ w.stage ≠ .rmbReturn ∧ w.stage ≠ .rmbRefund then
        .error .conflict
      else rmbSave dir id (fun d =>
        if d.w.stage = .rmbListed ∨ d.w.stage = .rmbRefund then
          .ok (Draft.move ⟨d.r, { d.w with cancelRequested := true }⟩ .rmbReturn .cancelPending)
        else .ok d) c

end Mmorpg.Commerce
