import Mmorpg.AssetOp.System

/-!
# Trade contracts

A row of `trade_commerce` and its decoded workflow (trade_table.proto), and the operations on the
legs of a workflow (engine.go). A leg is one asset operation of the contract: a debit takes assets
of a player into escrow, a credit pays them out. The outcome of a leg is the final status of its
row of the outbox and is written once.

`transfer` turns an applied debit into the bundle of a credit: the stackable assets as they were
asked for, and the instances as the scene took them out.
-/

namespace Mmorpg.Commerce

open AssetOp (AssetBundle AssetSnapshot AssetItemInstance AssetOpStream)

abbrev PlayerId := Nat
abbrev CommerceId := Nat
abbrev OpId := Nat

/-! ## Machine arithmetic -/

def maxInt64 : Nat := 9223372036854775807

def mul64 (a b : Nat) : Nat := a * b % 18446744073709551616

def add64 (a b : Nat) : Nat := (a + b) % 18446744073709551616

def sub64 (a b : Nat) : Nat := (a + 18446744073709551616 - b) % 18446744073709551616

def add32 (a b : Nat) : Nat := (a + b) % 4294967296

def sub32 (a b : Nat) : Nat := (a + 4294967296 - b) % 4294967296

/-! ## Enumerations -/

/-- `CommerceOrderKind`; a bid (`BidKind`) is not shown to clients and has the number 100. -/
inductive Kind where
  | official
  | playerTrade
  | consignment
  | marketMatch
  | auctionLot
  | rmbConsignment
  | bid
deriving DecidableEq, Repr

/-- `CommerceOrderState`, as far as the engine writes it: 1, 3, 4, 6, 7, 8, 10 and 11. -/
inductive Status where
  | waiting
  | escrowing
  | delivering
  | cancelPending
  | cancelled
  | refundPending
  | manual
  | settled
deriving DecidableEq, Repr

/-- `Workflow.Stage` -/
inductive Stage where
  | officialDeliver
  | officialRefund
  | offerEscrow
  | buyerEscrow
  | confirm
  | escrow
  | opened
  | pay
  | deliver
  | giveBack
  | done
  | manual
  | marketOpen
  | marketWait
  | lotOpen
  | bidFreeze
  | bidReady
  | bidHeld
  | bidRefund
  | rmbEscrow
  | rmbFreezing
  | rmbReady
  | rmbRegistering
  | rmbListed
  | rmbDelivery
  | rmbDelivered
  | rmbRefund
  | rmbReturn
  | rmbReturned
deriving DecidableEq, Repr

/-- `RequestKey("consignment_buy", …)`: the key is a hash of what is recorded here. -/
structure BuyKey where
  player : PlayerId
  requestId : String
deriving DecidableEq, Repr

/-- `Leg.Role`; `buyerPay n key` is `buyer_debit_<n>_<key>`, without the key if there is none. -/
inductive Role where
  | sellerDebit
  | buyerDebit
  | buyerPay (n : Nat) (key : Option BuyKey)
  | sellerReturn
  | buyerReturn
  | sellerReceive
  | buyerReceive
  | buyerSurplus
  | bidDebit
  | bidReturn
  | officialCredit
  | rmbBuyerCredit
deriving DecidableEq, Repr

/-- `TradeAssetOpStatus` -/
inductive OpStatus where
  | unspecified
  | pending
  | applied
  | rejected
  | aborted
  | appliedPartial
  | abandoned
deriving DecidableEq, Repr

/-- `LegOutcome.Final` -/
def OpStatus.isFinal : OpStatus → Bool
  | .applied | .rejected | .aborted | .appliedPartial | .abandoned => true
  | .unspecified | .pending => false

/-! ## Assets -/

/-- `TradeAssetSelection`; `items` are the entries of the map from a configuration to a count. -/
structure TradeAssetSelection where
  items : List (Nat × Nat) := []
  itemUuids : List Nat := []
  petId : Nat := 0
  currencyType : Nat := 0
  currencyAmount : Nat := 0
deriving DecidableEq, Repr

def emptyBundle : AssetBundle := ⟨[], [], [], 0, [], none⟩

def currencyBundle (currencyType amount : Nat) : AssetBundle :=
  { emptyBundle with currencies := [⟨currencyType, amount⟩] }

def itemBundle (configId count : Nat) : AssetBundle :=
  { emptyBundle with items := [⟨configId, count⟩] }

def bundle (v : TradeAssetSelection) : AssetBundle :=
  { currencies := if v.currencyAmount > 0 then [⟨v.currencyType, v.currencyAmount⟩] else []
    items := (v.items.insertionSort fun a b => a.1 ≤ b.1).map fun e => ⟨e.1, e.2⟩
    itemUuids := v.itemUuids
    petId := v.petId
    itemInstances := []
    petInstance := none }

/-- Strike the guids of the instances from the wanted ones; every instance must be wanted. -/
def takeWanted : List Nat → List AssetItemInstance → Option (List Nat)
  | wanted, [] => some wanted
  | wanted, item :: items =>
    if item.itemUuid ∈ wanted then takeWanted (wanted.erase item.itemUuid) items else none

def transfer (b : AssetBundle) (s : Option AssetSnapshot) : Option AssetBundle :=
  if b.itemInstances ≠ [] ∨ b.petInstance ≠ none then none
  else if (b.itemUuids ≠ [] ∨ b.petId > 0) ∧ s = none then none
  else
    let instances := (s.map (·.items)).getD []
    let pet := s.bind (·.pet)
    if b.itemUuids.length ≠ instances.length ∨ ((b.petId ≠ 0) ↔ pet = none) then none
    else if 0 ∈ b.itemUuids ∨ ¬ b.itemUuids.Nodup then none
    else
      match takeWanted b.itemUuids instances with
      | none => none
      | some rest =>
        if rest ≠ [] ∨ (∃ p ∈ pet, p.petId ≠ b.petId) then none
        else
          some { b with
            itemInstances := instances, petInstance := pet, itemUuids := [], petId := 0 }

structure Policy where
  items : List Nat
  pets : List Nat
  currencies : List Nat
  allowInstances : Bool
deriving Repr

def Policy.snapshot (p : Policy) (v : Option AssetSnapshot) : Bool :=
  match v with
  | none => true
  | some s =>
    s.items.all (fun i => i.configId ∈ p.items) &&
      match s.pet with
      | none => true
      | some pet => pet.petTableId ∈ p.pets

/-! ## The row -/

structure Leg where
  role : Role
  playerId : PlayerId
  stream : AssetOpStream
  bundle : AssetBundle
  opId : OpId
  snapshot : Option AssetSnapshot
  outcome : OpStatus
deriving DecidableEq, Repr

structure TradeRoleIdentity where
  account : String
  ownerRevision : Nat
deriving DecidableEq, Repr

/-- `rmbDelivery`: a paid order of the mall. -/
structure RmbDelivery where
  order : String
  buyer : PlayerId
  account : String
  revision : Nat
  listing : CommerceId
  reference : String
  proof : String
  amount : Nat
deriving DecidableEq, Repr

/-- `TradeRmbConsignmentWorkflow`. The delivery digest is the hash of the paid order; what is
hashed stands for it. -/
structure RmbTerms where
  sellerAccount : String
  sellerOwnerRevision : Nat
  characterPlayerId : PlayerId
  priceFen : Nat
  escrowReference : String
  escrowProof : String
  buyerAccount : String
  mallOrderId : String
  transferTxId : Nat
  freezeReceipt : Bool
  deliveryDigest : Option RmbDelivery
  buyerOwnerRevision : Nat
deriving DecidableEq, Repr

structure Workflow where
  sellerAssets : TradeAssetSelection := {}
  buyerAssets : TradeAssetSelection := {}
  sellerConfirmed : Bool := false
  buyerConfirmed : Bool := false
  cancelRequested : Bool := false
  legs : List Leg := []
  stage : Stage
  minimumIncrement : Nat := 0
  highestBid : Nat := 0
  highestBidder : PlayerId := 0
  winningBidId : CommerceId := 0
  quantityReserved : Nat := 0
  officialBundle : AssetBundle := emptyBundle
  rmb : Option RmbTerms := none
  sellerIdentity : Option TradeRoleIdentity := none
  buyerIdentity : Option TradeRoleIdentity := none
deriving DecidableEq, Repr

/-- The columns of `trade_commerce` but the workflow. -/
structure Record where
  kind : Kind
  status : Status
  sellerPlayerId : PlayerId := 0
  buyerPlayerId : PlayerId := 0
  marketId : Nat := 0
  itemConfigId : Nat := 0
  side : Nat := 0
  unitPrice : Nat := 0
  quantity : Nat := 0
  filledQuantity : Nat := 0
  currencyType : Nat := 0
  expiresMs : Nat := 0
  createdMs : Nat := 0
  version : Nat := 1
  parentId : CommerceId := 0
  counterpartyId : CommerceId := 0
deriving DecidableEq, Repr

/-- A row; the workflow is absent when its bytes cannot be decoded. -/
structure Contract extends Record where
  workflow : Option Workflow
deriving DecidableEq, Repr

structure Draft where
  r : Record
  w : Workflow
deriving DecidableEq, Repr

def Draft.save (d : Draft) : Contract :=
  ⟨{ d.r with version := d.r.version + 1 }, some d.w⟩

def Draft.insert (d : Draft) : Contract := ⟨d.r, some d.w⟩

def Status.terminal (s : Status) : Bool := s = .settled || s = .cancelled || s = .manual

/-! ## Legs -/

def isDone (l : Leg) : Bool := l.outcome ≠ .unspecified

def isApplied (l : Leg) : Bool := l.outcome = .applied

/-- `done`, for a leg that may be absent. -/
def done (l : Option Leg) : Bool := l.any isDone

/-- `applied`, for a leg that may be absent. -/
def applied (l : Option Leg) : Bool := l.any isApplied

def newLeg (role : Role) (player : PlayerId) (stream : AssetOpStream) (b : AssetBundle) : Leg :=
  ⟨role, player, stream, b, 0, none, .unspecified⟩

def addLeg (w : Workflow) (role : Role) (player : PlayerId) (stream : AssetOpStream)
    (b : AssetBundle) : Workflow :=
  if w.legs.any (fun l => l.role = role) then w
  else { w with legs := w.legs ++ [newLeg role player stream b] }

def leg (w : Workflow) (role : Role) : Option Leg := w.legs.find? fun l => l.role = role

/-- Why a transaction fails. `nilLeg` is a nil pointer of the source. -/
inductive Err where
  | invalid
  | missing
  | conflict
  | notTradable
  | self
  | tooLow
  | ended
  | replay
  | corrupt
  | roleConflict
  | stale
  | nilLeg
  | sql
deriving DecidableEq, Repr

def transferLeg (w : Workflow) (role : Role) (receiver : PlayerId) (src : Option Leg) :
    Except Err Workflow :=
  match src with
  | none => .error .nilLeg
  | some l =>
    match transfer l.bundle l.snapshot with
    | none => .error .corrupt
    | some b => .ok (addLeg w role receiver .tradeCredit b)

/-- `finalCredits` over the remaining legs: all credits are final, and all of them are applied. -/
def finalCreditsOf : List Leg → Bool × Bool
  | [] => (true, true)
  | l :: ls =>
    if l.stream = .tradeCredit then
      if ¬ isDone l then (false, false)
      else if ¬ isApplied l then (true, false)
      else finalCreditsOf ls
    else finalCreditsOf ls

def finalCredits (w : Workflow) : Bool × Bool := finalCreditsOf w.legs

end Mmorpg.Commerce
