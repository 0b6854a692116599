import Mmorpg.Commerce.Contract
import Mmorpg.Lib.Blocks

/-!
# The plan of a contract

`plan` and `planRmb` of engine.go and rmb.go decide the next legs of a contract from the outcomes
of its legs, the clock and the requests made so far. `plan` is a sequence of blocks, each guarded
by the stage; a block returns from `plan` or falls through to the next one, which may act on the
stage that it left. `advance` first reads the outcomes of the legs that were sent, plans, lets the
market barrier have its say, and sends the new legs.
-/

namespace Mmorpg.Commerce

open AssetOp (AssetBundle AssetSnapshot)
open Blocks (Block Flow runBlocks)

/-! ## Blocks -/

abbrev PlanBlock := Block Draft Err

def Draft.move (d : Draft) (stage : Stage) (status : Status) : Draft :=
  ⟨{ d.r with status := status }, { d.w with stage := stage }⟩

def Draft.enter (d : Draft) (stage : Stage) : Draft := ⟨d.r, { d.w with stage := stage }⟩

/-- Give an applied debit back; a debit that took nothing has nothing to give back. -/
def returnApplied (w : Workflow) (role : Role) (receiver : PlayerId) (src : Option Leg) :
    Except Err Workflow :=
  if applied src then transferLeg w role receiver src else .ok w

def snapshotOf (l : Option Leg) : Option AssetSnapshot := l.bind (·.snapshot)

/-! ## The blocks of `plan` -/

def planOfficial (d : Draft) : Draft :=
  let w := addLeg d.w .officialCredit d.r.buyerPlayerId .tradeCredit d.w.officialBundle
  let l := leg w .officialCredit
  if ¬ done l then ⟨d.r, w⟩
  else if applied l then Draft.move ⟨d.r, w⟩ .done .settled
  else Draft.move ⟨d.r, w⟩ .officialRefund .refundPending

def planOfferEscrow (p : Policy) : PlanBlock := fun d =>
  if d.w.stage = .offerEscrow then
    let w := addLeg d.w .sellerDebit d.r.sellerPlayerId .tradeDebit (bundle d.w.sellerAssets)
    let a := leg w .sellerDebit
    if ¬ done a then .ok (.ret ⟨d.r, w⟩)
    else if ¬ applied a then .ok (.ret (Draft.move ⟨d.r, w⟩ .done .cancelled))
    else
      let w := { w with cancelRequested := w.cancelRequested || !p.snapshot (snapshotOf a) }
      .ok (.go (Draft.move ⟨d.r, w⟩ .confirm .waiting))
  else .ok (.go d)

def planBuyerEscrow (p : Policy) : PlanBlock := fun d =>
  if d.w.stage = .buyerEscrow then
    let w := addLeg d.w .buyerDebit d.r.buyerPlayerId .tradeDebit (bundle d.w.buyerAssets)
    let b := leg w .buyerDebit
    if ¬ done b then .ok (.ret ⟨d.r, w⟩)
    else
      let w := { w with
        cancelRequested := w.cancelRequested || !applied b || !p.snapshot (snapshotOf b) }
      .ok (.go (Draft.move ⟨d.r, w⟩ .confirm .waiting))
  else .ok (.go d)

def planConfirm (now : Nat) : PlanBlock := fun d =>
  if d.r.kind = .playerTrade ∧ d.w.stage = .confirm ∧
      (d.w.cancelRequested ∨ d.r.expiresMs ≤ now) then do
    let d := d.move .giveBack .cancelPending
    let w ← returnApplied d.w .sellerReturn d.r.sellerPlayerId (leg d.w .sellerDebit)
    let w ← returnApplied w .buyerReturn d.r.buyerPlayerId (leg w .buyerDebit)
    return .go ⟨d.r, w⟩
  else .ok (.go d)

def planBidFreeze : PlanBlock := fun d =>
  if d.w.stage = .bidFreeze then
    let w := addLeg d.w .bidDebit d.r.sellerPlayerId .tradeDebit (bundle d.w.sellerAssets)
    let b := leg w .bidDebit
    if ¬ done b then .ok (.go ⟨d.r, w⟩)
    else if applied b then .ok (.go (Draft.enter ⟨d.r, w⟩ .bidReady))
    else .ok (.go (Draft.move ⟨d.r, w⟩ .done .cancelled))
  else .ok (.go d)

def planBidRefund : PlanBlock := fun d =>
  if d.w.stage = .bidRefund then
    let b := leg d.w .bidDebit
    if ¬ applied b then .error .corrupt
    else do
      let w ← transferLeg d.w .bidReturn d.r.sellerPlayerId b
      return .go (Draft.move ⟨d.r, w⟩ .giveBack .cancelPending)
  else .ok (.go d)

def planEscrow (p : Policy) : PlanBlock := fun d =>
  if d.w.stage = .escrow then
    let w := addLeg d.w .sellerDebit d.r.sellerPlayerId .tradeDebit (bundle d.w.sellerAssets)
    let w := if d.r.kind = .playerTrade then
        addLeg w .buyerDebit d.r.buyerPlayerId .tradeDebit (bundle w.buyerAssets)
      else w
    let a := leg w .sellerDebit
    let b := leg w .buyerDebit
    if ¬ done a ∨ (d.r.kind = .playerTrade ∧ ¬ done b) then .ok (.ret ⟨d.r, w⟩)
    else if ¬ applied a ∨ (d.r.kind = .playerTrade ∧ ¬ applied b) ∨
        (applied a ∧ ¬ p.snapshot (snapshotOf a)) ∨
        (applied b ∧ ¬ p.snapshot (snapshotOf b)) then do
      let d := Draft.move ⟨d.r, w⟩ .giveBack .cancelPending
      let w ← returnApplied d.w .sellerReturn d.r.sellerPlayerId a
      let w ← returnApplied w .buyerReturn d.r.buyerPlayerId b
      return .go ⟨d.r, w⟩
    else if d.r.kind = .playerTrade then do
      let d := Draft.move ⟨d.r, w⟩ .deliver .delivering
      let w ← transferLeg d.w .sellerReceive d.r.sellerPlayerId b
      let w ← transferLeg w .buyerReceive d.r.buyerPlayerId a
      return .go ⟨d.r, w⟩
    else if d.r.kind = .marketMatch then .ok (.go (Draft.enter ⟨d.r, w⟩ .marketOpen))
    else if d.r.kind = .auctionLot then .ok (.go (Draft.enter ⟨d.r, w⟩ .lotOpen))
    else .ok (.go (Draft.enter ⟨d.r, w⟩ .opened))
  else .ok (.go d)

/-- The role is `buyer_debit_<n>_` followed by a key. -/
def Role.isKeyedPay (n : Nat) : Role → Bool
  | .buyerPay m (some _) => m = n
  | _ => false

def payLeg (w : Workflow) : Option Leg :=
  (w.legs.find? fun l => l.role.isKeyedPay w.quantityReserved).or
    (leg w (.buyerPay w.quantityReserved none))

def planPay : PlanBlock := fun d =>
  if d.w.stage = .pay then
    let name : Role := .buyerPay d.w.quantityReserved none
    let w := if payLeg d.w = none then
        addLeg d.w name d.r.buyerPlayerId .tradeDebit (bundle d.w.buyerAssets)
      else d.w
    let b := payLeg w
    if ¬ done b then .ok (.ret ⟨d.r, w⟩)
    else if ¬ applied b then
      .ok (.go ⟨{ d.r with buyerPlayerId := 0 }, { w with stage := .opened }⟩)
    else do
      let d := Draft.move ⟨d.r, w⟩ .deliver .delivering
      let w ← transferLeg d.w .buyerReceive d.r.buyerPlayerId (leg d.w .sellerDebit)
      let w ← transferLeg w .sellerReceive d.r.sellerPlayerId b
      return .go ⟨d.r, w⟩
  else .ok (.go d)

def planLotClose (now : Nat) : PlanBlock := fun d =>
  if d.w.stage = .lotOpen ∧ d.r.expiresMs ≤ now ∧ d.w.highestBidder ≠ 0 then do
    let d := d.move .deliver .delivering
    let w ← transferLeg d.w .buyerReceive d.w.highestBidder (leg d.w .sellerDebit)
    let w := addLeg w .sellerReceive d.r.sellerPlayerId .tradeCredit (bundle w.buyerAssets)
    return .go ⟨d.r, w⟩
  else .ok (.go d)

def planExpire (now : Nat) : PlanBlock := fun d =>
  if (d.w.stage = .opened ∨ d.w.stage = .lotOpen) ∧ d.r.expiresMs ≤ now then
    .ok (.go ⟨d.r, { d.w with cancelRequested := true }⟩)
  else .ok (.go d)

def remainder (r : Record) : AssetBundle :=
  let remaining := sub32 r.quantity r.filledQuantity
  if remaining = 0 then emptyBundle
  else if r.side = 1 then currencyBundle r.currencyType (mul64 remaining r.unitPrice)
  else itemBundle r.itemConfigId remaining

def nonEmpty (b : AssetBundle) : Bool :=
  b.currencies.length + b.items.length + b.itemInstances.length > 0 || b.petInstance.isSome

def planCancel : PlanBlock := fun d =>
  if d.w.cancelRequested ∧ (d.w.stage = .opened ∨ (d.w.stage = .lotOpen ∧ d.w.highestBidder = 0) ∨
      d.w.stage = .marketOpen) then
    let d := d.move .giveBack .cancelPending
    match leg d.w .sellerDebit with
    | none => .error .nilLeg
    | some a =>
      match transfer a.bundle a.snapshot with
      | none => .error .corrupt
      | some b =>
        let b := if d.r.kind = .marketMatch then remainder d.r else b
        let w := if nonEmpty b then
            addLeg d.w .sellerReturn d.r.sellerPlayerId .tradeCredit b
          else d.w
        .ok (.go ⟨d.r, w⟩)
  else .ok (.go d)

def planFinish : PlanBlock := fun d =>
  if d.w.stage = .deliver ∨ d.w.stage = .giveBack then
    let credits := finalCredits d.w
    if credits.1 then
      .ok (.go (d.move .done
        (if ¬ credits.2 then .manual
          else if d.r.status = .cancelPending then .cancelled
          else .settled)))
    else .ok (.go d)
  else .ok (.go d)

def planBlocks (p : Policy) (now : Nat) : List PlanBlock :=
  [planOfferEscrow p, planBuyerEscrow p, planConfirm now, planBidFreeze, planBidRefund,
    planEscrow p, planPay, planLotClose now, planExpire now, planCancel, planFinish]

/-! ## Consignments for money -/

def planRmb (p : Policy) (d : Draft) : Except Err Draft :=
  match d.w.rmb with
  | none => .error .corrupt
  | some t =>
    match d.w.stage with
    | .rmbEscrow =>
      let w := addLeg d.w .sellerDebit d.r.sellerPlayerId .tradeDebit (bundle d.w.sellerAssets)
      let a := leg w .sellerDebit
      if ¬ done a then .ok ⟨d.r, w⟩
      else if ¬ applied a then .ok (Draft.move ⟨d.r, w⟩ .rmbReturned .cancelled)
      else if w.cancelRequested ∨ ¬ p.snapshot (snapshotOf a) then do
        let d := Draft.move ⟨d.r, w⟩ .rmbReturn .cancelPending
        let w ← transferLeg d.w .sellerReturn d.r.sellerPlayerId a
        return ⟨d.r, w⟩
      else .ok (Draft.move ⟨d.r, w⟩ .rmbReady .escrowing)
    | .rmbDelivery =>
      if t.characterPlayerId ≠ 0 then .ok d
      else
        let a := leg d.w .sellerDebit
        if ¬ applied a then .error .corrupt
        else do
          let w ← transferLeg d.w .rmbBuyerCredit d.r.buyerPlayerId a
          let l := leg w .rmbBuyerCredit
          if ¬ done l then return ⟨d.r, w⟩
          else if applied l then return Draft.move ⟨d.r, w⟩ .rmbDelivered .settled
          else return Draft.move ⟨d.r, w⟩ .rmbRefund .refundPending
    | .rmbReturn =>
      if t.characterPlayerId ≠ 0 then .ok d
      else do
        let w ← returnApplied d.w .sellerReturn d.r.sellerPlayerId (leg d.w .sellerDebit)
        let returned := leg w .sellerReturn
        if returned = none ∨ done returned then
          if returned = none ∨ applied returned then
            return Draft.move ⟨d.r, w⟩ .rmbReturned .cancelled
          else return Draft.move ⟨d.r, w⟩ .manual .manual
        else return ⟨d.r, w⟩
    | _ => .ok d

def plan (p : Policy) (now : Nat) (d : Draft) : Except Err Draft :=
  if d.r.kind = .rmbConsignment then planRmb p d
  else if d.w.stage = .officialDeliver then .ok (planOfficial d)
  else runBlocks (planBlocks p now) d

/-! ## The outcomes of legs -/

/-- The column `escrow_snapshot` as it is read: empty, not decodable, or a snapshot. -/
inductive SnapshotBytes where
  | empty
  | bad
  | decoded (s : AssetSnapshot)

/-- `LegOutcome`: the row of the outbox of a leg. -/
structure LegOutcome where
  status : OpStatus
  snapshot : SnapshotBytes

def writeOutcome (l : Leg) (out : LegOutcome) : Except Err Leg :=
  let l := { l with outcome := out.status }
  match out.snapshot with
  | .empty => .ok l
  | .bad => .error .corrupt
  | .decoded s => .ok { l with snapshot := some s }

/-- The loop of `advance` over the legs. The second component says that it met a leg that was
applied in part; the legs after it are not looked at then. -/
def recordOutcomes (results : OpId → Option LegOutcome) : List Leg → Except Err (List Leg × Bool)
  | [] => .ok ([], false)
  | l :: ls =>
    if l.opId = 0 ∨ l.outcome ≠ .unspecified then do
      let (ls, partly) ← recordOutcomes results ls
      return (l :: ls, partly)
    else
      match results l.opId with
      | none => .error .corrupt
      | some out =>
        if out.status = .pending then do
          let (ls, partly) ← recordOutcomes results ls
          return (l :: ls, partly)
        else if ¬ out.status.isFinal then .error .corrupt
        else if out.status = .appliedPartial then .ok (l :: ls, true)
        else do
          let l ← writeOutcome l out
          -- An applied debit must be transferable when its outcome is written.
          if l.stream = .tradeDebit ∧ isApplied l ∧ transfer l.bundle l.snapshot = none then
            .error .corrupt
          else do
            let (ls, partly) ← recordOutcomes results ls
            return (l :: ls, partly)

/-- `marketBarrier`, given how many matches of the order are not closed and how many are Manual. -/
def marketBarrier (unfinished bad : Nat) (d : Draft) : Draft :=
  if d.r.kind ≠ .marketMatch ∨ d.r.side = 0 then d
  else if bad > 0 then d.move .manual .manual
  else
    let d := if d.w.stage = .done ∧ unfinished > 0 then d.move .marketWait .cancelPending else d
    let d := if d.w.stage = .marketWait ∧ unfinished = 0 then d.move .done .cancelled else d
    if d.w.stage = .marketOpen ∧ d.r.quantity = d.r.filledQuantity ∧ unfinished = 0 then
      d.move .done .settled
    else d

def maxSent : Nat := 8

def sendLegs (opIds : Role → OpId) (w : Workflow) : Except Err Workflow :=
  if (w.legs.filter fun l => l.opId = 0).length > maxSent then .error .corrupt
  else .ok { w with
    legs := w.legs.map fun l => if l.opId = 0 then { l with opId := opIds l.role } else l }

structure AdvanceInput where
  results : OpId → Option LegOutcome
  now : Nat
  opIds : Role → OpId
  unfinished : Nat
  bad : Nat

def advanceDraft (p : Policy) (i : AdvanceInput) (d : Draft) : Except Err Draft := do
  let (legs, partly) ← recordOutcomes i.results d.w.legs
  let d : Draft := ⟨d.r, { d.w with legs := legs }⟩
  if partly then return d.move .manual .manual
  else do
    let d ← plan p i.now d
    let d := marketBarrier i.unfinished i.bad d
    let w ← sendLegs i.opIds d.w
    return ⟨d.r, w⟩

end Mmorpg.Commerce
