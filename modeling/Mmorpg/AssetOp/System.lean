import Mathlib.Data.List.Sort
import Mmorpg.AssetOp.Ledger

/-!
# The scene's answer to an asset operation

`Decide` of asset_op_system.cpp: classify the operation against the ledger, answer a known one
from the ledger, and let a new one pass the gates, change the assets and be recorded. The
bags, currencies and pets are behind `AssetServices`, an interface to the functions that the
code calls; a call that fails leaves the assets as they are, except for the removal by guid,
which reports whether something was removed already.

**What one call does** (`decideAssetOp_of`): nothing at all; or it records a rejection and
leaves the assets; or it changes the assets as the bundle asks for (`Effect`) and records the
operation as applied. In the last two cases the ledger had not seen the operation.
-/

namespace Mmorpg.AssetOp

open Option

/-! ## Messages and codes -/

def kAssetCurrencyInsufficient : Nat := 27000
def kAssetBagFull : Nat := 27001
def kAssetInBattle : Nat := 27002
def kAssetFrozen : Nat := 27003
def kAssetInvalidBundle : Nat := 27004
def kAssetBlocked : Nat := 27005
def kAssetPlayerNotHere : Nat := 27006
def kAssetPartialApplied : Nat := 27007
def kAssetAuthFailed : Nat := 27008
def kInvalidParameter : Nat := 1005
def kFeatureUnavailable : Nat := 1006
def kBagItemNotStacked : Nat := 6006

structure CurrencyAmount where
  currencyType : Nat
  amount : Nat
deriving DecidableEq, Repr

structure ItemGrant where
  configId : Nat
  count : Nat
deriving DecidableEq, Repr

structure AssetBundle where
  currencies : List CurrencyAmount
  items : List ItemGrant
  itemUuids : List Nat
  petId : Nat
  itemInstances : List AssetItemInstance
  petInstance : Option AssetPetInstance
deriving DecidableEq, Repr

structure AssetOpRequest where
  playerId : Nat
  stream : AssetOpStream
  seq : Nat
  correlationId : Nat
  txType : Nat
  bundle : AssetBundle
  streamEpoch : Nat
deriving DecidableEq, Repr

def AssetOpRequest.key (request : AssetOpRequest) : OpKey :=
  ⟨request.stream, request.streamEpoch, request.seq⟩

inductive AssetOpOutcome where
  | unknown
  | applied
  | rejected
  | retry
  | notHere
deriving DecidableEq, Repr

structure AssetOpResponse where
  outcome : AssetOpOutcome
  reason : Nat
  durable : Bool
  isPartial : Bool
  snapshot : Option AssetSnapshot
deriving DecidableEq, Repr

def answer (outcome : AssetOpOutcome) (reason : Nat) : AssetOpResponse :=
  ⟨outcome, reason, false, false, none⟩

inductive AssetOpRpc where
  | debit
  | abortDebit
  | credit
deriving DecidableEq, Repr

/-- A row of `kAssetOpStreamRules`: the direction and the transaction types of a stream. -/
structure AssetOpStreamRule where
  direction : AssetOpRpc
  allowedTx : List Nat

def findStreamRule : AssetOpStream → Option AssetOpStreamRule
  | .unspecified => none
  | .guildDebit => some ⟨.debit, [24]⟩
  | .guildCredit => some ⟨.credit, [25, 26]⟩
  | .tradeDebit => some ⟨.debit, [3, 1, 4]⟩
  | .tradeCredit => some ⟨.credit, [4, 1]⟩
  | .systemCredit => some ⟨.credit, [8, 2, 9]⟩

/-! ## What the code calls -/

/-- The fields of `ItemComp` and `PetInstance` that are compared with the transfer. -/
structure ItemComp where
  itemId : Nat
  configId : Nat
  size : Nat

structure PetComp where
  petId : Nat
  petTableId : Nat
  level : Nat
  name : String

inductive QuantityVerdict where
  | enough
  | versionSkew
  | insufficient
deriving DecidableEq, Repr

/-- A step that changes the assets: done, failed without a change, or failed after one. -/
inductive StepResult (A : Type) where
  | done (assets : A)
  | failed (error : Nat)
  | failedAfterChange (assets : A) (error : Nat)

/-- Tables, encodings and the bag, currency and pet functions on assets of type `A`. -/
structure AssetServices (A : Type) where
  digest : AssetOpRequest → Bytes
  snapshotBytes : AssetSnapshot → Nat
  maxStackSize : Nat → Option Nat
  petKnown : Nat → Bool
  maxPets : Nat
  knownCurrency : Nat → Bool
  gainBlockedCurrency : Nat → Bool
  gainBlockedItem : Nat → Bool
  parseItem : Bytes → Option ItemComp
  parsePet : Bytes → Option PetComp
  canAfford : A → Nat → Nat → Bool
  currencyBlocked : A → Nat → Bool
  checkQuantities : A → List ItemGrant → QuantityVerdict
  canRemoveGuids : A → List Nat → Bool
  itemByGuid : A → Nat → Option AssetItemInstance
  containsGuid : A → Nat → Bool
  hasSpaceFor : A → List ItemGrant → List AssetItemInstance → Bool
  activePet : A → Nat
  pets : A → List AssetPetInstance
  removeItemsExact : A → List ItemGrant → Except Nat A
  removeItemsByGuid : A → List Nat → StepResult A
  removePetForTrade : A → Nat → Except Nat A
  deductCurrency : A → CurrencyAmount → Except Nat A
  addItems : A → List ItemGrant → Except Nat A
  putInstance : A → AssetItemInstance → Except Nat A
  restorePet : A → AssetPetInstance → Except Nat A
  addCurrency : A → CurrencyAmount → Except Nat A

structure SceneEnv where
  authOk : Bool
  present : Bool
  ledgerInvalid : Bool
  hasLedger : Bool
  frozen : Bool
  unregistering : Bool
  fencedOwnership : Bool
  inBattle : Bool
  hasCurrency : Bool
  hasBags : Bool
  hasPets : Bool
  guidsAvailable : Nat
deriving DecidableEq, Repr

structure Player (A : Type) where
  assets : A
  ledger : PlayerAssetOpLedgerComp

section System

variable {A : Type} (sv : AssetServices A)

/-! ## Receipts and durability -/

def findReceipt (ledger : AssetOpStreamLedger) (seq : Nat) : Option AssetOpReceipt :=
  ledger.receipts.find? (·.seq = seq)

def receiptMatches (receipt : Option AssetOpReceipt) (request : AssetOpRequest) : Bool :=
  match receipt with
  | none => false
  | some r => r.correlationId = request.correlationId && r.requestDigest = sv.digest request

/-- The receipt that `StoreReceipt` writes; an empty snapshot is not kept. -/
def receiptOf (request : AssetOpRequest) (snapshot : AssetSnapshot) : AssetOpReceipt :=
  ⟨request.seq, request.correlationId, sv.digest request,
    if snapshot.items ≠ [] || snapshot.pet.isSome then some snapshot else none⟩

/-- Replace the receipt of the number or add one, in the order of numbers. -/
def addReceipt (request : AssetOpRequest) (snapshot : AssetSnapshot) (l : AssetOpStreamLedger) :
    AssetOpStreamLedger :=
  let receipt := receiptOf sv request snapshot
  let receipts := if l.receipts.any (·.seq = request.seq) then
      l.receipts.modify (l.receipts.findIdx (·.seq = request.seq)) fun _ => receipt
    else l.receipts ++ [receipt]
  { l with receipts := receipts.insertionSort fun a b => a.seq ≤ b.seq }

def storeReceipt (comp : PlayerAssetOpLedgerComp) (request : AssetOpRequest)
    (snapshot : AssetSnapshot) : PlayerAssetOpLedgerComp :=
  modifyAssetOpStream comp request.stream (addReceipt sv request snapshot)

def recordInStream (comp : PlayerAssetOpLedgerComp) (request : AssetOpRequest)
    (kind : AssetOpRecordKind) (reasonTipId : Nat) : Option PlayerAssetOpLedgerComp :=
  if (recordAssetOpOutcome (mutableAssetOpStream comp request.stream) request.streamEpoch
      request.seq kind reasonTipId).isSome then
    some (modifyAssetOpStream comp request.stream fun l =>
      (recordAssetOpOutcome l request.streamEpoch request.seq kind reasonTipId).getD l)
  else none

/-- `RecordOutcome`: nothing is written unless the number is new. -/
def recordOutcome (comp : PlayerAssetOpLedgerComp) (request : AssetOpRequest)
    (kind : AssetOpRecordKind) (reasonTipId : Nat) : Option PlayerAssetOpLedgerComp :=
  match classifyAssetOpSeq (findAssetOpStream comp request.stream) request.streamEpoch
      request.seq with
  | .unseen | .aheadOfWindow =>
    (recordInStream comp request kind reasonTipId).map (storeReceipt sv · request .empty)
  | _ => none

def maxInstanceBytes : Nat := 16 * 1024
def maxSnapshotBytes : Nat := 64 * 1024
def maxPlayerReceiptBytes : Nat := 256 * 1024

def receiptBytes (comp : PlayerAssetOpLedgerComp) : Nat :=
  let sizes := (comp.flatMap (·.receipts)).map fun r => (r.snapshot.map sv.snapshotBytes).getD 0
  sizes.foldl (· + ·) 0

/-- `HasReceiptRoom`: judged on the ledger as it would be after recording. -/
def hasReceiptRoom (comp : PlayerAssetOpLedgerComp) (request : AssetOpRequest)
    (snapshot : AssetSnapshot) : Bool :=
  if sv.snapshotBytes snapshot > maxSnapshotBytes then false
  else
    match recordInStream comp request .applied 0 with
    | none => false
    | some prospective =>
      receiptBytes sv (storeReceipt sv prospective request snapshot) ≤ maxPlayerReceiptBytes

/-- `IsAssetOpDurable`: the outcome stands in the bytes that were last written. -/
def isAssetOpDurable (persisted : Option PlayerAssetOpLedgerComp) (request : AssetOpRequest)
    (expectApplied : Bool) : Bool :=
  match persisted with
  | none => false
  | some comp =>
    match findAssetOpStream comp request.stream with
    | none => false
    | some ledger =>
      if ledger.streamEpoch ≠ request.streamEpoch ||
          !receiptMatches sv (findReceipt ledger request.seq) request then false
      else
        match classifyAssetOpSeq (some ledger) request.streamEpoch request.seq with
        | .applied => expectApplied
        | .rejected => !expectApplied
        | _ => false

/-- `AnswerSeenSeq`. The save that it may request does not change the answer. -/
def answerSeenSeq (persisted : Option PlayerAssetOpLedgerComp) (ledger : AssetOpStreamLedger)
    (request : AssetOpRequest) (applied : Bool) : AssetOpResponse :=
  match findReceipt ledger request.seq with
  | none => answer .unknown kAssetInvalidBundle
  | some receipt =>
    if !receiptMatches sv (some receipt) request then answer .unknown kAssetInvalidBundle
    else
      let durable := isAssetOpDurable sv persisted request applied
      if applied then
        let isPartial := isAssetOpPartial ledger request.seq
        ⟨.applied, if isPartial then kAssetPartialApplied else 0, durable, isPartial,
          receipt.snapshot⟩
      else ⟨.rejected, assetOpRejectionReason ledger request.seq, durable, false, receipt.snapshot⟩

/-! ## Checks of the bundle -/

def hasUnsupportedP2Fields (b : AssetBundle) : Bool :=
  b.itemUuids.length > 8 || b.itemInstances.length > 8

def currenciesValid (b : AssetBundle) : Bool :=
  b.currencies.all (fun c => 1 ≤ c.amount && c.amount ≤ 9223372036854775807) &&
    (b.currencies.map (·.currencyType)).Nodup

def validateDebitBundle (b : AssetBundle) : Bool :=
  !hasUnsupportedP2Fields b
    && !(b.currencies.length > 4 || b.items.length > 16 || b.itemInstances ≠ [] ||
      b.petInstance.isSome)
    && !(b.currencies.length + b.items.length + b.itemUuids.length = 0 && b.petId = 0)
    && currenciesValid b
    && b.items.all (fun i =>
      i.count ≠ 0 && i.count ≤ 4096 && (sv.maxStackSize i.configId).any (· > 1))
    && (b.items.map (·.configId)).Nodup
    && b.itemUuids.all (· ≠ 0) && b.itemUuids.Nodup

def totalGrants (b : AssetBundle) : Nat := (b.items.map (·.count)).foldl (· + ·) 0

/-- A transferred item is what its bytes say, one piece of a kind that does not stack. -/
def itemTransferValid (t : AssetItemInstance) : Bool :=
  t.instanceProto.length ≤ maxInstanceBytes &&
    match sv.parseItem t.instanceProto with
    | none => false
    | some item => item.itemId ≠ 0 && item.itemId = t.itemUuid && item.configId = t.configId
        && item.size = 1 && t.stackSize = 1 && sv.maxStackSize t.configId = some 1

def petTransferValid (t : AssetPetInstance) : Bool :=
  t.instanceProto.length ≤ maxInstanceBytes &&
    match sv.parsePet t.instanceProto with
    | none => false
    | some pet => pet.petId ≠ 0 && pet.petId = t.petId && pet.petTableId = t.petTableId
        && pet.level = t.level && pet.name = t.name && sv.petKnown pet.petTableId

def validateCreditBundle (b : AssetBundle) : Bool :=
  !(hasUnsupportedP2Fields b || b.itemUuids ≠ [] || b.petId ≠ 0)
    && !(b.currencies.length + b.items.length + b.itemInstances.length < 1 && b.petInstance.isNone)
    && !(b.currencies.length > 4 || b.items.length > 16)
    && currenciesValid b
    && b.items.all (fun i => 1 ≤ i.count) && totalGrants b ≤ 4096
    && (b.items.map (·.configId)).Nodup
    && b.items.all (fun i => (sv.maxStackSize i.configId).isSome)
    && b.itemInstances.all (itemTransferValid sv) && (b.itemInstances.map (·.itemUuid)).Nodup
    && b.petInstance.all (petTransferValid sv)

def hasInstances (b : AssetBundle) : Bool :=
  b.itemUuids ≠ [] || b.itemInstances ≠ [] || b.petId ≠ 0 || b.petInstance.isSome

/-! ## Applying a bundle -/

/-- The call stops before any change: come back later, or a recorded rejection. -/
inductive Refusal where
  | retry (reason : Nat)
  | reject (reason : Nat)
deriving DecidableEq, Repr

/-- What came of the bundle. A debit by items or pets has a snapshot, if only an empty one.
`unrecorded` is the reason answered if recording failed now. -/
inductive Applied (A : Type) where
  | refused (r : Refusal)
  | done (assets : A) (isPartial : Bool) (snapshot : Option AssetSnapshot) (unrecorded : Nat)

def StepResult.ofExcept : Except Nat A → StepResult A
  | .ok a => .done a
  | .error e => .failed e

/-- The steps in order until one fails; the flag says whether something was changed. -/
def runSteps : List (A → StepResult A) → A → Bool → A × Bool × Option Nat
  | [], a, mutated => (a, mutated, none)
  | step :: steps, a, mutated =>
    match step a with
    | .done a' => runSteps steps a' true
    | .failed e => (a, mutated, some e)
    | .failedAfterChange a' e => (a', true, some e)

/-- A failure before any change is a retry, a later one makes the operation partial. -/
def applySteps (steps : List (A → StepResult A)) (a : A) (mutated : Bool)
    (snapshot : Option AssetSnapshot) (unrecorded : Nat) : Applied A :=
  match runSteps steps a mutated with
  | (a', _, none) => .done a' false snapshot unrecorded
  | (_, false, some e) => .refused (.retry e)
  | (a', true, some _) => .done a' true snapshot unrecorded

def debitItems (env : SceneEnv) (a : A) (b : AssetBundle) :
    Except Refusal (List AssetItemInstance) :=
  if b.items = [] ∧ b.itemUuids = [] then .ok []
  else if !env.hasBags then .error (.retry kAssetPlayerNotHere)
  else
    match sv.checkQuantities a b.items with
    | .versionSkew => .error (.retry kFeatureUnavailable)
    | .insufficient => .error (.reject kAssetInvalidBundle)
    | .enough =>
      if b.itemUuids ≠ [] ∧ !sv.canRemoveGuids a b.itemUuids then
        .error (.reject kAssetInvalidBundle)
      else b.itemUuids.mapM fun guid =>
        match sv.itemByGuid a guid with
        | none => .error (.reject kAssetInvalidBundle)
        | some t => if t.instanceProto.length > maxInstanceBytes then
            .error (.reject kAssetInvalidBundle)
          else .ok t

def debitPet (env : SceneEnv) (a : A) (b : AssetBundle) :
    Except Refusal (Option AssetPetInstance) :=
  if b.petId = 0 then .ok none
  else if !env.hasPets then .error (.retry kAssetPlayerNotHere)
  else if sv.activePet a = b.petId then .error (.reject kAssetInvalidBundle)
  else
    let pets := (sv.pets a).filter (·.petId = b.petId)
    if pets.any (·.instanceProto.length > maxInstanceBytes) then
      .error (.reject kAssetInvalidBundle)
    else
      match pets.getLast? with
      | none => .error (.reject kAssetInvalidBundle)
      | some pet => .ok (some pet)

/-- Everything that can be foreseen is checked before the first change. -/
def debitChecks (env : SceneEnv) (ledger : PlayerAssetOpLedgerComp) (request : AssetOpRequest)
    (a : A) : Except Refusal AssetSnapshot := do
  let b := request.bundle
  if b.currencies.any (fun c => !sv.canAfford a c.currencyType c.amount) then
    throw (.reject kAssetCurrencyInsufficient)
  let items ← debitItems sv env a b
  let pet ← debitPet sv env a b
  if !hasReceiptRoom sv ledger request ⟨items, pet⟩ then throw (.retry kAssetBagFull)
  return ⟨items, pet⟩

def debitSteps (b : AssetBundle) : List (A → StepResult A) :=
  (if b.items ≠ [] then [fun a => .ofExcept (sv.removeItemsExact a b.items)] else []) ++
  (if b.itemUuids ≠ [] then [fun a => sv.removeItemsByGuid a b.itemUuids] else []) ++
  (if b.petId ≠ 0 then [fun a => .ofExcept (sv.removePetForTrade a b.petId)] else []) ++
  b.currencies.map fun c a => .ofExcept (sv.deductCurrency a c)

def applyCurrencyDebit (a : A) (c : CurrencyAmount) : Applied A :=
  if !sv.canAfford a c.currencyType c.amount then .refused (.reject kAssetCurrencyInsufficient)
  else
    match sv.deductCurrency a c with
    | .error e => .refused (.retry e)
    | .ok a' => .done a' false none 0

def applyDebit (env : SceneEnv) (ledger : PlayerAssetOpLedgerComp) (request : AssetOpRequest)
    (a : A) : Applied A :=
  let b := request.bundle
  match b.currencies with
  | [c] =>
    if b.items = [] ∧ b.itemUuids = [] ∧ b.petId = 0 then applyCurrencyDebit sv a c
    else applyChecked
  | _ => applyChecked
where
  applyChecked : Applied A :=
    match debitChecks sv env ledger request a with
    | .error r => .refused r
    | .ok snapshot =>
      applySteps (debitSteps sv request.bundle) a false (some snapshot) kAssetInvalidBundle

def creditChecks (env : SceneEnv) (a : A) (b : AssetBundle) : Except Refusal Unit := do
  if b.currencies.any (fun c => sv.gainBlockedCurrency c.currencyType ||
      sv.currencyBlocked a c.currencyType) then
    throw (.reject kAssetBlocked)
  if b.items ≠ [] ∧ env.guidsAvailable < totalGrants b then throw (.retry 0)
  b.itemInstances.forM fun t =>
    match sv.parseItem t.instanceProto with
    | none => .error (.reject kAssetInvalidBundle)
    | some item =>
      if sv.gainBlockedItem item.configId then .error (.reject kAssetBlocked)
      else if sv.containsGuid a item.itemId then .error (.reject kAssetInvalidBundle)
      else .ok ()
  if (b.items ≠ [] ∨ b.itemInstances ≠ []) ∧ !sv.hasSpaceFor a b.items b.itemInstances then
    throw (.retry kAssetBagFull)
  if b.items.any (fun i => sv.gainBlockedItem i.configId) then throw (.reject kAssetBlocked)
  match b.petInstance with
  | none => return ()
  | some t =>
    match sv.parsePet t.instanceProto with
    | none => throw (.reject kAssetInvalidBundle)
    | some pet =>
      if !env.hasPets then throw (.retry kAssetPlayerNotHere)
      if (sv.pets a).length ≥ sv.maxPets then throw (.retry kAssetBagFull)
      if (sv.pets a).any (·.petId = pet.petId) then throw (.reject kAssetInvalidBundle)

def creditSteps (b : AssetBundle) : List (A → StepResult A) :=
  (b.itemInstances.map fun t a => .ofExcept (sv.putInstance a t)) ++
  (b.petInstance.toList.map fun t a => .ofExcept (sv.restorePet a t)) ++
  b.currencies.map fun c a => .ofExcept (sv.addCurrency a c)

/-- `ApplyCredit`: items first, since only they fail for a passing reason. -/
def applyCredit (env : SceneEnv) (request : AssetOpRequest) (a : A) : Applied A :=
  let b := request.bundle
  match creditChecks sv env a b with
  | .error r => .refused r
  | .ok () =>
    if b.items = [] then applySteps (creditSteps sv b) a false none 0
    else
      match sv.addItems a b.items with
      | .ok a' => applySteps (creditSteps sv b) a' true none 0
      | .error e =>
        if e = kBagItemNotStacked then .refused (.retry kAssetBagFull)
        else if e = kInvalidParameter then .refused (.reject kAssetBlocked)
        else .refused (.retry e)

/-! ## The call -/

structure Decision (A : Type) where
  player : Player A
  response : AssetOpResponse
  recorded : Option AssetOpRecordKind

def rejectAndRecord (persisted : Option PlayerAssetOpLedgerComp) (p : Player A)
    (request : AssetOpRequest) (reasonTipId : Nat) : Decision A :=
  match recordOutcome sv p.ledger request .rejected reasonTipId with
  | none => ⟨p, answer .unknown 0, none⟩
  | some ledger =>
    ⟨{ p with ledger },
      { answer .rejected reasonTipId with
        durable := isAssetOpDurable sv persisted request false },
      some .rejected⟩

/-- The second `StoreReceipt` of `ApplyDebit`. -/
def withSnapshot (comp : PlayerAssetOpLedgerComp) (request : AssetOpRequest) :
    Option AssetSnapshot → PlayerAssetOpLedgerComp
  | none => comp
  | some snapshot => storeReceipt sv comp request snapshot

def appliedKind (isPartial : Bool) : AssetOpRecordKind :=
  if isPartial then .appliedPartial else .applied

/-- The end of `ApplyDebit` and `ApplyCredit`: record the change and answer. -/
def settleApplied (persisted : Option PlayerAssetOpLedgerComp) (p : Player A)
    (request : AssetOpRequest) : Applied A → Decision A
  | .refused (.retry reason) => ⟨p, answer .retry reason, none⟩
  | .refused (.reject reason) => rejectAndRecord sv persisted p request reason
  | .done assets isPartial snapshot unrecorded =>
    match recordOutcome sv p.ledger request (appliedKind isPartial) 0 with
    | none => ⟨{ p with assets }, answer .unknown unrecorded, none⟩
    | some ledger =>
      ⟨⟨assets, withSnapshot sv ledger request snapshot⟩,
        ⟨.applied, if isPartial then kAssetPartialApplied else 0,
          isAssetOpDurable sv persisted request true, isPartial, snapshot⟩,
        some (appliedKind isPartial)⟩

def bundleRefused (rpc : AssetOpRpc) (stream : AssetOpStream) (b : AssetBundle) : Bool :=
  (rpc = .debit && stream = .guildDebit &&
      (b.currencies.length ≠ 1 || b.items ≠ [] || hasInstances b))
    || (stream ≠ .tradeDebit && stream ≠ .tradeCredit && hasInstances b)
    || !(if rpc = .debit then validateDebitBundle sv b else validateCreditBundle sv b)

def refuse (p : Player A) (outcome : AssetOpOutcome) (reason : Nat) : Decision A :=
  ⟨p, answer outcome reason, none⟩

/-- The steps 5 to 10 of `Decide`, for an operation that the ledger has not seen. -/
def decideNew (env : SceneEnv) (persisted : Option PlayerAssetOpLedgerComp) (p : Player A)
    (rpc : AssetOpRpc) (request : AssetOpRequest) : Decision A :=
  if env.frozen then refuse p .retry kAssetFrozen
  else if env.unregistering then refuse p .retry kAssetPlayerNotHere
  else if !env.fencedOwnership then refuse p .retry kAssetFrozen
  else if !hasReceiptRoom sv p.ledger request .empty then refuse p .retry kAssetBagFull
  else if rpc = .abortDebit then rejectAndRecord sv persisted p request 0
  else if env.inBattle then refuse p .retry kAssetInBattle
  else if !env.hasCurrency then refuse p .retry kAssetPlayerNotHere
  else if bundleRefused sv rpc request.stream request.bundle then
    rejectAndRecord sv persisted p request kAssetInvalidBundle
  else if request.bundle.currencies.any (fun c => !sv.knownCurrency c.currencyType) then
    refuse p .retry kFeatureUnavailable
  else if (request.bundle.items ≠ [] ∨ request.bundle.itemUuids ≠ [] ∨
      request.bundle.itemInstances ≠ []) ∧ !env.hasBags then
    refuse p .retry kAssetPlayerNotHere
  else
    settleApplied sv persisted p request
      (if rpc = .debit then applyDebit sv env p.ledger request p.assets
        else applyCredit sv env request p.assets)

/-- Step 4 of `Decide`: what the ledger says of the operation. -/
def decideKnown (env : SceneEnv) (persisted : Option PlayerAssetOpLedgerComp) (p : Player A)
    (rpc : AssetOpRpc) (request : AssetOpRequest) : Decision A :=
  match classifyAssetOpSeq (findAssetOpStream p.ledger request.stream) request.streamEpoch
      request.seq, findAssetOpStream p.ledger request.stream with
  | .invalid, _ => refuse p .unknown kAssetInvalidBundle
  | .staleEpoch, _ | .behindWindow, _ | .jumpTooFar, _ => refuse p .unknown 0
  | .applied, some l => ⟨p, answerSeenSeq sv persisted l request true, none⟩
  | .rejected, some l => ⟨p, answerSeenSeq sv persisted l request false, none⟩
  | .applied, none | .rejected, none => refuse p .unknown 0
  | .unseen, _ | .aheadOfWindow, _ => decideNew sv env persisted p rpc request

/-- `Decide`. `persisted` is the ledger of the bytes last written to Redis. -/
def decideAssetOp (env : SceneEnv) (persisted : Option PlayerAssetOpLedgerComp) (p : Player A)
    (rpc : AssetOpRpc) (request : AssetOpRequest) : Decision A :=
  if request.playerId = 0 || request.seq = 0 || request.streamEpoch = 0 then
    refuse p .unknown kAssetInvalidBundle
  else
    match findStreamRule request.stream with
    | none => refuse p .unknown kAssetInvalidBundle
    | some rule =>
      if rpc ≠ .abortDebit ∧ (rule.direction ≠ rpc ∨ request.txType ∉ rule.allowedTx) then
        refuse p .unknown kAssetInvalidBundle
      else if !env.authOk then refuse p .unknown kAssetAuthFailed
      else if !env.present then refuse p .notHere kAssetPlayerNotHere
      else if env.ledgerInvalid then refuse p .retry kAssetBlocked
      else if !env.hasLedger then refuse p .retry kAssetPlayerNotHere
      else decideKnown sv env persisted p rpc request

/-! ## What a bundle asks for -/

/-- The steps are made in order: all of them, or (a partial change) those before one that
fails, once something was changed. -/
inductive Does : List (A → StepResult A) → Bool → A → A → Bool → Prop
  | all (mutated : Bool) (a : A) : Does [] mutated a a false
  | next {step : A → StepResult A} {steps : List (A → StepResult A)} {mutated isPartial : Bool}
      {a a' b : A} (hstep : step a = .done a') (hnext : Does steps true a' b isPartial) :
    Does (step :: steps) mutated a b isPartial
  | stopped {step : A → StepResult A} (steps : List (A → StepResult A)) {a : A} {e : Nat}
      (hstep : step a = .failed e) : Does (step :: steps) true a a true
  | torn {step : A → StepResult A} (steps : List (A → StepResult A)) (mutated : Bool) {a a' : A}
      {e : Nat} (hstep : step a = .failedAfterChange a' e) : Does (step :: steps) mutated a a' true

/-- What a bundle asks for in a direction: to take what is in it, or to give it. -/
def bundleSteps (direction : AssetOpRpc) (b : AssetBundle) : List (A → StepResult A) :=
  if direction = .debit then debitSteps sv b
  else
    (if b.items ≠ [] then [fun a => .ofExcept (sv.addItems a b.items)] else []) ++ creditSteps sv b

/-- A change of the assets by the request: its bundle, in the direction of its stream. -/
def Effect (request : AssetOpRequest) (a a' : A) (isPartial : Bool) : Prop :=
  ∃ rule, findStreamRule request.stream = some rule ∧
    Does (bundleSteps sv rule.direction request.bundle) false a a' isPartial

/-! ## What a call can do -/

def IsNew (comp : PlayerAssetOpLedgerComp) (request : AssetOpRequest) : Prop :=
  classifyAssetOpSeq (findAssetOpStream comp request.stream) request.streamEpoch request.seq
      = .unseen ∨
    classifyAssetOpSeq (findAssetOpStream comp request.stream) request.streamEpoch request.seq
      = .aheadOfWindow

/-- Every way in which a call can end. -/
inductive DecisionOf (persisted : Option PlayerAssetOpLedgerComp) (p : Player A)
    (request : AssetOpRequest) : Decision A → Prop
  | refused (outcome : AssetOpOutcome) (reason : Nat) :
    DecisionOf persisted p request ⟨p, answer outcome reason, none⟩
  | seen (l : AssetOpStreamLedger) (applied : Bool) :
    DecisionOf persisted p request ⟨p, answerSeenSeq sv persisted l request applied, none⟩
  | rejected (reason : Nat) (ledger : PlayerAssetOpLedgerComp) (hnew : IsNew p.ledger request)
      (hrecord : recordOutcome sv p.ledger request .rejected reason = some ledger) :
    DecisionOf persisted p request ⟨{ p with ledger },
      { answer .rejected reason with durable := isAssetOpDurable sv persisted request false },
      some .rejected⟩
  | applied (assets : A) (isPartial : Bool) (ledger : PlayerAssetOpLedgerComp)
      (snapshot : Option AssetSnapshot) (reason : Nat) (hnew : IsNew p.ledger request)
      (heffect : Effect sv request p.assets assets isPartial)
      (hrecord : recordOutcome sv p.ledger request (appliedKind isPartial) 0 = some ledger) :
    DecisionOf persisted p request ⟨⟨assets, withSnapshot sv ledger request snapshot⟩,
      ⟨.applied, reason, isAssetOpDurable sv persisted request true, isPartial, snapshot⟩,
      some (appliedKind isPartial)⟩

variable {sv} {persisted : Option PlayerAssetOpLedgerComp} {p : Player A}
  {request : AssetOpRequest}

section

variable {steps : List (A → StepResult A)} {mutated isPartial : Bool} {a b : A}
  {snapshot snapshot' : Option AssetSnapshot} {unrecorded unrecorded' : Nat}

theorem does_of_applySteps
    (h : applySteps steps a mutated snapshot unrecorded = .done b isPartial snapshot' unrecorded') :
    Does steps mutated a b isPartial := by
  induction steps generalizing a mutated with
  | nil =>
    cases h
    exact .all _ _
  | cons step steps ih =>
    unfold applySteps runSteps at h
    cases hstep : step a with
    | done a' =>
      rw [hstep] at h
      exact .next hstep (ih h)
    | failed e =>
      rw [hstep] at h
      cases mutated <;> cases h
      exact .stopped steps hstep
    | failedAfterChange a' e =>
      rw [hstep] at h
      cases h
      exact .torn steps mutated hstep

theorem does_of_applyDebit {env : SceneEnv} {ledger : PlayerAssetOpLedgerComp}
    (h : applyDebit sv env ledger request a = .done b isPartial snapshot unrecorded) :
    Does (debitSteps sv request.bundle) false a b isPartial := by
  have hchecked (h : applyDebit.applyChecked sv env ledger request a =
      .done b isPartial snapshot unrecorded) :
      Does (debitSteps sv request.bundle) false a b isPartial := by
    unfold applyDebit.applyChecked at h
    split at h
    · cases h
    · exact does_of_applySteps h
  unfold applyDebit at h
  dsimp only at h
  split at h
  next c hc =>
    split at h
    next hsingle =>
      unfold applyCurrencyDebit at h
      split at h
      · cases h
      split at h
      · cases h
      next hdeduct =>
        cases h
        have hsteps : debitSteps sv request.bundle =
            [fun a => .ofExcept (sv.deductCurrency a c)] := by
          simp [debitSteps, hsingle, hc]
        rw [hsteps]
        exact .next (by rw [hdeduct]; rfl) (.all _ _)
    · exact hchecked h
  · exact hchecked h

theorem does_of_applyCredit {env : SceneEnv}
    (h : applyCredit sv env request a = .done b isPartial snapshot unrecorded) :
    Does (bundleSteps sv .credit request.bundle) false a b isPartial := by
  unfold applyCredit at h
  dsimp only at h
  split at h
  · cases h
  split at h
  next hitems =>
    have hsteps : bundleSteps sv .credit request.bundle = creditSteps sv request.bundle := by
      simp [bundleSteps, hitems]
    rw [hsteps]
    exact does_of_applySteps h
  next hitems =>
    have hsteps : bundleSteps sv .credit request.bundle =
        (fun a => .ofExcept (sv.addItems a request.bundle.items)) ::
          creditSteps sv request.bundle := by
      simp [bundleSteps, hitems]
    split at h
    next a' hadd =>
      rw [hsteps]
      exact .next (by rw [hadd]; rfl) (does_of_applySteps h)
    · split at h
      · cases h
      split at h <;> cases h

theorem Effect.of_apply {env : SceneEnv} {ledger : PlayerAssetOpLedgerComp} {rpc : AssetOpRpc}
    {rule : AssetOpStreamRule} (hrule : findStreamRule request.stream = some rule)
    (hdirection : rule.direction = rpc)
    (h : (if rpc = .debit then applyDebit sv env ledger request a else
      applyCredit sv env request a) = .done b isPartial snapshot unrecorded) :
    Effect sv request a b isPartial := by
  refine ⟨rule, hrule, ?_⟩
  rw [hdirection]
  split at h
  next hdebit =>
    rw [hdebit]
    exact does_of_applyDebit h
  next hcredit =>
    have hsteps : bundleSteps sv rpc request.bundle = bundleSteps sv .credit request.bundle := by
      simp [bundleSteps, hcredit]
    rw [hsteps]
    exact does_of_applyCredit h

end

section

variable (hnew : IsNew p.ledger request)

include hnew

theorem exists_recordOutcome (kind : AssetOpRecordKind) (reason : Nat) :
    ∃ ledger, recordOutcome sv p.ledger request kind reason = some ledger := by
  have hmut := hnew
  rw [IsNew, ← LedgerAgrees.classify_mutable] at hmut
  have hsome : (recordInStream p.ledger request kind reason).isSome := by
    unfold recordInStream recordAssetOpOutcome
    rcases hmut with h | h <;> simp [h]
  obtain ⟨recorded, hrecorded⟩ := isSome_iff_exists.1 hsome
  unfold recordOutcome
  rcases hnew with h | h <;> simp [h, hrecorded]

theorem rejectAndRecord_of (reason : Nat) :
    DecisionOf sv persisted p request (rejectAndRecord sv persisted p request reason) := by
  have hexists : ∃ ledger, recordOutcome sv p.ledger request .rejected reason = some ledger :=
    exists_recordOutcome hnew .rejected reason
  obtain ⟨ledger, hrecord⟩ := hexists
  rw [rejectAndRecord, hrecord]
  exact .rejected reason ledger hnew hrecord

theorem settleApplied_of {applied : Applied A}
    (heffect : ∀ assets isPartial snapshot unrecorded,
      applied = .done assets isPartial snapshot unrecorded →
        Effect sv request p.assets assets isPartial) :
    DecisionOf sv persisted p request (settleApplied sv persisted p request applied) := by
  cases applied with
  | refused r =>
    cases r with
    | retry reason => exact .refused _ _
    | reject reason => exact rejectAndRecord_of hnew reason
  | done assets isPartial snapshot unrecorded =>
    have hexists : ∃ ledger, recordOutcome sv p.ledger request (appliedKind isPartial) 0 =
        some ledger := exists_recordOutcome hnew _ 0
    obtain ⟨ledger, hrecord⟩ := hexists
    simp only [settleApplied, hrecord]
    exact .applied assets isPartial ledger snapshot _ hnew (heffect _ _ _ _ rfl) hrecord

end

variable {d : Decision A} {comp' : PlayerAssetOpLedgerComp} {kind : AssetOpRecordKind}
  {reason : Nat}

theorem DecisionOf.ite {c : Prop} [Decidable c] {e : Decision A}
    (hd : DecisionOf sv persisted p request d) (he : DecisionOf sv persisted p request e) :
    DecisionOf sv persisted p request (if c then d else e) := by
  split
  · exact hd
  · exact he

section

variable {rpc : AssetOpRpc} {rule : AssetOpStreamRule}
  (hrule : findStreamRule request.stream = some rule)
  (hdirection : rpc ≠ .abortDebit → rule.direction = rpc)

include hrule hdirection

theorem decideNew_of (hnew : IsNew p.ledger request) (env : SceneEnv) :
    DecisionOf sv persisted p request (decideNew sv env persisted p rpc request) := by
  -- the gates before an abort, the abort, the gates before the bundle, the bundle
  refine .ite (.refused _ _) (.ite (.refused _ _) (.ite (.refused _ _) (.ite (.refused _ _) ?_)))
  split
  · exact rejectAndRecord_of hnew _
  rename_i hrpc
  refine .ite (.refused _ _) (.ite (.refused _ _) ?_)
  refine .ite (rejectAndRecord_of hnew _) (.ite (.refused _ _) (.ite (.refused _ _) ?_))
  exact settleApplied_of hnew fun _ _ _ _ h => .of_apply hrule (hdirection hrpc) h

theorem decideKnown_of (env : SceneEnv) :
    DecisionOf sv persisted p request (decideKnown sv env persisted p rpc request) := by
  unfold decideKnown
  split
  case h_9 _ _ hc => exact decideNew_of hrule hdirection (.inl hc) env
  case h_10 _ _ hc => exact decideNew_of hrule hdirection (.inr hc) env
  all_goals first
    | exact .refused _ _
    | exact .seen _ _

end

theorem decideAssetOp_of (env : SceneEnv) (rpc : AssetOpRpc) :
    DecisionOf sv persisted p request (decideAssetOp sv env persisted p rpc request) := by
  refine .ite (.refused _ _) ?_
  split
  · exact .refused _ _
  rename_i rule hrule
  split
  · exact .refused _ _
  next hallowed =>
    refine .ite (.refused _ _) (.ite (.refused _ _) (.ite (.refused _ _) (.ite (.refused _ _) ?_)))
    refine decideKnown_of hrule (fun hrpc => ?_) env
    by_contra hdirection
    exact hallowed ⟨hrpc, .inl hdirection⟩

/-! ## What the ledger and the answers say -/

variable {comp : PlayerAssetOpLedgerComp} {decided : Decided}

section

variable (h : LedgerAgrees comp decided)

include h

/-- Receipts do not matter for what the ledger says. -/
theorem LedgerAgrees.storeReceipt (snapshot : AssetSnapshot) :
    LedgerAgrees (storeReceipt sv comp request snapshot) decided := by
  have hold := h.mutable request.stream
  have hagrees : (addReceipt sv request snapshot
      (mutableAssetOpStream comp request.stream)).Agrees decided := { hold with }
  exact h.change (f := addReceipt sv request snapshot) (fun _ => rfl) hagrees

theorem LedgerAgrees.withSnapshot (snapshot : Option AssetSnapshot) :
    LedgerAgrees (withSnapshot sv comp request snapshot) decided := by
  cases snapshot with
  | none => exact h
  | some snapshot => exact h.storeReceipt snapshot

theorem LedgerAgrees.recordInStream (hr : recordInStream comp request kind reason = some comp') :
    LedgerAgrees comp' (decided ++ [(request.key, kind)]) := by
  unfold AssetOp.recordInStream at hr
  split at hr
  next hsome =>
    cases hr
    obtain ⟨l', hl'⟩ := isSome_iff_exists.1 hsome
    exact h.record hl'
  · cases hr

theorem LedgerAgrees.recordOutcome (hr : recordOutcome sv comp request kind reason = some comp') :
    LedgerAgrees comp' (decided ++ [(request.key, kind)]) := by
  have hstored : ∃ recorded, AssetOp.recordInStream comp request kind reason = some recorded ∧
      AssetOp.storeReceipt sv recorded request .empty = comp' := by
    unfold AssetOp.recordOutcome at hr
    split at hr
    · exact map_eq_some_iff.1 hr
    · exact map_eq_some_iff.1 hr
    · cases hr
  obtain ⟨recorded, hrecorded, rfl⟩ := hstored
  exact (h.recordInStream hrecorded).storeReceipt .empty

/-- Durable means: recorded, with the answered outcome, in the bytes that were written. -/
theorem decided_of_durable {b : Bool} (hd : isAssetOpDurable sv (some comp) request b = true) :
    ∃ k, k.isApplied = b ∧ (request.key, k) ∈ decided := by
  simp only [isAssetOpDurable] at hd
  split at hd
  · cases hd
  rename_i l hl
  split at hd
  · cases hd
  refine h.decided_of_seen ?_
  rw [hl]
  split at hd
  next hc => simp [hc, hd]
  next hc => simp_all
  · cases hd

end

theorem DecisionOf.durable (h : DecisionOf sv persisted p request d)
    (hd : d.response.durable = true) :
    ∃ b, d.response.outcome = (if b then .applied else .rejected) ∧
      isAssetOpDurable sv persisted request b = true := by
  cases h with
  | refused => cases hd
  | seen l applied =>
    simp only [answerSeenSeq] at hd ⊢
    split at hd
    · cases hd
    split at hd
    · cases hd
    next hm =>
      refine ⟨applied, ?_, ?_⟩
      · cases applied <;> simp [hm]
      · cases applied <;> exact hd
  | rejected => exact ⟨false, rfl, hd⟩
  | applied => exact ⟨true, rfl, hd⟩

end System

end Mmorpg.AssetOp
