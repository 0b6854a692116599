import Mmorpg.Bags.ItemStore
import Mmorpg.Bags.Layout

/-!
# Bags

A bag joins an item store with a layout (bag_system.cpp). Its operations check first and change
both layers in pairs. `addItems` plans a batch per config, mints the guids the plan asks for, and
commits the entries one by one to copies of both layers, which replace the layers at the end.
`Op` are the operations as calls with arbitrary arguments, `Bag.step` their effect on a bag.
-/

namespace Mmorpg.Bags

inductive Tip where
  | invalidTableId
  | invalidTableData
  | featureUnavailable
  | bagDeleteItemFindGuid
  | bagDeleteItemAlreadyHasGuid
  | bagAddItemInvalidGuid
  | bagAddItemInvalidParam
  | bagAddItemBagFull
  | bagItemNotStacked
  | bagInsufficientItems
  | bagDelItemPos
  | bagDelItemConfig
  | bagDelItemGuid
  | bagDelItemFindItem
  | bagDelItemSize
  | bagItemDeletionSizeMismatch
deriving DecidableEq, Repr

structure Bag where
  store : ItemStore
  layout : Layout
  /-- `IAdmissionPolicy::Accepts` -/
  admission : Nat → Bool
  /-- `IEvictionPolicy::SelectVictims` -/
  eviction : Nat → ItemStore → Layout → List Guid

structure DestroyedInstance where
  guid : Guid
  configId : Nat
  size : Nat
deriving DecidableEq, Repr

structure DrainedInstance where
  guid : Guid
  configId : Nat
  amount : Nat
deriving DecidableEq, Repr

def sortedByConfigId (counts : ItemCountMap) : List (Nat × Nat) :=
  (counts.entries.map fun e => (e.1, e.2)).insertionSort (fun a b => a.1 ≤ b.1)

def countOf (counts : ItemCountMap) (configId : Nat) : Nat := (counts.lookup configId).getD 0

/-- `EvictOldestFirst::SelectVictims` -/
def evictOldestFirst (needed : Nat) (store : ItemStore) (_ : Layout) : List Guid :=
  if needed = 0 then []
  else if store.items.length < needed then []
  else (store.inAcquireOrder.take needed).map (·.itemId)

/-- `RejectWhenFull::SelectVictims` -/
def rejectWhenFull (_ : Nat) (_ : ItemStore) (_ : Layout) : List Guid := []

namespace Bag

variable (cfg : Tables)

def isLayerConsistent (b : Bag) : Bool :=
  b.store.items.length = b.layout.occupiedSlotCount &&
    b.layout.capacity ≥ b.layout.occupiedSlotCount

def destroyItem (b : Bag) (guid : Guid) : Bag :=
  { b with store := b.store.erase guid, layout := b.layout.remove guid }

/-! ## Removing -/

def destroyDrained (b : Bag) : List ItemStore.StackDrain → Bag
  | [] => b
  | drain :: drains =>
    if (b.store.find drain.guid).any (·.size = 0) then
      (b.destroyItem drain.guid).destroyDrained drains
    else b.destroyDrained drains

def drainRank (b : Bag) (guid : Guid) : Nat := (b.layout.slotOf guid).getD invalidSlot

def drainOneConfig (b : Bag) (configId count : Nat) : Bag × List DrainedInstance :=
  if count = 0 then (b, [])
  else
    let (store, drains) := b.store.drainStacks configId count b.drainRank
    ({ b with store := store }.destroyDrained drains,
      drains.map fun d => ⟨d.guid, configId, d.amount⟩)

def drainAll (b : Bag) : List (Nat × Nat) → Bag × List DrainedInstance
  | [] => (b, [])
  | (configId, count) :: counts =>
    let (b, drained) := b.drainOneConfig configId count
    let (b, rest) := b.drainAll counts
    (b, drained ++ rest)

def checkItemsAvailable (b : Bag) (required : ItemCountMap) : Option Tip :=
  match b.store.checkQuantities required with
  | .enough => none
  | .versionSkew => some .featureUnavailable
  | .insufficient => some .bagInsufficientItems

def removeItems (b : Bag) (itemsToRemove : ItemCountMap) :
    Except Tip (List DrainedInstance) × Bag :=
  match b.checkItemsAvailable itemsToRemove with
  | some tip => (.error tip, b)
  | none =>
    let (b, drained) := b.drainAll (sortedByConfigId itemsToRemove)
    (.ok drained, b)

def removeItemsClamped (b : Bag) (itemsToRemove : ItemCountMap) :
    Except Tip (List DrainedInstance) × Bag :=
  let (b, drained) := b.drainAll (sortedByConfigId itemsToRemove)
  (.ok drained, b)

structure RemoveItemByPosParam where
  itemGuid : Guid
  itemConfigId : Nat
  pos : Nat
  size : Nat
deriving DecidableEq, Repr

def removeItemByPos (b : Bag) (param : RemoveItemByPosParam) : Except Tip Unit × Bag :=
  if param.size = 0 then (.error .bagDelItemSize, b)
  else
    match b.layout.guidAt param.pos with
    | none => (.error .bagDelItemPos, b)
    | some guidAtPos =>
      if guidAtPos ≠ param.itemGuid then (.error .bagDelItemGuid, b)
      else
        match b.store.find param.itemGuid with
        | none => (.error .bagDelItemFindItem, b)
        | some item =>
          if item.configId ≠ param.itemConfigId then (.error .bagDelItemConfig, b)
          else if item.size < param.size then (.error .bagItemDeletionSizeMismatch, b)
          else
            let left := item.size - param.size
            let b := { b with store := b.store.setSize param.itemGuid left }
            if left = 0 then (.ok (), b.destroyItem param.itemGuid) else (.ok (), b)

def removeItem (b : Bag) (guid : Guid) : Except Tip Unit × Bag :=
  if !b.store.contains guid then (.error .bagDeleteItemFindGuid, b)
  else (.ok (), b.destroyItem guid)

/-! ## Rearranging -/

def ordersBefore (a b : ItemComp) : Prop :=
  a.configId < b.configId ∨ (a.configId = b.configId ∧
    (a.size > b.size ∨ (a.size = b.size ∧ ItemStore.acquiredBefore a b)))

instance : DecidableRel ordersBefore := fun a b =>
  inferInstanceAs (Decidable (a.configId < b.configId ∨ (a.configId = b.configId ∧
    (a.size > b.size ∨ (a.size = b.size ∧ ItemStore.acquiredBefore a b)))))

def desiredOrder (b : Bag) : List Guid :=
  (b.store.inAcquireOrder.insertionSort ordersBefore).map (·.itemId)

/-- The slots from `pos` on hold instances whose configs do not fall, and in a config the sizes do
not rise. -/
def isOrderedFrom (b : Bag) : Nat → Nat → Option ItemComp → Bool
  | 0, _, _ => true
  | count + 1, pos, previous =>
    match (b.layout.slots.lookup pos).bind b.store.find with
    | none => false
    | some item =>
      let ordered := match previous with
        | none => true
        | some p => !(item.configId < p.configId ||
            (item.configId = p.configId && item.size > p.size))
      ordered && b.isOrderedFrom count (pos + 1) (some item)

def isOrderedByConfigThenSize (b : Bag) : Bool :=
  b.isOrderedFrom b.layout.slots.keys.length 0 none

inductive CompactPolicy where
  | mergeOnly
  | mergeAndReorder
deriving DecidableEq, Repr

def destroyAll (b : Bag) : List Guid → Bag × List DestroyedInstance
  | [] => (b, [])
  | guid :: guids =>
    let gone := (b.store.find guid).map fun item =>
      DestroyedInstance.mk guid item.configId item.size
    let (b, destroyed) := (b.destroyItem guid).destroyAll guids
    (b, gone.toList ++ destroyed)

def mergeAndCompact (b : Bag) (policy : CompactPolicy) : Bag × Bool × List DestroyedInstance :=
  let willReorder := policy = .mergeAndReorder && b.layout.supportsCompaction
  let nothingToMerge := !b.store.hasMergeablePartials cfg
  let nothingToReclaim := !b.store.hasEmptyInstances
  let layoutAlreadyFine := !willReorder || (b.layout.isCompact && b.isOrderedByConfigThenSize)
  if nothingToMerge && nothingToReclaim && layoutAlreadyFine then (b, false, [])
  else
    let b := { b with store := b.store.mergePartialStacks cfg }
    let (b, destroyed) := b.destroyAll b.store.collectEmptyInstances
    if willReorder then
      ({ b with layout := b.layout.applyOrder b.desiredOrder }, true, destroyed)
    else (b, true, destroyed)

/-! ## Places -/

def equipKindFor (configId : Nat) : Nat :=
  match cfg.item configId with
  | none => invalidSlot
  | some row => row.equipKind

def slotRowAcceptsKind (row : EquipSlotRow) (kind : Nat) (layout : Layout) : Bool :=
  row.equipKind = kind && row.id < layout.capacity

def isFreeSlotForEquipKind (row : EquipSlotRow) (kind : Nat) (layout : Layout) : Bool :=
  slotRowAcceptsKind row kind layout && (layout.guidAt row.id).isNone

def findFreeSlotForKind (kind : Nat) (layout : Layout) : Option Nat :=
  if kind = 0 then none
  else (cfg.equipSlots.find? (isFreeSlotForEquipKind · kind layout)).map (·.id)

def countFreeSlotsForKind (kind : Nat) (layout : Layout) : Nat :=
  if kind = 0 then 0
  else ((cfg.equipSlots.filter (isFreeSlotForEquipKind · kind layout)).map (·.id)).dedup.length

def slotsAcceptingKind (kind : Nat) (layout : Layout) : List Nat :=
  if kind = 0 || !layout.hasSlotSemantics then []
  else
    (((cfg.equipSlots.filter (slotRowAcceptsKind · kind layout)).map (·.id)).dedup).insertionSort
      (· ≤ ·)

/-- `FootprintFor`: every instance takes one cell. -/
def footprintFor (_configId : Nat) : Footprint := singleCell

def placeInstance (layout : Layout) (guid : Guid) (configId : Nat) : Option Nat × Layout :=
  let footprint := footprintFor configId
  if !layout.hasSlotSemantics then layout.place guid footprint
  else
    let kind := equipKindFor cfg configId
    if kind = 0 then (none, layout)
    else
      match findFreeSlotForKind cfg kind layout with
      | none => (none, layout)
      | some slot =>
        match layout.placeAt guid slot footprint with
        | (true, layout) => (some slot, layout)
        | (false, layout) => (none, layout)

/-- The instances by kind of equipment, or `none` for a config that is no equipment. -/
def neededByKind : List (Nat × Nat) → Option ItemCountMap
  | [] => some ∅
  | (configId, instances) :: rest =>
    match neededByKind rest with
    | none => none
    | some needed =>
      if instances = 0 then some needed
      else
        let kind := equipKindFor cfg configId
        if kind = 0 then none
        else some (needed.insert kind ((countOf needed kind + instances) % countRange))

def canReserve (layout : Layout) (instancesByConfig : ItemCountMap) (totalInstances : Nat) : Bool :=
  if !layout.canFit totalInstances singleCell then false
  else if !layout.hasSlotSemantics then true
  else
    match neededByKind cfg (instancesByConfig.entries.map fun e => (e.1, e.2)) with
    | none => false
    | some needed =>
      needed.entries.all fun e => decide (e.2 ≤ countFreeSlotsForKind cfg e.1 layout)

/-! ## Planning a batch -/

def planConfigs (b : Bag) (exclude : List Guid) :
    List (Nat × Nat) → Except Tip (ItemCountMap × Nat)
  | [] => .ok (∅, 0)
  | (configId, count) :: counts =>
    match cfg.item configId with
    | none => .error .invalidTableId
    | some row =>
      if row.maxStackSize = 0 then .error .invalidTableData
      else if !b.admission configId then .error .bagAddItemInvalidParam
      else
        let freeRoom := b.store.measureFreeRoom cfg exclude configId
        let instances := ItemStore.stacksNeededFor (count - freeRoom) row.maxStackSize
        match b.planConfigs exclude counts with
        | .error tip => .error tip
        | .ok (byConfig, total) =>
          let byConfig := if instances > 0 then
              byConfig.insert configId ((countOf byConfig configId + instances) % countRange)
            else byConfig
          .ok (byConfig, instances + total)

def planInstances (b : Bag) (itemsToAdd : ItemCountMap) (exclude : List Guid) :
    Except Tip (ItemCountMap × Nat) :=
  b.planConfigs cfg exclude (sortedByConfigId itemsToAdd)

def planNeed (b : Bag) (units separate : ItemCountMap) (exclude : List Guid) :
    Option (ItemCountMap × Nat) :=
  match b.planInstances cfg units exclude with
  | .error _ => none
  | .ok (need, total) =>
    some (separate.entries.foldl (fun (need, total) e =>
      (need.insert e.1 ((countOf need e.1 + e.2) % countRange), total + e.2)) (need, total))

/-- Victims are added until the cells they leave are enough for the plan without them. -/
def evictionRounds (b : Bag) (units separate : ItemCountMap) (freeCells : Nat) :
    Nat → List Guid → Option (List Guid × Nat)
  | 0, _ => none
  | rounds + 1, victims =>
    match b.planNeed cfg units separate victims with
    | none => none
    | some (_, total) =>
      let shortfall := total - freeCells
      if shortfall ≤ victims.length then some (victims, total)
      else
        let picked := b.eviction shortfall b.store b.layout
        if picked.length < shortfall then none
        else
          let grown := picked.foldl (fun vs guid => if guid ∈ vs then vs else vs ++ [guid]) victims
          if grown.length = victims.length then none
          else b.evictionRounds units separate freeCells rounds grown

def planEviction (b : Bag) (units separate : ItemCountMap) (allowEviction : Bool) :
    Option (List Guid × Nat) :=
  match b.planNeed cfg units separate [] with
  | none => none
  | some (need, needTotal) =>
    if canReserve cfg b.layout need needTotal then some ([], needTotal)
    else if b.layout.hasSlotSemantics then none
    else if !allowEviction then none
    else if b.layout.freeCells ≥ needTotal then none
    else b.evictionRounds cfg units separate b.layout.freeCells (b.store.items.length + 1) []

/-! ## Adding a batch -/

structure Demand where
  stackUnits : ItemCountMap
  separateInstances : ItemCountMap
  preassigned : List Guid

def isPreassigned (maxStack : Nat) (item : ItemComp) : Bool :=
  maxStack = 1 && item.size = 1 && !isInvalidGuid item

def addPreassigned (b : Bag) (maxStack : Nat) (demand : Demand) (item : ItemComp) :
    Except Tip Demand :=
  if isPreassigned maxStack item then
    if b.store.contains item.itemId || item.itemId ∈ demand.preassigned then
      .error .bagDeleteItemAlreadyHasGuid
    else .ok { demand with preassigned := demand.preassigned ++ [item.itemId] }
  else .ok demand

def addDemand (b : Bag) (demand : Demand) (item : ItemComp) : Except Tip Demand :=
  if item.configId = 0 || item.size = 0 then .error .bagAddItemInvalidParam
  else
    match cfg.item item.configId with
    | none => .error .invalidTableId
    | some row =>
      if row.maxStackSize = 0 then .error .invalidTableData
      else if !b.admission item.configId then .error .bagAddItemInvalidParam
      else
        let independent := isIndependentInstance item
        let units := if independent then demand.separateInstances else demand.stackUnits
        let added := if independent then ItemStore.stacksNeededFor item.size row.maxStackSize
          else item.size
        let sum := countOf units item.configId + added
        if sum ≥ countRange then .error .bagAddItemInvalidParam
        else
          let demand := if independent then
              { demand with separateInstances := units.insert item.configId sum }
            else { demand with stackUnits := units.insert item.configId sum }
          b.addPreassigned row.maxStackSize demand item

def addDemands (b : Bag) (demand : Demand) : List ItemComp → Except Tip Demand
  | [] => .ok demand
  | item :: items =>
    match b.addDemand cfg demand item with
    | .error tip => .error tip
    | .ok demand => b.addDemands demand items

/-- Guids from the supply, `next` being the number of the call. -/
def mintGuids (store : ItemStore) (mint : Nat → Guid) :
    Nat → Nat → List Guid → Except Tip (List Guid)
  | 0, _, _ => .ok []
  | count + 1, next, reserved =>
    let guid := mint next
    if guid = 0 || guid = invalidGuid || store.contains guid || guid ∈ reserved then
      .error .bagAddItemInvalidParam
    else
      match mintGuids store mint count (next + 1) (guid :: reserved) with
      | .error tip => .error tip
      | .ok minted => .ok (guid :: minted)

def evictFrom (candidate : ItemStore) : List Guid → Except Tip (ItemStore × List DestroyedInstance)
  | [] => .ok (candidate, [])
  | guid :: victims =>
    match candidate.find guid with
    | none => .error .invalidTableData
    | some item =>
      match evictFrom (candidate.erase guid) victims with
      | .error tip => .error tip
      | .ok (candidate, evicted) => .ok (candidate, ⟨guid, item.configId, item.size⟩ :: evicted)

/-- The initialiser may only write data of the instance. -/
def initializeNewInstance (initializer : Option (ItemComp → ItemComp)) (piece : ItemComp) :
    ItemComp :=
  match initializer with
  | none => piece
  | some f =>
    if piece.equip.isSome then piece
    else
      { f piece with
        itemId := piece.itemId
        configId := piece.configId
        size := piece.size
        acquireSeq := piece.acquireSeq }

structure Commit where
  store : ItemStore
  /-- Guids that are not used yet. -/
  minted : List Guid
  newItems : List (Guid × Nat)
  written : List Guid

def nextGuid (proto : ItemComp) (maxStack : Nat) (c : Commit) : Option Guid :=
  if isPreassigned maxStack proto then some proto.itemId else c.minted.head?

/-- The instance before it is inserted: of the given guid, and initialised if it is unique. -/
def newPiece (initializer : Option (ItemComp → ItemComp)) (proto : ItemComp)
    (maxStack amount : Nat) (guid : Guid) : ItemComp :=
  let piece := { proto with itemId := guid, size := amount }
  if maxStack = 1 then initializeNewInstance initializer piece else piece

def addPiece (initializer : Option (ItemComp → ItemComp)) (proto : ItemComp) (maxStack amount : Nat)
    (c : Commit) : Except Tip Commit :=
  match nextGuid proto maxStack c with
  | none => .error .invalidTableData
  | some guid =>
    let piece := newPiece initializer proto maxStack amount guid
    match c.store.insert piece with
    | none => .error .bagDeleteItemAlreadyHasGuid
    | some store =>
      .ok ⟨store, if isPreassigned maxStack proto then c.minted else c.minted.tail,
        c.newItems ++ [(piece.itemId, proto.configId)], c.written ++ [piece.itemId]⟩

def pieceAmounts (maxStack : Nat) : Nat → Nat → List Nat
  | 0, _ => []
  | fuel + 1, remaining =>
    if remaining = 0 then []
    else
      let amount := min maxStack remaining
      amount :: pieceAmounts maxStack fuel (remaining - amount)

def addPieces (initializer : Option (ItemComp → ItemComp)) (proto : ItemComp) (maxStack : Nat) :
    List Nat → Commit → Except Tip Commit
  | [], c => .ok c
  | amount :: amounts, c =>
    match addPiece initializer proto maxStack amount c with
    | .error tip => .error tip
    | .ok c => addPieces initializer proto maxStack amounts c

def commitEntry (initializer : Option (ItemComp → ItemComp)) (proto : ItemComp) (c : Commit) :
    Except Tip Commit :=
  match cfg.item proto.configId with
  | none => .error .invalidTableId
  | some row =>
    let maxStack := row.maxStackSize
    let (remaining, fills) := if maxStack > 1 then
        c.store.planStackIntoExistingStacks proto maxStack []
      else (proto.size, [])
    let (store, written) := c.store.applyStackFill fills
    addPieces initializer proto maxStack (pieceAmounts maxStack remaining remaining)
      { c with store := store, written := c.written ++ written }

def commitEntries (initializer : Option (ItemComp → ItemComp)) :
    List ItemComp → Commit → Except Tip (Commit × List (List Guid))
  | [], c => .ok (c, [])
  | proto :: protos, c =>
    match commitEntry cfg initializer proto { c with written := [] } with
    | .error tip => .error tip
    | .ok c =>
      match commitEntries initializer protos c with
      | .error tip => .error tip
      | .ok (c', rest) => .ok (c', c.written :: rest)

def placeAll (layout : Layout) : List (Guid × Nat) → Except Tip Layout
  | [] => .ok layout
  | (guid, configId) :: items =>
    match placeInstance cfg layout guid configId with
    | (none, _) => .error .bagItemNotStacked
    | (some _, layout) => placeAll layout items

structure AddReceipt where
  evicted : List DestroyedInstance
  writtenByEntry : List (List Guid)

def addItemsCandidate (b : Bag) (itemsToAdd : List ItemComp) (mint : Nat → Guid)
    (evictedOut : Bool) (initializer : Option (ItemComp → ItemComp)) :
    Except Tip (ItemStore × Layout × AddReceipt) := do
  let demand ← b.addDemands cfg ⟨∅, ∅, []⟩ itemsToAdd
  match b.planEviction cfg demand.stackUnits demand.separateInstances evictedOut with
  | none => .error .bagItemNotStacked
  | some (victims, newInstanceCount) =>
    if newInstanceCount < demand.preassigned.length then .error .invalidTableData
    else
      let minted ← mintGuids b.store mint (newInstanceCount - demand.preassigned.length) 0
        demand.preassigned
      let (candidate, evicted) ← evictFrom b.store victims
      let (c, writtenByEntry) ← commitEntries cfg initializer itemsToAdd ⟨candidate, minted, [], []⟩
      if c.minted ≠ [] then .error .invalidTableData
      else
        let layout ← placeAll cfg (victims.foldl (fun l guid => l.remove guid) b.layout) c.newItems
        .ok (c.store, layout, ⟨evicted, writtenByEntry⟩)

def addItems (b : Bag) (itemsToAdd : List ItemComp) (mint : Nat → Guid) (evictedOut : Bool)
    (initializer : Option (ItemComp → ItemComp)) : Except Tip AddReceipt × Bag :=
  if itemsToAdd = [] then (.ok ⟨[], []⟩, b)
  else
    match b.addItemsCandidate cfg itemsToAdd mint evictedOut initializer with
    | .error tip => (.error tip, b)
    | .ok (store, layout, receipt) => (.ok receipt, { b with store := store, layout := layout })

/-! ## Carrying an instance -/

def takeInstance (b : Bag) (guid : Guid) : Except Tip ItemComp × Bag :=
  match b.store.find guid with
  | none => (.error .bagDeleteItemFindGuid, b)
  | some item =>
    match cfg.item item.configId with
    | none => (.error .invalidTableId, b)
    | some row =>
      if row.maxStackSize ≠ 1 then (.error .bagDelItemConfig, b)
      else if item.size ≠ 1 then (.error .bagItemDeletionSizeMismatch, b)
      else (.ok item, b.destroyItem guid)

def checkSlot (b : Bag) (configId wanted : Nat) : Option Tip :=
  if wanted = invalidSlot || wanted ≥ b.layout.capacity then some .bagAddItemInvalidParam
  else if (b.layout.guidAt wanted).isSome then some .bagAddItemBagFull
  else if b.layout.hasSlotSemantics &&
      wanted ∉ slotsAcceptingKind cfg (equipKindFor cfg configId) b.layout then
    some .bagAddItemInvalidParam
  else none

def checkPlace (b : Bag) (configId : Nat) : Option Nat → Option Tip
  | some wanted => b.checkSlot cfg configId wanted
  | none =>
    if canReserve cfg b.layout (AList.singleton configId 1) 1 then none
    else some .bagAddItemBagFull

def putPlace (b : Bag) (item : ItemComp) : Option Nat → Bool × Layout
  | some slot => b.layout.placeAt item.itemId slot (footprintFor item.configId)
  | none =>
    let (slot, layout) := placeInstance cfg b.layout item.itemId item.configId
    (slot.isSome, layout)

def putInstance (b : Bag) (item : ItemComp) (slot : Option Nat) : Except Tip Unit × Bag :=
  if isInvalidGuid item then (.error .bagAddItemInvalidGuid, b)
  else if item.configId = 0 || item.size ≠ 1 then (.error .bagAddItemInvalidParam, b)
  else
    match cfg.item item.configId with
    | none => (.error .invalidTableId, b)
    | some row =>
      if row.maxStackSize = 0 then (.error .invalidTableData, b)
      else if row.maxStackSize ≠ 1 then (.error .bagAddItemInvalidParam, b)
      else if !b.admission item.configId then (.error .bagAddItemInvalidParam, b)
      else if b.store.contains item.itemId then (.error .bagDeleteItemAlreadyHasGuid, b)
      else
        match b.checkPlace cfg item.configId slot with
        | some tip => (.error tip, b)
        | none =>
          match b.store.insert { item with acquireSeq := 0 } with
          | none => (.error .bagDeleteItemAlreadyHasGuid, b)
          | some store =>
            match b.putPlace cfg item slot with
            | (true, layout) => (.ok (), { b with store := store, layout := layout })
            | (false, layout) =>
              (.error .bagAddItemBagFull,
                { b with store := store.erase item.itemId, layout := layout })

/-! ## Restoring -/

def resetFromSnapshot (b : Bag) : Bag :=
  { b with store := .empty, layout := b.layout.clear }

def setCapacityForRestore (b : Bag) (newCapacity : Nat) : Bag :=
  if newCapacity < b.layout.occupiedSlotCount then b
  else { b with layout := b.layout.resize newCapacity }

def expandCapacity (b : Bag) (sz : Nat) : Bag :=
  { b with layout := b.layout.resize (b.layout.capacity + sz) }

/-- The slot that a named layout keeps for the instance: its old one if it still accepts it. -/
def restoreSlot (layout : Layout) (configId pos : Nat) : Option Nat :=
  let kind := equipKindFor cfg configId
  if (layout.guidAt pos).isNone && pos ∈ slotsAcceptingKind cfg kind layout then some pos
  else findFreeSlotForKind cfg kind layout

def restoreByKind (layout : Layout) (guid : Guid) (configId pos : Nat) : Bool × Layout :=
  if layout.hasSlotSemantics then
    match restoreSlot cfg layout configId pos with
    | none => (false, layout)
    | some slot => layout.placeAt guid slot (footprintFor configId)
  else (false, layout)

def restoreAtPos (layout : Layout) (guid : Guid) (configId pos : Nat) : Bool × Layout :=
  if pos ≠ invalidSlot then layout.placeAt guid pos (footprintFor configId) else (false, layout)

/-- A slot of its kind, then the old slot, then any slot. -/
def restorePlace (layout : Layout) (guid : Guid) (configId pos : Nat) : Bool × Layout :=
  match restoreByKind cfg layout guid configId pos with
  | (true, layout) => (true, layout)
  | (false, layout) =>
    match restoreAtPos layout guid configId pos with
    | (true, layout) => (true, layout)
    | (false, layout) =>
      let (slot, layout) := layout.place guid (footprintFor configId)
      (slot.isSome, layout)

def insertItemForRestore (b : Bag) (item : ItemComp) (pos : Nat) : Bag :=
  if item.size = 0 then b
  else if item.itemId = invalidGuid then b
  else if b.store.contains item.itemId then b
  else
    match b.store.insert item with
    | none => b
    | some store =>
      match restorePlace cfg b.layout item.itemId item.configId pos with
      | (true, layout) => { b with store := store, layout := layout }
      | (false, layout) => { b with store := store.erase item.itemId, layout := layout }

/-- The sequence numbers of the snapshot are passed before anything is inserted. -/
def raiseSeqs (store : ItemStore) (items : List (ItemComp × Nat)) : ItemStore :=
  items.foldl (fun store e =>
    if e.1.size > 0 then store.raiseAcquireSeq e.1.acquireSeq else store) store

def restoreItems (b : Bag) (items : List (ItemComp × Nat)) : Bag :=
  items.foldl (fun b e => b.insertItemForRestore cfg e.1 e.2)
    { b with store := raiseSeqs b.store items }

end Bag

/-! ## Calls -/

inductive Op where
  | addItems (itemsToAdd : List ItemComp) (mint : Nat → Guid) (evictedOut : Bool)
      (initializer : Option (ItemComp → ItemComp))
  | removeItems (itemsToRemove : ItemCountMap)
  | removeItemsClamped (itemsToRemove : ItemCountMap)
  | removeItemByPos (param : Bag.RemoveItemByPosParam)
  | removeItem (guid : Guid)
  | destroyItem (guid : Guid)
  | takeInstance (guid : Guid)
  | putInstance (item : ItemComp) (slot : Option Nat)
  | mergeAndCompact (policy : Bag.CompactPolicy)
  | restoreItems (items : List (ItemComp × Nat))
  | expandCapacity (sz : Nat)

def Bag.step (cfg : Tables) (b : Bag) : Op → Bag
  | .addItems itemsToAdd mint evictedOut initializer =>
    (b.addItems cfg itemsToAdd mint evictedOut initializer).2
  | .removeItems itemsToRemove => (b.removeItems itemsToRemove).2
  | .removeItemsClamped itemsToRemove => (b.removeItemsClamped itemsToRemove).2
  | .removeItemByPos param => (b.removeItemByPos param).2
  | .removeItem guid => (b.removeItem guid).2
  | .destroyItem guid => b.destroyItem guid
  | .takeInstance guid => (b.takeInstance cfg guid).2
  | .putInstance item slot => (b.putInstance cfg item slot).2
  | .mergeAndCompact policy => (b.mergeAndCompact cfg policy).1
  | .restoreItems items => b.restoreItems cfg items
  | .expandCapacity sz => b.expandCapacity sz

end Mmorpg.Bags
