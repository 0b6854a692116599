import Mmorpg.Bags.GridLayout
import Mmorpg.Lib.KeyedList
import Mmorpg.Lib.Packing
import Mathlib.Algebra.BigOperators.Group.List.Basic
import Mathlib.Data.List.Sort
import Mathlib.Data.List.Nodup

/-!
# The item store of a bag

The instances of a bag by their guid, without places (item_store.cpp). The store counts and divides
quantities: it plans how units fill the open stacks of a config, drains stacks, and merges partial
ones. Instances that carry data of their own, or fields of a newer version, are never merged.

The proofs weigh a store: `weigh w` adds up `w` over the instances. An instance that changes its
size, joins or leaves changes the weight by its own part (`weigh_setSize`, `weigh_insert`,
`weigh_erase`), for the quantity of a config as for the room of its open stacks.
-/

namespace Mmorpg.Bags

open List

structure EquipAffix where
  attrId : Nat
  tier : Nat
  value : Nat
  seq : Nat
deriving DecidableEq, Repr

structure EquipGem where
  socket : Nat
  gemConfigId : Nat
deriving DecidableEq, Repr

structure EquipInstanceData where
  affixes : List EquipAffix
  enhanceLevel : Nat
  gems : List EquipGem
deriving DecidableEq, Repr

structure UnknownField where
  number : Nat
  bytes : List Nat
deriving DecidableEq, Repr

structure ItemComp where
  itemId : Guid
  configId : Nat
  size : Nat
  acquireSeq : Nat
  equip : Option EquipInstanceData
  unknownFields : List UnknownField
deriving DecidableEq, Repr

/-- `kRetiredFields` -/
def retiredFields : List Nat := []

def carriesNewerVersionFields (item : ItemComp) : Bool :=
  item.unknownFields.any (·.number ∉ retiredFields)

/-- Units that are counted and removed by config. -/
def isCountableByConfig (item : ItemComp) : Bool := !carriesNewerVersionFields item

def isIndependentInstance (item : ItemComp) : Bool :=
  item.equip.isSome || carriesNewerVersionFields item

def canStack (leftItem rightItem : ItemComp) : Bool :=
  if isIndependentInstance leftItem || isIndependentInstance rightItem then false
  else leftItem.configId = rightItem.configId

def isInvalidGuid (item : ItemComp) : Bool := item.itemId = invalidGuid || item.itemId ≤ 0

structure ItemRow where
  maxStackSize : Nat
  equipKind : Nat
deriving DecidableEq, Repr

structure EquipSlotRow where
  id : Nat
  equipKind : Nat
deriving DecidableEq, Repr

structure Tables where
  item : Nat → Option ItemRow
  equipSlots : List EquipSlotRow

abbrev ItemCountMap := AList fun _ : Nat => Nat

/-- Sequence numbers are of 64 bits, counts of 32. -/
def seqRange : Nat := 18446744073709551616

def countRange : Nat := 4294967296

/-! ## Instances by guid -/

structure ItemStore where
  items : List ItemComp
  nextAcquireSeq : Nat
  nodup : (items.map (·.itemId)).Nodup

namespace ItemStore

variable {items : List ItemComp}

theorem nodup_filter (h : (items.map (·.itemId)).Nodup)
    (p : ItemComp → Bool) : ((items.filter p).map (·.itemId)).Nodup :=
  h.sublist (filter_sublist.map _)

variable {f : ItemComp → ItemComp}

theorem map_itemId_map (hf : ∀ item, (f item).itemId = item.itemId) :
    (items.map f).map (·.itemId) = items.map (·.itemId) := by
  rw [map_map]
  exact map_congr_left fun item _ => hf item

theorem nodup_map (h : (items.map (·.itemId)).Nodup) (hf : ∀ item, (f item).itemId = item.itemId) :
    ((items.map f).map (·.itemId)).Nodup := by
  rw [map_itemId_map hf]
  exact h

def empty : ItemStore := ⟨[], 1, List.nodup_nil⟩

def guids (s : ItemStore) : List Guid := s.items.map (·.itemId)

def contains (s : ItemStore) (guid : Guid) : Bool := guid ∈ s.guids

def find (s : ItemStore) (guid : Guid) : Option ItemComp :=
  KeyedList.find (·.itemId) s.items guid

def stampSeq (next : Nat) (proto : ItemComp) : ItemComp × Nat :=
  if proto.acquireSeq = 0 then ({ proto with acquireSeq := next }, (next + 1) % seqRange)
  else if proto.acquireSeq ≥ next then (proto, (proto.acquireSeq + 1) % seqRange)
  else (proto, next)

theorem stampSeq_itemId (next : Nat) (proto : ItemComp) :
    (stampSeq next proto).1.itemId = proto.itemId := by
  unfold stampSeq
  split
  · rfl
  · split <;> rfl

theorem nodup_snoc {s : ItemStore} {item : ItemComp} (h : item.itemId ∉ s.guids) :
    ((s.items ++ [item]).map (·.itemId)).Nodup := by
  rw [map_append]
  refine nodup_append'.2 ⟨s.nodup, nodup_singleton _, fun g hg hmem => ?_⟩
  rw [map_singleton, mem_singleton] at hmem
  exact h (hmem ▸ hg)

def insert (s : ItemStore) (proto : ItemComp) : Option ItemStore :=
  if h : proto.itemId ∈ s.guids then none
  else
    some ⟨s.items ++ [(stampSeq s.nextAcquireSeq proto).1], (stampSeq s.nextAcquireSeq proto).2,
      nodup_snoc (stampSeq_itemId s.nextAcquireSeq proto ▸ h)⟩

def raiseAcquireSeq (s : ItemStore) (sequence : Nat) : ItemStore :=
  if sequence ≥ s.nextAcquireSeq then { s with nextAcquireSeq := (sequence + 1) % seqRange } else s

def erase (s : ItemStore) (guid : Guid) : ItemStore :=
  { s with items := s.items.filter (·.itemId ≠ guid), nodup := nodup_filter s.nodup _ }

def resized (guid : Guid) (size : Nat) (item : ItemComp) : ItemComp :=
  if item.itemId = guid then { item with size := size } else item

theorem resized_itemId (guid : Guid) (size : Nat) (item : ItemComp) :
    (resized guid size item).itemId = item.itemId := by
  unfold resized
  split <;> rfl

def setSize (s : ItemStore) (guid : Guid) (size : Nat) : ItemStore :=
  { s with
    items := s.items.map (resized guid size)
    nodup := nodup_map s.nodup (resized_itemId guid size) }

def acquiredBefore (a b : ItemComp) : Prop :=
  a.acquireSeq < b.acquireSeq ∨ (a.acquireSeq = b.acquireSeq ∧ a.itemId ≤ b.itemId)

instance : DecidableRel acquiredBefore := fun a b =>
  inferInstanceAs (Decidable
    (a.acquireSeq < b.acquireSeq ∨ (a.acquireSeq = b.acquireSeq ∧ a.itemId ≤ b.itemId)))

def inAcquireOrder (s : ItemStore) : List ItemComp := s.items.insertionSort acquiredBefore

/-! ## Quantities -/

def weigh (w : ItemComp → Nat) (s : ItemStore) : Nat := (s.items.map w).sum

def unitsOf (configId : Nat) (item : ItemComp) : Nat :=
  if item.configId = configId then item.size else 0

def countableUnitsOf (configId : Nat) (item : ItemComp) : Nat :=
  if item.configId = configId ∧ isCountableByConfig item then item.size else 0

def totalCountOf (s : ItemStore) (configId : Nat) : Nat := s.weigh (countableUnitsOf configId)

inductive QuantityVerdict where
  | enough
  | versionSkew
  | insufficient
deriving DecidableEq, Repr

/-- Too few units of one config decide; units that are not counted make it a version skew. -/
def checkQuantities (s : ItemStore) (required : ItemCountMap) : QuantityVerdict :=
  if required.entries.any fun e => s.weigh (unitsOf e.1) < e.2 then .insufficient
  else if required.entries.any fun e => s.totalCountOf e.1 < e.2 then .versionSkew
  else .enough

/-! ## Filling stacks -/

def roomFor (cfg : Tables) (configId : Nat) (item : ItemComp) : Nat :=
  if item.configId ≠ configId || isIndependentInstance item then 0
  else
    match cfg.item configId with
    | none => 0
    | some row => row.maxStackSize - item.size

/-- `MeasureFreeRoomPerConfig` at one config of the batch; the sum wraps. -/
def measureFreeRoom (cfg : Tables) (s : ItemStore) (exclude : List Guid) (configId : Nat) : Nat :=
  s.items.foldl (fun room item =>
    if item.itemId ∈ exclude then room
    else (room + roomFor cfg configId item) % countRange) 0

structure StackFill where
  guid : Guid
  amount : Nat
deriving DecidableEq, Repr

/-- The units that are left, and what each open stack gets, in the order of the list. -/
def planFills (proto : ItemComp) (maxStackSize : Nat) (exclude : List Guid) :
    Nat → List ItemComp → Nat × List StackFill
  | remaining, [] => (remaining, [])
  | remaining, item :: items =>
    if remaining = 0 then (0, [])
    else if !canStack item proto then planFills proto maxStackSize exclude remaining items
    else if item.itemId ∈ exclude then planFills proto maxStackSize exclude remaining items
    else if item.size > maxStackSize then planFills proto maxStackSize exclude remaining items
    else if maxStackSize - item.size = 0 then planFills proto maxStackSize exclude remaining items
    else
      let fill := min remaining (maxStackSize - item.size)
      let (left, fills) := planFills proto maxStackSize exclude (remaining - fill) items
      (left, ⟨item.itemId, fill⟩ :: fills)

def planStackIntoExistingStacks (s : ItemStore) (proto : ItemComp) (maxStackSize : Nat)
    (exclude : List Guid) : Nat × List StackFill :=
  planFills proto maxStackSize exclude proto.size s.inAcquireOrder

def applyStackFill (s : ItemStore) : List StackFill → ItemStore × List Guid
  | [] => (s, [])
  | fill :: fills =>
    match s.find fill.guid with
    | none => s.applyStackFill fills
    | some item =>
      let (s, written) := (s.setSize fill.guid (item.size + fill.amount)).applyStackFill fills
      (s, fill.guid :: written)

def stacksNeededFor (totalSize maxStackSize : Nat) : Nat :=
  Packing.stacksNeeded totalSize maxStackSize

/-! ## Draining stacks -/

structure StackDrain where
  guid : Guid
  amount : Nat
deriving DecidableEq, Repr

def drainsBefore (rank : Guid → Nat) (a b : ItemComp) : Prop :=
  rank a.itemId < rank b.itemId ∨ (rank a.itemId = rank b.itemId ∧ acquiredBefore a b)

instance (rank : Guid → Nat) : DecidableRel (drainsBefore rank) := fun a b =>
  inferInstanceAs (Decidable
    (rank a.itemId < rank b.itemId ∨ (rank a.itemId = rank b.itemId ∧ acquiredBefore a b)))

def drainFrom (s : ItemStore) (count : Nat) : List ItemComp → ItemStore × List StackDrain
  | [] => (s, [])
  | item :: items =>
    if count = 0 then (s, [])
    else
      let take := min count item.size
      if take = 0 then s.drainFrom count items
      else
        let (s, drains) := (s.setSize item.itemId (item.size - take)).drainFrom (count - take) items
        (s, ⟨item.itemId, take⟩ :: drains)

def drainStacks (s : ItemStore) (configId count : Nat) (rank : Guid → Nat) :
    ItemStore × List StackDrain :=
  s.drainFrom count ((s.items.filter fun item =>
    item.configId = configId && item.size > 0 && isCountableByConfig item).insertionSort
      (drainsBefore rank))

/-! ## Merging partial stacks -/

def isMergeCandidate (item : ItemComp) (maxStack : Nat) : Bool :=
  !isIndependentInstance item && maxStack > 1 && item.size > 0 && item.size < maxStack

def isPartial (cfg : Tables) (item : ItemComp) : Bool :=
  match cfg.item item.configId with
  | none => false
  | some row => isMergeCandidate item row.maxStackSize

def hasMergeablePartials (cfg : Tables) (s : ItemStore) : Bool :=
  s.items.any fun item => isPartial cfg item &&
    decide (2 ≤ s.items.countP fun other => isPartial cfg other && other.configId = item.configId)

/-- The new sizes of a group: full stacks first, then the rest, then nothing. -/
def mergedSizes (maxStack : Nat) : Nat → List ItemComp → List (Guid × Nat)
  | _, [] => []
  | total, item :: group =>
    if total ≤ maxStack then
      (item.itemId, total) :: group.map fun other => (other.itemId, 0)
    else (item.itemId, maxStack) :: mergedSizes maxStack (total - maxStack) group

def setSizes (s : ItemStore) (sizes : List (Guid × Nat)) : ItemStore :=
  sizes.foldl (fun s e => s.setSize e.1 e.2) s

/-- The partial stacks of a config in the order of acquisition. -/
def mergeGroup (cfg : Tables) (s : ItemStore) (configId : Nat) : List ItemComp :=
  s.inAcquireOrder.filter fun item => isPartial cfg item && item.configId = configId

def mergeConfigs (cfg : Tables) (s : ItemStore) : List Nat :=
  (((s.items.filter (isPartial cfg)).map (·.configId)).dedup).insertionSort (· ≤ ·)

def mergePartialStacks (cfg : Tables) (s : ItemStore) : ItemStore :=
  (mergeConfigs cfg s).foldl (fun t configId =>
    match cfg.item configId with
    | none => t
    | some row =>
      let group := mergeGroup cfg s configId
      t.setSizes (mergedSizes row.maxStackSize ((group.map (·.size)).sum) group)) s

def hasEmptyInstances (s : ItemStore) : Bool := s.items.any (·.size = 0)

def collectEmptyInstances (s : ItemStore) : List Guid :=
  (s.inAcquireOrder.filter (·.size = 0)).map (·.itemId)

/-! ## Instances after a change -/

variable {s s' : ItemStore} {guid : Guid} {item : ItemComp} {w : ItemComp → Nat}

theorem pairwise_itemId (s : ItemStore) :
    s.items.Pairwise (fun a b => a.itemId ≠ b.itemId) :=
  pairwise_map.1 s.nodup

theorem find_eq_some_iff : s.find guid = some item ↔ item ∈ s.items ∧ item.itemId = guid := by
  constructor
  · exact KeyedList.mem_of_find
  · rintro ⟨hmem, rfl⟩
    exact KeyedList.find_of_mem s.pairwise_itemId hmem

theorem mem_guids : guid ∈ s.guids ↔ ∃ item ∈ s.items, item.itemId = guid := mem_map

theorem eq_of_itemId {a b : ItemComp} (ha : a ∈ s.items) (hb : b ∈ s.items)
    (h : a.itemId = b.itemId) : a = b :=
  KeyedList.eq_of_key s.pairwise_itemId ha hb h

theorem perm_inAcquireOrder (s : ItemStore) : s.inAcquireOrder.Perm s.items :=
  perm_insertionSort _ _

theorem guids_setSize (s : ItemStore) (guid : Guid) (n : Nat) :
    (s.setSize guid n).guids = s.guids :=
  map_itemId_map (resized_itemId guid n)

theorem guids_erase (s : ItemStore) (guid : Guid) : (s.erase guid).guids = s.guids.erase guid := by
  have hnodup : s.guids.Nodup := s.nodup
  rw [hnodup.erase_eq_filter, guids, guids, filter_map]
  refine congrArg _ (filter_congr fun item _ => ?_)
  simp [bne, Bool.beq_eq_decide_eq]

theorem mem_setSize {n : Nat} {item' : ItemComp} (h : item' ∈ (s.setSize guid n).items) :
    (item' ∈ s.items ∧ item'.itemId ≠ guid) ∨
    ∃ item ∈ s.items, item.itemId = guid ∧ item' = { item with size := n } := by
  obtain ⟨item, hitem, rfl⟩ := mem_map.1 h
  unfold resized
  split
  next hid =>
    exact .inr ⟨item, hitem, hid, rfl⟩
  next hid =>
    exact .inl ⟨hitem, hid⟩

theorem mem_erase : item ∈ (s.erase guid).items ↔ item ∈ s.items ∧ item.itemId ≠ guid := by
  simp [erase]

theorem insert_eq_some (h : s.insert item = some s') :
    item.itemId ∉ s.guids ∧ s'.items = s.items ++ [(stampSeq s.nextAcquireSeq item).1] ∧
    s'.nextAcquireSeq = (stampSeq s.nextAcquireSeq item).2 := by
  unfold insert at h
  split at h
  · exact nomatch h
  next hfresh =>
    cases h
    exact ⟨hfresh, rfl, rfl⟩

theorem exists_insert (h : item.itemId ∉ s.guids) : ∃ s', s.insert item = some s' := by
  unfold insert
  rw [dif_neg h]
  exact ⟨_, rfl⟩

theorem guids_insert (h : s.insert item = some s') : s'.guids = s.guids ++ [item.itemId] := by
  obtain ⟨-, hitems, -⟩ := insert_eq_some h
  rw [guids, hitems, map_append, map_singleton, stampSeq_itemId]
  rfl

/-- The sequence number apart, an instance is inserted as it is. -/
theorem stampSeq_fst (next : Nat) (proto : ItemComp) :
    ∃ seq, (stampSeq next proto).1 = { proto with acquireSeq := seq } := by
  unfold stampSeq
  split
  · exact ⟨next, rfl⟩
  · split <;> exact ⟨proto.acquireSeq, rfl⟩

/-! ## Weights after a change -/

theorem sum_map_resized (hpair : items.Pairwise (·.itemId ≠ ·.itemId))
    (hmem : item ∈ items) (hid : item.itemId = guid) (n : Nat) :
    ((items.map (resized guid n)).map w).sum + w item =
      (items.map w).sum + w { item with size := n } := by
  induction items with
  | nil => cases hmem
  | cons a items ih =>
    obtain ⟨ha, hpair⟩ := pairwise_cons.1 hpair
    rcases mem_cons.1 hmem with rfl | hmem
    · -- the others keep their size
      have hrest : items.map (resized guid n) = items := by
        refine (map_congr_left fun b hb => ?_).trans (map_id items)
        rw [resized, if_neg fun hb' => ha b hb (hid.trans hb'.symm)]
        rfl
      simp only [map_cons, sum_cons, hrest, resized, if_pos hid]
      omega
    · have hne : a.itemId ≠ guid := fun ha' => ha item hmem (ha'.trans hid.symm)
      have := ih hpair hmem
      simp only [map_cons, sum_cons, resized, if_neg hne] at this ⊢
      omega

theorem weigh_setSize (h : s.find guid = some item) (n : Nat) :
    (s.setSize guid n).weigh w + w item = s.weigh w + w { item with size := n } := by
  obtain ⟨hmem, hid⟩ := find_eq_some_iff.1 h
  exact sum_map_resized s.pairwise_itemId hmem hid n

theorem sum_map_filter_ne (hpair : items.Pairwise (·.itemId ≠ ·.itemId))
    (hmem : item ∈ items) (hid : item.itemId = guid) :
    ((items.filter (·.itemId ≠ guid)).map w).sum + w item = (items.map w).sum := by
  induction items with
  | nil => cases hmem
  | cons a items ih =>
    obtain ⟨ha, hpair⟩ := pairwise_cons.1 hpair
    rcases mem_cons.1 hmem with rfl | hmem
    · have hrest : items.filter (·.itemId ≠ guid) = items := by
        refine filter_eq_self.2 fun b hb => ?_
        exact decide_eq_true fun hb' => ha b hb (hid.trans hb'.symm)
      rw [filter_cons_of_neg (by simp [hid]), hrest, map_cons, sum_cons]
      omega
    · have hne : a.itemId ≠ guid := fun ha' => ha item hmem (ha'.trans hid.symm)
      have := ih hpair hmem
      rw [filter_cons_of_pos (by simp [hne]), map_cons, sum_cons, map_cons,
        sum_cons]
      omega

theorem weigh_erase (h : s.find guid = some item) :
    (s.erase guid).weigh w + w item = s.weigh w := by
  obtain ⟨hmem, hid⟩ := find_eq_some_iff.1 h
  exact sum_map_filter_ne s.pairwise_itemId hmem hid

theorem weigh_insert (h : s.insert item = some s')
    (hw : ∀ seq, w { item with acquireSeq := seq } = w item) :
    s'.weigh w = s.weigh w + w item := by
  obtain ⟨-, hitems, -⟩ := insert_eq_some h
  obtain ⟨seq, hseq⟩ := stampSeq_fst s.nextAcquireSeq item
  simp [weigh, hitems, hseq, hw]

end ItemStore

end Mmorpg.Bags
