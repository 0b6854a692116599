import Mmorpg.Bags.Invariant
import Mathlib.Data.Prod.Lex

/-!
# Saving and loading bags

`marshal` writes the bags of a player to a record, `unmarshal` reads a record into the bags of a
player (bag_marshal.cpp). A record holds the capacities of the fixed bags, the instances with their
slots, the bags that come and go with their own capacity and rules, and what belongs to bag types
of newer versions, which is carried along unread.

Loading puts an instance into its old slot if that is free, else into a free one. So a saved bag is
loaded slot by slot (`Replayed`), and in any record an instance is lost only when the bag has fewer
slots than instances (`unmarshal_keeps`).
-/

namespace Mmorpg.Bags

/-- A stored instance with its place. `fullInstance` is absent in old records. -/
structure ItemEntry where
  itemUuid : Guid
  configId : Nat
  stackSize : Nat
  pos : Nat
  bagType : Nat
  acquireSeq : Nat
  equip : Option EquipInstanceData
  fullInstance : Option ItemComp
deriving DecidableEq, Repr

def itemToEntry (item : ItemComp) (pos bagType : Nat) : ItemEntry where
  itemUuid := item.itemId
  configId := item.configId
  stackSize := item.size
  pos := pos
  bagType := bagType
  acquireSeq := item.acquireSeq
  equip := item.equip
  fullInstance := some item

def itemFromEntry (entry : ItemEntry) : ItemComp :=
  match entry.fullInstance with
  | some item => item
  | none =>
    ⟨entry.itemUuid, entry.configId, entry.stackSize, entry.acquireSeq, entry.equip, []⟩

def slotBefore (a b : Nat × ItemComp) : Prop :=
  a.1 < b.1 ∨ (a.1 = b.1 ∧ a.2.itemId ≤ b.2.itemId)

instance : DecidableRel slotBefore := fun a b =>
  inferInstanceAs (Decidable (a.1 < b.1 ∨ (a.1 = b.1 ∧ a.2.itemId ≤ b.2.itemId)))

def ordered (b : Bag) : List (Nat × ItemComp) :=
  ((b.store.items.filter (·.size > 0)).map fun item =>
    ((b.layout.slotOf item.itemId).getD invalidSlot, item)).insertionSort slotBefore

def marshalItems (b : Bag) (bagType : Nat) : List ItemEntry :=
  (ordered b).map fun e => itemToEntry e.2 e.1 bagType

/-! ## The bags of a player -/

inductive BagType where
  | inventory
  | warehouse
  | equipment
  | temporary
deriving DecidableEq, Repr

namespace BagType

def all : List BagType := [inventory, warehouse, equipment, temporary]

def index : BagType → Nat
  | inventory => 0
  | warehouse => 1
  | equipment => 2
  | temporary => 3

/-- `kBagTypeCount` -/
def count : Nat := 4

end BagType

structure BagProfile where
  layout : Layout
  admission : Nat → Bool
  eviction : Nat → ItemStore → Layout → List Guid

namespace BagProfile

def flat (capacity : Nat) : BagProfile :=
  ⟨.flat false (.new capacity), fun _ => true, rejectWhenFull⟩

def equipment (slotCount : Nat) : BagProfile :=
  ⟨.flat true (.new slotCount), fun _ => true, rejectWhenFull⟩

def temporary (capacity : Nat) : BagProfile :=
  ⟨.flat false (.new capacity), fun _ => true, evictOldestFirst⟩

def bag (profile : BagProfile) : Bag :=
  ⟨.empty, profile.layout, profile.admission, profile.eviction⟩

end BagProfile

/-- `BagProfileRegistry`: the rules of dynamic bags by their id, for a capacity. -/
structure BagProfileRegistry where
  factories : Nat → Option (Nat → BagProfile)

/-- Unknown rules become those of a flat bag. -/
def BagProfileRegistry.make (registry : BagProfileRegistry) (profileId capacity : Nat) :
    BagProfile :=
  match registry.factories profileId with
  | some factory => factory capacity
  | none => .flat capacity

structure DynamicBag where
  bag : Bag
  profileId : Nat

/-- `PlayerBagsComp`. What is carried unread has a bag type that this version does not know. -/
structure PlayerBags where
  bags : BagType → Bag
  dynamicBags : AList fun _ : Nat => DynamicBag
  unsupportedItems : List ItemEntry
  unsupportedCapacities : List Nat
  unsupported : ∀ entry ∈ unsupportedItems, BagType.count ≤ entry.bagType

def PlayerBags.new : PlayerBags where
  bags
    | .inventory => (BagProfile.flat 100).bag
    | .warehouse => (BagProfile.flat 200).bag
    | .equipment => (BagProfile.equipment 10).bag
    | .temporary => (BagProfile.temporary 200).bag
  dynamicBags := ∅
  unsupportedItems := []
  unsupportedCapacities := []
  unsupported _ h := absurd h List.not_mem_nil

structure DynamicBagData where
  bagId : Nat
  capacity : Nat
  profileId : Nat
  items : List ItemEntry
deriving DecidableEq, Repr

structure BagAllData where
  capacities : List Nat
  items : List ItemEntry
  dynamicBags : List DynamicBagData
deriving DecidableEq, Repr

def storedCapacity (b : Bag) : Nat := b.layout.capacity % slotRange

def marshal (player : PlayerBags) : BagAllData where
  capacities :=
    BagType.all.map (fun bagType => storedCapacity (player.bags bagType)) ++
      player.unsupportedCapacities
  items :=
    BagType.all.flatMap (fun bagType => marshalItems (player.bags bagType) bagType.index) ++
      player.unsupportedItems
  dynamicBags :=
    (player.dynamicBags.keys.insertionSort (· ≤ ·)).filterMap fun bagId =>
      (player.dynamicBags.lookup bagId).map fun dyn =>
        ⟨bagId, storedCapacity dyn.bag, dyn.profileId, marshalItems dyn.bag 0⟩

def replay (entries : List ItemEntry) : List (ItemComp × Nat) :=
  entries.map fun entry => (itemFromEntry entry, entry.pos)

/-- A fixed bag is emptied, resized if the record has its capacity, and filled. -/
def restoreFixed (cfg : Tables) (b : Bag) (capacity : Option Nat) (entries : List ItemEntry) :
    Bag :=
  let b := b.resetFromSnapshot
  let b := match capacity with
    | some newCapacity => b.setCapacityForRestore newCapacity
    | none => b
  b.restoreItems cfg (replay entries)

/-- A dynamic bag gets its rules, then its capacity, then its instances. -/
def restoreDynamic (cfg : Tables) (registry : BagProfileRegistry) (dyn : DynamicBagData) :
    DynamicBag where
  bag := ((registry.make dyn.profileId dyn.capacity).bag.setCapacityForRestore
    dyn.capacity).restoreItems cfg (replay dyn.items)
  profileId := dyn.profileId

def unmarshal (cfg : Tables) (registry : BagProfileRegistry) (player : PlayerBags)
    (data : BagAllData) : PlayerBags where
  bags bagType := restoreFixed cfg (player.bags bagType) data.capacities[bagType.index]?
    (data.items.filter (·.bagType = bagType.index))
  dynamicBags := data.dynamicBags.foldl
    (fun dynamicBags dyn => dynamicBags.insert dyn.bagId (restoreDynamic cfg registry dyn)) ∅
  unsupportedItems := data.items.filter (·.bagType ≥ BagType.count)
  unsupportedCapacities := data.capacities.drop BagType.count
  unsupported _ h := of_decide_eq_true (List.mem_filter.1 h).2

/-! ## Placing in a flat layout -/

/-- The slots of a flat layout; those of a layout with names have a meaning. -/
def Layout.IsFlat (named : Bool) : Layout → Prop
  | .flat n _ => n = named
  | .grid _ => False

variable {named : Bool}

theorem Layout.IsFlat.exists_eq {l : Layout} (h : l.IsFlat named) :
    ∃ f, l = .flat named f := by
  cases l with
  | flat n f =>
    cases h
    exact ⟨f, rfl⟩
  | grid l => exact h.elim

namespace FlatLayout

structure Adds (l : FlatLayout) (guid : Guid) (l' : FlatLayout) : Prop where
  ok : l'.Ok
  capacity : l'.capacity = l.capacity
  keys : l'.guidToSlot.keys = guid :: l.guidToSlot.keys

variable {l : FlatLayout} {guid : Guid} {named : Bool}

theorem Ok.adds_put (h : l.Ok) (hguid : guid ∉ l.guidToSlot) {slot : Nat}
    (hslot : slot ∉ l.slotToGuid) (hlt : slot < l.slotCount) : l.Adds guid (l.put guid slot) :=
  ⟨h.put hguid hslot hlt, rfl, keys_put hguid slot⟩

/-- An attempt on a flat layout: the instance has a slot, or nothing changed. -/
def Attempts (l : FlatLayout) (named : Bool) (guid : Guid) (result : Bool × Layout) : Prop :=
  (∃ l', result = (true, .flat named l') ∧ l.Adds guid l') ∨ result = (false, .flat named l)

theorem Ok.attempts_placeAt (h : l.Ok) (hguid : guid ∉ l.guidToSlot) (slot : Nat)
    (footprint : Footprint) :
    l.Attempts named guid ((Layout.flat named l).placeAt guid slot footprint) := by
  rcases placeAt_cases h hguid slot with ⟨hlt, hslot, -, heq⟩ | ⟨heq, -⟩
  · exact .inl ⟨l.put guid slot, by simp only [Layout.placeAt, heq]; rfl,
      h.adds_put hguid hslot hlt⟩
  · exact .inr (by simp only [Layout.placeAt, heq]; rfl)

end FlatLayout

namespace Bag

open ItemStore List

variable {cfg : Tables} {l : FlatLayout} {guid : Guid} {named : Bool}

theorem attempts_restoreByKind (cfg : Tables) (named : Bool) (h : l.Ok)
    (hguid : guid ∉ l.guidToSlot) (configId pos : Nat) :
    l.Attempts named guid (restoreByKind cfg (.flat named l) guid configId pos) := by
  unfold restoreByKind
  split
  · split
    · exact .inr rfl
    · exact h.attempts_placeAt hguid _ _
  · exact .inr rfl

theorem attempts_restoreAtPos (named : Bool) (h : l.Ok) (hguid : guid ∉ l.guidToSlot)
    (configId pos : Nat) :
    l.Attempts named guid (restoreAtPos (.flat named l) guid configId pos) := by
  unfold restoreAtPos
  split
  · exact h.attempts_placeAt hguid _ _
  · exact .inr rfl

/-- **An instance is placed, unless all slots are taken.** -/
theorem restorePlace_flat (cfg : Tables) (named : Bool) (h : l.Ok) (hguid : guid ∉ l.guidToSlot)
    (configId pos : Nat) :
    (∃ l', restorePlace cfg (.flat named l) guid configId pos = (true, .flat named l') ∧
      l.Adds guid l') ∨
    (restorePlace cfg (.flat named l) guid configId pos = (false, .flat named l) ∧
      l.slotCount ≤ l.occupiedSlotCount) := by
  unfold restorePlace
  rcases attempts_restoreByKind cfg named h hguid configId pos with ⟨l', heq, hadds⟩ | heq
  · rw [heq]
    exact .inl ⟨l', rfl, hadds⟩
  rw [heq]
  rcases attempts_restoreAtPos named h hguid configId pos with ⟨l', heq', hadds⟩ | heq'
  · simp only [heq']
    exact .inl ⟨l', rfl, hadds⟩
  simp only [heq']
  rcases FlatLayout.place_cases hguid with ⟨slot, hlt, hslot, hplace⟩ | ⟨hplace, hfull⟩
  · exact .inl ⟨l.put guid slot, by simp only [Layout.place, hplace]; rfl,
      h.adds_put hguid hslot hlt⟩
  · exact .inr ⟨by simp only [Layout.place, hplace]; rfl, hfull⟩

/-- A free slot of a layout without names is taken as the snapshot has it. -/
theorem restorePlace_slot (cfg : Tables) (h : l.Ok) (hguid : guid ∉ l.guidToSlot) (configId : Nat)
    {pos : Nat} (hlt : pos < l.slotCount) (hfree : pos ∉ l.slotToGuid) :
    restorePlace cfg (.flat false l) guid configId pos = (true, .flat false (l.put guid pos)) := by
  have hvalid : pos ≠ invalidSlot := by
    have hle : l.slotCount < slotRange := Nat.mod_lt _ (by decide)
    have hrange : slotRange = invalidSlot + 1 := rfl
    omega
  have hat : l.placeAt guid pos = (true, l.put guid pos) := by
    rcases FlatLayout.placeAt_cases h hguid pos with ⟨-, -, -, heq⟩ | ⟨-, hor⟩
    · exact heq
    · rcases hor with hor | hor | hor
      · exact absurd hor hvalid
      · exact absurd hlt (Nat.not_lt_of_le hor)
      · exact absurd hor hfree
  have hkind : restoreByKind cfg (.flat false l) guid configId pos = (false, .flat false l) := rfl
  have hpos : restoreAtPos (.flat false l) guid configId pos
      = (true, .flat false (l.put guid pos)) := by
    simp only [restoreAtPos, ne_eq, hvalid, not_false_eq_true, if_true, Layout.placeAt, hat]
    rfl
  unfold restorePlace
  rw [hkind]
  simp only [hpos]

/-! ## Loading any record -/

/-- An instance as it is restored. Without a sequence number it gets one. -/
structure RestoredAs (proto item : ItemComp) : Prop where
  same : item = { proto with acquireSeq := item.acquireSeq }
  seq : proto.acquireSeq ≠ 0 → item = proto

theorem restoredAs_stampSeq (next : Nat) (proto : ItemComp) :
    RestoredAs proto (stampSeq next proto).1 := by
  unfold stampSeq
  split
  · exact ⟨rfl, fun hseq => absurd ‹_› hseq⟩
  · split
    · exact ⟨rfl, fun _ => rfl⟩
    · exact ⟨rfl, fun _ => rfl⟩

/-- What stands for something: a unit at least, under a guid. -/
def IsAsset (item : ItemComp) : Prop := 0 < item.size ∧ item.itemId ≠ invalidGuid

instance : DecidablePred IsAsset := fun item =>
  inferInstanceAs (Decidable (0 < item.size ∧ item.itemId ≠ invalidGuid))

def assets (items : List (ItemComp × Nat)) : List Guid :=
  ((items.map (·.1)).filter (IsAsset ·)).map (·.itemId)

variable {items more : List (ItemComp × Nat)}

theorem mem_assets :
    guid ∈ assets items ↔ ∃ e ∈ items, IsAsset e.1 ∧ e.1.itemId = guid := by
  simp only [assets, mem_map, mem_filter, decide_eq_true_eq]
  constructor
  · rintro ⟨item, ⟨⟨e, he, rfl⟩, hasset⟩, hguid⟩
    exact ⟨e, he, hasset, hguid⟩
  · rintro ⟨e, he, hasset, hguid⟩
    exact ⟨e.1, ⟨⟨e, he, rfl⟩, hasset⟩, hguid⟩

/-- The state of a load after the instances `done`: every asset is there, and nothing else. -/
structure Loading (named : Bool) (slots : Nat) (done : List (ItemComp × Nat)) (b : Bag) : Prop where
  flat : ∃ l, b.layout = .flat named l ∧ l.Ok ∧ l.slotCount = slots ∧
    b.store.guids.Perm l.guidToSlot.keys
  source : ∀ item ∈ b.store.items, ∃ e ∈ done, IsAsset e.1 ∧ RestoredAs e.1 item
  kept : ∀ e ∈ done, IsAsset e.1 → e.1.itemId ∈ b.store.guids

variable {slots : Nat} {done : List (ItemComp × Nat)} {b : Bag}

theorem RestoredAs.itemId {proto item : ItemComp} (h : RestoredAs proto item) :
    item.itemId = proto.itemId := by
  rw [h.same]

theorem Loading.mem_assets (h : Loading named slots done b)
    (hguid : guid ∈ b.store.guids) : guid ∈ assets done := by
  obtain ⟨item, hitem, hid⟩ := ItemStore.mem_guids.1 hguid
  obtain ⟨e, he, hasset, hrestored⟩ := h.source item hitem
  exact Bag.mem_assets.2 ⟨e, he, hasset, hrestored.itemId.symm.trans hid⟩

variable {e : ItemComp × Nat}

theorem Loading.skip (h : Loading named slots done b)
    (hkept : IsAsset e.1 → e.1.itemId ∈ b.store.guids) : Loading named slots (done ++ [e]) b where
  flat := h.flat
  source item hitem := by
    obtain ⟨e', he', hrest⟩ := h.source item hitem
    exact ⟨e', mem_append_left _ he', hrest⟩
  kept := forall_mem_append.2 ⟨h.kept, forall_mem_singleton.2 hkept⟩

/-- **As long as there are slots for the assets, the next one is loaded.** -/
theorem Loading.insertItemForRestore (cfg : Tables) (h : Loading named slots done b)
    (hroom : (assets (done ++ [e])).dedup.length ≤ slots) :
    Loading named slots (done ++ [e]) (b.insertItemForRestore cfg e.1 e.2) := by
  unfold Bag.insertItemForRestore
  split
  · exact h.skip fun hasset => absurd ‹_› (Nat.ne_of_gt hasset.1)
  rename_i hsize
  split
  · exact h.skip fun hasset => absurd ‹_› hasset.2
  rename_i hvalid
  have hasset : IsAsset e.1 := ⟨Nat.pos_of_ne_zero hsize, hvalid⟩
  split
  · exact h.skip fun _ => of_decide_eq_true ‹_›
  rename_i hfresh
  have hnew : e.1.itemId ∉ b.store.guids := fun hmem => hfresh (decide_eq_true hmem)
  split
  next hins =>
    unfold ItemStore.insert at hins
    rw [dif_neg hnew] at hins
    exact nomatch hins
  rename_i store hins
  obtain ⟨-, hitems, -⟩ := ItemStore.insert_eq_some hins
  obtain ⟨l, hl, hok, hslots, hperm⟩ := h.flat
  have hguid : e.1.itemId ∉ l.guidToSlot := fun hmem => hnew (hperm.mem_iff.2 hmem)
  -- the instances that are there and the new one are different assets of the record
  have hcount : b.store.guids.length + 1 ≤ (assets (done ++ [e])).dedup.length := by
    have hnodup : (e.1.itemId :: b.store.guids).Nodup := nodup_cons.2 ⟨hnew, b.store.nodup⟩
    refine (subperm_of_subset hnodup fun guid hmem => ?_).length_le
    refine mem_dedup.2 ?_
    rcases mem_cons.1 hmem with rfl | hmem
    · exact Bag.mem_assets.2 ⟨e, mem_concat_self, hasset, rfl⟩
    · obtain ⟨e', he', hrest⟩ := Bag.mem_assets.1 (h.mem_assets hmem)
      exact Bag.mem_assets.2 ⟨e', mem_append_left _ he', hrest⟩
  rw [hl]
  rcases restorePlace_flat cfg named hok hguid e.1.configId e.2 with ⟨l', heq, hadds⟩ | ⟨-, hfull⟩
  · rw [heq]
    refine ⟨⟨l', rfl, hadds.ok, ?_, ?_⟩, fun item hitem => ?_, fun e' he' hasset' => ?_⟩
    · rw [FlatLayout.slotCount, hadds.capacity]
      exact hslots
    · change store.guids.Perm l'.guidToSlot.keys
      rw [ItemStore.guids_insert hins, hadds.keys]
      exact (perm_append_singleton _ _).trans (hperm.cons _)
    · have hitem : item ∈ store.items := hitem
      rw [hitems] at hitem
      rcases mem_append.1 hitem with hitem | hitem
      · obtain ⟨e', he', hrest⟩ := h.source item hitem
        exact ⟨e', mem_append_left _ he', hrest⟩
      · rw [mem_singleton.1 hitem]
        exact ⟨e, mem_concat_self, hasset, restoredAs_stampSeq _ _⟩
    · change e'.1.itemId ∈ store.guids
      rw [ItemStore.guids_insert hins]
      rcases mem_append.1 he' with he' | he'
      · exact mem_append_left _ (h.kept e' he' hasset')
      · rw [mem_singleton.1 he']
        exact mem_concat_self
  · have hlen := hperm.length_eq
    have hocc := hok.occupied_eq
    omega

theorem assets_dedup_le :
    (assets items).dedup.length ≤ (assets (items ++ more)).dedup.length := by
  refine (subperm_of_subset (nodup_dedup _) fun guid hmem => ?_).length_le
  obtain ⟨e, he, hrest⟩ := mem_assets.1 (mem_dedup.1 hmem)
  exact mem_dedup.2 (mem_assets.2 ⟨e, mem_append_left _ he, hrest⟩)

theorem Loading.insertItems (cfg : Tables) (rest : List (ItemComp × Nat)) :
    ∀ {done : List (ItemComp × Nat)} {b : Bag}, Loading named slots done b →
      (assets (done ++ rest)).dedup.length ≤ slots →
      Loading named slots (done ++ rest)
        (rest.foldl (fun b e => b.insertItemForRestore cfg e.1 e.2) b) := by
  induction rest with
  | nil =>
    intro done b h _
    rw [append_nil]
    exact h
  | cons e rest ih =>
    intro done b h hroom
    rw [append_cons] at hroom ⊢
    exact ih (h.insertItemForRestore cfg (Nat.le_trans assets_dedup_le hroom)) hroom

structure Empty (named : Bool) (slots : Nat) (b : Bag) : Prop where
  store : b.store.items = []
  layout : ∃ l, b.layout = .flat named l ∧ l.slotToGuid = ∅ ∧ l.guidToSlot = ∅ ∧
    l.slotCount = slots

theorem Empty.loading (h : b.Empty named slots) : Loading named slots [] b where
  flat := by
    obtain ⟨l, hl, hslots, hguids, hcount⟩ := h.layout
    refine ⟨l, hl, ⟨?_, ?_⟩, hcount, ?_⟩
    · rw [hslots, hguids]
      exact .empty
    · rw [hslots]
      exact fun _ hmem => nomatch hmem
    · rw [ItemStore.guids, h.store, hguids]
      exact .nil
  source item hitem := by
    rw [h.store] at hitem
    exact absurd hitem not_mem_nil
  kept e he := absurd he not_mem_nil

/-- **A load keeps every asset, if there are slots for them.** -/
theorem Empty.restoreItems (cfg : Tables) (h : b.Empty named slots)
    (hroom : (assets items).dedup.length ≤ slots) :
    Loading named slots items (b.restoreItems cfg items) := by
  have hraised : Empty named slots { b with store := raiseSeqs b.store items } :=
    ⟨(items_raiseSeqs b.store items).trans h.store, h.layout⟩
  exact hraised.loading.insertItems cfg items hroom

/-! ## Loading what was saved -/

/-- Instances with their slots that do not stand in each other's way. -/
structure Replayable (slots : Nat) (items : List (ItemComp × Nat)) : Prop where
  guids : (items.map (·.1.itemId)).Nodup
  places : (items.map (·.2)).Nodup
  slot_lt : ∀ e ∈ items, e.2 < slots
  asset : ∀ e ∈ items, IsAsset e.1
  stamped : ∀ e ∈ items, e.1.acquireSeq ≠ 0

theorem Replayable.of_append (h : Replayable slots (items ++ more)) : Replayable slots items where
  guids := h.guids.sublist ((sublist_append_left _ _).map _)
  places := h.places.sublist ((sublist_append_left _ _).map _)
  slot_lt e he := h.slot_lt e (mem_append_left _ he)
  asset e he := h.asset e (mem_append_left _ he)
  stamped e he := h.stamped e (mem_append_left _ he)

theorem Replayable.last (h : Replayable slots (done ++ [e])) :
    ∀ e' ∈ done, e'.1.itemId ≠ e.1.itemId ∧ e'.2 ≠ e.2 := by
  have hguids := h.guids
  have hplaces := h.places
  rw [map_append] at hguids hplaces
  intro e' he'
  constructor
  · intro heq
    exact (nodup_append'.1 hguids).2.2 (mem_map_of_mem he')
      (mem_singleton.2 heq)
  · intro heq
    exact (nodup_append'.1 hplaces).2.2 (mem_map_of_mem he')
      (mem_singleton.2 heq)

/-- The state of a load in which every instance so far is in its slot. -/
structure Replayed (slots : Nat) (done : List (ItemComp × Nat)) (b : Bag) : Prop where
  items : b.store.items = done.map (·.1)
  flat : ∃ l, b.layout = .flat false l ∧ l.Ok ∧ l.slotCount = slots ∧
    ∀ guid slot, l.guidToSlot.lookup guid = some slot ↔
      ∃ e ∈ done, e.1.itemId = guid ∧ e.2 = slot

/-- **The next instance goes to its slot as it is.** -/
theorem Replayed.insertItemForRestore (cfg : Tables) (h : Replayed slots done b)
    (hnext : Replayable slots (done ++ [e])) :
    Replayed slots (done ++ [e]) (b.insertItemForRestore cfg e.1 e.2) := by
  have he : e ∈ done ++ [e] := mem_concat_self
  obtain ⟨l, hl, hok, hslots, hlookup⟩ := h.flat
  have hnew : e.1.itemId ∉ b.store.guids := by
    rw [ItemStore.guids, h.items, map_map]
    intro hmem
    obtain ⟨e', he', hid⟩ := mem_map.1 hmem
    exact (hnext.last e' he').1 hid
  have hguid : e.1.itemId ∉ l.guidToSlot := by
    intro hmem
    obtain ⟨slot, hslot⟩ := Bimap.exists_lookup hmem
    obtain ⟨e', he', hid, -⟩ := (hlookup _ slot).1 hslot
    exact (hnext.last e' he').1 hid
  have hfree : e.2 ∉ l.slotToGuid := by
    intro hmem
    obtain ⟨guid, hguid⟩ := Bimap.exists_lookup hmem
    obtain ⟨e', he', -, hslot⟩ := (hlookup guid e.2).1 ((hok.inverse e.2 guid).1 hguid)
    exact (hnext.last e' he').2 hslot
  have hlt : e.2 < l.slotCount := hslots ▸ hnext.slot_lt e he
  have hstamp : (stampSeq b.store.nextAcquireSeq e.1).1 = e.1 :=
    (restoredAs_stampSeq _ _).seq (hnext.stamped e he)
  have hins : ∃ store, b.store.insert e.1 = some store := by
    unfold ItemStore.insert
    rw [dif_neg hnew]
    exact ⟨_, rfl⟩
  obtain ⟨store, hins⟩ := hins
  obtain ⟨-, hitems, -⟩ := ItemStore.insert_eq_some hins
  have hcontains : b.store.contains e.1.itemId = false := decide_eq_false hnew
  unfold Bag.insertItemForRestore
  rw [if_neg (Nat.ne_of_gt (hnext.asset e he).1), if_neg (hnext.asset e he).2, hcontains,
    if_neg Bool.false_ne_true, hins, hl]
  simp only [restorePlace_slot cfg hok hguid e.1.configId hlt hfree]
  refine ⟨?_, l.put e.1.itemId e.2, rfl, hok.put hguid hfree hlt, hslots, fun guid slot => ?_⟩
  · change store.items = _
    rw [hitems, hstamp, h.items, map_append, map_singleton]
  · change (l.guidToSlot.insert e.1.itemId e.2).lookup guid = some slot ↔ _
    by_cases heq : guid = e.1.itemId
    · subst heq
      rw [AList.lookup_insert]
      constructor
      · intro hslot
        exact ⟨e, he, rfl, Option.some.inj hslot⟩
      · rintro ⟨e', he', hid, rfl⟩
        rcases mem_append.1 he' with he' | he'
        · exact absurd hid (hnext.last e' he').1
        · rw [mem_singleton.1 he']
    · rw [AList.lookup_insert_ne heq, hlookup]
      constructor
      · rintro ⟨e', he', hrest⟩
        exact ⟨e', mem_append_left _ he', hrest⟩
      · rintro ⟨e', he', hid, hslot⟩
        rcases mem_append.1 he' with he' | he'
        · exact ⟨e', he', hid, hslot⟩
        · rw [mem_singleton.1 he'] at hid
          exact absurd hid.symm heq

theorem Replayed.insertItems (cfg : Tables) (rest : List (ItemComp × Nat)) :
    ∀ {done : List (ItemComp × Nat)} {b : Bag}, Replayed slots done b →
      Replayable slots (done ++ rest) →
      Replayed slots (done ++ rest)
        (rest.foldl (fun b e => b.insertItemForRestore cfg e.1 e.2) b) := by
  induction rest with
  | nil =>
    intro done b h _
    rw [append_nil]
    exact h
  | cons e rest ih =>
    intro done b h hnext
    rw [append_cons] at hnext ⊢
    exact ih (h.insertItemForRestore cfg hnext.of_append) hnext

theorem Empty.replayed (cfg : Tables) (h : b.Empty false slots)
    (hitems : Replayable slots items) : Replayed slots items (b.restoreItems cfg items) := by
  obtain ⟨l, hl, hslots, hguids, hcount⟩ := h.layout
  have hstart : Replayed slots [] { b with store := raiseSeqs b.store items } := by
    refine ⟨(items_raiseSeqs b.store items).trans h.store, l, hl, ⟨?_, ?_⟩, hcount,
      fun guid slot => ?_⟩
    · rw [hslots, hguids]
      exact .empty
    · rw [hslots]
      exact fun _ hmem => nomatch hmem
    · rw [hguids, AList.lookup_empty]
      simp
  exact hstart.insertItems cfg items hitems

theorem replay_marshalItems (b : Bag) (bagType : Nat) :
    replay (marshalItems b bagType) = (ordered b).map fun e => (e.2, e.1) := by
  rw [replay, marshalItems, map_map]
  rfl

theorem perm_ordered (hpos : b.store.Positive) :
    (ordered b).Perm (b.store.items.map fun item =>
      ((b.layout.slotOf item.itemId).getD invalidSlot, item)) := by
  unfold ordered
  refine (perm_insertionSort _ _).trans ?_
  rw [filter_eq_self.2 fun item hitem => decide_eq_true (hpos item hitem)]

variable {limit : Nat → Nat → Prop}

/-- A bag is saved with each instance in its own slot. -/
theorem Kept.replayable (h : b.Kept True limit) (hl : b.layout = .flat false l) (bagType : Nat) :
    Replayable l.slotCount (replay (marshalItems b bagType)) ∧
    ((replay (marshalItems b bagType)).map (·.1)).Perm b.store.items ∧
    ∀ guid slot, l.guidToSlot.lookup guid = some slot ↔
      ∃ e ∈ replay (marshalItems b bagType), e.1.itemId = guid ∧ e.2 = slot := by
  have hok : l.Ok := by
    have hok := h.layout
    rw [hl] at hok
    exact hok
  have hguids : b.store.guids.Perm l.guidToSlot.keys := by
    have hguids := h.guids
    rw [hl] at hguids
    exact hguids
  have hperm : (replay (marshalItems b bagType)).Perm
      (b.store.items.map fun item => (item, (b.layout.slotOf item.itemId).getD invalidSlot)) := by
    rw [replay_marshalItems]
    refine ((perm_ordered h.positive).map _).trans ?_
    rw [map_map]
    rfl
  -- every instance has a slot, and its entry holds that slot
  have hslot : ∀ item ∈ b.store.items, ∃ slot, l.guidToSlot.lookup item.itemId = some slot ∧
      (b.layout.slotOf item.itemId).getD invalidSlot = slot := by
    intro item hitem
    have hmem : item.itemId ∈ l.guidToSlot := hguids.mem_iff.1 (mem_map_of_mem hitem)
    obtain ⟨slot, hslot⟩ := Bimap.exists_lookup hmem
    refine ⟨slot, hslot, ?_⟩
    rw [hl]
    change (l.guidToSlot.lookup item.itemId).getD invalidSlot = slot
    rw [hslot, Option.getD_some]
  have hmem : ∀ e, e ∈ replay (marshalItems b bagType) ↔
      e.1 ∈ b.store.items ∧ l.guidToSlot.lookup e.1.itemId = some e.2 := by
    intro e
    rw [hperm.mem_iff, mem_map]
    constructor
    · rintro ⟨item, hitem, rfl⟩
      obtain ⟨slot, hlookup, hget⟩ := hslot item hitem
      exact ⟨hitem, hget ▸ hlookup⟩
    · rintro ⟨hitem, hlookup⟩
      obtain ⟨slot, hlookup', hget⟩ := hslot e.1 hitem
      refine ⟨e.1, hitem, Prod.ext rfl ?_⟩
      exact hget.trans (Option.some.inj (hlookup'.symm.trans hlookup))
  have hfst : ((replay (marshalItems b bagType)).map (·.1)).Perm b.store.items := by
    refine (hperm.map _).trans ?_
    rw [map_map]
    exact Perm.of_eq (map_id _)
  have hids : ((replay (marshalItems b bagType)).map (·.1.itemId)).Nodup := by
    have hnodup := (hfst.map (·.itemId)).nodup_iff.2 b.store.nodup
    rwa [map_map] at hnodup
  refine ⟨⟨hids, ?_, fun e he => ?_, fun e he => ?_, fun e he => ?_⟩, hfst, fun guid slot => ?_⟩
  · -- two entries in one slot have one guid, so they are one entry
    refine Nodup.map_on (fun e he e' he' heq => ?_) (Nodup.of_map _ hids)
    have hback := (hok.inverse e.2 e.1.itemId).2 ((hmem e).1 he).2
    have hback' := (hok.inverse e'.2 e'.1.itemId).2 ((hmem e').1 he').2
    rw [heq] at hback
    have hid : e.1.itemId = e'.1.itemId := Option.some.inj (hback.symm.trans hback')
    exact Prod.ext (ItemStore.eq_of_itemId ((hmem e).1 he).1 ((hmem e').1 he').1 hid) heq
  · have hback := (hok.inverse e.2 e.1.itemId).2 ((hmem e).1 he).2
    exact hok.slot_lt e.2 (Bimap.mem_of_lookup hback)
  · refine ⟨h.positive _ ((hmem e).1 he).1, fun hid => h.valid ?_⟩
    exact ItemStore.mem_guids.2 ⟨e.1, ((hmem e).1 he).1, hid⟩
  · exact Nat.ne_of_gt ((h.stamped trivial).pos _ ((hmem e).1 he).1)
  · constructor
    · intro hlookup
      have hguid : guid ∈ b.store.guids := hguids.mem_iff.2 (Bimap.mem_of_lookup hlookup)
      obtain ⟨item, hitem, rfl⟩ := ItemStore.mem_guids.1 hguid
      exact ⟨(item, slot), (hmem _).2 ⟨hitem, hlookup⟩, rfl, rfl⟩
    · rintro ⟨e, he, rfl, rfl⟩
      exact ((hmem e).1 he).2

/-- The calls lead from an empty bag to this one. The sequence numbers stay below the last one. -/
def Reachable (cfg : Tables) (b : Bag) : Prop :=
  ∃ (fresh : Bag) (ops : List Op), fresh.store = .empty ∧ fresh.layout.Fresh ∧
    Machine.Admits (Bag.step cfg) SeqsFit fresh ops ∧
    Machine.Admits (Bag.step cfg) Grows fresh ops ∧
    b = Machine.run (Bag.step cfg) fresh ops

theorem Reachable.kept (h : b.Reachable cfg) : b.Kept True fun _ _ => True := by
  obtain ⟨fresh, ops, hstore, hlayout, hseqs, hgrows, rfl⟩ := h
  exact (Kept.fresh hstore hlayout).run (ItemStore.allows_true cfg) (fun _ => hseqs)
    (fun op _ => sizesFit_true op) hgrows

structure SameBag (b b' : Bag) : Prop where
  items : b'.store.items.Perm b.store.items
  slots : ∀ guid, b'.layout.slotOf guid = b.layout.slotOf guid
  order : b'.store.inAcquireOrder = b.store.inAcquireOrder

/-- Instances are ordered as their sequence numbers with their guids. -/
theorem acquiredBefore_iff {a b : ItemComp} : ItemStore.acquiredBefore a b ↔
    toLex (a.acquireSeq, a.itemId) ≤ toLex (b.acquireSeq, b.itemId) := by
  rw [Prod.Lex.toLex_le_toLex]
  rfl

instance : IsTrans ItemComp ItemStore.acquiredBefore where
  trans _ _ _ hab hbc := acquiredBefore_iff.2
    (le_trans (acquiredBefore_iff.1 hab) (acquiredBefore_iff.1 hbc))

instance : Std.Total ItemStore.acquiredBefore where
  total _ _ := (le_total _ _).imp acquiredBefore_iff.2 acquiredBefore_iff.2

/-- The order of acquisition depends on the instances only. -/
theorem inAcquireOrder_eq {s s' : ItemStore} (h : s'.items.Perm s.items) :
    s'.inAcquireOrder = s.inAcquireOrder := by
  have hperm := (s'.perm_inAcquireOrder.trans h).trans s.perm_inAcquireOrder.symm
  refine hperm.eq_of_pairwise (fun a b ha hb hab hba => ?_)
    (pairwise_insertionSort _ _) (pairwise_insertionSort _ _)
  have heq := toLex.injective (le_antisymm (acquiredBefore_iff.1 hab) (acquiredBefore_iff.1 hba))
  have ha' := h.mem_iff.1 (s'.perm_inAcquireOrder.mem_iff.1 ha)
  exact ItemStore.eq_of_itemId ha' (s.perm_inAcquireOrder.mem_iff.1 hb) (congrArg Prod.snd heq)

/-- **An empty bag of the same size loads what was saved.** -/
theorem Kept.sameBag {b' : Bag} (h : b.Kept True limit) (hflat : b.layout.IsFlat false)
    (hempty : b'.Empty false (storedCapacity b)) (bagType : Nat) :
    SameBag b (b'.restoreItems cfg (replay (marshalItems b bagType))) := by
  obtain ⟨l, hl⟩ := hflat.exists_eq
  obtain ⟨hitems, hperm, hlookup⟩ := h.replayable hl bagType
  have hslots : storedCapacity b = l.slotCount := by
    rw [storedCapacity, hl]
    rfl
  rw [hslots] at hempty
  obtain ⟨hstore, l', hl', -, -, hlookup'⟩ := hempty.replayed cfg hitems
  have hsame := hstore ▸ hperm
  refine ⟨hsame, fun guid => ?_, inAcquireOrder_eq hsame⟩
  rw [hl', hl]
  refine Option.ext fun slot => ?_
  exact (hlookup' guid slot).trans (hlookup guid slot).symm

/-- What a load into this many slots keeps: with slots for all assets, each one, as long as its
guid is not used for something else. -/
def Keeps (entries : List ItemEntry) (slots : Nat) (b : Bag) : Prop :=
  (assets (replay entries)).dedup.length ≤ slots →
    ∀ entry ∈ entries, IsAsset (itemFromEntry entry) →
    (∀ other ∈ entries, IsAsset (itemFromEntry other) →
      (itemFromEntry other).itemId = (itemFromEntry entry).itemId →
      itemFromEntry other = itemFromEntry entry) →
    ∃ item ∈ b.store.items, RestoredAs (itemFromEntry entry) item

theorem Empty.keeps (h : b.Empty named slots) (entries : List ItemEntry) :
    Keeps entries slots (b.restoreItems cfg (replay entries)) := by
  intro hroom entry hentry hasset hunique
  have hload := h.restoreItems cfg hroom
  have hguid := hload.kept (itemFromEntry entry, entry.pos) (mem_map_of_mem hentry) hasset
  obtain ⟨item, hitem, hid⟩ := ItemStore.mem_guids.1 hguid
  obtain ⟨e, he, hasset', hrestored⟩ := hload.source item hitem
  obtain ⟨other, hother, rfl⟩ := mem_map.1 he
  have heq := hunique other hother hasset' (hrestored.itemId.symm.trans hid)
  exact ⟨item, hitem, heq ▸ hrestored⟩

theorem empty_setCapacityForRestore (h : b.Empty named slots) (newCapacity : Nat) :
    (b.setCapacityForRestore newCapacity).Empty named (newCapacity % slotRange) := by
  obtain ⟨l, hl, hslots, hguids, -⟩ := h.layout
  have hzero : b.layout.occupiedSlotCount = 0 := by
    rw [hl]
    change l.slotToGuid.keys.length = 0
    rw [hslots]
    rfl
  unfold Bag.setCapacityForRestore
  rw [hzero, if_neg (Nat.not_lt_zero _)]
  refine ⟨h.store, { l with capacity := newCapacity }, ?_, hslots, hguids, rfl⟩
  change b.layout.resize newCapacity = _
  rw [hl]
  rfl

theorem empty_resetFromSnapshot (h : b.layout.IsFlat named) :
    b.resetFromSnapshot.Empty named (b.layout.capacity % slotRange) := by
  obtain ⟨l, hl⟩ := h.exists_eq
  refine ⟨rfl, l.clear, ?_, rfl, rfl, ?_⟩
  · change b.layout.clear = _
    rw [hl]
    rfl
  · rw [hl]
    rfl

end Bag

/-! ## The bags of a player -/

def restoredSlots (b : Bag) (capacity : Option Nat) : Nat :=
  capacity.getD b.layout.capacity % slotRange

theorem restoreFixed_eq (cfg : Tables) {b : Bag} (h : b.layout.IsFlat named)
    (capacity : Option Nat) (entries : List ItemEntry) :
    ∃ b' : Bag, b'.Empty named (restoredSlots b capacity) ∧
      restoreFixed cfg b capacity entries = b'.restoreItems cfg (replay entries) := by
  have hempty := Bag.empty_resetFromSnapshot h
  cases capacity with
  | none => exact ⟨_, hempty, rfl⟩
  | some newCapacity => exact ⟨_, Bag.empty_setCapacityForRestore hempty newCapacity, rfl⟩

theorem restoreDynamic_eq (cfg : Tables) {registry : BagProfileRegistry} (dyn : DynamicBagData)
    {n : Nat}
    (h : (registry.make dyn.profileId dyn.capacity).layout = .flat named (.new n)) :
    ∃ b' : Bag, b'.Empty named (dyn.capacity % slotRange) ∧
      (restoreDynamic cfg registry dyn).bag = b'.restoreItems cfg (replay dyn.items) := by
  have hempty : (registry.make dyn.profileId dyn.capacity).bag.Empty named (n % slotRange) :=
    ⟨rfl, .new n, h, rfl, rfl, rfl⟩
  exact ⟨_, Bag.empty_setCapacityForRestore hempty dyn.capacity, rfl⟩

theorem marshalItems_bagType {b : Bag} {bagType : Nat} {entry : ItemEntry}
    (h : entry ∈ marshalItems b bagType) : entry.bagType = bagType := by
  obtain ⟨e, -, rfl⟩ := List.mem_map.1 h
  rfl

/-- The entries of another bag are no entries of this one. -/
theorem filter_marshalItems (b : Bag) (bagType index : Nat) :
    (marshalItems b bagType).filter (·.bagType = index) =
      if bagType = index then marshalItems b bagType else [] := by
  split
  · exact List.filter_eq_self.2 fun entry hentry =>
      decide_eq_true ((marshalItems_bagType hentry).trans ‹_›)
  · exact List.filter_eq_nil_iff.2 fun entry hentry heq =>
      ‹¬ bagType = index› ((marshalItems_bagType hentry).symm.trans (of_decide_eq_true heq))

variable (bagType : BagType)

theorem BagType.index_lt : bagType.index < BagType.count := by
  cases bagType <;> decide

section

variable (player : PlayerBags)

/-- A fixed bag gets back its own entries. -/
theorem items_marshal :
    (marshal player).items.filter (·.bagType = bagType.index) =
      marshalItems (player.bags bagType) bagType.index := by
  have hrest : player.unsupportedItems.filter (·.bagType = bagType.index) = [] := by
    refine List.filter_eq_nil_iff.2 fun entry hentry heq => ?_
    have hle := player.unsupported entry hentry
    rw [of_decide_eq_true heq] at hle
    exact Nat.not_le_of_lt bagType.index_lt hle
  simp only [marshal, BagType.all, List.flatMap_cons, List.flatMap_nil, List.filter_append,
    filter_marshalItems, hrest, List.append_nil]
  cases bagType <;> simp [BagType.index]

theorem capacities_marshal :
    (marshal player).capacities[bagType.index]? = some (storedCapacity (player.bags bagType)) := by
  cases bagType <;> rfl

theorem unsupported_marshal :
    (marshal player).items.filter (·.bagType ≥ BagType.count) = player.unsupportedItems := by
  have hknown : ∀ b : Bag, ∀ bagType : BagType,
      (marshalItems b bagType.index).filter (·.bagType ≥ BagType.count) = [] := by
    intro b bagType
    refine List.filter_eq_nil_iff.2 fun entry hentry heq => ?_
    have hle : BagType.count ≤ entry.bagType := of_decide_eq_true heq
    rw [marshalItems_bagType hentry] at hle
    exact Nat.not_le_of_lt bagType.index_lt hle
  simp only [marshal, BagType.all, List.flatMap_cons, List.flatMap_nil, List.filter_append,
    hknown, List.nil_append, List.filter_nil]
  exact List.filter_eq_self.2 fun entry hentry => decide_eq_true (player.unsupported entry hentry)

end

/-! ## Dynamic bags -/

section Dynamic

variable (cfg : Tables) (registry : BagProfileRegistry)

/-- The bags of the records, later records replacing earlier ones of their id. -/
def restoreDynamics (bags : AList fun _ : Nat => DynamicBag) (records : List DynamicBagData) :
    AList fun _ : Nat => DynamicBag :=
  records.foldl (fun dynamicBags dyn =>
    dynamicBags.insert dyn.bagId (restoreDynamic cfg registry dyn)) bags

variable {cfg registry}

variable (records : List DynamicBagData)

theorem lookup_restoreDynamics_of_absent {bagId : Nat} :
    ∀ {bags : AList fun _ : Nat => DynamicBag}, (∀ dyn ∈ records, dyn.bagId ≠ bagId) →
      (restoreDynamics cfg registry bags records).lookup bagId = bags.lookup bagId := by
  induction records with
  | nil => exact fun _ => rfl
  | cons record records ih =>
    intro bags habsent
    refine (ih fun dyn hdyn => habsent dyn (List.mem_cons_of_mem _ hdyn)).trans ?_
    exact AList.lookup_insert_ne (habsent record List.mem_cons_self).symm

/-- A record with an id of its own is loaded. -/
theorem lookup_restoreDynamics {dyn : DynamicBagData} :
    ∀ {bags : AList fun _ : Nat => DynamicBag}, dyn ∈ records →
      (∀ other ∈ records, other.bagId = dyn.bagId → other = dyn) →
      (restoreDynamics cfg registry bags records).lookup dyn.bagId =
        some (restoreDynamic cfg registry dyn) := by
  induction records with
  | nil => exact fun h => absurd h List.not_mem_nil
  | cons record records ih =>
    intro bags hmem hunique
    by_cases hlater : dyn ∈ records
    · exact ih hlater fun other hother => hunique other (List.mem_cons_of_mem _ hother)
    have heq : dyn = record := (List.mem_cons.1 hmem).resolve_right hlater
    subst heq
    refine (lookup_restoreDynamics_of_absent records fun other hother hid => ?_).trans
      (AList.lookup_insert _)
    exact hlater (hunique other (List.mem_cons_of_mem _ hother) hid ▸ hother)

end Dynamic

def marshalDynamic (bagId : Nat) (dyn : DynamicBag) : DynamicBagData :=
  ⟨bagId, storedCapacity dyn.bag, dyn.profileId, marshalItems dyn.bag 0⟩

theorem mem_dynamicBags_marshal {player : PlayerBags} {record : DynamicBagData} :
    record ∈ (marshal player).dynamicBags ↔
      ∃ bagId dyn, player.dynamicBags.lookup bagId = some dyn ∧
        record = marshalDynamic bagId dyn := by
  simp only [marshal, List.mem_filterMap, Option.map_eq_some_iff]
  constructor
  · rintro ⟨bagId, -, dyn, hlookup, rfl⟩
    exact ⟨bagId, dyn, hlookup, rfl⟩
  · rintro ⟨bagId, dyn, hlookup, rfl⟩
    refine ⟨bagId, ?_, dyn, hlookup, rfl⟩
    exact (List.perm_insertionSort _ _).mem_iff.2 (Bimap.mem_of_lookup hlookup)

/-- The records of the dynamic bags have different ids. -/
theorem lookup_dynamicBags_marshal (cfg : Tables) (registry : BagProfileRegistry)
    (player target : PlayerBags) (bagId : Nat) :
    (unmarshal cfg registry target (marshal player)).dynamicBags.lookup bagId =
      (player.dynamicBags.lookup bagId).map fun dyn =>
        restoreDynamic cfg registry (marshalDynamic bagId dyn) := by
  cases hlookup : player.dynamicBags.lookup bagId with
  | none =>
    refine lookup_restoreDynamics_of_absent _ fun record hrecord hid => ?_
    obtain ⟨bagId', dyn, hlookup', rfl⟩ := mem_dynamicBags_marshal.1 hrecord
    have hid : bagId' = bagId := hid
    rw [hid, hlookup] at hlookup'
    exact nomatch hlookup'
  | some dyn =>
    refine lookup_restoreDynamics _ (mem_dynamicBags_marshal.2 ⟨bagId, dyn, hlookup, rfl⟩)
      fun other hother hid => ?_
    obtain ⟨bagId', dyn', hlookup', rfl⟩ := mem_dynamicBags_marshal.1 hother
    have hid : bagId' = bagId := hid
    rw [hid, hlookup] at hlookup'
    rw [hid, Option.some.inj hlookup']

/-! ## Nothing is lost -/

/-- What a save and a load into the same kinds of bags bring back. -/
structure Lossless (cfg : Tables) (registry : BagProfileRegistry) (player target : PlayerBags) :
    Prop where
  fixed : ∀ bagType, (player.bags bagType).Reachable cfg →
    (player.bags bagType).layout.IsFlat false → (target.bags bagType).layout.IsFlat false →
    Bag.SameBag (player.bags bagType)
      ((unmarshal cfg registry target (marshal player)).bags bagType)
  dynamic : ∀ bagId dyn, player.dynamicBags.lookup bagId = some dyn → dyn.bag.Reachable cfg →
    dyn.bag.layout.IsFlat false →
    (∃ n, (registry.make dyn.profileId (storedCapacity dyn.bag)).layout = .flat false (.new n)) →
    ∃ dyn', (unmarshal cfg registry target (marshal player)).dynamicBags.lookup bagId = some dyn' ∧
      dyn'.profileId = dyn.profileId ∧ Bag.SameBag dyn.bag dyn'.bag
  absent : ∀ bagId, player.dynamicBags.lookup bagId = none →
    (unmarshal cfg registry target (marshal player)).dynamicBags.lookup bagId = none
  unsupportedItems : (unmarshal cfg registry target (marshal player)).unsupportedItems =
    player.unsupportedItems
  unsupportedCapacities : (unmarshal cfg registry target (marshal player)).unsupportedCapacities =
    player.unsupportedCapacities

structure LoadKeeps (cfg : Tables) (registry : BagProfileRegistry) (target : PlayerBags)
    (data : BagAllData) : Prop where
  fixed : ∀ bagType named, (target.bags bagType).layout.IsFlat named →
    Bag.Keeps (data.items.filter (·.bagType = bagType.index))
      (restoredSlots (target.bags bagType) data.capacities[bagType.index]?)
      ((unmarshal cfg registry target data).bags bagType)
  dynamic : ∀ dyn ∈ data.dynamicBags,
    (∀ other ∈ data.dynamicBags, other.bagId = dyn.bagId → other = dyn) →
    ∀ named n, (registry.make dyn.profileId dyn.capacity).layout = .flat named (.new n) →
    ∃ dyn', (unmarshal cfg registry target data).dynamicBags.lookup dyn.bagId = some dyn' ∧
      Bag.Keeps dyn.items (dyn.capacity % slotRange) dyn'.bag
  unsupported : ∀ entry ∈ data.items, BagType.count ≤ entry.bagType →
    entry ∈ (unmarshal cfg registry target data).unsupportedItems

theorem lossless (cfg : Tables) (registry : BagProfileRegistry) (player target : PlayerBags) :
    Lossless cfg registry player target where
  fixed bagType hreach hflat hkind := by
    change Bag.SameBag _ (restoreFixed cfg _ _ _)
    rw [items_marshal, capacities_marshal]
    obtain ⟨b', hempty, heq⟩ := restoreFixed_eq cfg hkind
      (some (storedCapacity (player.bags bagType)))
      (marshalItems (player.bags bagType) bagType.index)
    have hslots : restoredSlots (target.bags bagType) (some (storedCapacity (player.bags bagType)))
        = storedCapacity (player.bags bagType) := Nat.mod_mod _ _
    rw [hslots] at hempty
    rw [heq]
    exact hreach.kept.sameBag hflat hempty bagType.index
  dynamic bagId dyn hlookup hreach hflat hprofile := by
    obtain ⟨n, hprofile⟩ := hprofile
    obtain ⟨b', hempty, heq⟩ := restoreDynamic_eq cfg (marshalDynamic bagId dyn) hprofile
    have hslots : (marshalDynamic bagId dyn).capacity % slotRange = storedCapacity dyn.bag :=
      Nat.mod_mod _ _
    rw [hslots] at hempty
    refine ⟨restoreDynamic cfg registry (marshalDynamic bagId dyn), ?_, rfl, ?_⟩
    · rw [lookup_dynamicBags_marshal, hlookup, Option.map_some]
    · rw [heq]
      exact hreach.kept.sameBag hflat hempty 0
  absent bagId hlookup := by
    rw [lookup_dynamicBags_marshal, hlookup, Option.map_none]
  unsupportedItems := unsupported_marshal player
  unsupportedCapacities := rfl

theorem loadKeeps (cfg : Tables) (registry : BagProfileRegistry) (target : PlayerBags)
    (data : BagAllData) : LoadKeeps cfg registry target data where
  fixed bagType named hflat := by
    obtain ⟨b', hempty, heq⟩ := restoreFixed_eq cfg hflat data.capacities[bagType.index]?
      (data.items.filter (·.bagType = bagType.index))
    change Bag.Keeps _ _ (restoreFixed cfg _ _ _)
    rw [heq]
    exact hempty.keeps _
  dynamic dyn hdyn hunique named n hprofile := by
    obtain ⟨b', hempty, heq⟩ := restoreDynamic_eq cfg dyn hprofile
    refine ⟨_, lookup_restoreDynamics _ hdyn hunique, ?_⟩
    rw [heq]
    exact hempty.keeps _
  unsupported entry hentry hle := List.mem_filter.2 ⟨hentry, decide_eq_true hle⟩

/-- **A save and a load bring back the bags, and a load of any record keeps every asset that there
is a slot for.** -/
theorem unmarshal_keeps (cfg : Tables) (registry : BagProfileRegistry) (target : PlayerBags) :
    (∀ player, Lossless cfg registry player target) ∧
    ∀ data, LoadKeeps cfg registry target data :=
  ⟨fun player => lossless cfg registry player target, loadKeeps cfg registry target⟩

def sampleFills : List Op :=
  [.restoreItems [(⟨7, 1, 5, 6, none, []⟩, 1), (⟨8, 1, 2, 4, none, []⟩, 3)],
    .addItems [⟨0, 1, 5, 0, none, []⟩] (9 + ·) false none]

def sampleInventory : Bag := Machine.run (Bag.step Bag.sampleTables) Bag.sampleBag sampleFills

def samplePlayer : PlayerBags :=
  { PlayerBags.new with bags := fun _ => sampleInventory }

/-- Three stacks come back in their slots and in the order in which they were acquired, and two
instances of one slot are both loaded. -/
theorem unmarshal_keeps_sample :
    (let player := unmarshal Bag.sampleTables ⟨fun _ => none⟩ .new (marshal samplePlayer)
      let loaded := player.bags .inventory
      [7, 8, 9].map loaded.layout.slotOf = [some 1, some 3, some 0] ∧
        loaded.store.inAcquireOrder.map (·.itemId) = [8, 7, 9]) ∧
    ∃ item ∈ ((unmarshal Bag.sampleTables ⟨fun _ => none⟩ .new
        ⟨[2], [⟨7, 1, 2, 0, 0, 3, none, none⟩, ⟨8, 9, 2, 0, 0, 4, none, none⟩], []⟩).bags
      .inventory).store.items, Bag.RestoredAs ⟨8, 9, 2, 4, none, []⟩ item := by
  obtain ⟨hlossless, hkeeps⟩ := unmarshal_keeps Bag.sampleTables ⟨fun _ => none⟩ .new
  constructor
  · have hreach : sampleInventory.Reachable Bag.sampleTables :=
      ⟨Bag.sampleBag, sampleFills, rfl, .flat false 4,
        ⟨⟨50, by decide, by decide, by decide⟩, ⟨7, by decide, by decide, by decide⟩, trivial⟩,
        ⟨trivial, trivial, trivial⟩, rfl⟩
    have hsame := (hlossless samplePlayer).fixed .inventory hreach rfl rfl
    refine ⟨(List.map_congr_left fun guid _ => hsame.slots guid).trans (by decide), ?_⟩
    rw [hsame.order]
    decide
  · exact (hkeeps _).fixed .inventory false rfl (by decide) ⟨8, 9, 2, 0, 0, 4, none, none⟩
      (by decide) (by decide) (by decide)

/-- Two instances in a bag of one slot: the second one is gone. -/
theorem unmarshal_drops_second :
    let entries : List ItemEntry := [⟨7, 1, 2, 0, 0, 3, none, none⟩, ⟨8, 1, 2, 1, 0, 4, none, none⟩]
    let loaded := unmarshal Bag.sampleTables ⟨fun _ => none⟩ .new ⟨[1], entries, []⟩
    (∀ entry ∈ entries, Bag.IsAsset (itemFromEntry entry)) ∧
    (∀ entry ∈ entries, (Bag.sampleTables.item entry.configId).isSome) ∧
    (entries.map (·.itemUuid)).Nodup ∧ (PlayerBags.new.bags .inventory).layout.IsFlat false ∧
    (loaded.bags .inventory).store.guids = [7] :=
  ⟨by decide, by decide, by decide, rfl, by decide⟩

end Mmorpg.Bags
