import Mmorpg.Bags.AddItems

/-!
# The representation invariant of bags

From an empty bag, every run of calls keeps the layers consistent (`run_consistent`), whatever the
layout, the policies and the arguments are, and whether the calls succeed or fail. Two clauses ask
something of the calls. A snapshot is restored as it is, so stacks are within the table if those of
the snapshots are. And sequence numbers are of 64 bits, so they are below the next one as long as
the calls do not pass the last one.
-/

namespace Mmorpg.Bags

namespace Layout

def cellAt (i : Nat) : Layout → Option Guid
  | .flat _ l => l.slotToGuid.lookup i
  | .grid l => l.cells i

def cellsOf (guid : Guid) : Layout → List Nat
  | .flat _ l => (l.guidToSlot.lookup guid).toList
  | .grid l => ((l.placed.lookup guid).map l.rectOf).getD []

/-- Every instance has one place, within the layout, and no two places share a cell. -/
structure Separate (l : Layout) : Prop where
  one : ∀ guid ∈ l.guids, ∃! slot, l.slots.lookup slot = some guid
  within : ∀ guid ∈ l.guids, l.cellsOf guid ≠ [] ∧ ∀ i ∈ l.cellsOf guid, i < l.capacity
  cell : ∀ i guid, l.cellAt i = some guid ↔ i ∈ l.cellsOf guid
  disjoint : ∀ guid other, guid ≠ other → (l.cellsOf guid).Disjoint (l.cellsOf other)

/-- The cells tell the places apart. -/
theorem disjoint_cellsOf {l : Layout}
    (hcell : ∀ i guid, l.cellAt i = some guid ↔ i ∈ l.cellsOf guid) (guid other : Guid)
    (hne : guid ≠ other) : (l.cellsOf guid).Disjoint (l.cellsOf other) := by
  intro i hi hi'
  have hguid := (hcell i guid).2 hi
  rw [(hcell i other).2 hi'] at hguid
  exact hne (Option.some.inj hguid).symm

theorem Ok.separate {l : Layout} (h : l.Ok) : l.Separate := by
  cases l with
  | flat named l =>
    have hcell : ∀ i guid, (Layout.flat named l).cellAt i = some guid ↔
        i ∈ (Layout.flat named l).cellsOf guid := by
      intro i guid
      rw [cellsOf, Option.mem_toList]
      exact h.inverse i guid
    refine ⟨fun guid hguid => ?_, fun guid hguid => ?_, hcell, disjoint_cellsOf hcell⟩
    · obtain ⟨slot, hslot⟩ := Bimap.exists_lookup hguid
      refine ⟨slot, (h.inverse slot guid).2 hslot, fun slot' hslot' => ?_⟩
      have heq := (h.inverse slot' guid).1 hslot'
      exact Option.some.inj (heq.symm.trans hslot)
    · obtain ⟨slot, hslot⟩ := Bimap.exists_lookup hguid
      have hmem := Bimap.mem_of_lookup ((h.inverse slot guid).2 hslot)
      rw [cellsOf, hslot]
      refine ⟨List.cons_ne_nil _ _, fun i hi => ?_⟩
      rw [List.mem_singleton.1 hi]
      exact Nat.lt_of_lt_of_le (h.slot_lt slot hmem) (Nat.mod_le _ _)
  | grid l =>
    have hcell : ∀ i guid, (Layout.grid l).cellAt i = some guid ↔
        i ∈ (Layout.grid l).cellsOf guid := by
      intro i guid
      refine (h.cell i guid).trans ?_
      rw [cellsOf]
      cases l.placed.lookup guid with
      | none | some p => simp
    refine ⟨fun guid hguid => ?_, fun guid hguid => ?_, hcell, disjoint_cellsOf hcell⟩
    · obtain ⟨p, hp⟩ := Bimap.exists_lookup hguid
      refine ⟨p.anchor, (h.anchor p.anchor guid).2 ⟨p, hp, rfl⟩, fun slot hslot => ?_⟩
      obtain ⟨p', hp', hanchor⟩ := (h.anchor slot guid).1 hslot
      rw [← hanchor, Option.some.inj (hp'.symm.trans hp)]
    · obtain ⟨p, hp⟩ := Bimap.exists_lookup hguid
      have hfits := h.fits guid p hp
      rw [cellsOf, hp]
      exact ⟨List.ne_nil_of_mem hfits.anchor_mem, fun i hi => hfits.lt_capacity hi⟩

end Layout

namespace Bag

open ItemStore List

variable {cfg : Tables} {seqs : Prop} {limit : Nat → Nat → Prop} {b : Bag}

/-- The new instances of a batch are at most its units. -/
theorem batchNeeds_le (items : List ItemComp) : ∀ room : Nat → Nat, Known cfg items →
    batchNeeds cfg room items ≤ (items.map (·.size)).sum := by
  induction items with
  | nil => exact fun _ _ => Nat.le_refl _
  | cons item items ih =>
    intro room hknown
    obtain ⟨row, hrow, hmax⟩ := hknown item mem_cons_self
    have hrest := ih (roomAfter cfg room item)
      fun proto hproto => hknown proto (mem_cons_of_mem _ hproto)
    have hle := Packing.stacksNeeded_le (item.size - entryRoom room item) hmax
    rw [batchNeeds, maxOf_eq hrow, map_cons, sum_cons]
    omega

/-- What is asked of a call for the sequence numbers. -/
def SeqsFit (b : Bag) : Op → Prop
  | .addItems itemsToAdd _ _ _ => ∃ bound, b.store.nextAcquireSeq ≤ bound ∧
      (∀ item ∈ itemsToAdd, item.acquireSeq < bound) ∧
      bound + (itemsToAdd.map (·.size)).sum < seqRange
  | .putInstance _ _ => b.store.nextAcquireSeq + 1 < seqRange
  | .restoreItems items => ∃ bound, b.store.nextAcquireSeq ≤ bound ∧
      (∀ e ∈ items, 0 < e.1.size → e.1.acquireSeq < bound) ∧ bound + items.length < seqRange
  | _ => True

/-- What is asked of a snapshot for the sizes of stacks. -/
def SizesFit (limit : Nat → Nat → Prop) : Op → Prop
  | .restoreItems items => ∀ e ∈ items, 0 < e.1.size → limit e.1.configId e.1.size
  | _ => True

def Grows (b : Bag) : Op → Prop
  | .expandCapacity sz => b.layout.Sizes (b.layout.capacity + sz)
  | _ => True

theorem Kept.addItems (hl : Allows cfg limit) (h : b.Kept seqs limit) (itemsToAdd : List ItemComp)
    (mint : Nat → Guid) (evictedOut : Bool) (initializer : Option (ItemComp → ItemComp))
    (hfit : seqs → b.SeqsFit (.addItems itemsToAdd mint evictedOut initializer)) :
    (b.addItems cfg itemsToAdd mint evictedOut initializer).2.Kept seqs limit := by
  unfold Bag.addItems
  split
  · exact h
  split
  · exact h
  rename_i store layout receipt hcandidate
  obtain ⟨minted, new, candidate, c, hc⟩ := addItemsCandidate_spec h hcandidate
  have hgrown := hc.batch.grown
  have hstore := hc.committed
  have hcount : new.length ≤ (itemsToAdd.map (·.size)).sum :=
    hc.batch.count ▸ batchNeeds_le itemsToAdd _ hc.known
  have hstamped : seqs → c.store.Stamped := by
    intro hs
    obtain ⟨bound, hnext, hseqs, hbound⟩ := hfit hs
    exact (hgrown.stamped bound hseqs (hc.stamped hs) (hc.next ▸ hnext) (by omega)).1
  exact ⟨⟨hc.placed, hc.guids, hc.valid, hstore ▸ hstamped⟩,
    hstore ▸ hgrown.positive hc.positive, hstore ▸ hgrown.sized limit hl hc.sized⟩

theorem Kept.restore (h : b.Kept seqs limit) {items : List (ItemComp × Nat)}
    (hfit : seqs → b.SeqsFit (.restoreItems items))
    (hsizes : SizesFit limit (.restoreItems items)) :
    (b.restoreItems cfg items).Kept seqs limit := by
  by_cases hs : seqs
  · obtain ⟨bound, hnext, hseqs, hbound⟩ := hfit hs
    exact h.restoreItems hsizes (fun _ => hseqs) (fun _ => hnext) fun _ => hbound
  · have hnone : seqs → ∀ e ∈ items, 0 < e.1.size → e.1.acquireSeq < 0 := (absurd · hs)
    exact h.restoreItems hsizes hnone (absurd · hs) (absurd · hs)

/-- **Every call keeps the invariant.** -/
theorem Kept.step (hl : Allows cfg limit) (h : b.Kept seqs limit) {op : Op}
    (hseqs : seqs → b.SeqsFit op) (hsizes : SizesFit limit op) (hgrows : b.Grows op) :
    (b.step cfg op).Kept seqs limit := by
  cases op with
  | addItems itemsToAdd mint evictedOut initializer =>
    exact h.addItems hl itemsToAdd mint evictedOut initializer hseqs
  | removeItems itemsToRemove => exact h.removeItems hl itemsToRemove
  | removeItemsClamped itemsToRemove => exact Kept.drainAll hl _ h
  | removeItemByPos param => exact h.removeItemByPos hl param
  | removeItem guid => exact h.removeItem guid
  | destroyItem guid => exact h.destroyItem guid
  | takeInstance guid => exact h.takeInstance guid
  | putInstance item slot => exact h.putInstance hl item slot hseqs
  | mergeAndCompact policy => exact h.mergeAndCompact hl policy
  | restoreItems items => exact h.restore hseqs hsizes
  | expandCapacity sz => exact h.expandCapacity hgrows

theorem Kept.run (hl : Allows cfg limit) (h : b.Kept seqs limit) {ops : List Op}
    (hseqs : seqs → Machine.Admits (Bag.step cfg) SeqsFit b ops)
    (hsizes : ∀ op ∈ ops, SizesFit limit op) (hgrows : Machine.Admits (Bag.step cfg) Grows b ops) :
    (Machine.run (Bag.step cfg) b ops).Kept seqs limit :=
  Machine.run_invariant_of_admits (fun _ _ h hop => h.step hl hop.1 hop.2.1 hop.2.2) h
    ((Machine.admits_imp hseqs).and ((Machine.admits_of_forall hsizes).and hgrows))

theorem sizesFit_true (op : Op) : SizesFit (fun _ _ => True) op := by
  cases op with
  | restoreItems items => exact fun _ _ _ => trivial
  | _ => trivial

structure Consistent (b : Bag) : Prop where
  guids : ∀ guid, guid ∈ b.store.guids ↔ guid ∈ b.layout.guids
  separate : b.layout.Separate
  positive : ∀ item ∈ b.store.items, 1 ≤ item.size
  layers : b.isLayerConsistent = true

def SeqsBelow (b : Bag) : Prop := ∀ item ∈ b.store.items, item.acquireSeq < b.store.nextAcquireSeq

/-- **From an empty bag every run of calls keeps the layers consistent.** Stacks stay within the
table if the snapshots' stacks are, and sequence numbers below the next one if no call passes the
last one. -/
theorem run_consistent (hstore : b.store = .empty) (hlayout : b.layout.Fresh) {ops : List Op}
    (hgrows : Machine.Admits (Bag.step cfg) Grows b ops) :
    Consistent (Machine.run (Bag.step cfg) b ops) ∧
    ((∀ op ∈ ops, SizesFit (tableLimit cfg) op) →
      (Machine.run (Bag.step cfg) b ops).store.Bounded cfg) ∧
    (Machine.Admits (Bag.step cfg) SeqsFit b ops →
      SeqsBelow (Machine.run (Bag.step cfg) b ops)) := by
  refine ⟨?_, fun hsizes => ?_, fun hseqs => ?_⟩
  · have h : (Machine.run (Bag.step cfg) b ops).Kept False fun _ _ => True :=
      (Kept.fresh hstore hlayout).run (allows_true cfg) (nomatch ·) (fun op _ => sizesFit_true op)
        hgrows
    exact ⟨fun _ => h.guids.mem_iff, h.layout.separate, h.positive, h.isLayerConsistent⟩
  · have h : (Machine.run (Bag.step cfg) b ops).Kept False (tableLimit cfg) :=
      (Kept.fresh hstore hlayout).run (allows_tableLimit cfg) (nomatch ·) hsizes hgrows
    exact h.sized
  · have h : (Machine.run (Bag.step cfg) b ops).Kept True fun _ _ => True :=
      (Kept.fresh hstore hlayout).run (allows_true cfg) (fun _ => hseqs)
        (fun op _ => sizesFit_true op) hgrows
    exact (h.stamped trivial).lt

def sampleCalls : List Op :=
  [.addItems sampleBatch (100 + ·) true none, .mergeAndCompact .mergeAndReorder,
    .removeItemsClamped (AList.singleton 1 6), .restoreItems [(⟨7, 1, 5, 3, none, []⟩, 0)]]

/-- A batch, a rearrangement, a drain and a restored instance. -/
theorem run_consistent_sample :
    Consistent (Machine.run (Bag.step sampleTables) sampleBag sampleCalls) ∧
    (Machine.run (Bag.step sampleTables) sampleBag sampleCalls).store.Bounded sampleTables ∧
    SeqsBelow (Machine.run (Bag.step sampleTables) sampleBag sampleCalls) := by
  obtain ⟨hconsistent, htable, hseqs⟩ := @run_consistent sampleTables sampleBag rfl
    (.flat false 4) sampleCalls ⟨trivial, trivial, trivial, trivial, trivial⟩
  refine ⟨hconsistent, htable fun op hop => ?_,
    hseqs ⟨⟨1, by decide, by decide, by decide⟩, trivial, trivial,
      ⟨50, by decide, by decide, by decide⟩, trivial⟩⟩
  simp only [sampleCalls, mem_cons, not_mem_nil, or_false] at hop
  rcases hop with rfl | rfl | rfl | rfl
  · trivial
  · trivial
  · trivial
  · intro e he _ row hrow
    rw [mem_singleton.1 he] at hrow ⊢
    cases hrow
    decide

/-- A restored stack keeps its size, also when the table allows less, and a restored sequence number
of the last value leaves none to issue. -/
theorem restore_keeps_oversize :
    (∃ (cfg : Tables) (b : Bag) (ops : List Op), b.store = .empty ∧ b.layout.Fresh ∧
      Machine.Admits (Bag.step cfg) SeqsFit b ops ∧
      ¬ (Machine.run (Bag.step cfg) b ops).store.Bounded cfg) ∧
    ∃ (cfg : Tables) (b : Bag) (ops : List Op), b.store = .empty ∧ b.layout.Fresh ∧
      (∀ op ∈ ops, SizesFit (tableLimit cfg) op) ∧
      ¬ SeqsBelow (Machine.run (Bag.step cfg) b ops) := by
  constructor
  · refine ⟨sampleTables, sampleBag, [.restoreItems [(⟨7, 1, 9, 3, none, []⟩, 0)]], rfl,
      .flat false 4, ⟨⟨50, by decide, by decide, by decide⟩, trivial⟩, fun h => ?_⟩
    have hle := h ⟨7, 1, 9, 3, none, []⟩ (by decide) ⟨5, 0⟩ rfl
    exact absurd hle (by decide)
  · refine ⟨sampleTables, sampleBag,
      [.restoreItems [(⟨7, 1, 5, 18446744073709551615, none, []⟩, 0)]], rfl, .flat false 4,
      fun op hop => ?_, fun h => ?_⟩
    · rw [mem_singleton.1 hop]
      intro e he _ row hrow
      rw [mem_singleton.1 he] at hrow ⊢
      cases hrow
      decide
    · exact absurd (h ⟨7, 1, 5, 18446744073709551615, none, []⟩ (by decide)) (by decide)

end Bag

end Mmorpg.Bags
