import Mmorpg.Bags.GridLayout
import Mathlib.Data.List.Nodup

/-!
# Layouts of a bag

A layout says where the instances of a bag are and whether more fit (container_layout.h). The flat
layout gives one slot to each instance, and the layout of named slots is a flat one that is not
rearranged. `Layout` is the interface that the bag works with. What it needs of a layout is stated
once for all kinds: `Layout.Ok` is kept, and an instance that is placed joins `Layout.guids`.
-/

namespace Mmorpg.Bags

open List

/-! ## The flat layout -/

structure FlatLayout where
  slotToGuid : AList fun _ : Nat => Guid
  guidToSlot : AList fun _ : Guid => Nat
  capacity : Nat

namespace FlatLayout

def new (capacity : Nat) : FlatLayout := ⟨∅, ∅, capacity⟩

/-- `static_cast<SlotId>(capacity_)` -/
def slotCount (l : FlatLayout) : Nat := l.capacity % slotRange

def occupiedSlotCount (l : FlatLayout) : Nat := l.slotToGuid.keys.length

def freeCells (l : FlatLayout) : Nat := l.capacity - l.occupiedSlotCount

def freeSlots (l : FlatLayout) : Nat := (range l.slotCount).countP (· ∉ l.slotToGuid)

def remove (l : FlatLayout) (guid : Guid) : FlatLayout :=
  match l.guidToSlot.lookup guid with
  | none => l
  | some slot =>
    { l with slotToGuid := l.slotToGuid.erase slot, guidToSlot := l.guidToSlot.erase guid }

def put (l : FlatLayout) (guid : Guid) (slot : Nat) : FlatLayout :=
  { l with
    slotToGuid := l.slotToGuid.insert slot guid
    guidToSlot := l.guidToSlot.insert guid slot }

def place (l : FlatLayout) (guid : Guid) : Option Nat × FlatLayout :=
  let l := l.remove guid
  match (range l.slotCount).find? (· ∉ l.slotToGuid) with
  | none => (none, l)
  | some slot => (some slot, l.put guid slot)

def release (l : FlatLayout) (guid : Guid) (slot : Nat) : FlatLayout :=
  match l.guidToSlot.lookup guid with
  | none => l
  | some previous =>
    if previous ≠ slot then { l with slotToGuid := l.slotToGuid.erase previous } else l

def placeAt (l : FlatLayout) (guid : Guid) (slot : Nat) : Bool × FlatLayout :=
  if slot = invalidSlot then (false, l)
  else if slot ≥ l.slotCount then (false, l)
  else if (l.slotToGuid.lookup slot).any (· ≠ guid) then (false, l)
  else (true, (l.release guid slot).put guid slot)

def clear (l : FlatLayout) : FlatLayout := { l with slotToGuid := ∅, guidToSlot := ∅ }

def isCompact (l : FlatLayout) : Bool :=
  l.slotToGuid.keys.all (· < l.slotToGuid.keys.length)

def putFrom (l : FlatLayout) (next : Nat) : List Guid → FlatLayout
  | [] => l
  | guid :: order => (l.put guid next).putFrom (next + 1) order

def applyOrder (l : FlatLayout) (order : List Guid) : FlatLayout := l.clear.putFrom 0 order

structure Ok (l : FlatLayout) : Prop where
  inverse : Bimap.Inverse l.slotToGuid l.guidToSlot
  slot_lt : ∀ slot ∈ l.slotToGuid, slot < l.slotCount

variable {l : FlatLayout} {guid : Guid} {slot : Nat}

namespace Ok

theorem clear (l : FlatLayout) : l.clear.Ok := ⟨.empty, fun _ h => nomatch h⟩

variable (h : l.Ok)

include h

theorem occupied_eq : l.occupiedSlotCount = l.guidToSlot.keys.length :=
  h.inverse.length_eq

theorem occupied_le : l.occupiedSlotCount ≤ l.slotCount :=
  Bimap.length_le_of_bound h.slot_lt

theorem freeSlots_add : l.freeSlots + l.occupiedSlotCount = l.slotCount := by
  have hkeys : ((range l.slotCount).filter (· ∈ l.slotToGuid)).Perm l.slotToGuid.keys := by
    refine (perm_ext_iff_of_nodup (nodup_range.filter _) l.slotToGuid.keys_nodup).2
      fun slot => ?_
    rw [mem_filter, mem_range, decide_eq_true_eq]
    exact ⟨fun hslot => hslot.2, fun hslot => ⟨h.slot_lt slot hslot, hslot⟩⟩
  have hlen := hkeys.length_eq
  rw [← countP_eq_length_filter] at hlen
  have hsplit := length_eq_countP_add_countP (fun slot => decide (slot ∈ l.slotToGuid))
    (l := range l.slotCount)
  rw [length_range, hlen] at hsplit
  simp only [decide_eq_true_eq] at hsplit
  exact (Nat.add_comm _ _).trans hsplit.symm

theorem remove : (l.remove guid).Ok := by
  unfold FlatLayout.remove
  split
  · exact h
  next slot hslot =>
    exact ⟨h.inverse.erase ((h.inverse slot guid).2 hslot),
      fun s hs => h.slot_lt s (AList.mem_erase.1 hs).2⟩

theorem put (hguid : guid ∉ l.guidToSlot) (hslot : slot ∉ l.slotToGuid) (hlt : slot < l.slotCount) :
    (l.put guid slot).Ok where
  inverse := h.inverse.insert hslot hguid
  slot_lt s hs := by
    rcases (AList.mem_insert _).1 hs with rfl | hs
    · exact hlt
    · exact h.slot_lt s hs

end Ok

theorem keys_remove (l : FlatLayout) (guid : Guid) :
    (l.remove guid).guidToSlot.keys = l.guidToSlot.keys.erase guid := by
  unfold remove
  split
  next hnone =>
    exact (erase_of_not_mem (AList.lookup_eq_none.1 hnone)).symm
  · exact AList.keys_erase guid l.guidToSlot

section

variable (h : guid ∉ l.guidToSlot)

include h

theorem remove_of_notMem : l.remove guid = l := by
  simp only [remove, AList.lookup_eq_none.2 h]

theorem release_of_notMem : l.release guid slot = l := by
  simp only [release, AList.lookup_eq_none.2 h]

theorem keys_put (slot : Nat) : (l.put guid slot).guidToSlot.keys = guid :: l.guidToSlot.keys := by
  rw [put, AList.keys_insert, erase_of_not_mem h]

end

/-- A new instance is placed in a free slot, or all slots are taken. -/
theorem place_cases (hguid : guid ∉ l.guidToSlot) :
    (∃ slot < l.slotCount, slot ∉ l.slotToGuid ∧ l.place guid = (some slot, l.put guid slot)) ∨
    (l.place guid = (none, l) ∧ l.slotCount ≤ l.occupiedSlotCount) := by
  unfold place
  rw [remove_of_notMem hguid]
  dsimp only
  split
  next hnone =>
    refine .inr ⟨rfl, Nat.le_of_not_lt fun hlt => ?_⟩
    obtain ⟨slot, hslot, hfree⟩ := Bimap.exists_free hlt
    have htaken := List.find?_eq_none.1 hnone slot (mem_range.2 hslot)
    exact htaken (decide_eq_true hfree)
  next slot hfind =>
    have hfree := List.find?_some hfind
    exact .inl ⟨slot, mem_range.1 (mem_of_find?_eq_some hfind),
      of_decide_eq_true hfree, rfl⟩

/-- A new instance is placed in the slot, if the slot exists and is free. -/
theorem placeAt_cases (h : l.Ok) (hguid : guid ∉ l.guidToSlot) (slot : Nat) :
    (slot < l.slotCount ∧ slot ∉ l.slotToGuid ∧ slot ≠ invalidSlot ∧
      l.placeAt guid slot = (true, l.put guid slot)) ∨
    (l.placeAt guid slot = (false, l) ∧
      (slot = invalidSlot ∨ l.slotCount ≤ slot ∨ slot ∈ l.slotToGuid)) := by
  unfold placeAt
  split
  · exact .inr ⟨rfl, .inl ‹_›⟩
  rename_i hvalid
  split
  · exact .inr ⟨rfl, .inr (.inl ‹_›)⟩
  rename_i hlt
  by_cases hslot : slot ∈ l.slotToGuid
  · obtain ⟨g, hg⟩ := Bimap.exists_lookup hslot
    have hne : g ≠ guid := by
      rintro rfl
      exact hguid (h.inverse.mem hg)
    rw [hg, Option.any_some, if_pos (decide_eq_true hne)]
    exact .inr ⟨rfl, .inr (.inr hslot)⟩
  · rw [AList.lookup_eq_none.2 hslot, if_neg nofun, release_of_notMem hguid]
    exact .inl ⟨Nat.lt_of_not_le hlt, hslot, hvalid, rfl⟩

/-- The slots up to `next` are taken, and the instances of the order follow. -/
theorem Ok.putFrom (order : List Guid) :
    ∀ (l : FlatLayout) (next : Nat), l.Ok → (∀ slot ∈ l.slotToGuid, slot < next) →
      (order ++ l.guidToSlot.keys).Nodup → next + order.length ≤ l.slotCount →
      (l.putFrom next order).Ok ∧
      (l.putFrom next order).guidToSlot.keys.Perm (order ++ l.guidToSlot.keys) := by
  induction order with
  | nil =>
    intro l next h _ _ _
    exact ⟨h, Perm.refl _⟩
  | cons guid order ih =>
    intro l next h hnext hnodup hlen
    rw [length_cons] at hlen
    have hguid : guid ∉ l.guidToSlot := fun hmem =>
      (nodup_cons.1 hnodup).1 (mem_append_right _ hmem)
    have hslot : next ∉ l.slotToGuid := fun hmem => Nat.lt_irrefl next (hnext next hmem)
    have hput := h.put hguid hslot (by omega)
    have hperm : (order ++ (l.put guid next).guidToSlot.keys).Perm
        (guid :: (order ++ l.guidToSlot.keys)) := by
      rw [keys_put hguid]
      exact perm_middle
    have hbound : ∀ slot ∈ (l.put guid next).slotToGuid, slot < next + 1 := by
      intro slot hslot
      rcases (AList.mem_insert _).1 hslot with rfl | hslot
      · exact Nat.lt_succ_self _
      · exact Nat.lt_succ_of_lt (hnext slot hslot)
    obtain ⟨hok, hkeys⟩ := ih _ _ hput hbound (hperm.nodup_iff.2 hnodup)
      (by change next + 1 + order.length ≤ l.slotCount; omega)
    exact ⟨hok, hkeys.trans hperm⟩

theorem Ok.applyOrder {order : List Guid} (hnodup : order.Nodup)
    (hlen : order.length ≤ l.slotCount) :
    (l.applyOrder order).Ok ∧ (l.applyOrder order).guidToSlot.keys.Perm order := by
  have hkeys : order ++ l.clear.guidToSlot.keys = order := append_nil order
  have hput := Ok.putFrom order l.clear 0 (Ok.clear l) (fun _ h => nomatch h)
    (hkeys.symm ▸ hnodup) (by rw [Nat.zero_add]; exact hlen)
  rwa [hkeys] at hput

end FlatLayout

/-! ## The interface -/

/-- `IContainerLayout`. A flat layout with names is a `FixedSlotLayout`: its books are those of the
flat layout, but its slots have a meaning. -/
inductive Layout where
  | flat (named : Bool) (l : FlatLayout)
  | grid (l : GridLayout)

namespace Layout

def capacity : Layout → Nat
  | .flat _ l => l.capacity
  | .grid l => l.capacity

def resize (newCapacity : Nat) : Layout → Layout
  | .flat named l => .flat named { l with capacity := newCapacity }
  | .grid l => .grid (l.resize newCapacity)

def occupiedSlotCount : Layout → Nat
  | .flat _ l => l.occupiedSlotCount
  | .grid l => l.placed.keys.length

def freeCells : Layout → Nat
  | .flat _ l => l.freeCells
  | .grid l => l.freeCells

def canFit (count : Nat) (footprint : Footprint) : Layout → Bool
  | .flat _ l => l.freeCells ≥ count
  | .grid l => l.canFit count footprint

def place (guid : Guid) (footprint : Footprint) : Layout → Option Nat × Layout
  | .flat named l => (l.place guid).map id (.flat named)
  | .grid l => (l.place guid footprint).map id .grid

def placeAt (guid : Guid) (slot : Nat) (footprint : Footprint) : Layout → Bool × Layout
  | .flat named l => (l.placeAt guid slot).map id (.flat named)
  | .grid l => (l.placeAt guid slot footprint).map id .grid

def remove (guid : Guid) : Layout → Layout
  | .flat named l => .flat named (l.remove guid)
  | .grid l => .grid (l.remove guid)

def clear : Layout → Layout
  | .flat named l => .flat named l.clear
  | .grid l => .grid l.clear

def slotOf (guid : Guid) : Layout → Option Nat
  | .flat _ l => l.guidToSlot.lookup guid
  | .grid l => l.slotOf guid

def guidAt (slot : Nat) : Layout → Option Guid
  | .flat _ l => l.slotToGuid.lookup slot
  | .grid l => l.guidAt slot

def slots : Layout → AList fun _ : Nat => Guid
  | .flat _ l => l.slotToGuid
  | .grid l => l.anchorToGuid

def supportsCompaction : Layout → Bool
  | .flat named _ => !named
  | .grid _ => false

def hasSlotSemantics : Layout → Bool
  | .flat named _ => named
  | .grid _ => false

def isCompact : Layout → Bool
  | .flat _ l => l.isCompact
  | .grid _ => true

def applyOrder (order : List Guid) : Layout → Layout
  | .flat false l => .flat false (l.applyOrder order)
  | .flat true l => .flat true l
  | .grid l => .grid l

def guids : Layout → List Guid
  | .flat _ l => l.guidToSlot.keys
  | .grid l => l.placed.keys

def Ok : Layout → Prop
  | .flat _ l => l.Ok
  | .grid l => l.Ok

variable {l : Layout} {guid : Guid}

theorem Ok.occupied_eq (h : l.Ok) : l.occupiedSlotCount = l.guids.length := by
  cases l with
  | flat named l => exact FlatLayout.Ok.occupied_eq h
  | grid l => rfl

theorem Ok.occupied_le (h : l.Ok) : l.occupiedSlotCount ≤ l.capacity := by
  cases l with
  | flat named l => exact Nat.le_trans (FlatLayout.Ok.occupied_le h) (Nat.mod_le _ _)
  | grid l => exact GridLayout.Ok.length_le h

theorem Ok.remove (h : l.Ok) (guid : Guid) : (l.remove guid).Ok := by
  cases l with
  | flat named l => exact FlatLayout.Ok.remove h
  | grid l => exact GridLayout.Ok.remove h

theorem guids_remove (l : Layout) (guid : Guid) : (l.remove guid).guids = l.guids.erase guid := by
  cases l with
  | flat named l | grid l => exact l.keys_remove guid

structure Joins (l : Layout) (guid : Guid) (l' : Layout) : Prop where
  ok : l'.Ok
  guids : l'.guids = guid :: l.guids

/-- Instances of bags have one cell each. -/
theorem place_cases (h : l.Ok) (hguid : guid ∉ l.guids) :
    (∃ slot, (l.place guid singleCell).1 = some slot ∧
      l.Joins guid (l.place guid singleCell).2) ∨
    l.place guid singleCell = (none, l) := by
  cases l with
  | flat named l =>
    rcases FlatLayout.place_cases hguid with ⟨slot, hlt, hslot, heq⟩ | ⟨heq, -⟩
    · refine .inl ⟨slot, ?_⟩
      simp only [place, heq]
      exact ⟨rfl, FlatLayout.Ok.put h hguid hslot hlt, FlatLayout.keys_put hguid slot⟩
    · exact .inr (by simp only [place, heq]; rfl)
  | grid l =>
    rcases GridLayout.place_cases h hguid (.inr rfl) with ⟨slot, hs, hok, hk⟩ | heq
    · exact .inl ⟨slot, hs, hok, hk⟩
    · exact .inr (by simp only [place, heq]; rfl)

theorem placeAt_cases (h : l.Ok) (hguid : guid ∉ l.guids) (slot : Nat) :
    ((l.placeAt guid slot singleCell).1 = true ∧
      l.Joins guid (l.placeAt guid slot singleCell).2) ∨
    l.placeAt guid slot singleCell = (false, l) := by
  cases l with
  | flat named l =>
    rcases FlatLayout.placeAt_cases h hguid slot with ⟨hlt, hslot, -, heq⟩ | ⟨heq, -⟩
    · refine .inl ?_
      simp only [placeAt, heq]
      exact ⟨rfl, FlatLayout.Ok.put h hguid hslot hlt, FlatLayout.keys_put hguid slot⟩
    · exact .inr (by simp only [placeAt, heq]; rfl)
  | grid l =>
    rcases GridLayout.placeAt_cases h hguid slot (.inr rfl) with ⟨hs, hok, hk⟩ | heq
    · exact .inl ⟨hs, hok, hk⟩
    · exact .inr (by simp only [placeAt, heq]; rfl)

/-! ## Refused placements -/

inductive Attempt where
  | place
  | placeAt (slot : Nat)

def Attempt.run (guid : Guid) (footprint : Footprint) (l : Layout) : Attempt → Bool × Layout
  | .place => ((l.place guid footprint).1.isSome, (l.place guid footprint).2)
  | .placeAt slot => l.placeAt guid slot footprint

/-- The call refuses before it takes the instance out of its old place. -/
def Attempt.LooksFirst : Layout → Attempt → Prop
  | _, .place => False
  | .flat _ _, .placeAt _ => True
  | .grid l, .placeAt slot => slot = invalidSlot ∨ l.width = 0 ∨ slot ≥ l.capacity

theorem remove_eq_self_iff : l.remove guid = l ↔ guid ∉ l.guids := by
  constructor
  · intro h hmem
    have hlen := congrArg List.length (l.guids_remove guid)
    rw [h, length_erase_of_mem hmem] at hlen
    have := length_pos_of_mem hmem
    omega
  · intro h
    cases l with
    | flat named l => exact congrArg (Layout.flat named) (FlatLayout.remove_of_notMem h)
    | grid l => exact congrArg Layout.grid (GridLayout.remove_of_notMem h)

/-- A call that is refused late has taken the instance out. -/
theorem Attempt.run_refused {attempt : Attempt} {footprint : Footprint}
    (h : (attempt.run guid footprint l).1 = false) :
    attempt.LooksFirst l ∧ (attempt.run guid footprint l).2 = l ∨
    ¬ attempt.LooksFirst l ∧ (attempt.run guid footprint l).2 = l.remove guid := by
  revert h
  cases attempt with
  | place =>
    intro h
    refine .inr ⟨id, ?_⟩
    revert h
    cases l with
    | flat named l =>
      simp only [run, Layout.place, FlatLayout.place]
      split
      · exact fun _ => rfl
      · exact fun h => by cases h
    | grid l =>
      simp only [run, Layout.place, GridLayout.place]
      split
      · exact fun _ => rfl
      · exact fun h => by cases h
  | placeAt slot =>
    cases l with
    | flat named l =>
      simp only [run, Layout.placeAt, FlatLayout.placeAt]
      repeat' split
      all_goals first | exact fun _ => .inl ⟨trivial, rfl⟩ | exact fun h => by cases h
    | grid l =>
      simp only [run, Layout.placeAt, GridLayout.placeAt, LooksFirst]
      split
      · exact fun _ => .inl ⟨‹_›, rfl⟩
      · split
        · exact fun h => by cases h
        · exact fun _ => .inr ⟨‹_›, rfl⟩

/-- **When a refused placement changes nothing**: just if the instance had no place, or the call
looks before it takes the instance out. -/
theorem refused_unchanged_iff (l : Layout) (guid : Guid) (footprint : Footprint)
    (attempt : Attempt) (hrefused : (attempt.run guid footprint l).1 = false) :
    (attempt.run guid footprint l).2 = l ↔ guid ∉ l.guids ∨ attempt.LooksFirst l := by
  rcases Attempt.run_refused hrefused with ⟨hlooks, heq⟩ | ⟨hlooks, heq⟩
  · simp [heq, hlooks]
  · simp [heq, hlooks, remove_eq_self_iff]

/-- An instance that has no place is refused by a full grid, which stays as it is. -/
theorem refused_unchanged_iff_full :
    let full := (((Layout.grid (.new 2 1)).place 1 singleCell).2.place 2 singleCell).2
    (Attempt.place.run 3 singleCell full).2 = full :=
  (refused_unchanged_iff _ 3 singleCell .place (by decide)).2 (.inl (by decide))

/-- In a full grid of two cells, moving the first instance to the cell of the second is refused and
the first instance is gone; an only instance that a flat layout has shrunk away from is gone too. -/
theorem refused_placement_drops_instance :
    let full := (((Layout.grid (.new 2 1)).place 1 singleCell).2.place 2 singleCell).2
    let shrunk := ((Layout.flat false (.new 1)).place 1 singleCell).2.resize 0
    ((full.placeAt 1 1 singleCell).1, full.slotOf 1, (full.placeAt 1 1 singleCell).2.slotOf 1) =
      (false, some 0, none) ∧
    ((shrunk.place 1 singleCell).1, shrunk.slotOf 1, (shrunk.place 1 singleCell).2.slotOf 1) =
      (none, some 0, none) := by
  decide

/-! ## Attempts -/

/-- An attempt to place an instance: it has joined, or nothing changed. -/
def Tries (l : Layout) (guid : Guid) (result : Bool × Layout) : Prop :=
  (∃ l', result = (true, l') ∧ l.Joins guid l') ∨ result = (false, l)

theorem tries_placeAt (h : l.Ok) (hguid : guid ∉ l.guids) (slot : Nat) :
    l.Tries guid (l.placeAt guid slot singleCell) := by
  rcases l.placeAt_cases h hguid slot with ⟨hs, hjoins⟩ | heq
  · exact .inl ⟨_, Prod.ext hs rfl, hjoins⟩
  · exact .inr heq

theorem tries_place (h : l.Ok) (hguid : guid ∉ l.guids) :
    l.Tries guid ((l.place guid singleCell).1.isSome, (l.place guid singleCell).2) := by
  rcases l.place_cases h hguid with ⟨slot, hslot, hjoins⟩ | heq
  · exact .inl ⟨_, Prod.ext (hslot ▸ rfl) rfl, hjoins⟩
  · exact .inr (heq ▸ rfl)

theorem Ok.applyOrder (h : l.Ok) {order : List Guid} (horder : order.Perm l.guids)
    (hcompact : l.supportsCompaction = true) :
    (l.applyOrder order).Ok ∧ (l.applyOrder order).guids.Perm order := by
  cases l with
  | flat named l =>
    cases named with
    | true => exact nomatch hcompact
    | false =>
      refine FlatLayout.Ok.applyOrder (horder.nodup_iff.2 l.guidToSlot.keys_nodup) ?_
      rw [horder.length_eq]
      exact FlatLayout.Ok.occupied_eq h ▸ FlatLayout.Ok.occupied_le h
  | grid l => exact nomatch hcompact

/-- What is asked for is not cut to 32 bits. -/
def Sizes (n : Nat) : Layout → Prop
  | .flat _ _ => n < slotRange
  | .grid l => l.newHeight n < slotRange

theorem Ok.grow (h : l.Ok) {n : Nat} (hle : l.capacity ≤ n) (hn : l.Sizes n) :
    (l.resize n).Ok := by
  cases l with
  | flat named l =>
    refine ⟨h.inverse, fun slot hslot => ?_⟩
    have hslot := h.slot_lt slot hslot
    have hmod : l.capacity % slotRange ≤ l.capacity := Nat.mod_le _ _
    change slot < n % slotRange
    rw [Nat.mod_eq_of_lt hn]
    exact Nat.lt_of_lt_of_le hslot (Nat.le_trans hmod hle)
  | grid l => exact GridLayout.Ok.resize h hn

theorem guids_resize (l : Layout) (n : Nat) : (l.resize n).guids = l.guids := by
  cases l with
  | flat named l => rfl
  | grid l => exact congrArg AList.keys (l.placed_resize n).1

end Layout

end Mmorpg.Bags
