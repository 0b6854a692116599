import Mmorpg.Lib.Bimap
import Mmorpg.Lib.Run
import Mathlib.Logic.Function.Basic

/-!
# The grid layout of a bag

Instances cover rectangles of a `width` by `height` grid (container_layout.cpp). The slot of an
instance is its upper left cell `y * width + x`. `GridLayout.Ok` ties the three records of the
layout together: a cell names the instance whose rectangle covers it, so no two rectangles overlap.
-/

namespace Mmorpg.Bags

open List

abbrev Guid := Nat

/-- `kInvalidGuid` -/
def invalidGuid : Guid := 18446744073709551615

/-- `kInvalidSlot` -/
def invalidSlot : Nat := 4294967295

def slotRange : Nat := 4294967296

/-- The range of `size_t`. -/
def sizeRange : Nat := 18446744073709551616

structure Footprint where
  width : Nat
  height : Nat
deriving DecidableEq, Repr

def singleCell : Footprint := ⟨1, 1⟩

structure Placement where
  anchor : Nat
  footprint : Footprint
deriving DecidableEq, Repr

/-- An empty cell is `none` for `kInvalidGuid`, which is never placed. -/
structure GridLayout where
  width : Nat
  height : Nat
  cells : Nat → Option Guid
  placed : AList fun _ : Guid => Placement
  anchorToGuid : AList fun _ : Nat => Guid

namespace GridLayout

def new (width height : Nat) : GridLayout := ⟨width, height, fun _ => none, ∅, ∅⟩

def capacity (l : GridLayout) : Nat := l.width * l.height

def rectCells (width x y : Nat) (footprint : Footprint) : List Nat :=
  (range footprint.height).flatMap fun dy =>
    (range footprint.width).map fun dx => (y + dy) * width + (x + dx)

def rectFree (l : GridLayout) (cells : Nat → Option Guid) (x y : Nat) (footprint : Footprint) :
    Bool :=
  if footprint.width = 0 ∨ footprint.height = 0 then false
  else if x + footprint.width > l.width ∨ y + footprint.height > l.height then false
  else (rectCells l.width x y footprint).all fun i => (cells i).isNone

/-- What is found in the cell with the number of `kInvalidSlot` counts as not found. -/
def findFreeRect (l : GridLayout) (cells : Nat → Option Guid) (footprint : Footprint) :
    Option Nat :=
  ((range l.height).findSome? fun y =>
    (range l.width).findSome? fun x =>
      if l.rectFree cells x y footprint then some ((y * l.width + x) % slotRange)
      else none).filter (· ≠ invalidSlot)

def rectOf (l : GridLayout) (p : Placement) : List Nat :=
  rectCells l.width (p.anchor % l.width) (p.anchor / l.width) p.footprint

def stamp (l : GridLayout) (cells : Nat → Option Guid) (p : Placement) (who : Option Guid) :
    Nat → Option Guid :=
  (l.rectOf p).foldl (fun cells i => Function.update cells i who) cells

/-- The capacity in whole rows. -/
def newHeight (l : GridLayout) (newCapacity : Nat) : Nat :=
  (newCapacity + l.width - 1) % sizeRange / l.width

/-- Rows are taken away only if they are empty; the height is then cut to 32 bits. -/
def resize (l : GridLayout) (newCapacity : Nat) : GridLayout :=
  let newHeight := l.newHeight newCapacity
  if l.width = 0 then l
  else if newHeight < l.height ∧
      ((range l.capacity).drop (newHeight * l.width)).any fun i => (l.cells i).isSome then l
  else
    let height := newHeight % slotRange
    { l with height, cells := fun i => if i < l.width * height then l.cells i else none }

def freeCells (l : GridLayout) : Nat :=
  (range l.capacity).countP fun i => (l.cells i).isNone

/-- Instances are tried one after the other on a copy of the cells. -/
def canFitFrom (l : GridLayout) (footprint : Footprint) : Nat → (Nat → Option Guid) → Bool
  | 0, _ => true
  | count + 1, scratch =>
    match l.findFreeRect scratch footprint with
    | none => false
    | some anchor => canFitFrom l footprint count (l.stamp scratch ⟨anchor, footprint⟩ (some 1))

def canFit (l : GridLayout) (count : Nat) (footprint : Footprint) : Bool :=
  l.canFitFrom footprint count l.cells

def remove (l : GridLayout) (guid : Guid) : GridLayout :=
  match l.placed.lookup guid with
  | none => l
  | some p =>
    { l with
      cells := l.stamp l.cells p none
      anchorToGuid := l.anchorToGuid.erase p.anchor
      placed := l.placed.erase guid }

def put (l : GridLayout) (guid : Guid) (p : Placement) : GridLayout :=
  { l with
    cells := l.stamp l.cells p (some guid)
    placed := l.placed.insert guid p
    anchorToGuid := l.anchorToGuid.insert p.anchor guid }

def place (l : GridLayout) (guid : Guid) (footprint : Footprint) : Option Nat × GridLayout :=
  let l := l.remove guid
  match l.findFreeRect l.cells footprint with
  | none => (none, l)
  | some anchor => (some anchor, l.put guid ⟨anchor, footprint⟩)

def placeAt (l : GridLayout) (guid : Guid) (slot : Nat) (footprint : Footprint) :
    Bool × GridLayout :=
  if slot = invalidSlot ∨ l.width = 0 ∨ slot ≥ l.capacity then (false, l)
  else
    let l := l.remove guid
    if l.rectFree l.cells (slot % l.width) (slot / l.width) footprint then
      (true, l.put guid ⟨slot, footprint⟩)
    else (false, l)

def clear (l : GridLayout) : GridLayout :=
  { l with cells := fun _ => none, placed := ∅, anchorToGuid := ∅ }

def slotOf (l : GridLayout) (guid : Guid) : Option Nat := (l.placed.lookup guid).map (·.anchor)

def guidAt (l : GridLayout) (slot : Nat) : Option Guid :=
  if slot ≥ l.capacity then none else l.cells slot

/-! ## Rectangles -/

variable {footprint : Footprint}

theorem mem_rectCells {width x y i : Nat} :
    i ∈ rectCells width x y footprint ↔
      ∃ dy < footprint.height, ∃ dx < footprint.width, i = (y + dy) * width + (x + dx) := by
  simp [rectCells, eq_comm]

variable {l : GridLayout} {cells : Nat → Option Guid}

theorem rectFree_iff {x y : Nat} :
    l.rectFree cells x y footprint = true ↔
      (0 < footprint.width ∧ 0 < footprint.height) ∧
      (x + footprint.width ≤ l.width ∧ y + footprint.height ≤ l.height) ∧
      ∀ i ∈ rectCells l.width x y footprint, cells i = none := by
  unfold rectFree
  split
  next hzero =>
    constructor
    · intro h
      exact nomatch h
    · omega
  next hpos =>
    split
    next hout =>
      constructor
      · intro h
        exact nomatch h
      · omega
    next hin =>
      simp only [all_eq_true, Option.isNone_iff_eq_none]
      exact ⟨fun h => ⟨by omega, by omega, h⟩, fun h => h.2.2⟩

theorem foldl_update_apply {who : Option Guid} (rect : List Nat)
    (i : Nat) :
    rect.foldl (fun cells i => Function.update cells i who) cells i =
      if i ∈ rect then who else cells i := by
  induction rect generalizing cells with
  | nil => rfl
  | cons j rect ih =>
    rw [foldl_cons, ih]
    by_cases hi : i ∈ rect
    · simp [hi]
    · by_cases hj : i = j
      · simp [hj]
      · simp [hj]

variable {p : Placement} {i : Nat}

theorem stamp_apply {who : Option Guid} :
    l.stamp cells p who i = if i ∈ l.rectOf p then who else cells i :=
  foldl_update_apply _ _

structure Fits (width height : Nat) (p : Placement) : Prop where
  pos : 0 < p.footprint.width ∧ 0 < p.footprint.height
  width_le : p.anchor % width + p.footprint.width ≤ width
  height_le : p.anchor / width + p.footprint.height ≤ height

theorem Fits.anchor_mem (h : Fits l.width l.height p) :
    p.anchor ∈ l.rectOf p := by
  refine mem_rectCells.2 ⟨0, h.pos.2, 0, h.pos.1, ?_⟩
  rw [Nat.add_zero, Nat.add_zero, Nat.mul_comm, Nat.div_add_mod]

theorem Fits.lt_capacity (h : Fits l.width l.height p) (hi : i ∈ l.rectOf p) : i < l.capacity := by
  obtain ⟨dy, hdy, dx, hdx, rfl⟩ := mem_rectCells.1 hi
  have hrow : p.anchor / l.width + dy + 1 ≤ l.height := by
    have := h.height_le
    omega
  have hcol : p.anchor % l.width + dx < l.width := by
    have := h.width_le
    omega
  calc (p.anchor / l.width + dy) * l.width + (p.anchor % l.width + dx)
      < (p.anchor / l.width + dy) * l.width + l.width := Nat.add_lt_add_left hcol _
    _ = (p.anchor / l.width + dy + 1) * l.width := (Nat.succ_mul _ _).symm
    _ ≤ l.height * l.width := Nat.mul_le_mul_right _ hrow
    _ = l.capacity := Nat.mul_comm _ _

/-! ## The invariant -/

structure Ok (l : GridLayout) : Prop where
  /-- The cell without a slot stays empty. -/
  slots : l.cells invalidSlot = none
  fits : ∀ g p, l.placed.lookup g = some p → Fits l.width l.height p
  /-- A cell names the instance whose rectangle covers it. -/
  cell : ∀ i g, l.cells i = some g ↔ ∃ p, l.placed.lookup g = some p ∧ i ∈ l.rectOf p
  anchor : ∀ a g, l.anchorToGuid.lookup a = some g ↔
    ∃ p, l.placed.lookup g = some p ∧ p.anchor = a

namespace Ok

variable {l : GridLayout} {guid : Guid}

theorem new (width height : Nat) : (new width height).Ok where
  slots := rfl
  fits _ _ hp := nomatch hp
  cell _ _ := ⟨nofun, fun ⟨_, hp, _⟩ => nomatch hp⟩
  anchor _ _ := ⟨nofun, fun ⟨_, hp, _⟩ => nomatch hp⟩

variable {g : Guid} {p : Placement} (h : l.Ok)

include h

/-- **No two instances overlap.** -/
theorem disjoint {g' : Guid} {p' : Placement} (hp : l.placed.lookup g = some p)
    (hp' : l.placed.lookup g' = some p') (hi : i ∈ l.rectOf p) (hi' : i ∈ l.rectOf p') :
    g = g' := by
  have hg := (h.cell i g).2 ⟨p, hp, hi⟩
  rw [(h.cell i g').2 ⟨p', hp', hi'⟩] at hg
  exact (Option.some.inj hg).symm

theorem anchor_inj {g' : Guid} {p' : Placement} (hp : l.placed.lookup g = some p)
    (hp' : l.placed.lookup g' = some p') (heq : p.anchor = p'.anchor) : g = g' := by
  refine h.disjoint hp hp' (h.fits g p hp).anchor_mem ?_
  rw [heq]
  exact (h.fits g' p' hp').anchor_mem

/-- Each instance has its anchor. -/
theorem length_le : l.placed.keys.length ≤ l.capacity := by
  have hnodup : (l.placed.keys.filterMap l.slotOf).Nodup := by
    refine l.placed.keys_nodup.filterMap fun g g' a ha ha' => ?_
    obtain ⟨p, hp, rfl⟩ := Option.map_eq_some_iff.1 ha
    obtain ⟨p', hp', heq⟩ := Option.map_eq_some_iff.1 ha'
    exact h.anchor_inj hp hp' heq.symm
  have hlength : (l.placed.keys.filterMap l.slotOf).length = l.placed.keys.length := by
    rw [filterMap_length_eq_length]
    intro g hg
    obtain ⟨p, hp⟩ := Bimap.exists_lookup hg
    simp [slotOf, hp]
  have hsub : l.placed.keys.filterMap l.slotOf ⊆ range l.capacity := by
    intro a ha
    obtain ⟨g, -, hg⟩ := mem_filterMap.1 ha
    obtain ⟨p, hp, rfl⟩ := Option.map_eq_some_iff.1 hg
    exact mem_range.2 ((h.fits g p hp).lt_capacity (h.fits g p hp).anchor_mem)
  simpa [hlength] using (subperm_of_subset hnodup hsub).length_le

theorem remove : (l.remove guid).Ok := by
  unfold GridLayout.remove
  split
  · exact h
  rename_i p hp
  refine
    { slots := stamp_apply.trans (by split <;> first | rfl | exact h.slots)
      fits := fun g q hq => ?_
      cell := Bimap.Index.erase h.cell hp (fun i hi => ?_) fun i hi => ?_
      anchor := Bimap.Index.erase h.anchor hp ?_ fun a ha => AList.lookup_erase_ne (Ne.symm ha) }
  · by_cases hg : g = guid
    · subst hg
      rw [AList.lookup_erase] at hq
      cases hq
    · rw [AList.lookup_erase_ne hg] at hq
      exact h.fits g q hq
  · exact stamp_apply.trans (if_pos hi)
  · exact stamp_apply.trans (if_neg hi)
  · rintro a rfl
    exact AList.lookup_erase _ _

theorem put (hguid : guid ∉ l.placed) (hslot : invalidSlot ∉ l.rectOf p)
    (hfree : l.rectFree l.cells (p.anchor % l.width) (p.anchor / l.width) p.footprint = true) :
    (l.put guid p).Ok := by
  obtain ⟨hpos, ⟨hwidth, hheight⟩, hcells⟩ := rectFree_iff.1 hfree
  have hfits : Fits l.width l.height p := ⟨hpos, hwidth, hheight⟩
  refine
    { slots := stamp_apply.trans ((if_neg hslot).trans h.slots)
      fits := fun g q hq => ?_
      cell := Bimap.Index.insert h.cell hguid hcells (fun i hi => ?_) fun i hi => ?_
      anchor := Bimap.Index.insert h.anchor hguid ?_ ?_ fun a ha =>
        AList.lookup_insert_ne (Ne.symm ha) }
  · by_cases hg : g = guid
    · subst hg
      rw [GridLayout.put, AList.lookup_insert] at hq
      exact Option.some.inj hq ▸ hfits
    · rw [GridLayout.put, AList.lookup_insert_ne hg] at hq
      exact h.fits g q hq
  · exact stamp_apply.trans (if_pos hi)
  · exact stamp_apply.trans (if_neg hi)
  · rintro a rfl
    -- an instance with this anchor would cover the cell
    refine Option.eq_none_iff_forall_ne_some.2 fun g hg => ?_
    obtain ⟨q, hq, heq⟩ := (h.anchor _ g).1 hg
    have hsome := (h.cell q.anchor g).2 ⟨q, hq, (h.fits g q hq).anchor_mem⟩
    rw [heq, hcells _ hfits.anchor_mem] at hsome
    cases hsome
  · rintro a rfl
    exact AList.lookup_insert _

theorem cell_lt (hi : l.cells i = some g) : i < l.capacity := by
  obtain ⟨p, hp, hmem⟩ := (h.cell i g).1 hi
  exact (h.fits g p hp).lt_capacity hmem

/-- The rectangles end above the rows that are empty. -/
theorem fits_of_empty_rows {height : Nat} (hrows : ∀ i, height * l.width ≤ i → l.cells i = none)
    (hp : l.placed.lookup g = some p) : Fits l.width height p := by
  have hfits := h.fits g p hp
  refine ⟨hfits.pos, hfits.width_le, ?_⟩
  by_contra hout
  have hlast : (p.anchor / l.width + (p.footprint.height - 1)) * l.width +
      (p.anchor % l.width + 0) ∈ l.rectOf p :=
    mem_rectCells.2 ⟨_, Nat.sub_lt hfits.pos.2 Nat.one_pos, 0, hfits.pos.1, rfl⟩
  have hrow : height * l.width ≤ (p.anchor / l.width + (p.footprint.height - 1)) * l.width := by
    refine Nat.mul_le_mul_right _ ?_
    omega
  have hnone := hrows _ (Nat.le_trans hrow (Nat.le_add_right _ (p.anchor % l.width + 0)))
  exact nomatch hnone.symm.trans ((h.cell _ g).2 ⟨p, hp, hlast⟩)

theorem resize {n : Nat} (hn : l.newHeight n < slotRange) : (l.resize n).Ok := by
  unfold GridLayout.resize
  dsimp only
  split
  · exact h
  split
  · exact h
  rename_i hshrink
  rw [Nat.mod_eq_of_lt hn]
  have hrows : ∀ i, l.newHeight n * l.width ≤ i → l.cells i = none := by
    intro i hi
    by_contra hsome
    obtain ⟨g, hg⟩ := Option.ne_none_iff_exists'.1 hsome
    have hcap := h.cell_lt hg
    refine hshrink ⟨?_, any_eq_true.2 ⟨i, ?_, by rw [hg]; rfl⟩⟩
    · refine Nat.lt_of_mul_lt_mul_right (a := l.width) (Nat.lt_of_le_of_lt hi ?_)
      rwa [Nat.mul_comm]
    · rw [mem_drop_iff_getElem]
      exact ⟨i - l.newHeight n * l.width, by rw [length_range]; omega,
        by rw [getElem_range]; omega⟩
  have hcells : (fun i => if i < l.width * l.newHeight n then l.cells i else none) = l.cells := by
    funext i
    split
    · rfl
    · exact (hrows i (by rw [Nat.mul_comm]; omega)).symm
  rw [hcells]
  exact { h with fits := fun g p hp => h.fits_of_empty_rows hrows hp }

end Ok

/-! ## Placing and removing -/

theorem placed_resize (l : GridLayout) (n : Nat) :
    (l.resize n).placed = l.placed ∧ (l.resize n).width = l.width := by
  unfold resize
  dsimp only
  split
  · exact ⟨rfl, rfl⟩
  · split <;> exact ⟨rfl, rfl⟩

variable {l : GridLayout} {guid : Guid}

theorem keys_remove (l : GridLayout) (guid : Guid) :
    (l.remove guid).placed.keys = l.placed.keys.erase guid := by
  unfold remove
  split
  next hnone =>
    exact (erase_of_not_mem (AList.lookup_eq_none.1 hnone)).symm
  · exact AList.keys_erase guid l.placed

theorem remove_of_notMem (h : guid ∉ l.placed) : l.remove guid = l := by
  simp only [remove, AList.lookup_eq_none.2 h]

theorem keys_put (h : guid ∉ l.placed) (p : Placement) :
    (l.put guid p).placed.keys = guid :: l.placed.keys := by
  rw [put, AList.keys_insert, erase_of_not_mem h]

theorem findSome?_range {β : Type} {f : Nat → Option β} {n : Nat} {b : β}
    (h : (range n).findSome? f = some b) : ∃ k < n, f k = some b ∧ ∀ j < k, f j = none := by
  induction n with
  | zero => cases h
  | succ n ih =>
    rw [range_succ, findSome?_append] at h
    cases hn : (range n).findSome? f with
    | some b' =>
      rw [hn] at h
      cases h
      obtain ⟨k, hk, hrest⟩ := ih hn
      exact ⟨k, Nat.lt_succ_of_lt hk, hrest⟩
    | none =>
      refine ⟨n, Nat.lt_succ_self n, ?_, fun j hj =>
        findSome?_eq_none_iff.1 hn j (mem_range.2 hj)⟩
      simpa [hn] using h

/-- The search finds the first rectangle, row by row. -/
theorem findFreeRect_first {anchor : Nat} (h : l.findFreeRect cells footprint = some anchor) :
    anchor ≠ invalidSlot ∧ ∃ y < l.height, ∃ x < l.width,
      l.rectFree cells x y footprint = true ∧ anchor = (y * l.width + x) % slotRange ∧
      ∀ y' x', x' < l.width → y' < y ∨ y' = y ∧ x' < x →
        l.rectFree cells x' y' footprint = false := by
  obtain ⟨h, hne⟩ := Option.filter_eq_some_iff.1 h
  obtain ⟨y, hy, h, hrows⟩ := findSome?_range h
  obtain ⟨x, hx, h, hcols⟩ := findSome?_range h
  split at h
  next hfree =>
    refine ⟨by simpa using hne, y, hy, x, hx, hfree, (Option.some.inj h).symm, ?_⟩
    rintro y' x' hx' (hlt | ⟨rfl, hlt⟩)
    · simpa using findSome?_eq_none_iff.1 (hrows y' hlt) x' (mem_range.2 hx')
    · simpa using hcols x' hlt
  · cases h

theorem row_add_lt {x y : Nat} (hx : x < l.width) (hy : y < l.height) :
    y * l.width + x < l.capacity :=
  calc y * l.width + x < y * l.width + l.width := Nat.add_lt_add_left hx _
    _ = (y + 1) * l.width := (Nat.succ_mul _ _).symm
    _ ≤ l.height * l.width := Nat.mul_le_mul_right _ hy
    _ = l.capacity := Nat.mul_comm _ _

theorem rectCells_singleCell (width x y : Nat) :
    rectCells width x y singleCell = [y * width + x] := by
  simp [rectCells, singleCell]

/-- The slots number the cells of the grid, or the instance needs just the cell of its slot. -/
def Numbers (l : GridLayout) (footprint : Footprint) : Prop :=
  l.capacity < slotRange ∨ footprint = singleCell

theorem rectFree_of_findFreeRect (hslots : cells invalidSlot = none) (hnum : l.Numbers footprint)
    {anchor : Nat} (h : l.findFreeRect cells footprint = some anchor) :
    anchor ≠ invalidSlot ∧
      l.rectFree cells (anchor % l.width) (anchor / l.width) footprint = true := by
  obtain ⟨hne, y, hy, x, hx, hfree, hanchor, hfirst⟩ := findFreeRect_first h
  have hlt : y * l.width + x < slotRange := by
    rcases hnum with hcap | rfl
    · exact (row_add_lt hx hy).trans hcap
    -- the cell without a slot is free and would have been found before
    by_contra hge
    have hge : invalidSlot < y * l.width + x :=
      Nat.lt_of_not_le fun hle => hge (Nat.lt_succ_of_le hle)
    have hpos := Nat.zero_lt_of_lt hx
    have hlast := Nat.div_add_mod' invalidSlot l.width
    have hbefore : invalidSlot / l.width < y ∨
        invalidSlot / l.width = y ∧ invalidSlot % l.width < x := by
      rcases Nat.lt_trichotomy (invalidSlot / l.width) y with hlt | heq | hgt
      · exact .inl hlt
      · rw [heq] at hlast
        exact .inr ⟨heq, by omega⟩
      · have := Nat.mul_le_mul_right l.width hgt
        rw [Nat.succ_mul] at this
        omega
    have hbusy := hfirst _ _ (Nat.mod_lt invalidSlot hpos) hbefore
    rw [← Bool.not_eq_true, rectFree_iff, rectCells_singleCell, hlast] at hbusy
    refine hbusy ⟨by decide, ⟨Nat.mod_lt _ hpos, ?_⟩, by simpa using hslots⟩
    exact Nat.lt_of_le_of_lt (hbefore.elim Nat.le_of_lt fun h => Nat.le_of_eq h.1) hy
  rw [Nat.mod_eq_of_lt hlt] at hanchor
  refine ⟨hne, ?_⟩
  rw [hanchor, Nat.mul_comm y, Nat.mul_add_mod, Nat.mod_eq_of_lt hx,
    Nat.mul_add_div (Nat.zero_lt_of_lt hx), Nat.div_eq_of_lt hx]
  exact hfree

/-- An instance that is put into the grid leaves the cell without a slot. -/
theorem Numbers.notMem {p : Placement} (hnum : l.Numbers p.footprint)
    (hne : p.anchor ≠ invalidSlot)
    (hfree : l.rectFree cells (p.anchor % l.width) (p.anchor / l.width) p.footprint = true) :
    invalidSlot ∉ l.rectOf p := by
  intro hmem
  rcases hnum with hcap | hsingle
  · obtain ⟨hpos, ⟨hwidth, hheight⟩, -⟩ := rectFree_iff.1 hfree
    have hfits : Fits l.width l.height p := ⟨hpos, hwidth, hheight⟩
    exact Nat.lt_irrefl _ (Nat.lt_of_lt_of_le (hfits.lt_capacity hmem) (Nat.le_of_lt_succ hcap))
  · rw [rectOf, hsingle, rectCells_singleCell, Nat.div_add_mod', mem_singleton] at hmem
    exact hne hmem.symm

theorem place_cases (h : l.Ok) (hguid : guid ∉ l.placed) (hnum : l.Numbers footprint) :
    (∃ slot, (l.place guid footprint).1 = some slot ∧ (l.place guid footprint).2.Ok ∧
      (l.place guid footprint).2.placed.keys = guid :: l.placed.keys) ∨
    l.place guid footprint = (none, l) := by
  unfold place
  rw [remove_of_notMem hguid]
  dsimp only
  split
  · exact .inr rfl
  next anchor hfind =>
    obtain ⟨hne, hfree⟩ := rectFree_of_findFreeRect h.slots hnum hfind
    exact .inl ⟨anchor, rfl, h.put hguid (hnum.notMem hne hfree) hfree, keys_put hguid _⟩

theorem placeAt_cases (h : l.Ok) (hguid : guid ∉ l.placed) (slot : Nat)
    (hnum : l.Numbers footprint) :
    ((l.placeAt guid slot footprint).1 = true ∧ (l.placeAt guid slot footprint).2.Ok ∧
      (l.placeAt guid slot footprint).2.placed.keys = guid :: l.placed.keys) ∨
    l.placeAt guid slot footprint = (false, l) := by
  unfold placeAt
  split
  · exact .inr rfl
  rename_i hslot
  rw [remove_of_notMem hguid]
  dsimp only
  split
  next hfree =>
    exact .inl ⟨rfl, h.put hguid (hnum.notMem (fun heq => hslot (.inl heq)) hfree) hfree,
      keys_put hguid _⟩
  · exact .inr rfl

/-! ## Runs -/

inductive Op where
  | place (guid : Guid) (footprint : Footprint)
  | placeAt (guid : Guid) (slot : Nat) (footprint : Footprint)
  | remove (guid : Guid)
  | resize (newCapacity : Nat)
  | clear

/-- The guid is one, and the grid that is asked for has cells that a slot can number. -/
def Op.Valid (width : Nat) : Op → Prop
  | .place guid _ | .placeAt guid _ _ | .remove guid => guid ≠ invalidGuid
  | .resize newCapacity => width * ((newCapacity + width - 1) % sizeRange / width) < slotRange
  | .clear => True

def step (l : GridLayout) : Op → GridLayout
  | .place guid footprint => (l.place guid footprint).2
  | .placeAt guid slot footprint => (l.placeAt guid slot footprint).2
  | .remove guid => l.remove guid
  | .resize newCapacity => l.resize newCapacity
  | .clear => l.clear

def placeEach (footprint : Footprint) : List Guid → GridLayout → Option GridLayout
  | [], l => some l
  | guid :: guids, l =>
    match l.place guid footprint with
    | (none, _) => none
    | (some _, l) => placeEach footprint guids l

theorem notMem_remove : guid ∉ (l.remove guid).placed := by
  rw [AList.mem_keys, keys_remove]
  exact fun h => (l.placed.keys_nodup.mem_erase_iff.1 h).1 rfl

theorem size_remove (l : GridLayout) (guid : Guid) :
    (l.remove guid).width = l.width ∧ (l.remove guid).height = l.height := by
  unfold remove
  split <;> exact ⟨rfl, rfl⟩

/-- Only `Resize` changes the size of the grid. -/
theorem size_step (l : GridLayout) (op : Op) : (l.step op).width = l.width ∧
    ((∃ n, op = .resize n) ∨ (l.step op).height = l.height) := by
  cases op with
  | place guid footprint =>
    have hsize := l.size_remove guid
    simp only [step, place]
    split <;> exact ⟨hsize.1, .inr hsize.2⟩
  | placeAt guid slot footprint =>
    have hsize := l.size_remove guid
    simp only [step, placeAt]
    split
    · exact ⟨rfl, .inr rfl⟩
    · split <;> exact ⟨hsize.1, .inr hsize.2⟩
  | remove guid => exact ⟨(l.size_remove guid).1, .inr (l.size_remove guid).2⟩
  | resize n => exact ⟨(l.placed_resize n).2, .inl ⟨n, rfl⟩⟩
  | clear => exact ⟨rfl, .inr rfl⟩

theorem capacity_step {op : Op} (hcap : l.capacity < slotRange) (hop : op.Valid l.width) :
    (l.step op).capacity < slotRange := by
  obtain ⟨hwidth, ⟨n, rfl⟩ | hheight⟩ := l.size_step op
  · simp only [step, resize]
    split
    · exact hcap
    split
    · exact hcap
    · exact Nat.lt_of_le_of_lt (Nat.mul_le_mul_left _ (Nat.mod_le _ _)) hop
  · rwa [capacity, hwidth, hheight]

theorem Ok.step {op : Op} (h : l.Ok) (hcap : l.capacity < slotRange) (hop : op.Valid l.width) :
    (l.step op).Ok := by
  have hnum : ∀ guid footprint, (l.remove guid).Numbers footprint := by
    intro guid footprint
    obtain ⟨hwidth, hheight⟩ := l.size_remove guid
    left
    rwa [capacity, hwidth, hheight]
  cases op with
  | place guid footprint =>
    simp only [GridLayout.step, place]
    split
    · exact h.remove
    next anchor hfind =>
      obtain ⟨hne, hfree⟩ := rectFree_of_findFreeRect h.remove.slots (hnum _ _) hfind
      exact h.remove.put notMem_remove ((hnum _ _).notMem hne hfree) hfree
  | placeAt guid slot footprint =>
    simp only [GridLayout.step, placeAt]
    split
    · exact h
    rename_i hslot
    split
    next hfree =>
      exact h.remove.put notMem_remove
        ((hnum _ _).notMem (fun heq => hslot (.inl heq)) hfree) hfree
    · exact h.remove
  | remove guid => exact h.remove
  | resize n =>
    by_cases hwidth : l.width = 0
    · simp only [GridLayout.step, GridLayout.resize, if_pos hwidth]
      exact h
    · exact h.resize (Nat.lt_of_le_of_lt (Nat.le_mul_of_pos_left _ (Nat.pos_of_ne_zero hwidth)) hop)
  | clear => exact { Ok.new l.width l.height with }

variable {scratch : Nat → Option Guid}

/-- Only which cells are free matters to the search. -/
theorem findFreeRect_congr (h : ∀ i, (scratch i).isNone = (cells i).isNone) :
    l.findFreeRect scratch footprint = l.findFreeRect cells footprint := by
  have hrect : l.rectFree scratch = l.rectFree cells := by
    funext x y footprint
    simp only [rectFree, h]
  simp only [findFreeRect, hrect]

theorem canFitFrom_put {p : Placement} (count : Nat) (scratch : Nat → Option Guid) :
    (l.put guid p).canFitFrom footprint count scratch = l.canFitFrom footprint count scratch := by
  induction count generalizing scratch with
  | zero => rfl
  | succ count ih =>
    simp only [canFitFrom, ih]
    rfl

/-- The copy of the cells and the grid itself fill up in the same way. -/
theorem canFitFrom_eq_placeEach (guids : List Guid)
    (hsame : ∀ i, (scratch i).isNone = (l.cells i).isNone) (hnodup : guids.Nodup)
    (hfresh : ∀ guid ∈ guids, guid ∉ l.placed) :
    l.canFitFrom footprint guids.length scratch = (placeEach footprint guids l).isSome := by
  induction guids generalizing l scratch with
  | nil => rfl
  | cons guid guids ih =>
    obtain ⟨hguid, hnodup⟩ := nodup_cons.1 hnodup
    have hnew := hfresh guid mem_cons_self
    simp only [length_cons, canFitFrom, placeEach, place, remove_of_notMem hnew,
      findFreeRect_congr hsame]
    cases l.findFreeRect l.cells footprint with
    | none => rfl
    | some anchor =>
      refine (canFitFrom_put _ _).symm.trans (ih (fun i => ?_) hnodup fun g hg hmem => ?_)
      · simp only [put, stamp_apply]
        split
        · rfl
        · exact hsame i
      · rcases (AList.mem_insert _).1 hmem with rfl | hmem
        · exact hguid hg
        · exact hfresh g (mem_cons_of_mem guid hg) hmem

/-- **The books of a grid agree, and `CanFit` is exact.** After every run the cells name the
rectangles that are recorded, these lie in the grid and apart from each other, and the index of the
anchors matches; and `CanFit` holds just if that many new instances find a place one by one. -/
theorem grid_consistent_and_canFit_exact {width height : Nat} (hcells : width * height < slotRange)
    (ops : List Op) (hops : ∀ op ∈ ops, op.Valid width) :
    let l := Machine.run step (new width height) ops
    (∀ i guid, l.cells i = some guid ↔ ∃ p, l.placed.lookup guid = some p ∧ i ∈ l.rectOf p) ∧
    (∀ guid p, l.placed.lookup guid = some p → Fits l.width l.height p) ∧
    (∀ guid guid' p p', l.placed.lookup guid = some p → l.placed.lookup guid' = some p' →
      guid ≠ guid' → (l.rectOf p).Disjoint (l.rectOf p')) ∧
    (∀ a guid, l.anchorToGuid.lookup a = some guid ↔
      ∃ p, l.placed.lookup guid = some p ∧ p.anchor = a) ∧
    ∀ (guids : List Guid) (footprint : Footprint), guids.Nodup →
      (∀ guid ∈ guids, guid ≠ invalidGuid ∧ guid ∉ l.placed) →
      l.canFit guids.length footprint = (placeEach footprint guids l).isSome := by
  intro l
  obtain ⟨hok, -⟩ : l.Ok ∧ l.capacity < slotRange ∧ l.width = width := by
    refine Machine.run_invariant_of_admits
      (I := fun l : GridLayout => l.Ok ∧ l.capacity < slotRange ∧ l.width = width)
      (fun l op ⟨hok, hcap, hwidth⟩ hop => ⟨hok.step hcap (hwidth ▸ hop),
        capacity_step hcap (hwidth ▸ hop), (l.size_step op).1.trans hwidth⟩)
      ⟨Ok.new width height, hcells, rfl⟩ (Machine.admits_of_forall hops)
  refine ⟨hok.cell, hok.fits, fun guid guid' p p' hp hp' hne i hi hi' => ?_, hok.anchor,
    fun guids footprint hnodup hfresh => ?_⟩
  · exact hne (hok.disjoint hp hp' hi hi')
  · exact canFitFrom_eq_placeEach guids (fun _ => rfl) hnodup fun guid hg => (hfresh guid hg).2

theorem grid_consistent_and_canFit_exact_sample :
    let l := Machine.run step (new 2 2) [.place 7 ⟨2, 1⟩, .resize 6, .placeAt 8 2 singleCell]
    l.canFit 3 singleCell = (placeEach singleCell [1, 2, 3] l).isSome := by
  refine (grid_consistent_and_canFit_exact (by decide) _ ?_).2.2.2.2 [1, 2, 3] singleCell
    (by decide) (by decide)
  simp [Op.Valid, invalidGuid, slotRange, sizeRange]

/-- A grid of one cell that is asked to grow to 2^32 has no cell left, and its instance stays in the
books. -/
theorem resize_cuts_height :
    let l := Machine.run step (new 1 1) [.place 7 singleCell, .resize 4294967296]
    (l.capacity, l.cells 0, l.placed.lookup 7) = (0, none, some ⟨0, singleCell⟩) := by
  decide

end GridLayout

end Mmorpg.Bags
