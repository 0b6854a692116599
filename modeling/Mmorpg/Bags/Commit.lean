import Mmorpg.Bags.Layers

/-!
# Committing a batch to the store

An entry of a batch first fills the open stacks of its config and then opens new ones
(`commitEntry`). `commitEntry_spec` says what that does to the store in the terms of packing: the
units of the config grow by the entry, the new instances are those that `Packing.pack` asks for,
and the room of the config afterwards is the room that it leaves. `commitEntries_spec` is the same
for a run of entries.
-/

namespace Mmorpg.Bags

namespace ItemStore

variable {cfg : Tables} {s : ItemStore} {guid : Guid} {proto item : ItemComp} {row : ItemRow}
  {maxStack : Nat}

/-! ## Weights of one instance -/

theorem canStack_iff {a b : ItemComp} : canStack a b = true ↔
    isIndependentInstance a = false ∧ isIndependentInstance b = false ∧
    a.configId = b.configId := by
  unfold canStack
  cases isIndependentInstance a <;> cases isIndependentInstance b <;> simp

theorem unitsOf_grow (configId amount : Nat) (item : ItemComp) :
    unitsOf configId { item with size := item.size + amount } =
      unitsOf configId item + if item.configId = configId then amount else 0 := by
  unfold unitsOf
  split <;> rfl

theorem roomFor_of_row (hrow : cfg.item proto.configId = some row)
    (hitem : canStack item proto = true) :
    roomFor cfg proto.configId item = row.maxStackSize - item.size := by
  obtain ⟨hindep, -, hconfig⟩ := canStack_iff.1 hitem
  simp [roomFor, hindep, hconfig, hrow]

/-- What a stack gets, it has no more room for. -/
theorem roomFor_grow (hrow : cfg.item proto.configId = some row)
    (hitem : canStack item proto = true) {amount : Nat}
    (hle : item.size + amount ≤ row.maxStackSize) (configId : Nat) :
    roomFor cfg configId item = roomFor cfg configId { item with size := item.size + amount } +
      if proto.configId = configId then amount else 0 := by
  by_cases hconfig : proto.configId = configId
  · subst hconfig
    have hgrown : canStack { item with size := item.size + amount } proto = true := hitem
    rw [roomFor_of_row hrow hitem, roomFor_of_row hrow hgrown, if_pos rfl]
    dsimp only
    omega
  · have hne : item.configId ≠ configId := (canStack_iff.1 hitem).2.2 ▸ hconfig
    simp [roomFor, hne, hconfig]

/-! ## Filling open stacks -/

def openRoom (proto : ItemComp) (maxStack : Nat) (item : ItemComp) : Nat :=
  if canStack item proto then maxStack - item.size else 0

/-- The units that are left and the fills of the open stacks among the instances. -/
structure FillPlan (proto : ItemComp) (maxStack : Nat) (items : List ItemComp) (units : Nat)
    (plan : Nat × List StackFill) : Prop where
  left : plan.1 = units - (items.map (openRoom proto maxStack)).sum
  sum : plan.1 + (plan.2.map (·.amount)).sum = units
  guids : (plan.2.map (·.guid)).Sublist (items.map (·.itemId))
  stack : ∀ fill ∈ plan.2, ∃ item ∈ items, item.itemId = fill.guid ∧
    canStack item proto = true ∧ item.size + fill.amount ≤ maxStack

theorem FillPlan.skip {items : List ItemComp} {units : Nat} {plan : Nat × List StackFill}
    (h : FillPlan proto maxStack items units plan) (hroom : openRoom proto maxStack item = 0) :
    FillPlan proto maxStack (item :: items) units plan where
  left := by rw [h.left, List.map_cons, List.sum_cons, hroom, Nat.zero_add]
  sum := h.sum
  guids := h.guids.cons _
  stack fill hfill := by
    obtain ⟨a, ha, hrest⟩ := h.stack fill hfill
    exact ⟨a, List.mem_cons_of_mem _ ha, hrest⟩

theorem planFills_spec (proto : ItemComp) (maxStack : Nat) (items : List ItemComp) :
    ∀ units, FillPlan proto maxStack items units (planFills proto maxStack [] units items) := by
  induction items with
  | nil => exact fun units => ⟨rfl, rfl, .slnil, fun _ h => nomatch h⟩
  | cons item items ih =>
    intro units
    unfold planFills
    split
    next hzero =>
      rw [hzero]
      exact ⟨(Nat.zero_sub _).symm, rfl, List.nil_sublist _, fun _ h => nomatch h⟩
    split
    next hstack =>
      exact (ih units).skip (if_neg (by simpa using hstack))
    rename_i hstack
    have hopen : openRoom proto maxStack item = maxStack - item.size :=
      if_pos (by simpa using hstack)
    split
    · exact nomatch ‹item.itemId ∈ []›
    split
    · exact (ih units).skip (hopen.trans (by omega))
    split
    next hroom =>
      exact (ih units).skip (hopen.trans hroom)
    have hplan := ih (units - min units (maxStack - item.size))
    have hleft := hplan.left
    have hsum := hplan.sum
    refine ⟨?_, ?_, hplan.guids.cons_cons _, fun fill hfill => ?_⟩
    · rw [List.map_cons, List.sum_cons, hopen]
      dsimp only
      omega
    · rw [List.map_cons, List.sum_cons]
      dsimp only
      omega
    · rcases List.mem_cons.1 hfill with rfl | hfill
      · refine ⟨item, List.mem_cons_self, rfl, by simpa using hstack, ?_⟩
        dsimp only
        omega
      · obtain ⟨a, ha, hrest⟩ := hplan.stack fill hfill
        exact ⟨a, List.mem_cons_of_mem _ ha, hrest⟩

structure Fillable (s : ItemStore) (proto : ItemComp) (maxStack : Nat) (fills : List StackFill) :
    Prop where
  nodup : (fills.map (·.guid)).Nodup
  stack : ∀ fill ∈ fills, ∃ item ∈ s.items, item.itemId = fill.guid ∧
    canStack item proto = true ∧ item.size + fill.amount ≤ maxStack

/-- The stacks of the other fills are as they were. -/
theorem Fillable.tail {fill : StackFill} {fills : List StackFill}
    (h : s.Fillable proto maxStack (fill :: fills)) (n : Nat) :
    (s.setSize fill.guid n).Fillable proto maxStack fills where
  nodup := (List.nodup_cons.1 h.nodup).2
  stack fill' hfill' := by
    obtain ⟨item, hmem, hid, hrest⟩ := h.stack fill' (List.mem_cons_of_mem _ hfill')
    have hne : item.itemId ≠ fill.guid := by
      rw [hid]
      exact fun heq => (List.nodup_cons.1 h.nodup).1 (List.mem_map.2 ⟨fill', hfill', heq⟩)
    refine ⟨item, List.mem_map.2 ⟨item, hmem, ?_⟩, hid, hrest⟩
    rw [resized, if_neg hne]

structure Filled (cfg : Tables) (proto : ItemComp) (amount : Nat) (s s' : ItemStore) : Prop where
  resizes : s.Resizes s'
  positive : s.Positive → s'.Positive
  sized : ∀ limit, Allows cfg limit → s.Sized limit → s'.Sized limit
  units : ∀ configId, s'.weigh (unitsOf configId) =
    s.weigh (unitsOf configId) + if proto.configId = configId then amount else 0
  room : ∀ configId, s.weigh (roomFor cfg configId) =
    s'.weigh (roomFor cfg configId) + if proto.configId = configId then amount else 0

theorem filled_setSize (hrow : cfg.item proto.configId = some row)
    (hfind : s.find guid = some item) (hstack : canStack item proto = true) {amount : Nat}
    (hle : item.size + amount ≤ row.maxStackSize) :
    Filled cfg proto amount s (s.setSize guid (item.size + amount)) := by
  obtain ⟨hmem, hid⟩ := find_eq_some_iff.1 hfind
  have hconfig : item.configId = proto.configId := (canStack_iff.1 hstack).2.2
  refine ⟨.setSize s _ _, fun hpos a ha => ?_, fun limit hl hs => hs.setSize fun a ha haid => ?_,
    fun configId => ?_, fun configId => ?_⟩
  · rcases mem_setSize ha with ⟨ha, -⟩ | ⟨a, ha, -, rfl⟩
    · exact hpos a ha
    · have := hpos item hmem
      dsimp only
      omega
  · rw [eq_of_itemId ha hmem (haid.trans hid.symm), hconfig]
    exact hl.row _ row _ hrow hle
  · have hw := weigh_setSize (w := unitsOf configId) hfind (item.size + amount)
    rw [unitsOf_grow, hconfig] at hw
    omega
  · have hw := weigh_setSize (w := roomFor cfg configId) hfind (item.size + amount)
    have hgrow := roomFor_grow hrow hstack hle configId
    omega

theorem Filled.trans {s' s'' : ItemStore} {a b : Nat} (h : Filled cfg proto a s s')
    (h' : Filled cfg proto b s' s'') : Filled cfg proto (a + b) s s'' where
  resizes := h.resizes.trans h'.resizes
  positive := h'.positive ∘ h.positive
  sized limit hl := h'.sized limit hl ∘ h.sized limit hl
  units configId := by
    rw [h'.units, h.units]
    split <;> omega
  room configId := by
    rw [h.room, h'.room]
    split <;> omega

theorem applyStackFill_spec (hrow : cfg.item proto.configId = some row) (fills : List StackFill) :
    ∀ {s : ItemStore}, s.Fillable proto row.maxStackSize fills →
      Filled cfg proto (fills.map (·.amount)).sum s (s.applyStackFill fills).1 := by
  induction fills with
  | nil =>
    intro s _
    exact ⟨.refl s, id, fun _ _ => id, fun _ => by simp [applyStackFill],
      fun _ => by simp [applyStackFill]⟩
  | cons fill fills ih =>
    intro s h
    obtain ⟨item, hmem, hid, hstack, hle⟩ := h.stack fill List.mem_cons_self
    have hfind : s.find fill.guid = some item := find_eq_some_iff.2 ⟨hmem, hid⟩
    unfold applyStackFill
    rw [hfind]
    exact (filled_setSize hrow hfind hstack hle).trans (ih (h.tail _))

/-- The units that open stacks do not take, and the fills; stacks of one unit are never open. -/
def entryPlan (s : ItemStore) (proto : ItemComp) (maxStack : Nat) : Nat × List StackFill :=
  if maxStack > 1 then s.planStackIntoExistingStacks proto maxStack [] else (proto.size, [])

def rooms (cfg : Tables) (s : ItemStore) (configId : Nat) : Nat := s.weigh (roomFor cfg configId)

def entryRoom (room : Nat → Nat) (proto : ItemComp) : Nat :=
  if isIndependentInstance proto then 0 else room proto.configId

theorem weigh_openRoom (hrow : cfg.item proto.configId = some row) (s : ItemStore) :
    s.weigh (openRoom proto row.maxStackSize) = entryRoom (s.rooms cfg) proto := by
  unfold entryRoom rooms weigh
  split
  next hindep =>
    refine List.sum_eq_zero fun n hn => ?_
    obtain ⟨item, -, rfl⟩ := List.mem_map.1 hn
    exact if_neg fun hstack => by simp [(canStack_iff.1 hstack).2.1] at hindep
  next hindep =>
    refine congrArg _ (List.map_congr_left fun item _ => ?_)
    unfold openRoom
    split
    · exact (roomFor_of_row hrow ‹_›).symm
    rename_i hstack
    rw [canStack_iff] at hstack
    unfold roomFor
    rw [if_pos]
    simp only [Bool.or_eq_true, decide_eq_true_eq]
    by_contra hnot
    simp only [not_or, not_not, Bool.not_eq_true] at hnot hindep
    exact hstack ⟨hnot.2, hindep, hnot.1⟩

/-- Full stacks of one unit leave no room. -/
theorem rooms_of_max_eq_one (hpos : s.Positive) {configId : Nat}
    (hrow : cfg.item configId = some row) (hmax : row.maxStackSize = 1) :
    s.rooms cfg configId = 0 := by
  refine List.sum_eq_zero fun n hn => ?_
  obtain ⟨item, hitem, rfl⟩ := List.mem_map.1 hn
  have := hpos item hitem
  unfold roomFor
  split
  · rfl
  · rw [hrow]
    dsimp only
    omega

theorem entryPlan_spec (hrow : cfg.item proto.configId = some row) (hmax : 0 < row.maxStackSize)
    (hpos : s.Positive) :
    (s.entryPlan proto row.maxStackSize).1 = proto.size - entryRoom (s.rooms cfg) proto ∧
    (s.entryPlan proto row.maxStackSize).1 +
      ((s.entryPlan proto row.maxStackSize).2.map (·.amount)).sum = proto.size ∧
    s.Fillable proto row.maxStackSize (s.entryPlan proto row.maxStackSize).2 := by
  unfold entryPlan
  split
  · have hplan := planFills_spec proto row.maxStackSize s.inAcquireOrder proto.size
    have hperm := s.perm_inAcquireOrder
    refine ⟨?_, hplan.sum, ?_, fun fill hfill => ?_⟩
    · rw [← weigh_openRoom hrow, weigh, ← (hperm.map _).sum_eq]
      exact hplan.left
    · exact ((hperm.map _).nodup_iff.2 s.nodup).sublist hplan.guids
    · obtain ⟨item, hmem, hrest⟩ := hplan.stack fill hfill
      exact ⟨item, hperm.mem_iff.1 hmem, hrest⟩
  · have hroom : entryRoom (s.rooms cfg) proto = 0 := by
      unfold entryRoom
      split
      · rfl
      · exact rooms_of_max_eq_one hpos hrow (by omega)
    exact ⟨by rw [hroom]; rfl, rfl, List.nodup_nil, fun _ h => absurd h List.not_mem_nil⟩

end ItemStore

namespace Bag

open ItemStore List

variable {cfg : Tables} {proto : ItemComp} {row : ItemRow} {maxStack : Nat}
  {initializer : Option (ItemComp → ItemComp)}

/-! ## New instances -/

theorem pieceAmounts_zero (maxStack fuel : Nat) : pieceAmounts maxStack fuel 0 = [] := by
  cases fuel <;> rfl

theorem pieceAmounts_spec (hmax : 0 < maxStack) (fuel : Nat) :
    ∀ remaining ≤ fuel,
      (pieceAmounts maxStack fuel remaining).sum = remaining ∧
      (∀ amount ∈ pieceAmounts maxStack fuel remaining, 0 < amount ∧ amount ≤ maxStack) ∧
      remaining ≤ (pieceAmounts maxStack fuel remaining).length * maxStack ∧
      (pieceAmounts maxStack fuel remaining).length * maxStack < remaining + maxStack := by
  induction fuel with
  | zero =>
    intro remaining hle
    obtain rfl := Nat.le_zero.1 hle
    simpa [pieceAmounts_zero]
  | succ fuel ih =>
    intro remaining hle
    unfold pieceAmounts
    split
    · simp [*]
    · dsimp only
      obtain ⟨hsum, hamounts, hle', hlt'⟩ := ih (remaining - min maxStack remaining) (by omega)
      rw [sum_cons, length_cons, Nat.add_mul, Nat.one_mul, hsum]
      refine ⟨by omega, fun amount hmem => ?_, by omega, ?_⟩
      · rcases mem_cons.1 hmem with rfl | hmem
        · omega
        · exact hamounts amount hmem
      · rcases Nat.le_total maxStack remaining with hfull | hlast
        · omega
        · -- the last stack holds the rest
          rw [Nat.min_eq_right hlast, Nat.sub_self, pieceAmounts_zero, length_nil]
          omega

structure PieceOf (proto : ItemComp) (maxStack amount : Nat) (guid : Guid) (piece : ItemComp) :
    Prop where
  itemId : piece.itemId = guid
  configId : piece.configId = proto.configId
  size : piece.size = amount
  acquireSeq : piece.acquireSeq = proto.acquireSeq
  independent : maxStack ≠ 1 → isIndependentInstance piece = isIndependentInstance proto
  equip : proto.equip.isSome → piece.equip = proto.equip

structure Piece (proto : ItemComp) (maxStack amount : Nat) (c c' : Commit) (piece : ItemComp) :
    Prop extends PieceOf proto maxStack amount piece.itemId piece where
  insert : c.store.insert piece = some c'.store
  newItems : c'.newItems = c.newItems ++ [(piece.itemId, proto.configId)]
  guid : (isPreassigned maxStack proto = true ∧ piece.itemId = proto.itemId ∧
      c'.minted = c.minted) ∨
    (isPreassigned maxStack proto = false ∧ c.minted = piece.itemId :: c'.minted)

theorem newPiece_spec (initializer : Option (ItemComp → ItemComp)) (proto : ItemComp)
    (maxStack amount : Nat) (guid : Guid) :
    PieceOf proto maxStack amount guid (newPiece initializer proto maxStack amount guid) := by
  unfold newPiece
  dsimp only
  split
  next hmax =>
    unfold initializeNewInstance
    split
    · exact ⟨rfl, rfl, rfl, rfl, fun hne => absurd hmax hne, fun _ => rfl⟩
    split
    · exact ⟨rfl, rfl, rfl, rfl, fun hne => absurd hmax hne, fun _ => rfl⟩
    next hnone =>
      exact ⟨rfl, rfl, rfl, rfl, fun hne => absurd hmax hne, fun hsome => absurd hsome hnone⟩
  · exact ⟨rfl, rfl, rfl, rfl, fun _ => rfl, fun _ => rfl⟩

variable {amount : Nat}

theorem piece_of_addPiece {c c' : Commit}
    (h : addPiece initializer proto maxStack amount c = .ok c') :
    ∃ piece, Piece proto maxStack amount c c' piece := by
  unfold addPiece at h
  split at h
  · exact nomatch h
  rename_i guid hnext
  dsimp only at h
  split at h
  · exact nomatch h
  rename_i store hins
  cases h
  have hnew := newPiece_spec initializer proto maxStack amount guid
  refine ⟨_, { hnew with itemId := rfl }, hins, rfl, ?_⟩
  unfold nextGuid at hnext
  rw [hnew.itemId]
  by_cases hpre : isPreassigned maxStack proto = true
  · rw [if_pos hpre] at hnext
    exact .inl ⟨hpre, (Option.some.inj hnext).symm, if_pos hpre⟩
  rw [if_neg hpre] at hnext
  refine .inr ⟨by simpa using hpre, ?_⟩
  dsimp only
  rw [if_neg hpre]
  exact (List.head?_eq_some_iff.1 hnext).elim fun rest hrest => by rw [hrest]; rfl

theorem exists_addPiece (initializer : Option (ItemComp → ItemComp)) {c : Commit} {guid : Guid}
    (hnext : nextGuid proto maxStack c = some guid)
    (hfresh : guid ∉ c.store.guids) (amount : Nat) :
    ∃ c', addPiece initializer proto maxStack amount c = .ok c' := by
  have hid := (newPiece_spec initializer proto maxStack amount guid).itemId
  obtain ⟨store, hins⟩ := exists_insert (hid.symm ▸ hfresh)
  unfold addPiece
  rw [hnext]
  dsimp only
  rw [hins]
  exact ⟨_, rfl⟩

/-! ## The copy of the store -/

/-- The copy of the store after some entries, `new` being the instances that they opened. -/
structure Grown (cfg : Tables) (protos : List ItemComp) (c c' : Commit) (new : List (Guid × Nat)) :
    Prop where
  newItems : c'.newItems = c.newItems ++ new
  guids : c'.store.guids = c.store.guids ++ new.map (·.1)
  positive : c.store.Positive → c'.store.Positive
  sized : ∀ limit, Allows cfg limit → c.store.Sized limit → c'.store.Sized limit
  stamped : ∀ bound, (∀ proto ∈ protos, proto.acquireSeq < bound) → c.store.Stamped →
    c.store.nextAcquireSeq ≤ bound → bound + new.length < seqRange →
    c'.store.Stamped ∧ c'.store.nextAcquireSeq ≤ bound + new.length
  keeps : ∀ a ∈ c.store.items, ∃ n, { a with size := n } ∈ c'.store.items

variable {protos : List ItemComp} {c c' c'' : Commit} {new new' : List (Guid × Nat)}

theorem Grown.refl (c : Commit) : Grown cfg protos c c [] where
  newItems := (append_nil _).symm
  guids := (append_nil _).symm
  positive := id
  sized _ _ := id
  stamped _ _ hstamped hnext _ := ⟨hstamped, hnext⟩
  keeps a ha := ⟨a.size, ha⟩

theorem Grown.trans (h : Grown cfg protos c c' new) (h' : Grown cfg protos c' c'' new') :
    Grown cfg protos c c'' (new ++ new') where
  newItems := by rw [h'.newItems, h.newItems, append_assoc]
  guids := by rw [h'.guids, h.guids, map_append, append_assoc]
  positive := h'.positive ∘ h.positive
  sized limit hl := h'.sized limit hl ∘ h.sized limit hl
  stamped bound hseqs hstamped hnext hbound := by
    rw [length_append] at hbound ⊢
    obtain ⟨hstamped', hnext'⟩ := h.stamped bound hseqs hstamped hnext (by omega)
    obtain ⟨hstamped'', hnext''⟩ := h'.stamped (bound + new.length)
      (fun proto hproto => Nat.lt_of_lt_of_le (hseqs proto hproto) (Nat.le_add_right _ _))
      hstamped' hnext' (by omega)
    exact ⟨hstamped'', by omega⟩
  keeps a ha := by
    obtain ⟨n, ha'⟩ := h.keeps a ha
    obtain ⟨n', ha''⟩ := h'.keeps _ ha'
    exact ⟨n', ha''⟩

/-- The fills of open stacks open no instance. -/
theorem Grown.of_filled (h : Filled cfg proto amount c.store c'.store)
    (hnew : c'.newItems = c.newItems) : Grown cfg protos c c' [] where
  newItems := hnew.trans (append_nil _).symm
  guids := h.resizes.guids.trans (append_nil _).symm
  positive := h.positive
  sized := h.sized
  stamped bound _ hstamped hnext _ := ⟨hstamped.resize h.resizes, h.resizes.next ▸ hnext⟩
  keeps a ha := by
    have hguid : a.itemId ∈ c'.store.guids := h.resizes.guids ▸ mem_guids.2 ⟨a, ha, rfl⟩
    obtain ⟨a', ha', hid⟩ := mem_guids.1 hguid
    obtain ⟨b, hb, heq⟩ := h.resizes.origin a' ha'
    have hab : b = a := by
      rw [heq] at hid
      exact eq_of_itemId hb ha hid
    exact ⟨a'.size, hab ▸ heq ▸ ha'⟩

variable {piece : ItemComp}

theorem Piece.grown
    (h : Piece proto row.maxStackSize amount c c' piece) (hmem : proto ∈ protos)
    (hrow : cfg.item proto.configId = some row) (hpos : 0 < amount)
    (hle : amount ≤ row.maxStackSize) :
    Grown cfg protos c c' [(piece.itemId, proto.configId)] where
  newItems := h.newItems
  guids := guids_insert h.insert
  positive hpositive := hpositive.insert h.insert (h.size ▸ hpos)
  sized _ hl hsized := hsized.insert h.insert (by
    rw [h.configId, h.size]
    exact hl.row _ row _ hrow hle)
  stamped bound hseqs hstamped hnext hbound :=
    hstamped.insert h.insert hnext (h.acquireSeq ▸ hseqs proto hmem) hbound
  keeps a ha := by
    obtain ⟨-, hitems, -⟩ := insert_eq_some h.insert
    exact ⟨a.size, hitems ▸ mem_append_left _ ha⟩

/-- The new instances of an entry, and where their guids come from. -/
structure Taken (proto : ItemComp) (maxStack : Nat) (c c' : Commit) (new : List (Guid × Nat)) :
    Prop where
  kind : ∀ e ∈ new, e.2 = proto.configId
  made : ∀ e ∈ new, ∃ a ∈ c'.store.items, a.itemId = e.1 ∧ a.configId = proto.configId ∧
    (proto.equip.isSome → a.equip = proto.equip)
  preset : isPreassigned maxStack proto = true →
    c'.minted = c.minted ∧ ∀ e ∈ new, e.1 = proto.itemId
  minted : isPreassigned maxStack proto = false → c.minted = new.map (·.1) ++ c'.minted

theorem Taken.minted_subset (h : Taken proto maxStack c c' new) : c'.minted ⊆ c.minted := by
  cases hpre : isPreassigned maxStack proto with
  | true => exact (h.preset hpre).1 ▸ List.Subset.refl _
  | false => exact h.minted hpre ▸ subset_append_right _ _

theorem Taken.refl (c : Commit) : Taken proto maxStack c c [] where
  kind _ he := nomatch he
  made _ he := nomatch he
  preset _ := ⟨rfl, fun _ he => nomatch he⟩
  minted _ := rfl

theorem Piece.taken
    (h : Piece proto maxStack amount c c' piece) :
    Taken proto maxStack c c' [(piece.itemId, proto.configId)] where
  kind e he := by rw [mem_singleton.1 he]
  made e he := by
    obtain ⟨-, hitems, -⟩ := insert_eq_some h.insert
    obtain ⟨seq, hseq⟩ := stampSeq_fst c.store.nextAcquireSeq piece
    rw [mem_singleton.1 he, hitems, hseq]
    exact ⟨_, mem_append_right _ (mem_singleton.2 rfl), rfl, h.configId, h.equip⟩
  preset hpre := by
    rcases h.guid with ⟨-, hid, hminted⟩ | ⟨hnot, -⟩
    · exact ⟨hminted, fun e he => by rw [mem_singleton.1 he, hid]⟩
    · exact absurd hpre (by simp [hnot])
  minted hpre := by
    rcases h.guid with ⟨hyes, -, -⟩ | ⟨-, hminted⟩
    · exact absurd hyes (by simp [hpre])
    · exact hminted

theorem Taken.trans (h : Taken proto maxStack c c' new) (h' : Taken proto maxStack c' c'' new')
    (hgrown : Grown cfg protos c' c'' new') : Taken proto maxStack c c'' (new ++ new') where
  kind e he := (mem_append.1 he).elim (h.kind e) (h'.kind e)
  made e he := by
    rcases mem_append.1 he with he | he
    · obtain ⟨a, ha, hrest⟩ := h.made e he
      obtain ⟨n, ha'⟩ := hgrown.keeps a ha
      exact ⟨_, ha', hrest⟩
    · exact h'.made e he
  preset hpre := ⟨(h'.preset hpre).1.trans (h.preset hpre).1, fun e he =>
    (mem_append.1 he).elim ((h.preset hpre).2 e) ((h'.preset hpre).2 e)⟩
  minted hpre := by
    rw [h.minted hpre, h'.minted hpre, map_append, append_assoc]

/-- The weights of the copy after new instances of `amount` units in all were opened. -/
structure Weighed (cfg : Tables) (proto : ItemComp) (maxStack amount count : Nat)
    (s s' : ItemStore) : Prop where
  units : ∀ configId, s'.weigh (unitsOf configId) =
    s.weigh (unitsOf configId) + if proto.configId = configId then amount else 0
  room : ∀ configId, s'.weigh (roomFor cfg configId) +
      (if proto.configId = configId ∧ isIndependentInstance proto = false then amount else 0) =
    s.weigh (roomFor cfg configId) +
      if proto.configId = configId ∧ isIndependentInstance proto = false then count * maxStack
      else 0

theorem Piece.weighed
    (h : Piece proto row.maxStackSize amount c c' piece)
    (hrow : cfg.item proto.configId = some row) (hpos : 0 < amount)
    (hle : amount ≤ row.maxStackSize) :
    Weighed cfg proto row.maxStackSize amount 1 c.store c'.store := by
  refine ⟨fun configId => ?_, fun configId => ?_⟩
  · rw [weigh_insert h.insert fun _ => rfl, unitsOf, h.configId, h.size]
  · rw [weigh_insert h.insert fun _ => rfl, roomFor, h.configId, h.size, Nat.one_mul]
    by_cases hconfig : proto.configId = configId
    · subst hconfig
      by_cases hone : row.maxStackSize = 1
      · simp only [hrow, ne_eq, not_true_eq_false, decide_false, Bool.false_or, true_and]
        split <;> split <;> omega
      rw [h.independent hone]
      cases isIndependentInstance proto with
      | true => simp
      | false =>
        simp only [hrow, ne_eq, not_true_eq_false, decide_false, Bool.false_or, true_and,
          Bool.false_eq_true, if_false, if_true]
        omega
    · simp [hconfig]

theorem Weighed.trans {s s' s'' : ItemStore} {a b m n : Nat}
    (h : Weighed cfg proto maxStack a m s s') (h' : Weighed cfg proto maxStack b n s' s'') :
    Weighed cfg proto maxStack (a + b) (m + n) s s'' := by
  refine ⟨fun configId => ?_, fun configId => ?_⟩
  · rw [h'.units, h.units]
    split <;> omega
  · have hroom := h.room configId
    have hroom' := h'.room configId
    rw [Nat.add_mul]
    by_cases hcond : proto.configId = configId ∧ isIndependentInstance proto = false
    · simp only [if_pos hcond] at hroom hroom' ⊢
      omega
    · simp only [if_neg hcond] at hroom hroom' ⊢
      omega

theorem addPieces_spec (hmem : proto ∈ protos) (hrow : cfg.item proto.configId = some row)
    (amounts : List Nat) :
    ∀ {c c' : Commit}, (∀ amount ∈ amounts, 0 < amount ∧ amount ≤ row.maxStackSize) →
      addPieces initializer proto row.maxStackSize amounts c = .ok c' →
      ∃ new, Grown cfg protos c c' new ∧ Taken proto row.maxStackSize c c' new ∧
        new.length = amounts.length ∧
        Weighed cfg proto row.maxStackSize amounts.sum amounts.length c.store c'.store := by
  induction amounts with
  | nil =>
    intro c c' _ h
    cases h
    exact ⟨[], .refl c, .refl c, rfl, fun _ => by simp, fun _ => by simp⟩
  | cons amount amounts ih =>
    intro c c' hamounts h
    unfold addPieces at h
    split at h
    · exact nomatch h
    rename_i c₁ hpiece
    obtain ⟨piece, hpiece⟩ := piece_of_addPiece hpiece
    obtain ⟨hpos, hle⟩ := hamounts amount mem_cons_self
    obtain ⟨new, hgrown, htaken, hlen, hweighed⟩ :=
      ih (fun a ha => hamounts a (mem_cons_of_mem _ ha)) h
    refine ⟨_, (hpiece.grown hmem hrow hpos hle).trans hgrown, hpiece.taken.trans htaken hgrown,
      ?_, ?_⟩
    · rw [length_append, hlen, length_singleton, length_cons, Nat.add_comm]
    · rw [sum_cons, length_cons, Nat.add_comm amounts.length]
      exact (hpiece.weighed hrow hpos hle).trans hweighed

/-! ## One entry -/

theorem commitEntry_eq (hrow : cfg.item proto.configId = some row) (c : Commit) :
    commitEntry cfg initializer proto c =
      addPieces initializer proto row.maxStackSize
        (pieceAmounts row.maxStackSize (c.store.entryPlan proto row.maxStackSize).1
          (c.store.entryPlan proto row.maxStackSize).1)
        { c with
          store := (c.store.applyStackFill (c.store.entryPlan proto row.maxStackSize).2).1
          written := c.written ++
            (c.store.applyStackFill (c.store.entryPlan proto row.maxStackSize).2).2 } := by
  unfold commitEntry
  rw [hrow]
  rfl

def maxOf (cfg : Tables) (configId : Nat) : Nat := (cfg.item configId).elim 0 (·.maxStackSize)

theorem maxOf_eq {configId : Nat} (hrow : cfg.item configId = some row) :
    maxOf cfg configId = row.maxStackSize := by
  rw [maxOf, hrow, Option.elim_some]

def roomAfter (cfg : Tables) (room : Nat → Nat) (proto : ItemComp) (configId : Nat) : Nat :=
  if proto.configId = configId ∧ isIndependentInstance proto = false then
    (Packing.pack (maxOf cfg configId) (room configId) proto.size).2
  else room configId

structure Entry (cfg : Tables) (protos : List ItemComp) (proto : ItemComp) (maxStack : Nat)
    (c c' : Commit) (new : List (Guid × Nat)) : Prop where
  grown : Grown cfg protos c c' new
  taken : Taken proto maxStack c c' new
  count : new.length =
    Packing.stacksNeeded (proto.size - entryRoom (c.store.rooms cfg) proto) maxStack
  units : ∀ configId, c'.store.weigh (unitsOf configId) =
    c.store.weigh (unitsOf configId) + unitsOf configId proto
  room : c'.store.rooms cfg = roomAfter cfg (c.store.rooms cfg) proto

/-- **An entry is packed: it fills the room of its config and opens the missing stacks.** -/
theorem commitEntry_spec (hmem : proto ∈ protos) (hrow : cfg.item proto.configId = some row)
    (hmax : 0 < row.maxStackSize) (hpos : c.store.Positive)
    (h : commitEntry cfg initializer proto c = .ok c') :
    ∃ new, Entry cfg protos proto row.maxStackSize c c' new := by
  rw [commitEntry_eq hrow] at h
  obtain ⟨hleft, hsum, hfillable⟩ := entryPlan_spec hrow hmax hpos
  have hfilled := applyStackFill_spec hrow _ hfillable
  generalize c.store.entryPlan proto row.maxStackSize = plan at *
  obtain ⟨hamounts, hbounds, hle, hlt⟩ := pieceAmounts_spec hmax plan.1 plan.1 (Nat.le_refl _)
  obtain ⟨new, hgrown, htaken, hlen, hweighed⟩ := addPieces_spec hmem hrow _ hbounds h
  have hcount : new.length = Packing.stacksNeeded plan.1 row.maxStackSize := by
    rw [hlen]
    exact ((Packing.stacksNeeded_eq_iff hmax).2 ⟨hle, hlt⟩).symm
  have hgrown₀ : Grown cfg protos c { c with
      store := (c.store.applyStackFill plan.2).1
      written := c.written ++ (c.store.applyStackFill plan.2).2 } [] := .of_filled hfilled rfl
  refine ⟨new, hgrown₀.trans hgrown, { htaken with },
    hleft ▸ hcount, fun configId => ?_, funext fun configId => ?_⟩
  · rw [hweighed.units, hfilled.units, hamounts, unitsOf]
    split <;> omega
  · have hroom := hweighed.room configId
    have hfill := hfilled.room configId
    rw [hamounts, ← hlen, hcount] at hroom
    change c'.store.weigh (roomFor cfg configId) = _
    unfold roomAfter Packing.pack
    by_cases hcond : proto.configId = configId ∧ isIndependentInstance proto = false
    · simp only [if_pos hcond] at hroom ⊢
      obtain ⟨rfl, hindep⟩ := hcond
      rw [if_pos rfl] at hfill
      have hentry : entryRoom (c.store.rooms cfg) proto = c.store.rooms cfg proto.configId := by
        rw [entryRoom, hindep]
        rfl
      rw [← hentry, ← hleft, maxOf_eq hrow, hentry]
      change _ = c.store.weigh (roomFor cfg proto.configId) + _ - _
      omega
    · simp only [if_neg hcond] at hroom ⊢
      by_cases hconfig : proto.configId = configId
      · -- an instance of its own fills nothing
        have hindep : isIndependentInstance proto = true := by
          cases hi : isIndependentInstance proto with
          | true => rfl
          | false => exact absurd ⟨hconfig, hi⟩ hcond
        have hentry : entryRoom (c.store.rooms cfg) proto = 0 := by
          rw [entryRoom, hindep]
          rfl
        rw [if_pos hconfig] at hfill
        change _ = c.store.weigh (roomFor cfg configId)
        omega
      · rw [if_neg hconfig] at hfill
        change _ = c.store.weigh (roomFor cfg configId)
        omega

/-! ## A run of entries -/

def batchNeeds (cfg : Tables) (room : Nat → Nat) : List ItemComp → Nat
  | [] => 0
  | proto :: protos =>
    Packing.stacksNeeded (proto.size - entryRoom room proto) (maxOf cfg proto.configId) +
      batchNeeds cfg (roomAfter cfg room proto) protos

def presets (cfg : Tables) (protos : List ItemComp) : List Guid :=
  (protos.filter fun proto => isPreassigned (maxOf cfg proto.configId) proto).map (·.itemId)

def Known (cfg : Tables) (protos : List ItemComp) : Prop :=
  ∀ proto ∈ protos, ∃ row, cfg.item proto.configId = some row ∧ 0 < row.maxStackSize

/-- A unique instance needs a stack of its own. -/
theorem stacksNeeded_preset {room : Nat → Nat} (hrow : cfg.item proto.configId = some row)
    (hpre : isPreassigned row.maxStackSize proto = true)
    (hroom : ∀ configId, maxOf cfg configId = 1 → room configId = 0) :
    Packing.stacksNeeded (proto.size - entryRoom room proto) row.maxStackSize = 1 := by
  simp only [isPreassigned, Bool.and_eq_true, decide_eq_true_eq] at hpre
  have hentry : entryRoom room proto = 0 := by
    unfold entryRoom
    split
    · rfl
    · exact hroom _ ((maxOf_eq hrow).trans hpre.1.1)
  rw [hentry, hpre.1.1, hpre.1.2]
  rfl

theorem rooms_max_one (hpos : c.store.Positive) (configId : Nat) (hmax : maxOf cfg configId = 1) :
    c.store.rooms cfg configId = 0 := by
  unfold maxOf at hmax
  cases hrow : cfg.item configId with
  | none => rw [hrow] at hmax; exact nomatch hmax
  | some row =>
    rw [hrow] at hmax
    exact rooms_of_max_eq_one hpos hrow hmax

structure Batch (cfg : Tables) (protos entries : List ItemComp) (c c' : Commit)
    (new : List (Guid × Nat)) : Prop where
  grown : Grown cfg protos c c' new
  units : ∀ configId, c'.store.weigh (unitsOf configId) =
    c.store.weigh (unitsOf configId) + (entries.map (unitsOf configId)).sum
  count : new.length = batchNeeds cfg (c.store.rooms cfg) entries
  origin : ∀ e ∈ new, e.1 ∈ c.minted ∨
    ∃ proto ∈ entries, isPreassigned (maxOf cfg proto.configId) proto = true ∧ e.1 = proto.itemId
  minted : c'.minted ⊆ c.minted
  preset : ∀ proto ∈ entries, isPreassigned (maxOf cfg proto.configId) proto = true →
    ∃ a ∈ c'.store.items, a.itemId = proto.itemId ∧ a.configId = proto.configId ∧
      (proto.equip.isSome → a.equip = proto.equip)

theorem Batch.cons {entries : List ItemComp} (hrow : cfg.item proto.configId = some row)
    (hpos : c.store.Positive) (hentry : Entry cfg protos proto row.maxStackSize c c' new)
    (h : Batch cfg protos entries c' c'' new') :
    Batch cfg protos (proto :: entries) c c'' (new ++ new') where
  grown := hentry.grown.trans h.grown
  units configId := by
    rw [h.units, hentry.units, map_cons, sum_cons, Nat.add_assoc]
  count := by
    rw [length_append, hentry.count, h.count, hentry.room, batchNeeds, maxOf_eq hrow]
  origin e he := by
    rcases mem_append.1 he with he | he
    · cases hpre : isPreassigned row.maxStackSize proto with
      | true =>
        exact .inr ⟨proto, mem_cons_self, maxOf_eq hrow ▸ hpre,
          (hentry.taken.preset hpre).2 e he⟩
      | false =>
        rw [hentry.taken.minted hpre]
        exact .inl (mem_append_left _ (mem_map_of_mem he))
    · rcases h.origin e he with hminted | ⟨other, hother, hrest⟩
      · exact .inl (hentry.taken.minted_subset hminted)
      · exact .inr ⟨other, mem_cons_of_mem _ hother, hrest⟩
  minted _ hguid := hentry.taken.minted_subset (h.minted hguid)
  preset other hother hpre := by
    rcases mem_cons.1 hother with rfl | hother
    · have hcount := hentry.count
      rw [maxOf_eq hrow] at hpre
      rw [stacksNeeded_preset hrow hpre (rooms_max_one hpos)] at hcount
      obtain ⟨e, rfl⟩ := length_eq_one_iff.1 hcount
      obtain ⟨a, ha, hid, hrest⟩ := hentry.taken.made e (mem_singleton.2 rfl)
      obtain ⟨n, ha'⟩ := h.grown.keeps a ha
      have hguid := (hentry.taken.preset hpre).2 e (mem_singleton.2 rfl)
      exact ⟨_, ha', hid.trans hguid, hrest⟩
    · exact h.preset other hother hpre

variable (entries : List ItemComp)

theorem commitEntries_spec :
    ∀ {c c' : Commit} {written : List (List Guid)}, Known cfg entries → entries ⊆ protos →
      c.store.Positive → commitEntries cfg initializer entries c = .ok (c', written) →
      ∃ new, Batch cfg protos entries c c' new := by
  induction entries with
  | nil =>
    intro c c' written _ _ _ h
    cases h
    exact ⟨[], .refl c, fun _ => rfl, rfl, fun _ he => absurd he not_mem_nil, fun _ => id,
      fun _ hproto => absurd hproto not_mem_nil⟩
  | cons proto entries ih =>
    intro c c' written hknown hsub hpos h
    unfold commitEntries at h
    split at h
    · exact nomatch h
    rename_i c₁ hentry
    split at h
    · exact nomatch h
    rename_i c₂ rest hentries
    cases h
    obtain ⟨row, hrow, hmax⟩ := hknown proto mem_cons_self
    obtain ⟨new, hentry⟩ := commitEntry_spec (c := { c with written := [] })
      (hsub mem_cons_self) hrow hmax hpos hentry
    obtain ⟨new', hbatch⟩ := ih (fun p hp => hknown p (mem_cons_of_mem _ hp))
      (fun p hp => hsub (mem_cons_of_mem _ hp)) (hentry.grown.positive hpos) hentries
    have hentry' : Entry cfg protos proto row.maxStackSize c c₁ new :=
      { hentry with grown := { hentry.grown with }, taken := { hentry.taken with } }
    exact ⟨new ++ new', hbatch.cons hrow hpos hentry'⟩

/-! ## A batch with enough guids -/

theorem exists_addPieces_preset {amounts : List Nat}
    (hpre : isPreassigned maxStack proto = true) (hlen : amounts.length ≤ 1)
    (hfresh : proto.itemId ∉ c.store.guids) :
    ∃ c', addPieces initializer proto maxStack amounts c = .ok c' := by
  match amounts, hlen with
  | [], _ => exact ⟨c, rfl⟩
  | [amount], _ =>
    obtain ⟨c', hc'⟩ := exists_addPiece initializer (if_pos hpre) hfresh amount
    exact ⟨c', by simp only [addPieces, hc']⟩

theorem exists_addPieces_minted (hpre : isPreassigned maxStack proto = false)
    (amounts : List Nat) :
    ∀ {c : Commit}, amounts.length ≤ c.minted.length → (c.store.guids ++ c.minted).Nodup →
      ∃ c', addPieces initializer proto maxStack amounts c = .ok c' := by
  induction amounts with
  | nil => exact fun {c} _ _ => ⟨c, rfl⟩
  | cons amount amounts ih =>
    intro c hlen hnodup
    cases hminted : c.minted with
    | nil =>
      rw [hminted] at hlen
      exact absurd hlen (Nat.not_succ_le_zero _)
    | cons guid minted =>
      rw [hminted] at hlen hnodup
      have hnext : nextGuid proto maxStack c = some guid := by
        rw [nextGuid, if_neg (by simp [hpre]), hminted]
        rfl
      have hfresh : guid ∉ c.store.guids := fun hmem =>
        (nodup_append'.1 hnodup).2.2 hmem mem_cons_self
      obtain ⟨c₁, hc₁⟩ := exists_addPiece initializer hnext hfresh amount
      obtain ⟨piece, hpiece⟩ := piece_of_addPiece hc₁
      have htaken := hpiece.taken.minted hpre
      have hhead : guid = piece.itemId ∧ minted = c₁.minted := by simpa [hminted] using htaken
      obtain ⟨hguid, hrest⟩ := hhead
      obtain ⟨c', hc'⟩ := ih (c := c₁) (by rw [← hrest]; exact Nat.le_of_succ_le_succ hlen) (by
        rw [guids_insert hpiece.insert, ← hrest, ← hguid, append_assoc]
        exact hnodup)
      exact ⟨c', by simp only [addPieces, hc₁, hc']⟩

/-- The stacks that an entry opens get guids if there are enough of them. -/
theorem exists_commitEntry (hrow : cfg.item proto.configId = some row)
    (hmax : 0 < row.maxStackSize) (hpos : c.store.Positive)
    (hpreset : isPreassigned row.maxStackSize proto = true → proto.itemId ∉ c.store.guids)
    (hminted : isPreassigned row.maxStackSize proto = false →
      Packing.stacksNeeded (proto.size - entryRoom (c.store.rooms cfg) proto) row.maxStackSize ≤
        c.minted.length ∧ (c.store.guids ++ c.minted).Nodup) :
    ∃ c', commitEntry cfg initializer proto c = .ok c' := by
  rw [commitEntry_eq hrow]
  obtain ⟨hleft, -, hfillable⟩ := entryPlan_spec hrow hmax hpos
  have hguids := (applyStackFill_spec hrow _ hfillable).resizes.guids
  obtain ⟨-, -, hle, hlt⟩ := pieceAmounts_spec hmax (c.store.entryPlan proto row.maxStackSize).1
    (c.store.entryPlan proto row.maxStackSize).1 (Nat.le_refl _)
  have hlen := (Packing.stacksNeeded_eq_iff hmax).2 ⟨hle, hlt⟩
  rw [hleft] at hlen
  cases hpre : isPreassigned row.maxStackSize proto with
  | true =>
    refine exists_addPieces_preset hpre ?_ (hguids ▸ hpreset hpre)
    rw [hleft, ← hlen, stacksNeeded_preset hrow hpre (rooms_max_one hpos)]
  | false =>
    obtain ⟨hcount, hnodup⟩ := hminted hpre
    refine exists_addPieces_minted hpre _ ?_ (hguids ▸ hnodup)
    rw [hleft, ← hlen]
    exact hcount

/-- Configs of unique instances keep no room. -/
theorem roomAfter_max_one {room : Nat → Nat}
    (hroom : ∀ configId, maxOf cfg configId = 1 → room configId = 0) (proto : ItemComp)
    (configId : Nat) (hone : maxOf cfg configId = 1) : roomAfter cfg room proto configId = 0 := by
  unfold roomAfter
  split
  · rw [hone, hroom configId hone]
    simp [Packing.pack, Packing.stacksNeeded]
  · exact hroom configId hone

theorem length_presets_le :
    ∀ {room : Nat → Nat}, Known cfg entries →
      (∀ configId, maxOf cfg configId = 1 → room configId = 0) →
      (presets cfg entries).length ≤ batchNeeds cfg room entries := by
  induction entries with
  | nil => exact fun _ _ => Nat.le_refl _
  | cons proto entries ih =>
    intro room hknown hroom
    obtain ⟨row, hrow, hmax⟩ := hknown proto mem_cons_self
    have hrest := ih (fun p hp => hknown p (mem_cons_of_mem _ hp))
      (roomAfter_max_one hroom proto)
    unfold presets at hrest ⊢
    rw [batchNeeds, filter_cons]
    split
    next hpre =>
      rw [maxOf_eq hrow] at hpre ⊢
      rw [stacksNeeded_preset hrow hpre hroom, map_cons, length_cons]
      omega
    · omega

theorem presets_cons (hrow : cfg.item proto.configId = some row) (entries : List ItemComp) :
    presets cfg (proto :: entries) =
      if isPreassigned row.maxStackSize proto then proto.itemId :: presets cfg entries
      else presets cfg entries := by
  unfold presets
  rw [filter_cons, maxOf_eq hrow]
  split <;> rfl

/-- **A batch with as many guids as it opens instances is committed, and uses them all.** -/
theorem exists_commitEntries (initializer : Option (ItemComp → ItemComp))
    (entries : List ItemComp) :
    ∀ {c : Commit}, Known cfg entries → c.store.Positive →
      (c.store.guids ++ (c.minted ++ presets cfg entries)).Nodup →
      c.minted.length + (presets cfg entries).length =
        batchNeeds cfg (c.store.rooms cfg) entries →
      ∃ c' written, commitEntries cfg initializer entries c = .ok (c', written) ∧
        c'.minted = [] := by
  induction entries with
  | nil =>
    intro c _ _ _ hlen
    exact ⟨c, [], rfl, length_eq_zero_iff.1 hlen⟩
  | cons proto entries ih =>
    intro c hknown hpos hnodup hlen
    obtain ⟨row, hrow, hmax⟩ := hknown proto mem_cons_self
    have hknown' : Known cfg entries := fun p hp => hknown p (mem_cons_of_mem _ hp)
    have hrest : (presets cfg entries).length ≤
        batchNeeds cfg (roomAfter cfg (c.store.rooms cfg) proto) entries :=
      length_presets_le entries hknown' (roomAfter_max_one (rooms_max_one hpos) proto)
    rw [batchNeeds, maxOf_eq hrow] at hlen
    rw [presets_cons hrow] at hnodup hlen
    obtain ⟨c₁, hentry⟩ :
        ∃ c₁, commitEntry cfg initializer proto { c with written := [] } = .ok c₁ := by
      refine exists_commitEntry hrow hmax hpos (fun hpre hmem => ?_) fun hpre => ?_
      · rw [if_pos hpre] at hnodup
        exact (nodup_append'.1 hnodup).2.2 hmem (mem_append_right _ mem_cons_self)
      · rw [if_neg (by simp [hpre])] at hnodup hlen
        refine ⟨?_, ?_⟩
        · dsimp only
          omega
        · rw [← append_assoc] at hnodup
          exact (nodup_append'.1 hnodup).1
    obtain ⟨new, hgrown, htaken, hcount, -, hroom⟩ := commitEntry_spec
      (c := { c with written := [] }) (mem_singleton.2 rfl : proto ∈ [proto]) hrow hmax hpos
      hentry
    -- the guids that are left are those that the entry did not take
    have hleft : (c₁.store.guids ++ (c₁.minted ++ presets cfg entries)).Nodup ∧
        c₁.minted.length + (presets cfg entries).length =
          batchNeeds cfg (c₁.store.rooms cfg) entries := by
      rw [hgrown.guids, hroom]
      cases hpre : isPreassigned row.maxStackSize proto with
      | true =>
        rw [if_pos hpre] at hnodup hlen
        rw [stacksNeeded_preset hrow hpre (rooms_max_one hpos)] at hcount hlen
        obtain ⟨e, rfl⟩ := length_eq_one_iff.1 hcount
        obtain ⟨hminted, hguid⟩ := htaken.preset hpre
        rw [hminted, map_singleton, hguid e (mem_singleton.2 rfl)]
        refine ⟨?_, ?_⟩
        · refine (List.Perm.nodup_iff ?_).1 hnodup
          rw [append_assoc]
          exact perm_middle.append_left _
        · rw [length_cons] at hlen
          dsimp only
          omega
      | false =>
        rw [if_neg (by simp [hpre])] at hnodup hlen
        have hminted := htaken.minted hpre
        dsimp only at hminted
        refine ⟨?_, ?_⟩
        · rw [hminted] at hnodup
          simpa only [append_assoc] using hnodup
        · rw [hminted, length_append, length_map, hcount] at hlen
          dsimp only at hlen ⊢
          omega
    obtain ⟨c', written, hentries, hempty⟩ := ih hknown' (hgrown.positive hpos) hleft.1 hleft.2
    exact ⟨c', _, by simp only [commitEntries, hentry, hentries]; rfl, hempty⟩

end Bag

end Mmorpg.Bags
