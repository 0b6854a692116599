import Mmorpg.Bags.System

/-!
# The layers of a bag agree

`Bag.Layers`: store and layout hold the same guids, each in its place, and the sequence numbers are
below the next one. Every operation is a series of changes of three kinds, and each kind keeps the
layers: the sizes of instances change (`Resizes`), an instance is destroyed in both layers, or a new
one is inserted and placed. Counts of zero appear while stacks are drained or merged and are gone
when the operation ends (`Positive`), and no stack passes its maximum (`Bounded`).
-/

namespace Mmorpg.Bags

open List Option

namespace ItemStore

/-! ## Changes of size -/

structure Resizes (s s' : ItemStore) : Prop where
  guids : s'.guids = s.guids
  next : s'.nextAcquireSeq = s.nextAcquireSeq
  origin : ∀ item' ∈ s'.items, ∃ item ∈ s.items, item' = { item with size := item'.size }

variable (sizes : List (Guid × Nat))

namespace Resizes

variable {s s' s'' : ItemStore}

theorem refl (s : ItemStore) : s.Resizes s := ⟨rfl, rfl, fun item h => ⟨item, h, rfl⟩⟩

theorem trans (h : s.Resizes s') (h' : s'.Resizes s'') : s.Resizes s'' where
  guids := h'.guids.trans h.guids
  next := h'.next.trans h.next
  origin item'' hmem := by
    obtain ⟨item', hmem', heq'⟩ := h'.origin item'' hmem
    obtain ⟨item, hmem, heq⟩ := h.origin item' hmem'
    refine ⟨item, hmem, ?_⟩
    rw [heq', heq]

theorem setSize (s : ItemStore) (guid : Guid) (n : Nat) : s.Resizes (s.setSize guid n) where
  guids := guids_setSize s guid n
  next := rfl
  origin item' hmem := by
    rcases mem_setSize hmem with ⟨hitem, -⟩ | ⟨item, hitem, -, rfl⟩
    · exact ⟨item', hitem, rfl⟩
    · exact ⟨item, hitem, rfl⟩

theorem setSizes : ∀ s : ItemStore, s.Resizes (s.setSizes sizes) := by
  induction sizes with
  | nil => exact refl
  | cons e sizes ih => exact fun s => (setSize s e.1 e.2).trans (ih _)

end Resizes

def Positive (s : ItemStore) : Prop := ∀ item ∈ s.items, 0 < item.size

def Bounded (cfg : Tables) (s : ItemStore) : Prop :=
  ∀ item ∈ s.items, ∀ row, cfg.item item.configId = some row → item.size ≤ row.maxStackSize

def Sized (limit : Nat → Nat → Prop) (s : ItemStore) : Prop :=
  ∀ item ∈ s.items, limit item.configId item.size

/-- Sizes within the table are allowed, and so are smaller ones. -/
structure Allows (cfg : Tables) (limit : Nat → Nat → Prop) : Prop where
  row : ∀ configId row n, cfg.item configId = some row → n ≤ row.maxStackSize → limit configId n
  down : ∀ configId m n, m ≤ n → limit configId n → limit configId m

def tableLimit (cfg : Tables) (configId n : Nat) : Prop :=
  ∀ row, cfg.item configId = some row → n ≤ row.maxStackSize

theorem allows_tableLimit (cfg : Tables) : Allows cfg (tableLimit cfg) where
  row _ _ _ hrow hle _ hrow' := some.inj (hrow.symm.trans hrow') ▸ hle
  down _ _ _ hle hn row hrow := Nat.le_trans hle (hn row hrow)

theorem allows_true (cfg : Tables) : Allows cfg fun _ _ => True where
  row _ _ _ _ _ := trivial
  down _ _ _ _ _ := trivial

structure Stamped (s : ItemStore) : Prop where
  next_pos : 0 < s.nextAcquireSeq
  pos : ∀ item ∈ s.items, 0 < item.acquireSeq
  lt : ∀ item ∈ s.items, item.acquireSeq < s.nextAcquireSeq

variable {cfg : Tables} {limit : Nat → Nat → Prop} {s s' : ItemStore} {guid : Guid}
  {item : ItemComp}

theorem Stamped.resize (h : s.Stamped) (hr : s.Resizes s') : s'.Stamped where
  next_pos := hr.next ▸ h.next_pos
  pos item' hmem := by
    obtain ⟨item, hmem, heq⟩ := hr.origin item' hmem
    rw [heq]
    exact h.pos item hmem
  lt item' hmem := by
    obtain ⟨item, hmem, heq⟩ := hr.origin item' hmem
    rw [heq, hr.next]
    exact h.lt item hmem

theorem Stamped.erase (h : s.Stamped) (guid : Guid) : (s.erase guid).Stamped where
  next_pos := h.next_pos
  pos item hmem := h.pos item (mem_erase.1 hmem).1
  lt item hmem := h.lt item (mem_erase.1 hmem).1

variable {bound : Nat}

/-- The next number after a stamp, when the counter does not wrap. -/
theorem stampSeq_lt {next : Nat} {proto : ItemComp} (hnext : next ≤ bound)
    (hseq : proto.acquireSeq < bound) (hbound : bound + 1 < seqRange) :
    (stampSeq next proto).1.acquireSeq < (stampSeq next proto).2 ∧
    next ≤ (stampSeq next proto).2 ∧ (stampSeq next proto).2 ≤ bound + 1 := by
  unfold stampSeq
  split
  · rw [Nat.mod_eq_of_lt (by omega)]
    dsimp only
    omega
  · split
    · rw [Nat.mod_eq_of_lt (by omega)]
      dsimp only
      omega
    · dsimp only
      omega

theorem stampSeq_pos {next : Nat} (hnext : 0 < next) (proto : ItemComp) :
    0 < (stampSeq next proto).1.acquireSeq := by
  unfold stampSeq
  split
  · exact hnext
  · split <;> exact Nat.pos_of_ne_zero ‹_›

theorem Stamped.insert (h : s.Stamped) (hins : s.insert item = some s')
    (hnext : s.nextAcquireSeq ≤ bound) (hseq : item.acquireSeq < bound)
    (hbound : bound + 1 < seqRange) : s'.Stamped ∧ s'.nextAcquireSeq ≤ bound + 1 := by
  obtain ⟨-, hitems, hnext'⟩ := insert_eq_some hins
  obtain ⟨hlt, hle, hbound'⟩ := stampSeq_lt hnext hseq hbound
  refine ⟨⟨?_, ?_, ?_⟩, hnext' ▸ hbound'⟩
  · rw [hnext']
    exact Nat.lt_of_lt_of_le h.next_pos hle
  · rw [hitems]
    exact forall_mem_append.2
      ⟨h.pos, forall_mem_singleton.2 (stampSeq_pos h.next_pos item)⟩
  · rw [hitems, hnext']
    exact forall_mem_append.2
      ⟨fun a ha => Nat.lt_of_lt_of_le (h.lt a ha) hle, forall_mem_singleton.2 hlt⟩

theorem Stamped.raise (h : s.Stamped) {seq : Nat} (hnext : s.nextAcquireSeq ≤ bound)
    (hseq : seq < bound) (hbound : bound < seqRange) :
    (s.raiseAcquireSeq seq).Stamped ∧ (s.raiseAcquireSeq seq).nextAcquireSeq ≤ bound := by
  unfold raiseAcquireSeq
  split
  next hge =>
    have hmod : (seq + 1) % seqRange = seq + 1 := Nat.mod_eq_of_lt (by omega)
    refine ⟨⟨?_, h.pos, fun a ha => ?_⟩, ?_⟩
    · dsimp only
      omega
    · have := h.lt a ha
      dsimp only
      omega
    · dsimp only
      omega
  · exact ⟨h, hnext⟩

theorem mem_insert (hins : s.insert item = some s') {a : ItemComp} (ha : a ∈ s'.items) :
    a ∈ s.items ∨ ∃ seq, a = { item with acquireSeq := seq } := by
  obtain ⟨-, hitems, -⟩ := insert_eq_some hins
  rw [hitems] at ha
  rcases mem_append.1 ha with ha | ha
  · exact .inl ha
  · obtain ⟨seq, hseq⟩ := stampSeq_fst s.nextAcquireSeq item
    exact .inr ⟨seq, (mem_singleton.1 ha).trans hseq⟩

theorem Positive.erase (h : s.Positive) (guid : Guid) : (s.erase guid).Positive :=
  fun item hmem => h item (mem_erase.1 hmem).1

theorem Sized.erase (h : s.Sized limit) (guid : Guid) : (s.erase guid).Sized limit :=
  fun item hmem => h item (mem_erase.1 hmem).1

theorem Positive.insert (h : s.Positive) (hins : s.insert item = some s') (hpos : 0 < item.size) :
    s'.Positive := by
  intro a ha
  rcases mem_insert hins ha with ha | ⟨seq, rfl⟩
  · exact h a ha
  · exact hpos

theorem Sized.insert (h : s.Sized limit) (hins : s.insert item = some s')
    (hsize : limit item.configId item.size) : s'.Sized limit := by
  intro a ha
  rcases mem_insert hins ha with ha | ⟨seq, rfl⟩
  · exact h a ha
  · exact hsize

theorem Sized.setSize (h : s.Sized limit) {n : Nat}
    (hsize : ∀ item ∈ s.items, item.itemId = guid → limit item.configId n) :
    (s.setSize guid n).Sized limit := by
  intro a ha
  rcases mem_setSize ha with ⟨ha, -⟩ | ⟨item, hmem, hid, rfl⟩
  · exact h a ha
  · exact hsize item hmem hid

/-! ## Draining -/

/-- A drain only takes units away, and reports where. -/
theorem drainFrom_spec (items : List ItemComp) :
    ∀ (s : ItemStore) (count : Nat), items.Pairwise (·.itemId ≠ ·.itemId) → items ⊆ s.items →
      s.Resizes (s.drainFrom count items).1 ∧
      ∀ item' ∈ (s.drainFrom count items).1.items, ∃ item ∈ s.items,
        item' = { item with size := item'.size } ∧ item'.size ≤ item.size ∧
        (item'.size = item.size ∨ item'.itemId ∈ (s.drainFrom count items).2.map (·.guid)) := by
  induction items with
  | nil =>
    intro s count _ _
    exact ⟨.refl s, fun item' h => ⟨item', h, rfl, Nat.le_refl _, .inl rfl⟩⟩
  | cons item items ih =>
    intro s count hpair hsub
    obtain ⟨hne, hpair⟩ := pairwise_cons.1 hpair
    have hitem : item ∈ s.items := hsub mem_cons_self
    have hrest : items ⊆ s.items := fun a ha => hsub (mem_cons_of_mem _ ha)
    unfold drainFrom
    split
    · exact ⟨.refl s, fun item' h => ⟨item', h, rfl, Nat.le_refl _, .inl rfl⟩⟩
    dsimp only
    split
    · exact ih s count hpair hrest
    -- the instances that follow are others, so they are still as they were
    have hsub' : items ⊆ (s.setSize item.itemId (item.size - min count item.size)).items := by
      intro a ha
      refine mem_map.2 ⟨a, hrest ha, ?_⟩
      rw [resized, if_neg fun h => hne a ha h.symm]
    obtain ⟨hres, hmem⟩ := ih _ (count - min count item.size) hpair hsub'
    refine ⟨(Resizes.setSize s _ _).trans hres, fun item'' h'' => ?_⟩
    obtain ⟨item', h', heq, hle, hor⟩ := hmem item'' h''
    rcases mem_setSize h' with ⟨hs, -⟩ | ⟨a, ha, hid, rfl⟩
    · exact ⟨item', hs, heq, hle, hor.imp_right (mem_cons_of_mem _)⟩
    have haeq : a = item := eq_of_itemId ha hitem hid
    subst haeq
    refine ⟨a, ha, heq, Nat.le_trans hle (Nat.sub_le _ _), .inr ?_⟩
    rw [heq]
    exact mem_cons_self

theorem drainStacks_spec (s : ItemStore) (configId count : Nat) (rank : Guid → Nat) :
    s.Resizes (s.drainStacks configId count rank).1 ∧
    ∀ item' ∈ (s.drainStacks configId count rank).1.items, ∃ item ∈ s.items,
      item' = { item with size := item'.size } ∧ item'.size ≤ item.size ∧
      (item'.size = item.size ∨
        item'.itemId ∈ (s.drainStacks configId count rank).2.map (·.guid)) := by
  refine drainFrom_spec _ s count ?_ ?_
  · have hperm := perm_insertionSort (drainsBefore rank) (s.items.filter fun item =>
      item.configId = configId && item.size > 0 && isCountableByConfig item)
    exact hperm.symm.pairwise (s.pairwise_itemId.sublist filter_sublist) fun h => h.symm
  · intro a ha
    exact (mem_filter.1 (((perm_insertionSort _ _).mem_iff).1 ha)).1

/-! ## Merging -/

theorem mergedSizes_le (maxStack : Nat) (group : List ItemComp) :
    ∀ total, ∀ e ∈ mergedSizes maxStack total group,
      e.2 ≤ maxStack ∧ ∃ item ∈ group, item.itemId = e.1 := by
  induction group with
  | nil => exact fun _ e h => nomatch h
  | cons item group ih =>
    intro total e he
    unfold mergedSizes at he
    split at he
    next hle =>
      rcases mem_cons.1 he with rfl | he
      · exact ⟨hle, item, mem_cons_self, rfl⟩
      · obtain ⟨other, hother, rfl⟩ := mem_map.1 he
        exact ⟨Nat.zero_le _, other, mem_cons_of_mem _ hother, rfl⟩
    · rcases mem_cons.1 he with rfl | he
      · exact ⟨Nat.le_refl _, item, mem_cons_self, rfl⟩
      · obtain ⟨hle, other, hother, hid⟩ := ih _ e he
        exact ⟨hle, other, mem_cons_of_mem _ hother, hid⟩

theorem Sized.setSizes :
    ∀ s : ItemStore, s.Sized limit →
      (∀ e ∈ sizes, ∀ item ∈ s.items, item.itemId = e.1 → limit item.configId e.2) →
      (s.setSizes sizes).Sized limit := by
  induction sizes with
  | nil => exact fun _ h _ => h
  | cons e sizes ih =>
    intro s h hsizes
    refine ih _ (h.setSize (hsizes e mem_cons_self)) fun e' he' item' hmem hid => ?_
    obtain ⟨item, hitem, heq⟩ := (Resizes.setSize s e.1 e.2).origin item' hmem
    rw [heq] at hid ⊢
    exact hsizes e' (mem_cons_of_mem _ he') item hitem hid

theorem mergePartialStacks_spec (hl : Allows cfg limit) (s : ItemStore) (h : s.Sized limit) :
    s.Resizes (s.mergePartialStacks cfg) ∧ (s.mergePartialStacks cfg).Sized limit := by
  refine List.foldlRecOn (motive := fun t => s.Resizes t ∧ t.Sized limit) (mergeConfigs cfg s) _
    ⟨.refl s, h⟩ fun t ⟨hres, hb⟩ configId _ => ?_
  dsimp only
  split
  · exact ⟨hres, hb⟩
  rename_i row hrow
  refine ⟨hres.trans (Resizes.setSizes _ t), Sized.setSizes _ t hb ?_⟩
  intro e he item' hmem hid
  obtain ⟨hle, a, ha, haid⟩ := mergedSizes_le row.maxStackSize _ _ e he
  obtain ⟨hasort, hacond⟩ := mem_filter.1 ha
  have has : a ∈ s.items := (perm_inAcquireOrder s).mem_iff.1 hasort
  obtain ⟨item, hitem, heq⟩ := hres.origin item' hmem
  have hitemid : item.itemId = a.itemId := by
    rw [heq] at hid
    exact hid.trans haid.symm
  rw [eq_of_itemId hitem has hitemid] at heq
  have hconfig : a.configId = configId := of_decide_eq_true (Bool.and_eq_true_iff.1 hacond).2
  rw [heq]
  exact hl.row _ row _ (hconfig ▸ hrow) hle

theorem mem_collectEmptyInstances {s : ItemStore} {item : ItemComp} (hmem : item ∈ s.items)
    (hzero : item.size = 0) : item.itemId ∈ s.collectEmptyInstances :=
  mem_map.2 ⟨item, mem_filter.2
    ⟨(perm_inAcquireOrder s).mem_iff.2 hmem, decide_eq_true hzero⟩, rfl⟩

end ItemStore

/-! ## Both layers -/

namespace Bag

/-- The layers fit together. That acquire sequences are below the next one needs a condition on the
calls, `seqs`. -/
structure Layers (seqs : Prop) (b : Bag) : Prop where
  layout : b.layout.Ok
  guids : b.store.guids.Perm b.layout.guids
  valid : invalidGuid ∉ b.store.guids
  stamped : seqs → b.store.Stamped

namespace Layers

variable {seqs : Prop} {b : Bag} {guid : Guid} {item : ItemComp} {store : ItemStore}
  {layout : Layout} (h : b.Layers seqs)

include h

theorem isLayerConsistent : b.isLayerConsistent = true := by
  have hlen : b.store.items.length = b.layout.guids.length := by
    rw [← h.guids.length_eq, ItemStore.guids, length_map]
  have hocc := h.layout.occupied_eq
  have hle := h.layout.occupied_le
  simp only [Bag.isLayerConsistent, Bool.and_eq_true, decide_eq_true_eq]
  omega

theorem resize (hr : b.store.Resizes store) : Layers seqs { b with store := store } where
  layout := h.layout
  guids := hr.guids ▸ h.guids
  valid := hr.guids ▸ h.valid
  stamped hs := (h.stamped hs).resize hr

theorem destroyItem (guid : Guid) : (b.destroyItem guid).Layers seqs where
  layout := h.layout.remove guid
  guids := by
    change (b.store.erase guid).guids.Perm (b.layout.remove guid).guids
    rw [ItemStore.guids_erase, Layout.guids_remove]
    exact h.guids.erase guid
  valid := by
    change invalidGuid ∉ (b.store.erase guid).guids
    rw [ItemStore.guids_erase]
    exact fun hmem => h.valid (mem_of_mem_erase hmem)
  stamped hs := (h.stamped hs).erase guid

theorem join (hins : b.store.insert item = some store) (hvalid : item.itemId ≠ invalidGuid)
    (hjoins : b.layout.Joins item.itemId layout) (hstamped : seqs → store.Stamped) :
    Layers seqs { b with store := store, layout := layout } where
  layout := hjoins.ok
  guids := by
    change store.guids.Perm layout.guids
    rw [ItemStore.guids_insert hins, hjoins.guids]
    exact (perm_append_singleton _ _).trans (h.guids.cons _)
  valid := by
    change invalidGuid ∉ store.guids
    rw [ItemStore.guids_insert hins, mem_append, mem_singleton]
    rintro (hmem | hmem)
    · exact h.valid hmem
    · exact hvalid hmem.symm
  stamped := hstamped

/-- An instance that found no place leaves the store again. -/
theorem rollback (hins : b.store.insert item = some store) (hid : item.itemId = guid)
    (hstamped : seqs → store.Stamped) :
    Layers seqs { b with store := store.erase guid } := by
  have hguids : (store.erase guid).guids = b.store.guids := by
    rw [← hid, ItemStore.guids_erase, ItemStore.guids_insert hins,
      erase_append_right _ (ItemStore.insert_eq_some hins).1, erase_cons_head,
      append_nil]
  exact ⟨h.layout, hguids ▸ h.guids, hguids ▸ h.valid, fun hs => (hstamped hs).erase _⟩

theorem notMem_layout (hguid : guid ∉ b.store.guids) : guid ∉ b.layout.guids :=
  fun hmem => hguid (h.guids.mem_iff.2 hmem)

end Layers

/-- What every call keeps, whatever sizes a snapshot may bring. -/
structure Kept (seqs : Prop) (limit : Nat → Nat → Prop) (b : Bag) : Prop extends
    Layers seqs b where
  positive : b.store.Positive
  sized : b.store.Sized limit

abbrev Ok (cfg : Tables) (b : Bag) : Prop := b.Kept True (ItemStore.tableLimit cfg)

variable {seqs : Prop} {b : Bag}

namespace Kept

variable {limit : Nat → Nat → Prop} {b : Bag}

theorem destroyItem (h : b.Kept seqs limit) (guid : Guid) :
    (b.destroyItem guid).Kept seqs limit where
  toLayers := h.toLayers.destroyItem guid
  positive := h.positive.erase guid
  sized := h.sized.erase guid

end Kept

/-! ## Removing -/

variable {cfg : Tables} {limit : Nat → Nat → Prop} (drains : List ItemStore.StackDrain)

theorem Layers.destroyDrained :
    ∀ {b : Bag}, b.Layers seqs → (b.destroyDrained drains).Layers seqs := by
  induction drains with
  | nil => exact id
  | cons drain drains ih =>
    intro b h
    unfold Bag.destroyDrained
    split
    · exact ih (h.destroyItem _)
    · exact ih h

/-- What is left was there, and is not an empty stack of the drain. -/
theorem mem_destroyDrained :
    ∀ {b : Bag} {item : ItemComp}, item ∈ (b.destroyDrained drains).store.items →
      item ∈ b.store.items ∧ (item.size = 0 → item.itemId ∉ drains.map (·.guid)) := by
  induction drains with
  | nil => exact fun hmem => ⟨hmem, fun _ h => nomatch h⟩
  | cons drain drains ih =>
    intro b item hmem
    unfold Bag.destroyDrained at hmem
    split at hmem
    · obtain ⟨herase, hrest⟩ := ih hmem
      obtain ⟨hitem, hne⟩ := ItemStore.mem_erase.1 herase
      refine ⟨hitem, fun hzero hin => ?_⟩
      rcases mem_cons.1 hin with hin | hin
      · exact hne hin
      · exact hrest hzero hin
    next hfind =>
      obtain ⟨hitem, hrest⟩ := ih hmem
      refine ⟨hitem, fun hzero hin => ?_⟩
      rcases mem_cons.1 hin with hin | hin
      · refine hfind ?_
        rw [ItemStore.find_eq_some_iff.2 ⟨hitem, hin⟩, any_some]
        exact decide_eq_true hzero
      · exact hrest hzero hin

section

variable (hl : ItemStore.Allows cfg limit)

include hl

theorem Kept.drainOneConfig (h : b.Kept seqs limit) (configId count : Nat) :
    (b.drainOneConfig configId count).1.Kept seqs limit := by
  unfold Bag.drainOneConfig
  split
  · exact h
  obtain ⟨hres, hmem⟩ := ItemStore.drainStacks_spec b.store configId count b.drainRank
  refine ⟨(h.toLayers.resize hres).destroyDrained _, fun item' h' => ?_, fun item' h' => ?_⟩
  · obtain ⟨h', hzero⟩ := mem_destroyDrained _ h'
    obtain ⟨item, hitem, -, -, hor⟩ := hmem item' h'
    refine Nat.pos_of_ne_zero fun h0 => ?_
    rcases hor with hsize | hdrained
    · exact Nat.ne_of_gt (h.positive item hitem) (hsize.symm.trans h0)
    · exact hzero h0 hdrained
  · obtain ⟨h', -⟩ := mem_destroyDrained _ h'
    obtain ⟨item, hitem, heq, hle, -⟩ := hmem item' h'
    rw [heq]
    exact hl.down _ _ _ hle (h.sized item hitem)

theorem Kept.drainAll (counts : List (Nat × Nat)) :
    ∀ {b : Bag}, b.Kept seqs limit → (b.drainAll counts).1.Kept seqs limit := by
  induction counts with
  | nil => exact id
  | cons e counts ih => exact fun h => ih (h.drainOneConfig hl e.1 e.2)

theorem Kept.removeItems (h : b.Kept seqs limit) (itemsToRemove : ItemCountMap) :
    (b.removeItems itemsToRemove).2.Kept seqs limit := by
  unfold Bag.removeItems
  split
  · exact h
  · exact drainAll hl _ h

theorem Kept.removeItemByPos (h : b.Kept seqs limit) (param : RemoveItemByPosParam) :
    (b.removeItemByPos param).2.Kept seqs limit := by
  unfold Bag.removeItemByPos
  split
  · exact h
  split
  · exact h
  split
  · exact h
  split
  · exact h
  rename_i item hfind
  split
  · exact h
  split
  · exact h
  obtain ⟨hitem, hid⟩ := ItemStore.find_eq_some_iff.1 hfind
  have hlayers := h.toLayers.resize
    (.setSize b.store param.itemGuid (item.size - param.size))
  have hsized : (b.store.setSize param.itemGuid (item.size - param.size)).Sized limit := by
    refine h.sized.setSize fun a ha haid => ?_
    rw [ItemStore.eq_of_itemId ha hitem (haid.trans hid.symm)]
    exact hl.down _ _ _ (Nat.sub_le _ _) (h.sized item hitem)
  -- the other instances keep their sizes
  have hrest : ∀ a ∈ (b.store.setSize param.itemGuid (item.size - param.size)).items,
      a.itemId ≠ param.itemGuid → 0 < a.size := by
    intro a ha hne
    rcases ItemStore.mem_setSize ha with ⟨ha, -⟩ | ⟨a, -, haid, rfl⟩
    · exact h.positive a ha
    · exact absurd haid hne
  dsimp only
  split
  · refine ⟨hlayers.destroyItem _, fun a ha => ?_, hsized.erase _⟩
    obtain ⟨ha, hne⟩ := ItemStore.mem_erase.1 ha
    exact hrest a ha hne
  · refine ⟨hlayers, fun a ha => ?_, hsized⟩
    rcases ItemStore.mem_setSize ha with ⟨-, hne⟩ | ⟨a, -, -, rfl⟩
    · exact hrest a ha hne
    · exact Nat.pos_of_ne_zero ‹_›

end

theorem Kept.removeItem (h : b.Kept seqs limit) (guid : Guid) : (b.removeItem guid).2.Kept
    seqs limit := by
  unfold Bag.removeItem
  split
  · exact h
  · exact h.destroyItem guid

theorem Kept.takeInstance (h : b.Kept seqs limit) (guid : Guid) :
    (b.takeInstance cfg guid).2.Kept seqs limit := by
  unfold Bag.takeInstance
  split
  · exact h
  split
  · exact h
  split
  · exact h
  split
  · exact h
  · exact h.destroyItem guid

/-! ## Rearranging -/

section

variable (guids : List Guid)

theorem Layers.destroyAll : ∀ {b : Bag}, b.Layers seqs → (b.destroyAll guids).1.Layers seqs := by
  induction guids with
  | nil => exact id
  | cons guid guids ih => exact fun h => ih (h.destroyItem guid)

theorem mem_destroyAll :
    ∀ {b : Bag} {item : ItemComp}, item ∈ (b.destroyAll guids).1.store.items →
      item ∈ b.store.items ∧ item.itemId ∉ guids := by
  induction guids with
  | nil => exact fun hmem => ⟨hmem, fun h => nomatch h⟩
  | cons guid guids ih =>
    intro b item hmem
    obtain ⟨herase, hrest⟩ := ih hmem
    obtain ⟨hitem, hne⟩ := ItemStore.mem_erase.1 herase
    exact ⟨hitem, fun hin => (mem_cons.1 hin).elim hne hrest⟩

theorem layout_destroyAll_supportsCompaction :
    ∀ b : Bag, (b.destroyAll guids).1.layout.supportsCompaction = b.layout.supportsCompaction := by
  induction guids with
  | nil => exact fun _ => rfl
  | cons guid guids ih =>
    intro b
    refine (ih (b.destroyItem guid)).trans ?_
    cases hl : b.layout <;> simp only [Bag.destroyItem, hl] <;> rfl

end

theorem perm_desiredOrder (b : Bag) : b.desiredOrder.Perm b.store.guids :=
  ((perm_insertionSort _ _).trans b.store.perm_inAcquireOrder).map _

theorem Layers.reorder (h : b.Layers seqs) (hcompact : b.layout.supportsCompaction = true) :
    Layers seqs { b with layout := b.layout.applyOrder b.desiredOrder } := by
  obtain ⟨hok, hperm⟩ := h.layout.applyOrder (b.perm_desiredOrder.trans h.guids) hcompact
  exact ⟨hok, b.perm_desiredOrder.symm.trans hperm.symm, h.valid, h.stamped⟩

theorem Kept.mergeAndCompact (hl : ItemStore.Allows cfg limit) (h : b.Kept seqs limit)
    (policy : CompactPolicy) :
    (b.mergeAndCompact cfg policy).1.Kept seqs limit := by
  obtain ⟨hres, hsized⟩ := ItemStore.mergePartialStacks_spec hl b.store h.sized
  have hlayers := (h.toLayers.resize hres).destroyAll
    (b.store.mergePartialStacks cfg).collectEmptyInstances
  have hok : (destroyAll { b with store := b.store.mergePartialStacks cfg }
      (b.store.mergePartialStacks cfg).collectEmptyInstances).1.Kept seqs limit := by
    refine ⟨hlayers, fun item hmem => ?_, fun item hmem => ?_⟩
    · obtain ⟨hitem, hne⟩ := mem_destroyAll _ hmem
      exact Nat.pos_of_ne_zero fun h0 => hne (ItemStore.mem_collectEmptyInstances hitem h0)
    · exact hsized item (mem_destroyAll _ hmem).1
  unfold Bag.mergeAndCompact
  dsimp only
  split
  · exact h
  split
  next hwill =>
    refine ⟨hok.toLayers.reorder ?_, hok.positive, hok.sized⟩
    rw [layout_destroyAll_supportsCompaction]
    exact (Bool.and_eq_true_iff.1 hwill).2
  · exact hok

/-! ## Placing -/

variable {l : Layout} {guid : Guid}

theorem placeInstance_cases (cfg : Tables) (h : l.Ok)
    (hguid : guid ∉ l.guids) (configId : Nat) :
    (∃ slot l', placeInstance cfg l guid configId = (some slot, l') ∧ l.Joins guid l') ∨
    placeInstance cfg l guid configId = (none, l) := by
  unfold placeInstance footprintFor
  dsimp only
  split
  · rcases l.place_cases h hguid with ⟨slot, hslot, hjoins⟩ | heq
    · exact .inl ⟨slot, _, Prod.ext hslot rfl, hjoins⟩
    · exact .inr heq
  split
  · exact .inr rfl
  split
  · exact .inr rfl
  rename_i slot _
  rcases l.placeAt_cases h hguid slot with ⟨hs, hjoins⟩ | heq
  · refine .inl ⟨slot, _, ?_, hjoins⟩
    rw [← Prod.eta (l.placeAt guid slot singleCell), hs]
  · rw [heq]
    exact .inr rfl

variable {item : ItemComp} {items : List (ItemComp × Nat)}

theorem tries_putPlace (cfg : Tables) (h : b.layout.Ok)
    (hguid : item.itemId ∉ b.layout.guids) (slot : Option Nat) :
    b.layout.Tries item.itemId (b.putPlace cfg item slot) := by
  cases slot with
  | some slot => exact b.layout.tries_placeAt h hguid slot
  | none =>
    rcases placeInstance_cases cfg h hguid item.configId with ⟨slot, l', heq, hjoins⟩ | heq
    · exact .inl ⟨l', by simp only [putPlace, heq, isSome_some], hjoins⟩
    · exact .inr (by simp only [putPlace, heq, isSome_none])

theorem Kept.putInstance (hl : ItemStore.Allows cfg limit) (h : b.Kept seqs limit)
    (item : ItemComp) (slot : Option Nat)
    (hnext : seqs → b.store.nextAcquireSeq + 1 < seqRange) :
    (b.putInstance cfg item slot).2.Kept seqs limit := by
  unfold Bag.putInstance
  split
  · exact h
  rename_i hinvalid
  split
  · exact h
  rename_i hsize
  have hvalid : item.itemId ≠ invalidGuid := fun heq => hinvalid (by simp [isInvalidGuid, heq])
  have hone : item.size = 1 := by
    simp only [Bool.or_eq_true, decide_eq_true_eq, not_or, not_not] at hsize
    exact hsize.2
  split
  · exact h
  rename_i row hrow
  split
  · exact h
  split
  · exact h
  rename_i hmax
  split
  · exact h
  split
  · exact h
  split
  · exact h
  split
  · exact h
  rename_i store hins
  have hfresh : item.itemId ∉ b.layout.guids :=
    h.notMem_layout (ItemStore.insert_eq_some hins).1
  have hstamped : seqs → store.Stamped := fun hs =>
    ((h.stamped hs).insert hins (Nat.le_refl _) (h.stamped hs).next_pos (hnext hs)).1
  have hpositive := h.positive.insert hins (show 0 < item.size by omega)
  have hsized := h.sized.insert hins (hl.row item.configId row item.size hrow (by omega))
  rcases tries_putPlace cfg h.layout hfresh slot with ⟨l', heq, hjoins⟩ | heq
  · rw [heq]
    exact ⟨h.toLayers.join hins hvalid hjoins hstamped, hpositive, hsized⟩
  · rw [heq]
    exact ⟨h.toLayers.rollback hins rfl hstamped, hpositive.erase _, hsized.erase _⟩

/-! ## Restoring -/

theorem tries_restoreByKind (cfg : Tables) (h : l.Ok)
    (hguid : guid ∉ l.guids) (configId pos : Nat) :
    l.Tries guid (restoreByKind cfg l guid configId pos) := by
  unfold restoreByKind
  split
  · split
    · exact .inr rfl
    · exact l.tries_placeAt h hguid _
  · exact .inr rfl

theorem tries_restoreAtPos (h : l.Ok) (hguid : guid ∉ l.guids)
    (configId pos : Nat) : l.Tries guid (restoreAtPos l guid configId pos) := by
  unfold restoreAtPos
  split
  · exact l.tries_placeAt h hguid _
  · exact .inr rfl

theorem tries_restorePlace (cfg : Tables) (h : l.Ok)
    (hguid : guid ∉ l.guids) (configId pos : Nat) :
    l.Tries guid (restorePlace cfg l guid configId pos) := by
  unfold restorePlace
  rcases tries_restoreByKind cfg h hguid configId pos with ⟨l', heq, hjoins⟩ | heq
  · rw [heq]
    exact .inl ⟨l', rfl, hjoins⟩
  rw [heq]
  rcases tries_restoreAtPos h hguid configId pos with ⟨l', heq', hjoins⟩ | heq'
  · simp only [heq']
    exact .inl ⟨l', rfl, hjoins⟩
  · simp only [heq']
    exact l.tries_place h hguid

variable {bound : Nat}

theorem Kept.insertItemForRestore (h : b.Kept seqs limit)
    (hsize : 0 < item.size → limit item.configId item.size)
    (hseq : seqs → 0 < item.size → item.acquireSeq < bound)
    (hnext : seqs → b.store.nextAcquireSeq ≤ bound)
    (hbound : seqs → bound + 1 < seqRange) (pos : Nat) :
    (b.insertItemForRestore cfg item pos).Kept seqs limit ∧
    (seqs → (b.insertItemForRestore cfg item pos).store.nextAcquireSeq ≤ bound + 1) := by
  have hskip : b.Kept seqs limit ∧ (seqs → b.store.nextAcquireSeq ≤ bound + 1) :=
    ⟨h, fun hs => Nat.le_succ_of_le (hnext hs)⟩
  unfold Bag.insertItemForRestore
  split
  · exact hskip
  rename_i hzero
  split
  · exact hskip
  rename_i hvalid
  split
  · exact hskip
  split
  · exact hskip
  rename_i store hins
  have hpos : 0 < item.size := Nat.pos_of_ne_zero hzero
  have hfresh : item.itemId ∉ b.layout.guids :=
    h.notMem_layout (ItemStore.insert_eq_some hins).1
  have hinsert := fun hs => (h.stamped hs).insert hins (hnext hs) (hseq hs hpos) (hbound hs)
  have hpositive := h.positive.insert hins hpos
  have hsized := h.sized.insert hins (hsize hpos)
  rcases tries_restorePlace cfg h.layout hfresh item.configId pos with ⟨l', heq, hjoins⟩ | heq
  · rw [heq]
    exact ⟨⟨h.toLayers.join hins hvalid hjoins fun hs => (hinsert hs).1, hpositive, hsized⟩,
      fun hs => (hinsert hs).2⟩
  · rw [heq]
    exact ⟨⟨h.toLayers.rollback hins rfl fun hs => (hinsert hs).1, hpositive.erase _,
      hsized.erase _⟩, fun hs => (hinsert hs).2⟩

theorem Kept.insertItemsForRestore (items : List (ItemComp × Nat)) :
    ∀ {b : Bag} {bound : Nat}, b.Kept seqs limit →
      (∀ e ∈ items, 0 < e.1.size → limit e.1.configId e.1.size) →
      (seqs → ∀ e ∈ items, 0 < e.1.size → e.1.acquireSeq < bound) →
      (seqs → b.store.nextAcquireSeq ≤ bound) → (seqs → bound + items.length < seqRange) →
      (items.foldl (fun b e => b.insertItemForRestore cfg e.1 e.2) b).Kept seqs limit := by
  induction items with
  | nil => exact fun h _ _ _ _ => h
  | cons e items ih =>
    intro b bound h hsizes hseqs hnext hbound
    rw [length_cons] at hbound
    obtain ⟨h', hnext'⟩ := h.insertItemForRestore (hsizes e mem_cons_self)
      (fun hs => hseqs hs e mem_cons_self) hnext (fun hs => by have := hbound hs; omega) e.2
    exact ih h' (fun e' he' => hsizes e' (mem_cons_of_mem _ he'))
      (fun hs e' he' hpos => Nat.lt_succ_of_lt (hseqs hs e' (mem_cons_of_mem _ he') hpos)) hnext'
      fun hs => by have := hbound hs; omega

theorem items_raiseSeqs (s : ItemStore) (items : List (ItemComp × Nat)) :
    (raiseSeqs s items).items = s.items := by
  refine List.foldlRecOn (motive := fun t : ItemStore => t.items = s.items) items _ rfl
    fun t heq e _ => ?_
  split
  · unfold ItemStore.raiseAcquireSeq
    split <;> exact heq
  · exact heq

theorem raiseSeqs_spec
    (hitems : ∀ e ∈ items, 0 < e.1.size → e.1.acquireSeq < bound) (hbound : bound < seqRange)
    {s : ItemStore} (h : s.Stamped) (hnext : s.nextAcquireSeq ≤ bound) :
    (raiseSeqs s items).Stamped ∧ (raiseSeqs s items).nextAcquireSeq ≤ bound := by
  refine List.foldlRecOn (motive := fun t : ItemStore => t.Stamped ∧ t.nextAcquireSeq ≤ bound)
    items _ ⟨h, hnext⟩ fun t ⟨ht, hle⟩ e he => ?_
  split
  next hpos =>
    exact ht.raise hle (hitems e he hpos) hbound
  · exact ⟨ht, hle⟩

theorem Kept.restoreItems (h : b.Kept seqs limit)
    (hsizes : ∀ e ∈ items, 0 < e.1.size → limit e.1.configId e.1.size)
    (hseqs : seqs → ∀ e ∈ items, 0 < e.1.size → e.1.acquireSeq < bound)
    (hnext : seqs → b.store.nextAcquireSeq ≤ bound)
    (hbound : seqs → bound + items.length < seqRange) :
    (b.restoreItems cfg items).Kept seqs limit := by
  have hraised := fun hs => raiseSeqs_spec (hseqs hs) (by have := hbound hs; omega) (h.stamped hs)
    (hnext hs)
  have heq := items_raiseSeqs b.store items
  have hguids : (raiseSeqs b.store items).guids = b.store.guids := by
    rw [ItemStore.guids, heq, ItemStore.guids]
  refine insertItemsForRestore items ⟨⟨h.layout, hguids ▸ h.guids, hguids ▸ h.valid,
    fun hs => (hraised hs).1⟩, ?_, ?_⟩ hsizes hseqs (fun hs => (hraised hs).2) hbound
  · exact fun item hmem => h.positive item (heq ▸ hmem)
  · exact fun item hmem => h.sized item (heq ▸ hmem)

theorem Kept.expandCapacity (h : b.Kept seqs limit) {sz : Nat}
    (hsz : b.layout.Sizes (b.layout.capacity + sz)) : (b.expandCapacity sz).Kept seqs limit where
  __ := h
  layout := h.layout.grow (Nat.le_add_right _ _) hsz
  guids := by
    change b.store.guids.Perm (b.layout.resize (b.layout.capacity + sz)).guids
    rw [Layout.guids_resize]
    exact h.guids

end Bag

/-! ## Empty bags -/

inductive Layout.Fresh : Layout → Prop
  | flat (named : Bool) (capacity : Nat) : Fresh (.flat named (.new capacity))
  | grid (width height : Nat) : Fresh (.grid (.new width height))

theorem Layout.Fresh.ok {l : Layout} (h : l.Fresh) : l.Ok ∧ l.guids = [] := by
  cases h with
  | flat named capacity => exact ⟨⟨.empty, fun _ hslot => nomatch hslot⟩, rfl⟩
  | grid width height => exact ⟨GridLayout.Ok.new width height, rfl⟩

theorem Bag.Kept.fresh {seqs : Prop} {limit : Nat → Nat → Prop} {b : Bag}
    (hstore : b.store = .empty) (hlayout : b.layout.Fresh) : b.Kept seqs limit := by
  obtain ⟨hok, hguids⟩ := hlayout.ok
  refine ⟨⟨hok, ?_, ?_, ?_⟩, ?_, ?_⟩
  · rw [hstore, hguids]
    exact .nil
  · rw [hstore]
    exact not_mem_nil
  · intro _
    rw [hstore]
    exact ⟨Nat.one_pos, fun _ hitem => absurd hitem not_mem_nil,
      fun _ hitem => absurd hitem not_mem_nil⟩
  · rw [hstore]
    exact fun _ hitem => nomatch hitem
  · rw [hstore]
    exact fun _ hitem => nomatch hitem

end Mmorpg.Bags
