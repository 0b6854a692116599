import Mathlib.Algebra.Order.BigOperators.Group.List
import Mmorpg.Bags.Commit
import Mmorpg.Lib.Blocks

/-!
# Adding a batch

`addItems` checks the entries, plans the new instances config by config, mints their guids, and
commits the entries one by one to copies of both layers. The plan and the commit count alike: a
config by its whole demand (`planNeed`), or its entries in turn (`batchNeeds`), are the same number
of new stacks (`batchNeeds_eq_packedNeed`).
-/

namespace Mmorpg.Bags

namespace Bag

open ItemStore Function Option
open Blocks (bind_eq_ok)

variable {cfg : Tables} {seqs : Prop} {limit : Nat → Nat → Prop} {b : Bag}
  {initializer : Option (ItemComp → ItemComp)}

/-! ## Steps of a batch -/

theorem known_of_addDemands (items : List ItemComp) :
    ∀ {demand demand' : Demand}, b.addDemands cfg demand items = .ok demand' → Known cfg items := by
  induction items with
  | nil => exact fun _ _ hproto => nomatch hproto
  | cons item items ih =>
    intro demand demand' h
    unfold addDemands at h
    split at h
    · exact nomatch h
    rename_i demand₁ hdemand
    have hitem : ∃ row, cfg.item item.configId = some row ∧ 0 < row.maxStackSize := by
      unfold addDemand at hdemand
      split at hdemand
      · exact nomatch hdemand
      split at hdemand
      · exact nomatch hdemand
      rename_i row hrow
      split at hdemand
      · exact nomatch hdemand
      · exact ⟨row, hrow, Nat.pos_of_ne_zero ‹_›⟩
    intro proto hproto
    rcases List.mem_cons.1 hproto with rfl | hproto
    · exact hitem
    · exact ih h proto hproto

variable {store : ItemStore} {mint : Nat → Guid}

theorem ne_invalidGuid_of_mintGuids (count : Nat) :
    ∀ {next : Nat} {reserved minted : List Guid},
      mintGuids store mint count next reserved = .ok minted → invalidGuid ∉ minted := by
  induction count with
  | zero =>
    intro next reserved minted h
    cases h
    exact List.not_mem_nil
  | succ count ih =>
    intro next reserved minted h
    unfold mintGuids at h
    dsimp only at h
    split at h
    · exact nomatch h
    rename_i hvalid
    split at h
    · exact nomatch h
    rename_i rest hrest
    cases h
    intro hmem
    rcases List.mem_cons.1 hmem with heq | hmem
    · simp [← heq] at hvalid
    · exact ih hrest hmem

def evictedUnits (configId : Nat) (evicted : List DestroyedInstance) : Nat :=
  (evicted.map fun e => if e.configId = configId then e.size else 0).sum

/-- The victims leave both layers, and their units are reported. -/
theorem evictFrom_spec (victims : List Guid) :
    ∀ {b : Bag} {candidate : ItemStore} {evicted : List DestroyedInstance}, b.Kept seqs limit →
      evictFrom b.store victims = .ok (candidate, evicted) →
      Kept seqs limit { b with
        store := candidate
        layout := victims.foldl (fun l guid => l.remove guid) b.layout } ∧
      candidate.nextAcquireSeq = b.store.nextAcquireSeq ∧
      ∀ configId, candidate.weigh (unitsOf configId) + evictedUnits configId evicted =
        b.store.weigh (unitsOf configId) := by
  induction victims with
  | nil =>
    intro b candidate evicted h heq
    cases heq
    exact ⟨h, rfl, fun _ => rfl⟩
  | cons guid victims ih =>
    intro b candidate evicted h heq
    unfold evictFrom at heq
    split at heq
    · exact nomatch heq
    rename_i item hfind
    split at heq
    · exact nomatch heq
    rename_i candidate' evicted' hrest
    cases heq
    obtain ⟨hok, hnext, hunits⟩ := ih (b := b.destroyItem guid) (h.destroyItem guid) hrest
    refine ⟨hok, hnext, fun configId => ?_⟩
    have herase := weigh_erase (w := unitsOf configId) hfind
    have hunits := hunits configId
    change candidate.weigh (unitsOf configId) + evictedUnits configId evicted' =
      (b.store.erase guid).weigh (unitsOf configId) at hunits
    rw [evictedUnits, List.map_cons, List.sum_cons]
    change _ + (unitsOf configId item + evictedUnits configId evicted') = _
    omega

theorem placeAll_spec (items : List (Guid × Nat)) :
    ∀ {l l' : Layout}, l.Ok → (items.map (·.1) ++ l.guids).Nodup →
      placeAll cfg l items = .ok l' → l'.Ok ∧ l'.guids.Perm (items.map (·.1) ++ l.guids) := by
  induction items with
  | nil =>
    intro l l' h _ heq
    cases heq
    exact ⟨h, .refl _⟩
  | cons e items ih =>
    intro l l' h hnodup heq
    obtain ⟨hfresh, hnodup⟩ := List.nodup_cons.1 hnodup
    have hguid : e.1 ∉ l.guids := fun hmem => hfresh (List.mem_append_right _ hmem)
    unfold placeAll at heq
    rcases placeInstance_cases cfg h hguid e.2 with ⟨slot, l₁, hplace, hjoins⟩ | hplace
    · rw [hplace] at heq
      dsimp only at heq
      have hperm : (items.map (·.1) ++ l₁.guids).Perm (e.1 :: (items.map (·.1) ++ l.guids)) := by
        rw [hjoins.guids]
        exact List.perm_middle
      obtain ⟨hok, hguids⟩ := ih hjoins.ok
        (hperm.nodup_iff.2 (List.nodup_cons.2 ⟨hfresh, hnodup⟩)) heq
      exact ⟨hok, hguids.trans hperm⟩
    · rw [hplace] at heq
      exact nomatch heq

/-! ## Both layers after a batch -/

structure Candidate (cfg : Tables) (seqs : Prop) (limit : Nat → Nat → Prop) (b : Bag)
    (itemsToAdd : List ItemComp) (store : ItemStore) (layout : Layout)
    (evicted : List DestroyedInstance) (minted : List Guid) (new : List (Guid × Nat))
    (candidate : ItemStore) (c : Commit) : Prop where
  known : Known cfg itemsToAdd
  positive : candidate.Positive
  sized : candidate.Sized limit
  stamped : seqs → candidate.Stamped
  next : candidate.nextAcquireSeq = b.store.nextAcquireSeq
  units : ∀ configId, candidate.weigh (unitsOf configId) + evictedUnits configId evicted =
    b.store.weigh (unitsOf configId)
  batch : Batch cfg itemsToAdd itemsToAdd ⟨candidate, minted, [], []⟩ c new
  committed : c.store = store
  valid : invalidGuid ∉ store.guids
  placed : layout.Ok
  guids : store.guids.Perm layout.guids

theorem addItemsCandidate_spec {itemsToAdd : List ItemComp} {evictedOut : Bool} {layout : Layout}
    {receipt : AddReceipt} (h : b.Kept seqs limit)
    (hadd : b.addItemsCandidate cfg itemsToAdd mint evictedOut initializer =
      .ok (store, layout, receipt)) :
    ∃ minted new candidate c, Candidate cfg seqs limit b itemsToAdd store layout receipt.evicted
      minted new candidate c := by
  unfold addItemsCandidate at hadd
  obtain ⟨demand, hdemands, hadd⟩ := bind_eq_ok hadd
  split at hadd
  · exact nomatch hadd
  rename_i victims count hplan
  split at hadd
  · exact nomatch hadd
  obtain ⟨minted, hmint, hadd⟩ := bind_eq_ok hadd
  obtain ⟨⟨candidate, evicted⟩, hevict, hadd⟩ := bind_eq_ok hadd
  obtain ⟨⟨c, written⟩, hcommit, hadd⟩ := bind_eq_ok hadd
  dsimp only at hadd
  split at hadd
  · exact nomatch hadd
  obtain ⟨l, hplace, hadd⟩ := bind_eq_ok hadd
  cases hadd
  have hknown := known_of_addDemands _ hdemands
  obtain ⟨hok, hnext, hunits⟩ := evictFrom_spec victims h hevict
  obtain ⟨new, hbatch⟩ := commitEntries_spec itemsToAdd hknown (List.Subset.refl _) hok.positive
    hcommit
  have hnew : c.newItems = new := by
    rw [hbatch.grown.newItems]
    exact List.nil_append _
  have hguids := hbatch.grown.guids
  dsimp only at hguids
  -- the new guids are not in the layout, which holds what the store held
  have hperm : (candidate.guids ++ new.map (·.1)).Perm
      (new.map (·.1) ++ (victims.foldl (fun l guid => l.remove guid) b.layout).guids) :=
    (List.perm_append_comm).trans (hok.guids.append_left _)
  have hnodup : (candidate.guids ++ new.map (·.1)).Nodup := hguids ▸ c.store.nodup
  rw [hnew] at hplace
  obtain ⟨hlayout, hlguids⟩ := placeAll_spec new hok.layout (hperm.nodup_iff.1 hnodup) hplace
  refine ⟨minted, new, candidate, c, hknown, hok.positive, hok.sized, hok.stamped, hnext, hunits,
    hbatch, rfl, ?_, hlayout, ?_⟩
  · rw [hguids]
    intro hmem
    rcases List.mem_append.1 hmem with hmem | hmem
    · exact hok.valid hmem
    obtain ⟨e, he, hinvalid⟩ := List.mem_map.1 hmem
    rcases hbatch.origin e he with hminted | ⟨proto, -, hpre, hid⟩
    · exact ne_invalidGuid_of_mintGuids _ hmint (hinvalid ▸ hminted)
    · rw [hid] at hinvalid
      simp [isPreassigned, isInvalidGuid, hinvalid] at hpre
  · rw [hguids]
    exact hperm.trans hlguids.symm

/-! ## The need of a batch -/

def stackRequests (items : List ItemComp) : List (Nat × Nat) :=
  (items.filter fun item => !isIndependentInstance item).map fun item => (item.configId, item.size)

def separateRequests (cfg : Tables) (items : List ItemComp) : List (Nat × Nat) :=
  (items.filter isIndependentInstance).map fun item =>
    (item.configId, Packing.stacksNeeded item.size (maxOf cfg item.configId))

/-- The cells that a batch needs: for each config the stacks that its units open when the room is
used up, and the instances that are never stacked. -/
def packedNeed (cfg : Tables) (s : ItemStore) (items : List ItemComp) : Nat :=
  (∑ configId ∈ ((stackRequests items).map (·.1)).toFinset,
    Packing.stacksNeeded (Packing.demand (stackRequests items) configId - s.rooms cfg configId)
      (maxOf cfg configId)) +
  ((separateRequests cfg items).map (·.2)).sum

variable {proto item : ItemComp} {counts : ItemCountMap} {requests : List (Nat × Nat)}
  {s : ItemStore} {exclude reserved : List Guid} {configId : Nat}

theorem roomAfter_of_independent (hindep : isIndependentInstance proto = true)
    (room : Nat → Nat) : roomAfter cfg room proto = room := by
  funext configId
  rw [roomAfter, if_neg]
  simp [hindep]

theorem roomAfter_of_stackable (hindep : isIndependentInstance proto = false) (room : Nat → Nat) :
    roomAfter cfg room proto = update room proto.configId
      (Packing.pack (maxOf cfg proto.configId) (room proto.configId) proto.size).2 := by
  funext configId
  by_cases hconfig : proto.configId = configId
  · subst hconfig
    rw [roomAfter, if_pos ⟨rfl, hindep⟩, update_self]
  · rw [roomAfter, if_neg fun h => hconfig h.1, update_of_ne (Ne.symm hconfig)]

theorem batchNeeds_eq (items : List ItemComp) : ∀ room : Nat → Nat,
    batchNeeds cfg room items = Packing.needs (maxOf cfg) room (stackRequests items) +
      ((separateRequests cfg items).map (·.2)).sum := by
  induction items with
  | nil => exact fun _ => rfl
  | cons item items ih =>
    intro room
    rw [batchNeeds, ih]
    unfold entryRoom stackRequests separateRequests
    cases hindep : isIndependentInstance item with
    | true =>
      rw [roomAfter_of_independent hindep, List.filter_cons_of_neg (by simp [hindep]),
        List.filter_cons_of_pos hindep, List.map_cons, List.map_cons, List.sum_cons, if_pos rfl]
      dsimp only
      rw [Nat.sub_zero]
      omega
    | false =>
      rw [roomAfter_of_stackable hindep, List.filter_cons_of_pos (by simp [hindep]),
        List.filter_cons_of_neg (by simp [hindep]), List.map_cons, Packing.needs]
      simp only [Packing.pack, Bool.false_eq_true, if_false]
      omega

variable {items : List ItemComp}

/-- **The entries in turn open as many instances as the batch needs config by config.** -/
theorem batchNeeds_eq_packedNeed (hknown : Known cfg items)
    (s : ItemStore) : batchNeeds cfg (s.rooms cfg) items = packedNeed cfg s items := by
  rw [batchNeeds_eq, packedNeed]
  congr 1
  refine Packing.needs_eq_sum (maxOf cfg)
    (fun r hr => List.mem_toFinset.2 (List.mem_map_of_mem hr)) (fun r hr => ?_) _
  obtain ⟨item, hitem, rfl⟩ := List.mem_map.1 hr
  obtain ⟨row, hrow, hmax⟩ := hknown item (List.mem_filter.1 hitem).1
  exact maxOf_eq hrow ▸ hmax

/-! ## The plan -/

structure Tally (counts : ItemCountMap) (requests : List (Nat × Nat)) : Prop where
  count : ∀ configId, countOf counts configId = Packing.demand requests configId
  mem : ∀ configId, configId ∈ counts ↔ configId ∈ requests.map (·.1)

theorem Tally.empty : Tally ∅ [] where
  count _ := rfl
  mem _ := ⟨fun h => absurd h (AList.notMem_empty _), fun h => nomatch h⟩

theorem countOf_insert (counts : ItemCountMap) (configId count other : Nat) :
    countOf (counts.insert configId count) other =
      if other = configId then count else countOf counts other := by
  unfold countOf
  split
  next heq =>
    rw [heq, AList.lookup_insert, getD_some]
  next hne =>
    rw [AList.lookup_insert_ne hne]

theorem Tally.insert (h : Tally counts requests) (configId added : Nat) :
    Tally (counts.insert configId (countOf counts configId + added))
      (requests ++ [(configId, added)]) where
  count other := by
    rw [countOf_insert, Packing.demand_append, h.count, h.count]
    simp only [Packing.demand, Nat.add_zero]
    by_cases heq : other = configId
    · rw [if_pos heq, if_pos heq.symm, heq]
    · rw [if_neg heq, if_neg (Ne.symm heq), Nat.add_zero]
  mem other := by
    rw [AList.mem_insert, h.mem, List.map_append, List.mem_append, List.map_singleton,
      List.mem_singleton, or_comm]

/-- Sums over the counts are sums over the configs. -/
theorem Tally.sum (h : Tally counts requests) (f : Nat → Nat → Nat) :
    (counts.entries.map fun e => f e.1 e.2).sum =
      ∑ configId ∈ (requests.map (·.1)).toFinset,
        f configId (Packing.demand requests configId) := by
  have hkeys : (requests.map (·.1)).toFinset = counts.keys.toFinset := by
    ext configId
    rw [List.mem_toFinset, List.mem_toFinset, ← h.mem]
    rfl
  rw [hkeys, List.sum_toFinset _ counts.keys_nodup, AList.keys, List.keys, List.map_map]
  refine congrArg _ (List.map_congr_left fun e he => ?_)
  have hlookup : counts.lookup e.1 = some e.2 := by
    rw [← mem_def, AList.mem_lookup_iff]
    exact he
  rw [Function.comp_apply, ← h.count, countOf, hlookup, getD_some]

structure ValidBatch (cfg : Tables) (b : Bag) (items : List ItemComp) : Prop where
  config : ∀ item ∈ items, item.configId ≠ 0
  size : ∀ item ∈ items, item.size ≠ 0
  known : Known cfg items
  admitted : ∀ item ∈ items, b.admission item.configId = true
  units_lt : ∀ configId, Packing.demand (stackRequests items) configId < countRange
  instances_lt : ∀ configId, Packing.demand (separateRequests cfg items) configId < countRange
  presets_nodup : (presets cfg items).Nodup
  presets_fresh : ∀ guid ∈ presets cfg items, guid ∉ b.store.guids

/-- What the checks have collected from some entries. -/
structure Tallied (cfg : Tables) (demand : Demand) (items : List ItemComp) : Prop where
  stackUnits : Tally demand.stackUnits (stackRequests items)
  separateInstances : Tally demand.separateInstances (separateRequests cfg items)
  preassigned : demand.preassigned = presets cfg items

section

variable (items items' : List ItemComp)

theorem presets_append :
    presets cfg (items ++ items') = presets cfg items ++ presets cfg items' := by
  rw [presets, List.filter_append, List.map_append]
  rfl

theorem stackRequests_append :
    stackRequests (items ++ items') = stackRequests items ++ stackRequests items' := by
  rw [stackRequests, List.filter_append, List.map_append]
  rfl

theorem separateRequests_append :
    separateRequests cfg (items ++ items') =
      separateRequests cfg items ++ separateRequests cfg items' := by
  rw [separateRequests, List.filter_append, List.map_append]
  rfl

end

theorem ValidBatch.left {items' : List ItemComp} (h : ValidBatch cfg b (items ++ items')) :
    ValidBatch cfg b items where
  config item hitem := h.config item (List.mem_append_left _ hitem)
  size item hitem := h.size item (List.mem_append_left _ hitem)
  known item hitem := h.known item (List.mem_append_left _ hitem)
  admitted item hitem := h.admitted item (List.mem_append_left _ hitem)
  units_lt configId := by
    have := h.units_lt configId
    rw [stackRequests_append, Packing.demand_append] at this
    omega
  instances_lt configId := by
    have := h.instances_lt configId
    rw [separateRequests_append, Packing.demand_append] at this
    omega
  presets_nodup := by
    have := h.presets_nodup
    rw [presets_append] at this
    exact (List.nodup_append'.1 this).1
  presets_fresh guid hguid := by
    refine h.presets_fresh guid ?_
    rw [presets_append]
    exact List.mem_append_left _ hguid

variable {demand : Demand}

theorem addPreassigned_ok {row : ItemRow} (hrow : cfg.item item.configId = some row)
    (hvalid : ValidBatch cfg b (items ++ [item])) (hdone : demand.preassigned = presets cfg items) :
    b.addPreassigned row.maxStackSize demand item =
      .ok { demand with preassigned := presets cfg (items ++ [item]) } := by
  have hnodup := hvalid.presets_nodup
  have hstore := hvalid.presets_fresh item.itemId
  rw [presets_append, presets_cons hrow] at hnodup hstore ⊢
  unfold addPreassigned
  split
  next hpre =>
    rw [if_pos hpre] at hnodup hstore
    have hmem : item.itemId ∈ [item.itemId] := List.mem_singleton.2 rfl
    have hfresh := hstore (List.mem_append_right _ hmem)
    have hnew : item.itemId ∉ demand.preassigned := fun hin =>
      (List.nodup_append'.1 hnodup).2.2 (hdone ▸ hin) hmem
    rw [if_neg (by simp [contains, hfresh, hnew]), hdone]
    rfl
  · refine congrArg Except.ok ?_
    rw [← hdone]
    exact (congrArg (fun p => { demand with preassigned := p }) (List.append_nil _)).symm

/-- A valid entry after others passes the checks. -/
theorem Tallied.addDemand
    (h : Tallied cfg demand items) (hvalid : ValidBatch cfg b (items ++ [item])) :
    ∃ demand', b.addDemand cfg demand item = .ok demand' ∧
      Tallied cfg demand' (items ++ [item]) := by
  have hmem : item ∈ items ++ [item] := List.mem_append_right _ (List.mem_singleton.2 rfl)
  obtain ⟨row, hrow, hmax⟩ := hvalid.known item hmem
  have hunits := hvalid.units_lt item.configId
  have hinstances := hvalid.instances_lt item.configId
  rw [stackRequests_append, Packing.demand_append, ← h.stackUnits.count] at hunits
  rw [separateRequests_append, Packing.demand_append, ← h.separateInstances.count] at hinstances
  unfold Bag.addDemand
  simp only [hvalid.config item hmem, hvalid.size item hmem, hrow, Nat.ne_of_gt hmax,
    hvalid.admitted item hmem, decide_false, Bool.or_self, Bool.false_eq_true, if_false,
    Bool.not_true, stacksNeededFor]
  cases hindep : isIndependentInstance item with
  | true =>
    have hreq : stackRequests [item] = [] := by simp [stackRequests, hindep]
    have hsep : separateRequests cfg [item] =
        [(item.configId, Packing.stacksNeeded item.size row.maxStackSize)] := by
      simp [separateRequests, hindep, maxOf_eq hrow]
    have hlt : ¬ countOf demand.separateInstances item.configId +
        Packing.stacksNeeded item.size row.maxStackSize ≥ countRange := by
      simp only [hsep, Packing.demand, if_true, Nat.add_zero] at hinstances
      omega
    simp only [if_true, hlt, if_false]
    refine ⟨_, addPreassigned_ok hrow hvalid h.preassigned, ?_, ?_, rfl⟩
    · rw [stackRequests_append, hreq, List.append_nil]
      exact h.stackUnits
    · rw [separateRequests_append, hsep]
      exact h.separateInstances.insert _ _
  | false =>
    have hreq : stackRequests [item] = [(item.configId, item.size)] := by
      simp [stackRequests, hindep]
    have hsep : separateRequests cfg [item] = [] := by simp [separateRequests, hindep]
    have hlt : ¬ countOf demand.stackUnits item.configId + item.size ≥ countRange := by
      simp only [hreq, Packing.demand, if_true, Nat.add_zero] at hunits
      omega
    simp only [Bool.false_eq_true, if_false, hlt]
    refine ⟨_, addPreassigned_ok hrow hvalid h.preassigned, ?_, ?_, rfl⟩
    · rw [stackRequests_append, hreq]
      exact h.stackUnits.insert _ _
    · rw [separateRequests_append, hsep, List.append_nil]
      exact h.separateInstances

theorem Tallied.addDemands (items : List ItemComp) :
    ∀ {demand : Demand} {done : List ItemComp}, Tallied cfg demand done →
      ValidBatch cfg b (done ++ items) →
      ∃ demand', b.addDemands cfg demand items = .ok demand' ∧
        Tallied cfg demand' (done ++ items) := by
  induction items with
  | nil => exact fun {demand done} h _ => ⟨demand, rfl, (List.append_nil done).symm ▸ h⟩
  | cons item items ih =>
    intro demand done h hvalid
    rw [List.append_cons] at hvalid ⊢
    obtain ⟨demand₁, hdemand, h₁⟩ := h.addDemand hvalid.left
    obtain ⟨demand', hdemands, h'⟩ := ih h₁ hvalid
    exact ⟨demand', by simp only [Bag.addDemands, hdemand, hdemands], h'⟩

theorem foldl_add_mod {α : Type} (f : α → Nat) (items : List α) : ∀ room,
    items.foldl (fun room item => (room + f item) % countRange) room % countRange =
      (room + (items.map f).sum) % countRange := by
  induction items with
  | nil => exact fun _ => rfl
  | cons item items ih =>
    intro room
    rw [List.foldl_cons, ih, List.map_cons, List.sum_cons, Nat.mod_add_mod, Nat.add_assoc]

/-- The room that the open stacks leave once some instances are gone. -/
def roomsWithout (cfg : Tables) (s : ItemStore) (exclude : List Guid) (configId : Nat) : Nat :=
  ((s.items.filter (·.itemId ∉ exclude)).map (roomFor cfg configId)).sum

theorem roomsWithout_nil (cfg : Tables) (s : ItemStore) (configId : Nat) :
    roomsWithout cfg s [] configId = s.rooms cfg configId := by
  simp [roomsWithout, rooms, weigh]

theorem roomsWithout_anti {exclude' : List Guid} (hsub : exclude ⊆ exclude') :
    roomsWithout cfg s exclude' configId ≤ roomsWithout cfg s exclude configId := by
  refine ((List.monotone_filter_right s.items fun item h => ?_).map _).sum_le_sum fun _ _ =>
    Nat.zero_le _
  exact decide_eq_true fun hmem => of_decide_eq_true h (hsub hmem)

/-- The plan sees the room, when the sum does not wrap. -/
theorem measureFreeRoom_eq (hlt : s.rooms cfg configId < countRange) :
    s.measureFreeRoom cfg exclude configId = roomsWithout cfg s exclude configId := by
  have hfold := foldl_add_mod (roomFor cfg configId) (s.items.filter (·.itemId ∉ exclude)) 0
  have hle : roomsWithout cfg s exclude configId ≤ s.rooms cfg configId :=
    roomsWithout_nil cfg s configId ▸ roomsWithout_anti (List.nil_subset exclude)
  rw [Nat.zero_add, ← roomsWithout, Nat.mod_eq_of_lt (hle.trans_lt hlt)] at hfold
  have hkept : s.measureFreeRoom cfg exclude configId =
      (s.items.filter (·.itemId ∉ exclude)).foldl
        (fun room item => (room + roomFor cfg configId item) % countRange) 0 := by
    rw [measureFreeRoom, List.foldl_filter]
    congr 1
    funext room item
    by_cases hmem : item.itemId ∈ exclude <;> simp [hmem]
  rw [hkept, ← hfold]
  cases s.items.filter (·.itemId ∉ exclude) using List.reverseRecOn with
  | nil => rfl
  | append_singleton items item => rw [List.foldl_append]; exact (Nat.mod_mod _ _).symm

def Plannable (cfg : Tables) (b : Bag) (configId : Nat) : Prop :=
  (∃ row, cfg.item configId = some row ∧ 0 < row.maxStackSize) ∧
    b.admission configId = true ∧ b.store.rooms cfg configId < countRange

theorem planConfigs_ok (cfg : Tables) (b : Bag) (exclude : List Guid) (counts : List (Nat × Nat)) :
    (∀ e ∈ counts, b.Plannable cfg e.1) →
    ∃ byConfig, b.planConfigs cfg exclude counts = .ok (byConfig, (counts.map fun e =>
      Packing.stacksNeeded (e.2 - roomsWithout cfg b.store exclude e.1) (maxOf cfg e.1)).sum) := by
  induction counts with
  | nil => exact fun _ => ⟨∅, rfl⟩
  | cons e counts ih =>
    intro hcounts
    obtain ⟨⟨row, hrow, hmax⟩, hadmitted, hroom⟩ := hcounts e List.mem_cons_self
    obtain ⟨byConfig, hrest⟩ := ih fun e' he' => hcounts e' (List.mem_cons_of_mem _ he')
    unfold planConfigs
    simp only [hrow, Nat.ne_of_gt hmax, if_false, hadmitted, Bool.not_true, Bool.false_eq_true,
      hrest, measureFreeRoom_eq hroom, stacksNeededFor, List.map_cons, List.sum_cons, maxOf_eq hrow]
    exact ⟨_, rfl⟩

theorem foldl_snd_sum {α β : Type} (f : β → α → β) (g : α → Nat) (entries : List α) :
    ∀ (need : β) (total : Nat),
      (entries.foldl (fun (p : β × Nat) e => (f p.1 e, p.2 + g e)) (need, total)).2 =
        total + (entries.map g).sum := by
  induction entries with
  | nil => exact fun _ _ => rfl
  | cons e entries ih =>
    intro need total
    rw [List.foldl_cons, ih, List.map_cons, List.sum_cons, Nat.add_assoc]

/-- The instances that a batch needs once some instances are gone: for each config the stacks that
its units open, and the instances that are never stacked. -/
def needWithout (cfg : Tables) (b : Bag) (units separate : ItemCountMap) (exclude : List Guid) :
    Nat :=
  (units.entries.map fun e =>
    Packing.stacksNeeded (e.2 - roomsWithout cfg b.store exclude e.1) (maxOf cfg e.1)).sum +
  (separate.entries.map fun e => e.2).sum

theorem planNeed_eq {units : ItemCountMap} (hunits : ∀ e ∈ units.entries, b.Plannable cfg e.1)
    (separate : ItemCountMap) (exclude : List Guid) :
    ∃ need, b.planNeed cfg units separate exclude =
      some (need, b.needWithout cfg units separate exclude) := by
  have hperm := List.perm_insertionSort (fun a b : Nat × Nat => a.1 ≤ b.1)
    (units.entries.map fun e => (e.1, e.2))
  obtain ⟨byConfig, hplan⟩ := planConfigs_ok cfg b exclude (sortedByConfigId units) (by
    intro e he
    obtain ⟨entry, hentry, rfl⟩ := List.mem_map.1 (hperm.mem_iff.1 he)
    exact hunits entry hentry)
  unfold planNeed planInstances
  rw [hplan]
  dsimp only
  refine ⟨_, congrArg some (Prod.ext rfl ?_)⟩
  refine (foldl_snd_sum (fun (need : ItemCountMap) (e : (_ : Nat) × Nat) =>
    need.insert e.1 ((countOf need e.1 + e.2) % countRange)) (fun e => e.2) _ _ _).trans ?_
  rw [sortedByConfigId, (hperm.map _).sum_eq, List.map_map]
  rfl

/-- **The plan of a valid batch asks for the cells that the batch needs.** -/
theorem planNeed_ok (hvalid : ValidBatch cfg b items)
    (htallied : Tallied cfg demand items)
    (hroom : ∀ item ∈ items, b.store.rooms cfg item.configId < countRange) :
    ∃ need, b.planNeed cfg demand.stackUnits demand.separateInstances [] =
      some (need, packedNeed cfg b.store items) := by
  have hneed : b.needWithout cfg demand.stackUnits demand.separateInstances [] =
      packedNeed cfg b.store items := by
    unfold needWithout packedNeed
    simp only [roomsWithout_nil]
    congr 1
    · exact htallied.stackUnits.sum fun configId count =>
        Packing.stacksNeeded (count - b.store.rooms cfg configId) (maxOf cfg configId)
    · rw [htallied.separateInstances.sum fun _ count => count]
      exact Packing.sum_demand fun r hr => List.mem_toFinset.2 (List.mem_map_of_mem hr)
  rw [← hneed]
  refine planNeed_eq (fun entry hentry => ?_) _ _
  have hmem : entry.1 ∈ demand.stackUnits := AList.mem_keys.2 (List.mem_keys_of_mem hentry)
  obtain ⟨r, hr, hid⟩ := List.mem_map.1 ((htallied.stackUnits.mem _).1 hmem)
  obtain ⟨item, hitem, rfl⟩ := List.mem_map.1 hr
  have hitem := (List.mem_filter.1 hitem).1
  dsimp only at hid
  rw [← hid]
  exact ⟨hvalid.known item hitem, hvalid.admitted item hitem, hroom item hitem⟩

/-! ## Enough cells and guids -/

structure WorkingMint (store : ItemStore) (reserved : List Guid) (mint : Nat → Guid)
    (count : Nat) : Prop where
  valid : ∀ i < count, mint i ≠ 0 ∧ mint i ≠ invalidGuid
  fresh : ∀ i < count, mint i ∉ store.guids ∧ mint i ∉ reserved
  inj : ∀ i < count, ∀ j < count, mint i = mint j → i = j

theorem WorkingMint.nodup {count : Nat} (h : WorkingMint store reserved mint count) :
    ((List.range' 0 count).map mint).Nodup := by
  refine List.Nodup.map_on (fun i hi j hj => ?_) List.nodup_range'
  rw [List.mem_range'_1] at hi hj
  exact h.inj i (by omega) j (by omega)

theorem WorkingMint.mono {m n : Nat} (h : WorkingMint store reserved mint n) (hle : m ≤ n) :
    WorkingMint store reserved mint m where
  valid i hi := h.valid i (by omega)
  fresh i hi := h.fresh i (by omega)
  inj i hi j hj := h.inj i (by omega) j (by omega)

theorem mintGuids_ok (count : Nat) :
    ∀ {next : Nat} {reserved : List Guid}, ((List.range' next count).map mint).Nodup →
      (∀ guid ∈ (List.range' next count).map mint,
        guid ≠ 0 ∧ guid ≠ invalidGuid ∧ guid ∉ store.guids ∧ guid ∉ reserved) →
      mintGuids store mint count next reserved = .ok ((List.range' next count).map mint) := by
  induction count with
  | zero => exact fun _ _ => rfl
  | succ count ih =>
    intro next reserved hnodup hguids
    rw [List.range'_succ, List.map_cons] at hnodup hguids ⊢
    obtain ⟨hhead, hnodup⟩ := List.nodup_cons.1 hnodup
    obtain ⟨hzero, hne, hstore, hnew⟩ := hguids (mint next) List.mem_cons_self
    have hrest : mintGuids store mint count (next + 1) (mint next :: reserved) =
        .ok ((List.range' (next + 1) count).map mint) := by
      refine ih hnodup fun guid hguid => ?_
      obtain ⟨hzero', hne', hstore', hnew'⟩ := hguids guid (List.mem_cons_of_mem _ hguid)
      refine ⟨hzero', hne', hstore', fun hmem => ?_⟩
      rcases List.mem_cons.1 hmem with rfl | hmem
      · exact hhead hguid
      · exact hnew' hmem
    unfold mintGuids
    dsimp only
    rw [if_neg (by simp [hzero, hne, contains, hstore, hnew]), hrest]

theorem exists_placeAll (cfg : Tables) (items : List (Guid × Nat)) :
    ∀ {l : FlatLayout}, l.Ok → (items.map (·.1) ++ l.guidToSlot.keys).Nodup →
      items.length + l.occupiedSlotCount ≤ l.slotCount →
      ∃ l', placeAll cfg (.flat false l) items = .ok l' := by
  induction items with
  | nil => exact fun {l} _ _ _ => ⟨_, rfl⟩
  | cons e items ih =>
    intro l h hnodup hlen
    rw [List.length_cons] at hlen
    obtain ⟨hfresh, hnodup⟩ := List.nodup_cons.1 hnodup
    have hguid : e.1 ∉ l.guidToSlot := fun hmem =>
      hfresh (List.mem_append_right _ (AList.mem_keys.1 hmem))
    rcases FlatLayout.place_cases hguid with ⟨slot, hlt, hslot, heq⟩ | ⟨-, hfull⟩
    · have hput := h.put hguid hslot hlt
      have hkeys := FlatLayout.keys_put hguid slot
      have hocc : (l.put e.1 slot).occupiedSlotCount = l.occupiedSlotCount + 1 := by
        rw [hput.occupied_eq, hkeys, List.length_cons, h.occupied_eq]
      obtain ⟨l', hl'⟩ := ih hput (by
        rw [hkeys]
        exact List.perm_middle.nodup_iff.2 (List.nodup_cons.2 ⟨hfresh, hnodup⟩)) (by
        rw [hocc]
        change _ ≤ l.slotCount
        omega)
      refine ⟨l', ?_⟩
      have hplace : placeInstance cfg (.flat false l) e.1 e.2 =
          (some slot, .flat false (l.put e.1 slot)) := by
        simp only [placeInstance, Layout.hasSlotSemantics, Bool.not_false, if_true, Layout.place,
          heq]
        rfl
      unfold placeAll
      rw [hplace]
      exact hl'
    · omega

variable {l : FlatLayout}

/-- A flat layout with enough free slots needs no victims. -/
theorem planEviction_ok
    (hlayout : b.layout = .flat false l) (hvalid : ValidBatch cfg b items)
    (htallied : Tallied cfg demand items)
    (hroom : ∀ item ∈ items, b.store.rooms cfg item.configId < countRange)
    (hcells : packedNeed cfg b.store items + l.occupiedSlotCount ≤ l.slotCount)
    (evictedOut : Bool) :
    b.planEviction cfg demand.stackUnits demand.separateInstances evictedOut =
      some ([], packedNeed cfg b.store items) := by
  obtain ⟨need, hneed⟩ := planNeed_ok hvalid htallied hroom
  have hle : l.slotCount ≤ l.capacity := Nat.mod_le _ _
  have hfit : packedNeed cfg b.store items ≤ l.freeCells := by
    unfold FlatLayout.freeCells
    omega
  unfold planEviction
  rw [hneed]
  simp [canReserve, hlayout, Layout.canFit, hfit, Layout.hasSlotSemantics]

section

variable (initializer : Option (ItemComp → ItemComp))

/-- With guids for the rest, the entries are committed and the new instances placed. -/
theorem exists_commit {minted : List Guid} (h : b.Ok cfg) (hlayout : b.layout = .flat false l)
    (hvalid : ValidBatch cfg b items) (hnodup : (minted ++ presets cfg items).Nodup)
    (hfresh : ∀ guid ∈ minted, guid ∉ b.store.guids)
    (hlen : minted.length + (presets cfg items).length = packedNeed cfg b.store items)
    (hcells : packedNeed cfg b.store items + l.occupiedSlotCount ≤ l.slotCount) :
    ∃ c written layout,
      commitEntries cfg initializer items ⟨b.store, minted, [], []⟩ = .ok (c, written) ∧
      c.minted = [] ∧ placeAll cfg b.layout c.newItems = .ok layout := by
  have hneeds := batchNeeds_eq_packedNeed hvalid.known b.store
  have hok := h.layout
  have hlguids := h.guids
  rw [hlayout] at hok hlguids
  have hpool : (b.store.guids ++ (minted ++ presets cfg items)).Nodup := by
    refine List.nodup_append'.2 ⟨b.store.nodup, hnodup, fun guid hguid hmem => ?_⟩
    rcases List.mem_append.1 hmem with hmem | hmem
    · exact hfresh guid hmem hguid
    · exact hvalid.presets_fresh guid hmem hguid
  obtain ⟨c, written, hcommit, hused⟩ := exists_commitEntries initializer items
    (c := ⟨b.store, minted, [], []⟩) hvalid.known h.positive hpool (hlen.trans hneeds.symm)
  obtain ⟨new, hbatch⟩ := commitEntries_spec items hvalid.known (List.Subset.refl _) h.positive
    hcommit
  have hnew : c.newItems = new := by
    rw [hbatch.grown.newItems]
    exact List.nil_append _
  have hguids : c.store.guids = b.store.guids ++ new.map (·.1) := hbatch.grown.guids
  have hcount : new.length = packedNeed cfg b.store items := hbatch.count.trans hneeds
  have hplaces : (new.map (·.1) ++ l.guidToSlot.keys).Nodup := by
    refine (List.perm_append_comm.trans (hlguids.symm.append_right _)).nodup_iff.2 ?_
    exact hguids ▸ c.store.nodup
  obtain ⟨layout, hplace⟩ := exists_placeAll cfg new hok hplaces (hcount ▸ hcells)
  exact ⟨c, written, layout, hcommit, hused, by rw [hnew, hlayout, hplace]⟩

/-- **A valid batch is added to a flat bag whose free slots are enough for it.** -/
theorem exists_addItemsCandidate (h : b.Ok cfg) (hlayout : b.layout = .flat false l)
    (hvalid : ValidBatch cfg b items)
    (hroom : ∀ item ∈ items, b.store.rooms cfg item.configId < countRange)
    (hmint : WorkingMint b.store (presets cfg items) mint (packedNeed cfg b.store items))
    (hcells : packedNeed cfg b.store items ≤ l.freeSlots) (evictedOut : Bool) :
    ∃ result, b.addItemsCandidate cfg items mint evictedOut initializer = .ok result := by
  have hslots : packedNeed cfg b.store items + l.occupiedSlotCount ≤ l.slotCount := by
    have hok := h.layout
    rw [hlayout] at hok
    have := FlatLayout.Ok.freeSlots_add hok
    omega
  have hempty : Tallied cfg ⟨∅, ∅, []⟩ [] := ⟨.empty, .empty, rfl⟩
  obtain ⟨demand, hdemand, htallied⟩ := hempty.addDemands items hvalid
  rw [List.nil_append] at htallied
  have hplan := planEviction_ok hlayout hvalid htallied hroom hslots evictedOut
  have hpresets : (presets cfg items).length ≤ packedNeed cfg b.store items :=
    batchNeeds_eq_packedNeed hvalid.known b.store ▸ length_presets_le items hvalid.known
      (rooms_max_one (c := ⟨b.store, [], [], []⟩) h.positive)
  -- the guids that the batch does not bring are minted
  have hworking := hmint.mono (Nat.sub_le _ (presets cfg items).length)
  generalize hcount : packedNeed cfg b.store items - (presets cfg items).length = count at hworking
  have hguids : ∀ guid ∈ (List.range' 0 count).map mint, guid ≠ 0 ∧ guid ≠ invalidGuid ∧
      guid ∉ b.store.guids ∧ guid ∉ presets cfg items := by
    intro guid hguid
    obtain ⟨i, hi, rfl⟩ := List.mem_map.1 hguid
    rw [List.mem_range'_1] at hi
    obtain ⟨hzero, hne⟩ := hworking.valid i (by omega)
    obtain ⟨hstore, hpreset⟩ := hworking.fresh i (by omega)
    exact ⟨hzero, hne, hstore, hpreset⟩
  have hminted := mintGuids_ok count hworking.nodup hguids
  have hlen : ((List.range' 0 count).map mint).length = count := by
    rw [List.length_map, List.length_range']
  obtain ⟨c, written, layout, hcommit, hused, hplace⟩ := exists_commit initializer h hlayout
    hvalid
    (List.nodup_append'.2 ⟨hworking.nodup, hvalid.presets_nodup,
      fun guid hguid hmem => (hguids guid hguid).2.2.2 hmem⟩)
    (fun guid hguid => (hguids guid hguid).2.2.1) (by omega) hslots
  refine ⟨(c.store, layout, ⟨[], written⟩), ?_⟩
  unfold addItemsCandidate
  rw [hdemand]
  simp only [hplan, bind, Except.bind]
  rw [htallied.preassigned, if_neg (Nat.not_lt.2 hpresets), hcount, hminted]
  change (commitEntries cfg initializer items ⟨b.store, _, [], []⟩ >>= _) = _
  rw [hcommit]
  change (if c.minted ≠ [] then _ else _) = _
  rw [if_neg (not_not.2 hused)]
  change (placeAll cfg b.layout c.newItems >>= _) = _
  rw [hplace]
  rfl

end

/-! ## Results -/

/-- **Adding is exact, all or nothing, and complete.** A batch that is added changes the units of
every config by what was asked for, up to what is reported as evicted, keeps the maxima, and has
its preset instances in the bag. A batch that is refused changes nothing. On a flat layout a valid
batch is added when the free slots are enough for the stacks that it opens. -/
theorem addItems_exact_atomic_complete (h : b.Ok cfg) (itemsToAdd : List ItemComp)
    (mint : Nat → Guid) (evictedOut : Bool) (initializer : Option (ItemComp → ItemComp)) :
    (∀ receipt b', b.addItems cfg itemsToAdd mint evictedOut initializer = (.ok receipt, b') →
      (∀ configId, b'.store.weigh (unitsOf configId) + evictedUnits configId receipt.evicted =
        b.store.weigh (unitsOf configId) + (itemsToAdd.map (unitsOf configId)).sum) ∧
      b'.store.Bounded cfg ∧
      ∀ item ∈ itemsToAdd, isPreassigned (maxOf cfg item.configId) item = true →
        ∃ a ∈ b'.store.items, a.itemId = item.itemId ∧ a.configId = item.configId ∧
          a.size = 1 ∧ (item.equip.isSome → a.equip = item.equip)) ∧
    (∀ tip b', b.addItems cfg itemsToAdd mint evictedOut initializer = (.error tip, b') →
      b' = b) ∧
    ∀ l, b.layout = .flat false l → ValidBatch cfg b itemsToAdd →
      (∀ item ∈ itemsToAdd, b.store.rooms cfg item.configId < countRange) →
      WorkingMint b.store (presets cfg itemsToAdd) mint (packedNeed cfg b.store itemsToAdd) →
      packedNeed cfg b.store itemsToAdd ≤ l.freeSlots →
      ∃ receipt b', b.addItems cfg itemsToAdd mint evictedOut initializer = (.ok receipt, b') := by
  refine ⟨fun receipt b' hadd => ?_, fun tip b' hadd => ?_, fun l hlayout hvalid hroom hmint
    hcells => ?_⟩
  · unfold addItems at hadd
    split at hadd
    next hnil =>
      cases hadd
      rw [hnil]
      exact ⟨fun _ => rfl, h.sized, fun _ hitem => absurd hitem List.not_mem_nil⟩
    split at hadd
    · cases hadd
    rename_i store layout receipt' hcandidate
    cases hadd
    obtain ⟨minted, new, candidate, c, hc⟩ := addItemsCandidate_spec h hcandidate
    have hstore := hc.committed
    have hbounded : store.Bounded cfg :=
      hstore ▸ hc.batch.grown.sized _ (allows_tableLimit cfg) hc.sized
    have hpositive : store.Positive := hstore ▸ hc.batch.grown.positive hc.positive
    refine ⟨fun configId => ?_, hbounded, fun item hitem hpre => ?_⟩
    · have hunits := hc.batch.units configId
      have hevicted := hc.units configId
      rw [hstore] at hunits
      dsimp only at hunits ⊢
      omega
    · obtain ⟨a, ha, hid, hconfig, hequip⟩ := hc.batch.preset item hitem hpre
      rw [hstore] at ha
      obtain ⟨row, hrow, -⟩ := hc.known item hitem
      have hmax : row.maxStackSize = 1 := by
        simp only [isPreassigned, Bool.and_eq_true, decide_eq_true_eq] at hpre
        exact (maxOf_eq hrow).symm.trans hpre.1.1
      have hle := hbounded a ha row (hconfig ▸ hrow)
      have hpos := hpositive a ha
      exact ⟨a, ha, hid, hconfig, by omega, hequip⟩
  · unfold addItems at hadd
    split at hadd
    · cases hadd
    split at hadd
    · cases hadd
      rfl
    · cases hadd
  · obtain ⟨⟨store, layout, receipt⟩, hcandidate⟩ := exists_addItemsCandidate
      initializer h hlayout hvalid hroom hmint hcells evictedOut
    unfold addItems
    split
    · exact ⟨_, _, rfl⟩
    · rw [hcandidate]
      exact ⟨_, _, rfl⟩

def sampleTables : Tables where
  item configId :=
    if configId = 1 then some ⟨5, 0⟩ else if configId = 2 then some ⟨1, 0⟩ else none
  equipSlots := []

def sampleBag : Bag := ⟨.empty, .flat false (.new 4), fun _ => true, rejectWhenFull⟩

def sampleBatch : List ItemComp :=
  [⟨0, 1, 7, 0, none, []⟩, ⟨900, 2, 1, 0, none, []⟩, ⟨0, 1, 4, 0, none, []⟩]

theorem sampleBatch_valid : ValidBatch sampleTables sampleBag sampleBatch where
  config := by decide
  size := by decide
  known proto hproto := by
    simp only [sampleBatch, List.mem_cons, List.not_mem_nil, or_false] at hproto
    rcases hproto with rfl | rfl | rfl
    · exact ⟨⟨5, 0⟩, rfl, by decide⟩
    · exact ⟨⟨1, 0⟩, rfl, by decide⟩
    · exact ⟨⟨5, 0⟩, rfl, by decide⟩
  admitted _ _ := rfl
  units_lt configId := by
    change (if 1 = configId then 7 else 0) + ((if 2 = configId then 1 else 0) +
      ((if 1 = configId then 4 else 0) + 0)) < countRange
    unfold countRange
    split <;> split <;> omega
  instances_lt _ := show 0 < countRange by decide
  presets_nodup := by decide
  presets_fresh := by decide

/-- The batch fills four cells: the second entry completes a stack of the first. -/
theorem addItems_sample : sampleBag.Ok sampleTables ∧
    ∃ receipt b', sampleBag.addItems sampleTables sampleBatch (100 + ·) false none =
      (.ok receipt, b') := by
  have hok : sampleBag.Ok sampleTables := Kept.fresh rfl (.flat false 4)
  refine ⟨hok, (addItems_exact_atomic_complete hok sampleBatch (100 + ·) false none).2.2 (.new 4)
    rfl sampleBatch_valid (by decide) ⟨fun i hi => ?_, fun i hi => ?_, fun i _ j _ heq => ?_⟩
    (by decide)⟩
  · have hneed : packedNeed sampleTables sampleBag.store sampleBatch = 4 := by decide
    change 100 + i ≠ 0 ∧ 100 + i ≠ 18446744073709551615
    omega
  · have hneed : packedNeed sampleTables sampleBag.store sampleBatch = 4 := by decide
    refine ⟨List.not_mem_nil, fun hmem => ?_⟩
    have heq : 100 + i = 900 := by simpa using (show 100 + i ∈ [900] from hmem)
    omega
  · exact Nat.add_left_cancel heq

end Bag

end Mmorpg.Bags
