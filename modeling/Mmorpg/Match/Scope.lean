import Mathlib.Algebra.Order.Ring.Nat
import Mathlib.Data.List.Chain
import Mathlib.Data.List.Sort

/-!
# The scope of a match

Players of one zone meet first, after a wait those of one group of zones, later all (scope.go).
The matcher asks `admits`, and the commit of a group asks it again with a later clock.
-/

namespace Mmorpg.Scope

open List

/-- From the narrowest to the widest. -/
inductive Level where
  | zone
  | group
  | global

instance : LinearOrder Level :=
  LinearOrder.lift' Level.ctorIdx fun a b h => by cases a <;> cases b <;> first | rfl | cases h

structure Node where
  zone : Nat
  group : Nat

/-- The subtree of a node, if there is one to share. A group 0 is none. -/
def Node.keyAt (n : Node) : Level → Option Nat
  | .zone => if n.zone ≠ 0 then some n.zone else none
  | .group => if n.group ≠ 0 then some n.group else none
  | .global => some 0

/-- The inner loop of `CommonLevel`. -/
def shared (nodes : List Node) (level : Level) : Bool :=
  match nodes with
  | [] => false
  | first :: rest =>
    (first.keyAt level).isSome && rest.all fun n => n.keyAt level = first.keyAt level

def commonLevel (nodes : List Node) : Option Level :=
  if nodes.length = 0 || nodes.any fun n => n.zone = 0 then none
  else some (([.zone, .group].find? (shared nodes)).getD .global)

structure Schedule where
  groupAfterMs : Nat
  globalAfterMs : Nat

def Schedule.allowedByWait (s : Schedule) (waitMs : Nat) : Level :=
  if waitMs ≥ s.globalAfterMs then .global else if waitMs ≥ s.groupAfterMs then .group else .zone

structure Member where
  node : Node
  enqueuedMs : Nat

/-- 0 if the clock is behind. -/
def Member.waitMs (m : Member) (nowMs : Nat) : Nat := nowMs - m.enqueuedMs

/-- The loop of `UnitAllowed`. -/
def minWait (nowMs : Nat) (members : List Member) : Nat :=
  members.foldl (fun least m => min least (m.waitMs nowMs)) (2 ^ 64 - 1)

def unitAllowed (s : Schedule) (members : List Member) (nowMs : Nat) : Option Level :=
  (commonLevel (members.map (·.node))).map fun own =>
    max own (s.allowedByWait (minWait nowMs members))

/-- `Admit`: the level, if the units may meet. A single unit meets no one. -/
def admits (s : Schedule) (units : List (List Member)) (nowMs : Nat) : Option Level :=
  if units.length = 0 || units.any (·.length = 0) then none
  else (commonLevel (units.flatten.map (·.node))).filter fun level =>
    units.length = 1 || units.all fun unit => (unitAllowed s unit nowMs).any (level ≤ ·)

/-- A row of the table of zone groups: the zones of a closed interval. -/
structure Range where
  groupID : Nat
  zoneBegin : Nat
  zoneEnd : Nat

/-- Rows that begin at one zone overlap, so it does not matter how they are sorted. -/
def newDirectory (rows : List Range) : Option (List Range) :=
  let sorted := rows.insertionSort fun a b => a.zoneBegin ≤ b.zoneBegin
  if (∀ r ∈ sorted, ¬ (r.groupID = 0 ∨ r.zoneBegin = 0 ∨ r.zoneBegin > r.zoneEnd)) ∧
      sorted.IsChain fun a b => ¬ a.zoneEnd ≥ b.zoneBegin then some sorted
  else none

/-- `sort.Search` gives the first range that reaches the zone, since the ends increase. -/
def groupOf (ranges : List Range) (zone : Nat) : Nat :=
  if zone = 0 then 0
  else
    match ranges.find? (·.zoneEnd ≥ zone) with
    | some r => if r.zoneBegin ≤ zone then r.groupID else 0
    | none => 0

/-! ## Orders and clocks -/

variable {a b : List Node} {units units' : List (List Member)} {s : Schedule} {nowMs : Nat}
  {level : Level} {u u' : List Member}

theorem shared_iff :
    shared a level = true ↔ a ≠ [] ∧ ∃ key, ∀ n ∈ a, n.keyAt level = some key := by
  cases a with
  | nil => simp [shared]
  | cons first rest => cases hkey : first.keyAt level <;> simp [shared, hkey]

theorem commonLevel_perm (h : a.Perm b) : commonLevel a = commonLevel b := by
  have hshared : shared a = shared b := by
    funext level
    rw [Bool.eq_iff_iff, shared_iff, shared_iff]
    simp only [h.mem_iff, ne_eq, ← length_eq_zero_iff, h.length_eq]
  simp only [commonLevel, hshared, h.length_eq, h.any_eq]

theorem le_minWait_iff {k : Nat} :
    k ≤ minWait nowMs u ↔ k ≤ 2 ^ 64 - 1 ∧ ∀ m ∈ u, k ≤ m.waitMs nowMs := by
  unfold minWait
  generalize 2 ^ 64 - 1 = least
  induction u generalizing least with
  | nil => simp
  | cons m u ih => rw [foldl_cons, ih, Nat.le_min, and_assoc, forall_mem_cons]

theorem unitAllowed_perm (h : u.Perm u') : unitAllowed s u nowMs = unitAllowed s u' nowMs := by
  have hwait : minWait nowMs u = minWait nowMs u' :=
    eq_of_forall_le_iff fun k => by simp only [le_minWait_iff, h.mem_iff]
  rw [unitAllowed, unitAllowed, commonLevel_perm (h.map _), hwait]

theorem allowedByWait_mono : Monotone s.allowedByWait := by
  intro w w' h
  unfold Schedule.allowedByWait
  split <;> split <;> (try split) <;> (try split) <;> first | decide | omega

theorem minWait_mono {later : Nat} (h : nowMs ≤ later) : minWait nowMs u ≤ minWait later u := by
  obtain ⟨hle, hall⟩ := le_minWait_iff.1 (le_refl (minWait nowMs u))
  exact le_minWait_iff.2 ⟨hle, fun m hm => (hall m hm).trans (Nat.sub_le_sub_right h _)⟩

theorem allows_iff : (unitAllowed s u nowMs).any (level ≤ ·) = true ↔
    ∃ own, commonLevel (u.map (·.node)) = some own ∧
      level ≤ max own (s.allowedByWait (minWait nowMs u)) := by
  cases h : commonLevel (u.map (·.node)) <;> simp [unitAllowed, h]

theorem admits_eq_some_iff : admits s units nowMs = some level ↔
    units.length ≠ 0 ∧ commonLevel (units.flatten.map (·.node)) = some level ∧
      ∀ u ∈ units, u.length ≠ 0 ∧
        (units.length = 1 ∨ (unitAllowed s u nowMs).any (level ≤ ·) = true) := by
  simp only [admits, Option.ite_none_left_eq_some, Option.filter_eq_some_iff, Bool.or_eq_true,
    decide_eq_true_eq, all_eq_true, any_eq_true, not_or, not_exists, not_and, forall_and,
    forall_or_left]
  tauto

theorem admits_perm (h : units.Perm units') : admits s units nowMs = admits s units' nowMs :=
  Option.ext fun level => by
    simp only [admits_eq_some_iff, h.length_eq, h.mem_iff, commonLevel_perm (h.flatten.map _)]

theorem admits_members (h : Forall₂ Perm units units') :
    admits s units nowMs = admits s units' nowMs := by
  refine Option.ext fun level => ?_
  rw [admits_eq_some_iff, admits_eq_some_iff, h.length_eq,
    commonLevel_perm ((Perm.flatten_congr h).map _)]
  refine and_congr Iff.rfl (and_congr Iff.rfl ?_)
  generalize units'.length = count
  induction h with
  | nil => rfl
  | cons hu _ ih =>
    rw [forall_mem_cons, forall_mem_cons, ih, hu.length_eq, unitAllowed_perm hu]

/-! ## The directory -/

def Range.Has (r : Range) (zone : Nat) : Prop := r.zoneBegin ≤ zone ∧ zone ≤ r.zoneEnd

/-- Every zone has the group of the one row that it lies in, or none. -/
def Answers (rows : List Range) (group : Nat → Nat) : Prop :=
  ∀ zone, (∀ r ∈ rows, r.Has zone → group zone = r.groupID ∧ ∀ r' ∈ rows, r'.Has zone → r' = r) ∧
    (group zone = 0 ↔ ∀ r ∈ rows, ¬ r.Has zone)

theorem pairwise_of_isChain {ranges : List Range} (hvalid : ∀ r ∈ ranges, r.zoneBegin ≤ r.zoneEnd)
    (h : ranges.IsChain fun a b => ¬ a.zoneEnd ≥ b.zoneBegin) :
    ranges.Pairwise fun a b => a.zoneEnd < b.zoneBegin := by
  let apart (a b : Range) : Prop := a.zoneEnd < b.zoneBegin ∧ b.zoneBegin ≤ b.zoneEnd
  have : Trans apart apart apart := ⟨fun hab hbc => ⟨by grind, hbc.2⟩⟩
  have hchain : ranges.IsChain apart :=
    h.imp_of_mem_imp fun a b _ hb hab => ⟨Nat.not_le.1 hab, hvalid b hb⟩
  exact hchain.pairwise.imp And.left

theorem groupOf_answers {rows ranges : List Range} (h : newDirectory rows = some ranges) :
    Answers rows (groupOf ranges) := by
  simp only [newDirectory, Option.ite_none_right_eq_some, Option.some.injEq, not_or] at h
  obtain ⟨⟨hvalid, hchain⟩, hsorted⟩ := h
  rw [hsorted] at hvalid hchain
  have hmem {r : Range} : r ∈ ranges ↔ r ∈ rows :=
    hsorted ▸ (perm_insertionSort _ rows).mem_iff
  have hapart := pairwise_of_isChain (fun r hr => Nat.not_lt.1 (hvalid r hr).2.2) hchain
  intro zone
  simp only [← hmem]
  have hfound {r : Range} (hr : r ∈ ranges) (hhas : r.Has zone) :
      ranges.find? (·.zoneEnd ≥ zone) = some r := by
    obtain ⟨before, after, rfl⟩ := append_of_mem hr
    refine find?_eq_some_iff_append.2 ⟨decide_eq_true hhas.2, before, after, rfl, fun q hq => ?_⟩
    have hlt := (pairwise_append.1 hapart).2.2 q hq r mem_cons_self
    simpa using hlt.trans_le hhas.1
  have hgroup {r : Range} (hr : r ∈ ranges) (hhas : r.Has zone) :
      groupOf ranges zone = r.groupID := by
    have hzone : zone ≠ 0 := fun h0 => (hvalid r hr).2.1 (Nat.le_zero.1 (h0 ▸ hhas.1))
    rw [groupOf, if_neg hzone, hfound hr hhas]
    exact if_pos hhas.1
  refine ⟨fun r hr hhas => ⟨hgroup hr hhas, fun r' hr' hhas' => ?_⟩, fun h0 r hr hhas => ?_,
    fun hnone => ?_⟩
  · exact Option.some.inj ((hfound hr' hhas').symm.trans (hfound hr hhas))
  · exact (hvalid r hr).1 ((hgroup hr hhas).symm.trans h0)
  · unfold groupOf
    split
    · rfl
    split
    next r hr =>
      have hreach : zone ≤ r.zoneEnd := by simpa using find?_some hr
      exact if_neg fun hbegin => hnone r (mem_of_find?_eq_some hr) ⟨hbegin, hreach⟩
    · rfl

/-- **Admission is stable and consensual, and the directory is exact.** The verdict depends on no
order and stays, and no unit is matched wider than it spans or its members have waited for. -/
theorem scope_stable (s : Schedule) (units : List (List Member)) (nowMs : Nat) :
    (∀ mid units', units.Perm mid → Forall₂ Perm mid units' →
      admits s units' nowMs = admits s units nowMs) ∧
    (∀ level, admits s units nowMs = some level →
      (∀ later, nowMs ≤ later → admits s units later = some level) ∧
      (2 ≤ units.length → ∀ u ∈ units, ∃ own, commonLevel (u.map (·.node)) = some own ∧
        ∀ m ∈ u, level ≤ max own (s.allowedByWait (m.waitMs nowMs)))) ∧
    ∀ rows ranges, newDirectory rows = some ranges → Answers rows (groupOf ranges) := by
  refine ⟨fun _ _ h h' => (admits_members h').symm.trans (admits_perm h).symm, ?_,
    fun _ _ => groupOf_answers⟩
  intro level h
  obtain ⟨hne, hcommon, hall⟩ := admits_eq_some_iff.1 h
  have hwider {own : Level} {w w' : Nat} (hw : w ≤ w')
      (hlevel : level ≤ max own (s.allowedByWait w)) : level ≤ max own (s.allowedByWait w') :=
    hlevel.trans (sup_le_sup_left (allowedByWait_mono hw) _)
  refine ⟨fun later hle => admits_eq_some_iff.2 ⟨hne, hcommon, fun u hu => ?_⟩, ?_⟩
  · refine (hall u hu).imp_right (Or.imp_right fun hallowed => ?_)
    obtain ⟨own, hown, hlevel⟩ := allows_iff.1 hallowed
    exact allows_iff.2 ⟨own, hown, hwider (minWait_mono hle) hlevel⟩
  · intro hmany u hu
    obtain ⟨own, hown, hlevel⟩ := allows_iff.1 ((hall u hu).2.resolve_left (by omega))
    exact ⟨own, hown, fun m hm => hwider ((le_minWait_iff.1 le_rfl).2 m hm) hlevel⟩

theorem scope_stable_sample :
    let unit := fun zone => [Member.mk ⟨zone, 7⟩ 0]
    admits ⟨10, 20⟩ [unit 1, unit 2] 12 = some .group ∧
      ∀ later, 12 ≤ later → admits ⟨10, 20⟩ [unit 1, unit 2] later = some .group := by
  refine ⟨by decide, ?_⟩
  exact ((scope_stable ⟨10, 20⟩ _ 12).2.1 .group (by decide)).1

end Mmorpg.Scope
