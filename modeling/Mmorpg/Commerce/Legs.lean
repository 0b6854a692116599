import Mmorpg.Commerce.Plan

/-!
# Legs over time

A leg keeps its role, player, stream and bundle, and keeps its outcome once it has one (`Later`);
`advance` changes the legs of a row only in this way and by planning new ones
(`advanceDraft_keeps`). `Debit` and `Pays` say what a leg is for.
-/

namespace Mmorpg.Commerce

open List

open AssetOp (AssetBundle AssetOpStream)
open Blocks (bind_eq_ok)

/-! ## Finding and adding legs -/

variable {l : Leg}

@[simp] theorem isDone_of_isApplied (h : isApplied l = true) : isDone l = true := by
  simp only [isApplied, decide_eq_true_eq] at h
  simp [isDone, h]

@[simp] theorem done_some (l : Leg) : done (some l) = isDone l := rfl

@[simp] theorem applied_some (l : Leg) : applied (some l) = isApplied l := rfl

@[simp] theorem applied_none : applied none = false := rfl

variable {w : Workflow} {role : Role}

theorem addLeg_of_mem (h : ∃ l ∈ w.legs, l.role = role)
    (player : PlayerId) (stream : AssetOpStream) (b : AssetBundle) :
    addLeg w role player stream b = w := by
  rw [addLeg, if_pos (by simpa using h)]

theorem addLeg_of_not_mem (h : ∀ l ∈ w.legs, l.role ≠ role)
    (player : PlayerId) (stream : AssetOpStream) (b : AssetBundle) :
    addLeg w role player stream b =
      { w with legs := w.legs ++ [newLeg role player stream b] } := by
  rw [addLeg, if_neg (by simpa using h)]

theorem addLeg_stage (w : Workflow) (role : Role) (player : PlayerId) (stream : AssetOpStream)
    (b : AssetBundle) : (addLeg w role player stream b).stage = w.stage := by
  unfold addLeg
  split <;> rfl

variable {w' : Workflow} {receiver : PlayerId} {src : Option Leg}

theorem transferLeg_ok
    (h : transferLeg w role receiver src = .ok w') :
    ∃ l b, src = some l ∧ transfer l.bundle l.snapshot = some b ∧
      w' = addLeg w role receiver .tradeCredit b := by
  unfold transferLeg at h
  split at h
  · cases h
  split at h
  · cases h
  · cases h
    exact ⟨_, _, rfl, ‹_›, rfl⟩

/-! ## Transfers -/

def TradeAssetSelection.NonEmpty (v : TradeAssetSelection) : Prop :=
  v.items.length + v.itemUuids.length ≠ 0 ∨ v.petId ≠ 0 ∨ v.currencyAmount ≠ 0

variable {b : AssetBundle} {s : Option AssetOp.AssetSnapshot}

theorem transfer_some {b' : AssetBundle} (h : transfer b s = some b') :
    b'.currencies = b.currencies ∧ b'.items = b.items ∧
      b'.itemInstances.length = b.itemUuids.length ∧ (b'.petInstance = none ↔ b.petId = 0) ∧
      b'.itemUuids = [] ∧ b'.petId = 0 := by
  unfold transfer at h
  split at h
  · cases h
  split at h
  · cases h
  dsimp only at h
  split at h
  · cases h
  rename_i hcount
  rw [not_or, not_not] at hcount
  split at h
  · cases h
  split at h
  · cases h
  split at h
  · cases h
  · cases h
    refine ⟨rfl, rfl, hcount.1.symm, ?_, rfl, rfl⟩
    have hpet := hcount.2
    tauto

variable {v : TradeAssetSelection}

theorem transfer_nonEmpty (hv : v.NonEmpty) (h : transfer (bundle v) s = some b) :
    nonEmpty b = true := by
  obtain ⟨hcurrencies, hitems, hinstances, hpet, -⟩ := transfer_some h
  have hitems' : b.items.length = v.items.length := by
    rw [hitems, bundle, length_map, length_insertionSort]
  unfold nonEmpty
  rw [Bool.or_eq_true, decide_eq_true_eq, hcurrencies, hitems', hinstances]
  rcases hv with hv | hv | hv
  · exact .inl (by simp only [bundle]; omega)
  · refine .inr (Option.isSome_iff_ne_none.2 fun hnone => hv (hpet.1 hnone))
  · refine .inl ?_
    have hone : (bundle v).currencies.length = 1 := by
      simp [bundle, Nat.pos_of_ne_zero hv]
    omega

/-! ## Final credits -/

variable {ls : List Leg}

theorem finalCreditsOf_all (h : finalCreditsOf ls = (true, true)) :
    ∀ l ∈ ls, l.stream = .tradeCredit → isApplied l = true := by
  induction ls with
  | nil => exact fun l hl => nomatch hl
  | cons l ls ih =>
    unfold finalCreditsOf at h
    split at h
    · split at h
      · cases h
      split at h
      · cases h
      · intro x hx hstream
        rcases mem_cons.1 hx with rfl | hx
        · simpa using ‹¬ ¬ isApplied _ = true›
        · exact ih h x hx hstream
    · intro x hx hstream
      rcases mem_cons.1 hx with rfl | hx
      · contradiction
      · exact ih h x hx hstream

/-! ## Legs over time -/

structure Later (l l' : Leg) : Prop where
  role : l'.role = l.role
  player : l'.playerId = l.playerId
  stream : l'.stream = l.stream
  bundle : l'.bundle = l.bundle
  final : isDone l = true → l'.outcome = l.outcome ∧ l'.snapshot = l.snapshot

theorem Later.refl (l : Leg) : Later l l := ⟨rfl, rfl, rfl, rfl, fun _ => ⟨rfl, rfl⟩⟩

theorem later_refl (legs : List Leg) : Forall₂ Later legs legs :=
  List.forall₂_same.2 fun l _ => .refl l

variable {l' : Leg}

theorem Later.isDone (h : Later l l') (hl : isDone l = true) : isDone l' = true := by
  rw [Commerce.isDone, (h.final hl).1]
  exact hl

theorem Later.isApplied_eq (h : Later l l') (hl : Commerce.isDone l = true) :
    isApplied l' = isApplied l := by
  rw [isApplied, (h.final hl).1]
  rfl

theorem Later.isApplied (h : Later l l') (hl : isApplied l = true) :
    isApplied l' = true := by
  rw [h.isApplied_eq (isDone_of_isApplied hl), hl]

variable {ls' : List Leg}

theorem exists_of_forall₂ {R : Leg → Leg → Prop} (h : Forall₂ R ls ls')
    (hl' : l' ∈ ls') : ∃ l ∈ ls, R l l' := by
  induction h with
  | nil => exact nomatch hl'
  | cons hab _ ih =>
    rcases mem_cons.1 hl' with rfl | hl'
    · exact ⟨_, mem_cons_self, hab⟩
    · obtain ⟨l, hl, hlater⟩ := ih hl'
      exact ⟨l, mem_cons_of_mem _ hl, hlater⟩

theorem later_append {ms ns : List Leg} (h : Forall₂ Later (ls ++ ms) ns) :
    ∃ ls' ms', ns = ls' ++ ms' ∧ Forall₂ Later ls ls' ∧ Forall₂ Later ms ms' := by
  induction ls generalizing ns with
  | nil => exact ⟨[], ns, rfl, .nil, h⟩
  | cons l ls ih =>
    rcases h with _ | ⟨hl, hrest⟩
    obtain ⟨ls', ms', rfl, hls, hms⟩ := ih hrest
    exact ⟨_ :: ls', ms', rfl, .cons hl hls, hms⟩

theorem map_role_later (h : Forall₂ Later ls ls') :
    ls'.map (·.role) = ls.map (·.role) := by
  induction h with
  | nil => rfl
  | cons hl _ ih => rw [map_cons, map_cons, hl.role, ih]

/-- What a leg is for: all that never changes. -/
structure Purpose where
  role : Role
  player : PlayerId
  stream : AssetOpStream
  bundle : AssetBundle
deriving DecidableEq, Repr

def Leg.purpose (l : Leg) : Purpose := ⟨l.role, l.playerId, l.stream, l.bundle⟩

theorem Later.purpose (h : Later l l') : l'.purpose = l.purpose := by
  rw [Leg.purpose, h.role, h.player, h.stream, h.bundle]
  rfl

theorem map_purpose_later (h : Forall₂ Later ls ls') :
    ls'.map Leg.purpose = ls.map Leg.purpose := by
  induction h with
  | nil => rfl
  | cons hl _ ih => rw [map_cons, map_cons, ih, hl.purpose]

structure Leg.Debit (l : Leg) (role : Role) (player : PlayerId) (v : TradeAssetSelection) :
    Prop where
  role : l.role = role
  player : l.playerId = player
  stream : l.stream = .tradeDebit
  bundle : l.bundle = Commerce.bundle v

/-- The leg pays the applied debit `d` out to the player. -/
structure Leg.Pays (l : Leg) (role : Role) (player : PlayerId) (d : Leg) : Prop where
  role : l.role = role
  player : l.playerId = player
  stream : l.stream = .tradeCredit
  source : transfer d.bundle d.snapshot = some l.bundle
  held : isApplied d = true

variable {player : PlayerId}

theorem Leg.Debit.later
    (h : l.Debit role player v) (hl : Later l l') : l'.Debit role player v :=
  ⟨hl.role.trans h.role, hl.player.trans h.player, hl.stream.trans h.stream,
    hl.bundle.trans h.bundle⟩

/-- A debit that is being collected goes on. -/
theorem collecting_later {legs legs' : List Leg}
    (h : legs = [] ∨ ∃ a : Leg, legs = [a] ∧ a.Debit role player v)
    (hl : Forall₂ Later legs legs') :
    legs' = [] ∨ ∃ a : Leg, legs' = [a] ∧ a.Debit role player v := by
  rcases h with rfl | ⟨a, rfl, ha⟩
  · rcases hl with _ | _
    exact .inl rfl
  · rcases hl with _ | ⟨la, _ | _⟩
    exact .inr ⟨_, rfl, ha.later la⟩

variable {d : Leg}

theorem Leg.Pays.later {d' : Leg}
    (h : l.Pays role player d) (hl : Later l l') (hd : Later d d') : l'.Pays role player d' := by
  refine ⟨hl.role.trans h.role, hl.player.trans h.player, hl.stream.trans h.stream, ?_,
    hd.isApplied h.held⟩
  rw [hd.bundle, (hd.final (isDone_of_isApplied h.held)).2, hl.bundle]
  exact h.source

theorem debit_newLeg (role : Role) (player : PlayerId) (v : TradeAssetSelection) :
    (newLeg role player .tradeDebit (bundle v)).Debit role player v := ⟨rfl, rfl, rfl, rfl⟩

theorem pays_newLeg
    (h : transfer d.bundle d.snapshot = some b) (hd : isApplied d = true) :
    (newLeg role player .tradeCredit b).Pays role player d := ⟨rfl, rfl, rfl, h, hd⟩

theorem addLeg_debit (h : ∀ l ∈ w.legs, l.role ≠ role)
    (player : PlayerId) (v : TradeAssetSelection) :
    ∃ a : Leg, a.Debit role player v ∧ isDone a = false ∧
      addLeg w role player .tradeDebit (bundle v) = { w with legs := w.legs ++ [a] } :=
  ⟨_, debit_newLeg role player v, rfl, addLeg_of_not_mem h _ _ _⟩

/-- The debit is found where it was added, or is added behind the legs that are there. -/
theorem addLeg_collect {pre : List Leg}
    (h : w.legs = pre ∨ ∃ a : Leg, w.legs = pre ++ [a] ∧ a.Debit role player v)
    (hpre : ∀ l ∈ pre, l.role ≠ role) :
    ∃ a : Leg, a.Debit role player v ∧
      addLeg w role player .tradeDebit (bundle v) = { w with legs := pre ++ [a] } ∧
      leg { w with legs := pre ++ [a] } role = some a := by
  have hfind : ∀ a : Leg, a.Debit role player v →
      leg { w with legs := pre ++ [a] } role = some a := by
    intro a ha
    have hnone : pre.find? (fun l => l.role = role) = none := by simpa using hpre
    simp [leg, hnone, ha.role]
  rcases h with h | ⟨a, h, ha⟩
  · obtain ⟨a, ha, -, hadd⟩ := addLeg_debit (w := w) (h ▸ hpre) player v
    exact ⟨a, ha, h ▸ hadd, hfind a ha⟩
  · have hmem : ∃ l ∈ w.legs, l.role = role := ⟨a, by simp [h], ha.role⟩
    refine ⟨a, ha, ?_, hfind a ha⟩
    rw [addLeg_of_mem hmem, ← h]

section

variable (h : transferLeg w role receiver (some d) = .ok w')

include h

variable (hnew : ∀ l ∈ w.legs, l.role ≠ role)

include hnew

/-- A credit with a new role is appended and found there. -/
theorem transferLeg_new (hd : isApplied d = true) :
    ∃ c : Leg, c.Pays role receiver d ∧ w' = { w with legs := w.legs ++ [c] } ∧
      isDone c = false ∧ leg w' role = some c := by
  obtain ⟨l, b, hl, hb, rfl⟩ := transferLeg_ok h
  cases hl
  have hnone : w.legs.find? (fun l => l.role = role) = none := by simpa using hnew
  refine ⟨newLeg role receiver .tradeCredit b, pays_newLeg hb hd, addLeg_of_not_mem hnew _ _ _,
    rfl, ?_⟩
  rw [addLeg_of_not_mem hnew]
  simp [leg, hnone, newLeg]

theorem transferLeg_pays (hd : isApplied d = true) :
    ∃ c : Leg, c.Pays role receiver d ∧ w' = { w with legs := w.legs ++ [c] } := by
  obtain ⟨c, hc, hw, -⟩ := transferLeg_new h hnew hd
  exact ⟨c, hc, hw⟩

end

theorem transferLeg_old
    (h : transferLeg w role receiver src = .ok w') (hold : ∃ l ∈ w.legs, l.role = role) :
    w' = w := by
  obtain ⟨l, b, -, -, rfl⟩ := transferLeg_ok h
  exact addLeg_of_mem hold _ _ _

theorem returnApplied_eq
    (hd : isApplied d = true) :
    returnApplied w role receiver (some d) = transferLeg w role receiver (some d) := by
  rw [returnApplied, applied_some, if_pos hd]

theorem returnApplied_pays
    (h : returnApplied w role receiver (some d) = .ok w') (hnew : ∀ l ∈ w.legs, l.role ≠ role)
    (hd : isApplied d = true) :
    ∃ c : Leg, c.Pays role receiver d ∧ w' = { w with legs := w.legs ++ [c] } :=
  transferLeg_pays (returnApplied_eq hd ▸ h) hnew hd

theorem returnApplied_of_not (h : returnApplied w role receiver src = .ok w')
    (hsrc : applied src = false) : w' = w := by
  rw [returnApplied, if_neg (by simp [hsrc])] at h
  exact (Except.ok.inj h).symm

/-! ## What `advance` does to the legs -/

theorem writeOutcome_later {out : LegOutcome} (hl : isDone l = false)
    (h : writeOutcome l out = .ok l') : Later l l' := by
  have hfinal : ∀ {P : Prop}, isDone l = true → P := fun hd => by rw [hl] at hd; cases hd
  unfold writeOutcome at h
  dsimp only at h
  split at h
  · cases h
    exact ⟨rfl, rfl, rfl, rfl, hfinal⟩
  · cases h
  · cases h
    exact ⟨rfl, rfl, rfl, rfl, hfinal⟩

variable {results : OpId → Option LegOutcome}

/-- The leg stays, or the final outcome of its operation is written to it. -/
def Recorded (results : OpId → Option LegOutcome) (l l' : Leg) : Prop :=
  l' = l ∨ (l.opId ≠ 0 ∧ isDone l = false ∧ ∃ out, results l.opId = some out ∧
    out.status.isFinal = true ∧ out.status ≠ .appliedPartial ∧ writeOutcome l out = .ok l')

theorem Recorded.later (h : Recorded results l l') : Later l l' := by
  rcases h with rfl | ⟨-, hl, out, -, -, -, hwrite⟩
  · exact .refl l'
  · exact writeOutcome_later hl hwrite

theorem recordOutcomes_recorded {partly : Bool}
    (h : recordOutcomes results ls = .ok (ls', partly)) : Forall₂ (Recorded results) ls ls' := by
  induction ls generalizing ls' partly with
  | nil =>
    cases h
    exact .nil
  | cons l ls ih =>
    -- The rest of the list is read in the same way in every branch.
    have htail : ∀ {x : Leg}, Recorded results l x →
        (recordOutcomes results ls >>= fun r => Except.ok (x :: r.1, r.2)) = .ok (ls', partly) →
        Forall₂ (Recorded results) (l :: ls) ls' := by
      intro x hx hrest
      obtain ⟨⟨rest, q⟩, hrec, heq⟩ := bind_eq_ok hrest
      cases heq
      exact .cons hx (ih hrec)
    unfold recordOutcomes at h
    split at h
    · exact htail (.inl rfl) h
    rename_i hopen
    simp only [not_or, not_not] at hopen
    have hl : isDone l = false := by simp [isDone, hopen.2]
    split at h
    · cases h
    rename_i out hout
    split at h
    · exact htail (.inl rfl) h
    split at h
    · cases h
    rename_i hfinal
    split at h
    · cases h
      exact .cons (.inl rfl) (List.forall₂_same.2 fun x _ => .inl rfl)
    · obtain ⟨l', hwrite, h⟩ := bind_eq_ok h
      split at h
      · cases h
      · exact htail (.inr ⟨hopen.1, hl, out, hout, by simpa using hfinal, ‹_›, hwrite⟩) h

theorem recordOutcomes_later {partly : Bool} (h : recordOutcomes results ls = .ok (ls', partly)) :
    Forall₂ Later ls ls' :=
  (recordOutcomes_recorded h).imp fun _ _ h => h.later

theorem recordOutcomes_done (h : ∀ l ∈ ls, isDone l = true) :
    recordOutcomes results ls = .ok (ls, false) := by
  induction ls with
  | nil => rfl
  | cons l ls ih =>
    have hl : l.outcome ≠ .unspecified := by simpa [isDone] using h l mem_cons_self
    rw [recordOutcomes, if_pos (.inr hl), ih fun x hx => h x (mem_cons_of_mem l hx)]
    rfl

/-- What sending does to a leg: one that has no operation yet gets one. -/
def Sent (l l' : Leg) : Prop := l' = l ∨ (l.opId = 0 ∧ ∃ op, l' = { l with opId := op })

theorem Sent.later (h : Sent l l') : Later l l' := by
  rcases h with rfl | ⟨-, op, rfl⟩
  · exact Later.refl _
  · exact ⟨rfl, rfl, rfl, rfl, fun _ => ⟨rfl, rfl⟩⟩

theorem sendLegs_sent {opIds : Role → OpId} (h : sendLegs opIds w = .ok w') :
    ∃ legs, Forall₂ Sent w.legs legs ∧ w' = { w with legs := legs } := by
  unfold sendLegs at h
  split at h
  · cases h
  cases h
  refine ⟨_, ?_, rfl⟩
  rw [List.forall₂_map_right_iff]
  refine List.forall₂_same.2 fun l _ => ?_
  split
  · exact .inr ⟨‹_›, _, rfl⟩
  · exact .inl rfl

def Draft.setLegs (d : Draft) (legs : List Leg) : Draft := ⟨d.r, { d.w with legs := legs }⟩

variable {p : Policy} {i : AdvanceInput} {d' : Draft}

/-- What `advance` makes of a contract, with what sending does to each leg. -/
def Advanced (p : Policy) (i : AdvanceInput) (d d' : Draft) (sent : Leg → Leg → Prop) : Prop :=
  ∃ legs partly, recordOutcomes i.results d.w.legs = .ok (legs, partly) ∧
    ((partly = true ∧ d' = (d.setLegs legs).move .manual .manual) ∨
      (partly = false ∧ ∃ d₁ legs', plan p i.now (d.setLegs legs) = .ok d₁ ∧
        Forall₂ sent (marketBarrier i.unfinished i.bad d₁).w.legs legs' ∧
        d' = (marketBarrier i.unfinished i.bad d₁).setLegs legs'))

theorem advanceDraft_sent {d : Draft} (h : advanceDraft p i d = .ok d') :
    Advanced p i d d' Sent := by
  unfold advanceDraft at h
  obtain ⟨⟨legs, partly⟩, hrecord, h⟩ := bind_eq_ok h
  refine ⟨legs, partly, hrecord, ?_⟩
  dsimp only at h
  split at h
  next hpartly =>
    cases h
    exact .inl ⟨hpartly, rfl⟩
  next hpartly =>
    obtain ⟨d₁, hplan, h⟩ := bind_eq_ok h
    obtain ⟨w, hsend, h⟩ := bind_eq_ok h
    cases h
    obtain ⟨legs', hlegs', rfl⟩ := sendLegs_sent hsend
    exact .inr ⟨eq_false_of_ne_true hpartly, d₁, legs', hplan, hlegs', rfl⟩

theorem advanceDraft_ok {d : Draft} (h : advanceDraft p i d = .ok d') :
    Advanced p i d d' Later := by
  obtain ⟨legs, partly, hrecord, hpartly | ⟨hpartly, d₁, legs', hplan, hlegs', heq⟩⟩ :=
    advanceDraft_sent h
  · exact ⟨legs, partly, hrecord, .inl hpartly⟩
  · exact ⟨legs, partly, hrecord,
      .inr ⟨hpartly, d₁, legs', hplan, hlegs'.imp fun _ _ hsent => hsent.later, heq⟩⟩

/-- What later legs, the plan, the barrier and the end of a contract in part keep, `advance`
keeps. -/
theorem advanceDraft_keeps {I : Draft → Prop}
    (hlater : ∀ d legs, I d → Forall₂ Later d.w.legs legs → I (d.setLegs legs))
    (hmanual : ∀ d, I d → I (d.move .manual .manual))
    (hplan : ∀ d d', I d → plan p i.now d = .ok d' → I d')
    (hbarrier : ∀ d, I d → I (marketBarrier i.unfinished i.bad d)) {d : Draft} (hd : I d)
    (h : advanceDraft p i d = .ok d') : I d' := by
  obtain ⟨legs, partly, hrecord, hrest⟩ := advanceDraft_ok h
  have hd₁ : I (d.setLegs legs) := hlater d legs hd (recordOutcomes_later hrecord)
  rcases hrest with ⟨-, rfl⟩ | ⟨-, d₂, legs', hplan₂, hlegs', rfl⟩
  · exact hmanual _ hd₁
  · exact hlater _ legs' (hbarrier d₂ (hplan _ d₂ hd₁ hplan₂)) hlegs'

end Mmorpg.Commerce
