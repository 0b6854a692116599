import Mmorpg.Handoff.FenceScripts

/-!
# Placing a player: owner epoch, location and rollback

The scripts with which scene_manager moves a player to another scene node
(go/scene_manager/internal/logic/owner_epoch.go, location_revision.go) and the source scene's
reading of the evidence (player_lifecycle.h). `luaMintEpochAndSetLocation` raises the owner
epoch by `INCR` and writes the location when the epoch is the observed one and, for a handoff,
its marker is still there. `luaRollbackPlayerPlacement` takes a placement back by raising the
epoch once more; it rewrites the marker for the new epoch.

As for the barrier scripts, the effect is an outcome: refuse, or write.
-/

namespace Mmorpg.Handoff

open Decimal Option

/-- `strconv.FormatUint`, and what `INCR` stores. -/
abbrev formatUint (n : Nat) : Text := Nat.toDigits 10 n

/-- `INCR` on the owner key: a missing key counts as zero, and a value that is not a number or
would leave the signed 64-bit range is an error. -/
def incr (cur : Option Text) : Option Text :=
  match cur with
  | none => some (formatUint 1)
  | some s => if uint s true && value s + 1 < 2 ^ 63 then some (formatUint (value s + 1)) else none

/-- `tonumber` on the decimal texts that the scripts compare. -/
def tonumber (s : Text) : Option Nat :=
  if s ≠ [] && s.all Char.isDigit then some (value s) else none

/-- The keys of one player that scene_manager's scripts read and write. -/
structure Keys where
  store : Store
  revisionTag : Option Text
  revisionFloor : Option Text

/-- `incr` is the new owner epoch when there was an `INCR`; location and revision tag are the
new values. -/
inductive PlaceOutcome where
  | refuse (reply : Reply)
  | write (incr location revisionTag : Option Text) (mark : MarkWrite) (reply : Reply)

/-- `locationExpectMode` with the expected bytes. -/
inductive LocationExpectation where
  | any
  | missing
  | present (raw : Text)
deriving DecidableEq, Repr

structure PlaceArgs where
  epoch : Text
  location : Text
  marker : Text
  expect : LocationExpectation
  revision : Text
  newTag : Text
  observedTag : Text

def placementRevisionCheck (a : PlaceArgs) (k : Keys) : Bool :=
  a.revision = [] ||
    k.revisionFloor = some a.revision &&
      ((k.store.location = some a.location && k.revisionTag.getD [] = a.newTag) ||
        k.revisionTag.getD [] = a.observedTag)

def locationExpectCheck (a : PlaceArgs) (s : Store) : Bool :=
  match a.expect with
  | .any => true
  | .missing => s.location.isNone
  | .present raw => s.location = some raw

/-- `luaWritePlacementRevision`: the new tag, or none. -/
def writePlacementRevision (a : PlaceArgs) : Option Text :=
  if a.revision ≠ [] && a.newTag ≠ [] then some a.newTag else none

/-- The owner epoch as the scripts read it: a missing key is `"0"`. -/
def Store.epochText (s : Store) : Text := s.ownerEpoch.getD ['0']

/-- `luaMintEpochAndSetLocation`. The script that finds its own earlier write sets the epoch to
the value it has, which changes nothing, and answers with that value negated. -/
def mintEpochAndSetLocation (a : PlaceArgs) (k : Keys) : PlaceOutcome :=
  let cur := k.store.epochText
  if !placementRevisionCheck a k then .refuse (.int 0)
  else if cur ≠ a.epoch then
    if a.marker ≠ [] && tonumber cur = (tonumber a.epoch).map (· + 1)
        && k.store.location = some a.location && k.store.mark = some a.marker then
      .refuse (.int (-(value cur)))
    else .refuse (.int 0)
  else if !locationExpectCheck a k.store then .refuse (.int 0)
  else if a.marker ≠ [] && k.store.mark ≠ some a.marker then .refuse (.int (-1))
  else
    match incr k.store.ownerEpoch with
    | none => .refuse (.error "value is not an integer or out of range")
    | some minted =>
      .write (some minted) (some a.location) (writePlacementRevision a) .keep (.int (value minted))

def setLocationIfEpoch (a : PlaceArgs) (k : Keys) : PlaceOutcome :=
  if !placementRevisionCheck a k then .refuse (.int 0)
  else if k.store.epochText ≠ a.epoch then .refuse (.int 0)
  else if k.store.location = some a.location
      && (a.revision = [] || k.revisionTag = some a.newTag) then .refuse (.int 1)
  else if !locationExpectCheck a k.store then .refuse (.int 0)
  else .write none (some a.location) (writePlacementRevision a) .keep (.int 1)

/-! ## Rolling a placement back -/

inductive RollbackMode where
  | keep
  | bump
deriving DecidableEq, Repr

structure RollbackArgs where
  placedRaw : Text
  restoredRaw : Text
  placedEpoch : Text
  mode : RollbackMode
  requiredMarker : Text
  forwardMarker : Text
  revision : Text
  tag : Text
  restoreTag : Text

def rollbackRevisionCheck (a : RollbackArgs) (k : Keys) : Bool :=
  a.revision = [] ||
    k.revisionFloor = some a.revision &&
      (k.revisionTag.getD [] = a.tag || k.revisionTag.getD [] = a.restoreTag)

def nonEmpty (t : Text) : Option Text := if t = [] then none else some t

/-- `luaRollbackPlayerPlacement`. -/
def rollbackPlayerPlacement (a : RollbackArgs) (k : Keys) : PlaceOutcome :=
  let cur := k.store.epochText
  if !rollbackRevisionCheck a k then .refuse (.int 0)
  else if k.store.location = some a.placedRaw && cur = a.placedEpoch then
    if a.requiredMarker ≠ [] && k.store.mark ≠ some a.requiredMarker then .refuse (.int 3)
    else
      let mark := if a.forwardMarker ≠ [] then MarkWrite.set a.forwardMarker else .keep
      match a.mode with
      | .keep => .write none (nonEmpty a.restoredRaw) (nonEmpty a.restoreTag) mark (.int 1)
      | .bump =>
        match incr k.store.ownerEpoch with
        | none => .refuse (.error "value is not an integer or out of range")
        | some after =>
          .write (some after) (nonEmpty a.restoredRaw) (nonEmpty a.restoreTag) mark
            (.int (-(value after)))
  else if a.mode = .bump && tonumber cur = (tonumber a.placedEpoch).map (· + 1)
      && k.store.location = nonEmpty a.restoredRaw then .refuse (.int 2)
  else .refuse (.int 0)

def Keys.apply (k : Keys) : PlaceOutcome → Keys
  | .refuse _ => k
  | .write incr location revisionTag mark _ =>
    { k with
      store := { k.store with
        ownerEpoch := incr <|> k.store.ownerEpoch
        location
        mark := mark.apply k.store.mark }
      revisionTag }

/-! ## The Go side: the handoff gate and the rollback plan -/

/-- `strings.Cut(raw, ":")`. -/
def cutColon (raw : Text) : Option (Text × Text) :=
  match raw.dropWhile (· ≠ ':') with
  | [] => none
  | _ :: after => some (raw.takeWhile (· ≠ ':'), after)

/-- `strconv.ParseUint(s, 10, 64)`: leading zeros are accepted. -/
def parseUint (s : Text) : Option Nat :=
  if s ≠ [] && s.all Char.isDigit && value s < 2 ^ 64 then some (value s) else none

/-- `strconv.ParseInt(s, 10, 64)`. -/
def parseInt (s : Text) : Option Int :=
  match s with
  | '-' :: t => if t ≠ [] && t.all Char.isDigit && value t ≤ 2 ^ 63 then some (-value t) else none
  | '+' :: t => if t ≠ [] && t.all Char.isDigit && value t < 2 ^ 63 then some (value t) else none
  | t => if t ≠ [] && t.all Char.isDigit && value t < 2 ^ 63 then some (value t) else none

/-- `ParseHandoff`: owner epoch and time of the save. -/
def parseHandoff (raw : Text) : Option (Nat × Int) :=
  match cutColon raw with
  | none => none
  | some (epochText, savedText) =>
    match parseUint epochText, parseInt savedText with
    | some epoch, some savedAt => some (epoch, savedAt)
    | _, _ => none

/-- `checkHandoffCommitted`: the marker is of the observed owner epoch. -/
def handoffCommitted (markerRaw : Text) (observedEpoch : Nat) : Bool :=
  match parseHandoff markerRaw with
  | some (epoch, _) => epoch = observedEpoch
  | none => false

/-- `PlayerLocation`, the fields that the rollback and the source scene read. -/
structure PlayerLocation where
  sceneId : Nat
  nodeId : Text
  zoneId : Nat
  ownerEpoch : Nat
  updateTime : Nat
  rollbackReceipt : Text
deriving DecidableEq, Repr

structure PlacedLocation where
  epoch : Nat
  minted : Bool
  raw : Text

structure RouteRollbackPlan where
  mode : RollbackMode
  restoredRaw : Text
  epochAfter : Nat
  requiredMarker : Text
  forwardMarker : Text

/-- The marker that a rollback leaves: the epoch after it and, byte for byte, what stood behind
the colon. -/
def forwardMarkerOf (epochAfter : Nat) (requiredMarker : Text) : Text :=
  if requiredMarker = [] then []
  else formatUint epochAfter ++ ':' :: ((cutColon requiredMarker).map (·.2)).getD []

/-- `planRouteRollback`. `marshal` is the protobuf encoding. -/
def planRouteRollback (marshal : PlayerLocation → Option Text) (old : Option PlayerLocation)
    (oldRaw : Text) (oldZoneId : Nat) (placed : PlacedLocation) (requiredMarker : Text)
    (keepMintedEpoch : Bool) : Option RouteRollbackPlan :=
  if old.isNone != decide (oldRaw = []) then none
  else if !placed.minted || keepMintedEpoch then
    if requiredMarker ≠ [] then none
    else some ⟨.keep, oldRaw, placed.epoch, [], []⟩
  else if placed.epoch = 0 then none
  else if requiredMarker ≠ [] && (old.isNone || (parseHandoff requiredMarker).isNone) then none
  else
    match old with
    | none => some ⟨.bump, [], placed.epoch + 1, requiredMarker,
        forwardMarkerOf (placed.epoch + 1) requiredMarker⟩
    | some loc =>
      (marshal { loc with
        ownerEpoch := placed.epoch + 1
        rollbackReceipt := requiredMarker
        zoneId := if loc.zoneId = 0 then oldZoneId else loc.zoneId }).map fun raw =>
          ⟨.bump, raw, placed.epoch + 1, requiredMarker,
            forwardMarkerOf (placed.epoch + 1) requiredMarker⟩

/-! ## The source scene: what the evidence says -/

/-- `travel_outcome::Ownership`. -/
inductive Ownership where
  | unchanged
  | rolledBackToSelf
  | receiptAnomaly
  | returnedToSelf
  | movedElsewhere
  | locationUnknown
deriving DecidableEq, Repr

structure OwnershipFacts where
  cachedEpoch : Nat
  markEpoch : Nat
  redisEpoch : Nat
  locationParsed : Bool
  locationOnSelf : Bool
  locationOwnerEpoch : Nat
  receiptIsMine : Bool
deriving DecidableEq, Repr

def classifyOwnership (facts : OwnershipFacts) : Ownership :=
  if facts.redisEpoch = facts.cachedEpoch then .unchanged
  else if !facts.locationParsed then .locationUnknown
  else if facts.receiptIsMine then
    if facts.markEpoch ≠ 0 && facts.markEpoch = facts.cachedEpoch
        && facts.redisEpoch = facts.markEpoch + 2 && facts.locationOwnerEpoch = facts.redisEpoch
        && facts.locationOnSelf then .rolledBackToSelf
    else .receiptAnomaly
  else if facts.locationOnSelf then .returnedToSelf
  else .movedElsewhere

/-- The owner epoch in which the source resumes, if it does: the cached one when nothing
changed, the one read when its placement was rolled back. -/
def resumeEpoch (facts : OwnershipFacts) : Option Nat :=
  match classifyOwnership facts with
  | .unchanged => some facts.cachedEpoch
  | .rolledBackToSelf => some facts.redisEpoch
  | _ => none

/-! ## What the placement scripts write -/

section Writes

variable {k : Keys} {i loc tag : Option Text} {mark : MarkWrite} {r : Reply}

theorem ite_refuse_eq_place {c : Prop} [Decidable c] {q : Reply} {x : PlaceOutcome} :
    (if c then PlaceOutcome.refuse q else x) = .write i loc tag mark r ↔
      ¬ c ∧ x = .write i loc tag mark r := by
  split
  next hc => simp [hc]
  next hc => simp [hc]

theorem incr_eq {cur : Option Text} {t : Text} (h : incr cur = some t) :
    t = formatUint (value (cur.getD ['0']) + 1) := by
  unfold incr at h
  split at h
  · exact (some.inj h).symm
  next s =>
    split at h
    · exact (some.inj h).symm
    · cases h

theorem mintEpochAndSetLocation_write {a : PlaceArgs}
    (h : mintEpochAndSetLocation a k = .write i loc tag mark r) :
    mark = .keep ∧ k.store.epochText = a.epoch ∧
      (a.marker = [] ∨ k.store.mark = some a.marker) ∧
      i = some (formatUint (value k.store.epochText + 1)) := by
  simp only [mintEpochAndSetLocation, ite_refuse_eq_place] at h
  obtain ⟨-, h⟩ := h
  split at h
  · split at h <;> cases h
  rename_i hcur
  simp only [ite_refuse_eq_place] at h
  obtain ⟨-, hmark, h⟩ := h
  split at h
  · cases h
  next minted hinc =>
    cases h
    refine ⟨rfl, by simpa using hcur, ?_, by rw [incr_eq hinc]; rfl⟩
    simpa [or_iff_not_imp_left] using hmark

theorem setLocationIfEpoch_write {a : PlaceArgs}
    (h : setLocationIfEpoch a k = .write i loc tag mark r) : mark = .keep ∧ i = none := by
  simp only [setLocationIfEpoch, ite_refuse_eq_place] at h
  obtain ⟨-, -, -, -, h⟩ := h
  cases h
  exact ⟨rfl, rfl⟩

theorem rollbackPlayerPlacement_write {a : RollbackArgs}
    (h : rollbackPlayerPlacement a k = .write i loc tag mark r) :
    k.store.epochText = a.placedEpoch ∧
      (a.requiredMarker = [] ∨ k.store.mark = some a.requiredMarker) ∧
      mark = (if a.forwardMarker ≠ [] then .set a.forwardMarker else .keep) ∧
      loc = nonEmpty a.restoredRaw ∧
      i = (match a.mode with
        | .keep => none
        | .bump => some (formatUint (value k.store.epochText + 1))) := by
  simp only [rollbackPlayerPlacement, ite_refuse_eq_place] at h
  obtain ⟨-, h⟩ := h
  split at h
  next hfit =>
    simp only [Bool.and_eq_true, decide_eq_true_eq] at hfit
    rw [ite_refuse_eq_place] at h
    obtain ⟨hmark, h⟩ := h
    have hreq : a.requiredMarker = [] ∨ k.store.mark = some a.requiredMarker := by
      simpa [or_iff_not_imp_left] using hmark
    split at h
    · cases h
      exact ⟨hfit.2, hreq, rfl, rfl, rfl⟩
    · split at h
      · cases h
      next after hinc =>
        cases h
        exact ⟨hfit.2, hreq, rfl, rfl, by rw [incr_eq hinc]; rfl⟩
  · split at h <;> cases h

end Writes

/-! ## Marker texts -/

def markText (m : Nat) (stamp : Text) : Text := formatUint m ++ ':' :: stamp

theorem cutColon_markText (m : Nat) (stamp : Text) :
    cutColon (markText m stamp) = some (formatUint m, stamp) := by
  have hdig : ∀ c ∈ formatUint m, decide (c ≠ ':') = true := by
    intro c hc
    have := digits_toDigits m c hc
    simp only [decide_eq_true_eq]
    rintro rfl
    exact absurd this (by decide)
  simp only [cutColon, markText, List.dropWhile_append_of_pos hdig,
    List.takeWhile_append_of_pos hdig]
  simp

/-- The gate lets only the marker of the observed epoch pass. -/
theorem handoffCommitted_markText {m epoch : Nat} {stamp : Text}
    (h : handoffCommitted (markText m stamp) epoch = true) : epoch = m := by
  simp only [handoffCommitted, parseHandoff, cutColon_markText] at h
  split at h
  next e savedAt hparse =>
    split at hparse
    next epoch' savedAt' hu _ =>
      simp only [parseUint] at hu
      split at hu
      · simp_all
      · cases hu
    · cases hparse
  · cases h

/-! ## What the source scene reads -/

/-- The source of a handoff: its zone and node, the epoch it holds the player in, and epoch and
time of the marker it wrote. -/
structure Source where
  zoneId : Nat
  nodeId : Nat
  cachedEpoch : Nat
  markEpoch : Nat
  requestedAtMs : Text

/-- The facts of `JudgeTravelOutcomeReply`, read off the owner epoch and the location. -/
def Source.ownershipFacts (src : Source) (parse : Text → Option PlayerLocation) (s : Store) :
    OwnershipFacts :=
  match s.location.bind parse with
  | none => ⟨src.cachedEpoch, src.markEpoch, value s.epochText, false, false, 0, false⟩
  | some loc =>
    ⟨src.cachedEpoch, src.markEpoch, value s.epochText, true,
      src.zoneId ≠ 0 && loc.zoneId = src.zoneId && loc.nodeId = formatUint src.nodeId,
      loc.ownerEpoch,
      loc.rollbackReceipt ≠ [] && src.markEpoch ≠ 0 &&
        loc.rollbackReceipt = markText src.markEpoch src.requestedAtMs⟩

/-- What the barrier scripts accept as a marker of the owner epoch `e`. -/
theorem marker_eq {v e : Text} (h : marker v e = true) : ∃ stamp, v = e ++ ':' :: stamp := by
  simp only [marker] at h
  split at h
  next owner time hparts =>
    simp only [Bool.and_eq_true, decide_eq_true_eq] at h
    simp only [markParts] at hparts
    split at hparts
    next a b hsplit =>
      split at hparts
      · simp only [some.injEq, Prod.mk.injEq] at hparts
        have hv : [':'].intercalate (v.splitOn ':') = v := List.intercalate_splitOn ':'
        rw [← hv, hsplit, ← h.1, ← hparts.1]
        simp [List.intercalate]
      · cases hparts
    · cases hparts
  · cases h

/-- A plan that needs a marker writes that marker on for the next epoch, with the same time. -/
theorem planRouteRollback_marker {marshal : PlayerLocation → Option Text}
    {old : Option PlayerLocation} {oldRaw : Text} {oldZoneId : Nat} {placed : PlacedLocation}
    {marker : Text} {keep : Bool} {plan : RouteRollbackPlan}
    (h : planRouteRollback marshal old oldRaw oldZoneId placed marker keep = some plan) :
    plan.requiredMarker = marker ∧
      (marker = [] ∧ plan.forwardMarker = [] ∨
        marker ≠ [] ∧ placed.minted = true ∧ ∃ e t, cutColon marker = some (e, t) ∧
          plan.forwardMarker = markText (placed.epoch + 1) t) := by
  unfold planRouteRollback at h
  split at h
  · cases h
  split at h
  · split at h
    · cases h
    next hm =>
      cases h
      have hm : marker = [] := by simpa using hm
      exact ⟨hm.symm, .inl ⟨hm, rfl⟩⟩
  next hminted =>
  split at h
  · cases h
  split at h
  · cases h
  rename_i hgate
  have hplan : plan.requiredMarker = marker ∧
      plan.forwardMarker = forwardMarkerOf (placed.epoch + 1) marker := by
    cases old with
    | none =>
      cases h
      exact ⟨rfl, rfl⟩
    | some loc =>
      obtain ⟨raw, -, rfl⟩ := map_eq_some_iff.1 h
      exact ⟨rfl, rfl⟩
  refine ⟨hplan.1, ?_⟩
  by_cases hm : marker = []
  · exact .inl ⟨hm, by rw [hplan.2, forwardMarkerOf, if_pos hm]⟩
  refine .inr ⟨hm, by simp_all, ?_⟩
  -- the marker was parsed, so it has a colon
  have hparse : (parseHandoff marker).isSome := by
    simp only [ne_eq, hm, not_false_eq_true, decide_true, Bool.true_and, Bool.or_eq_true,
      not_or] at hgate
    exact isSome_iff_ne_none.2 (by simpa using hgate.2)
  cases hcut : cutColon marker with
  | none => simp [parseHandoff, hcut] at hparse
  | some et =>
    exact ⟨et.1, et.2, rfl, by rw [hplan.2, forwardMarkerOf, if_neg hm, hcut]; rfl⟩

/-- A plan for a mint on a marker restores the old location, in the next epoch and with the marker
as its receipt. -/
theorem planRouteRollback_restored {marshal : PlayerLocation → Option Text} {loc : PlayerLocation}
    {oldRaw : Text} {oldZoneId : Nat} {placed : PlacedLocation} {marker : Text} {keep : Bool}
    {plan : RouteRollbackPlan}
    (h : planRouteRollback marshal (some loc) oldRaw oldZoneId placed marker keep = some plan)
    (hminted : placed.minted = true) (hmarker : marker ≠ []) :
    plan.mode = .bump ∧ marshal { loc with
      ownerEpoch := placed.epoch + 1
      rollbackReceipt := marker
      zoneId := if loc.zoneId = 0 then oldZoneId else loc.zoneId } = some plan.restoredRaw := by
  cases keep with
  | true => simp [planRouteRollback, hmarker] at h
  | false =>
    simp only [planRouteRollback, hminted, Bool.not_true, Bool.or_self, Bool.false_eq_true,
      if_false, ite_none_left_eq_some, map_eq_some_iff] at h
    obtain ⟨-, -, -, raw, hraw, rfl⟩ := h
    exact ⟨rfl, hraw⟩

end Mmorpg.Handoff
