import Mmorpg.Handoff.FenceHistory
import Mmorpg.Handoff.OwnerEpoch

/-!
# A handoff is not both granted and taken back

Four parties work on one player's keys: scene_manager places the player (raising the owner
epoch on a handoff marker) and rolls placements back, the source scene publishes, judges and
resumes, the target scene registers, and markers expire. Every script may run at any time and
any number of times; other keys change arbitrarily in between.

`Travel` carries, next to the keys, what the statement is about: which published record the
stored marker comes from, which epochs were minted on the marker of which published record,
which revoked records were resumed from, and for which epochs a registration was answered
with 1. **Safety** (`granted_or_resumed`): no handoff is resumed by its source when the epoch
minted on its marker was registered. The argument rests on three numbers that only grow: the
owner epoch, the owner epoch of the stored record, and the age of the stored record.
-/

namespace Mmorpg.Handoff

open Decimal FreshSwap List Option Machine

/-- One EnterScene request: everything its scripts are sent with. The handoff gate was passed
before, on the same observation. -/
structure Request where
  observedEpoch : Nat
  mint : Bool
  requiredMarker : Text
  placedRaw : Text
  expect : LocationExpectation
  revision : Text
  newTag : Text
  observedTag : Text
  restoreTag : Text
  old : Option PlayerLocation
  oldRaw : Text
  oldZoneId : Nat
  keepMintedEpoch : Bool
  committed : mint = true →
    requiredMarker = [] ∨ handoffCommitted requiredMarker observedEpoch = true

namespace Request

def placeArgs (q : Request) : PlaceArgs :=
  ⟨formatUint q.observedEpoch, q.placedRaw, q.requiredMarker, q.expect, q.revision, q.newTag,
    q.observedTag⟩

def placed (q : Request) : PlacedLocation :=
  ⟨if q.mint then q.observedEpoch + 1 else q.observedEpoch, q.mint, q.placedRaw⟩

/-- `placePlayerLocation`: the script depends on whether the owner changes. -/
def place (q : Request) (k : Keys) : PlaceOutcome :=
  if q.mint then mintEpochAndSetLocation q.placeArgs k else setLocationIfEpoch q.placeArgs k

/-- `rollbackPlacementAfterPushFailure`: no plan, no script. -/
def rollback (marshal : PlayerLocation → Option Text) (q : Request) (k : Keys) : PlaceOutcome :=
  match planRouteRollback marshal q.old q.oldRaw q.oldZoneId q.placed q.requiredMarker
      q.keepMintedEpoch with
  | none => .refuse (.error "plan_error")
  | some plan =>
    rollbackPlayerPlacement ⟨q.placedRaw, plan.restoredRaw, formatUint q.placed.epoch, plan.mode,
      plan.requiredMarker, plan.forwardMarker, q.revision, q.newTag, q.restoreTag⟩ k

end Request

/-- The keys and the commands in flight, and the record of what happened. -/
structure Travel where
  sys : System
  revisionTag : Option Text
  revisionFloor : Option Text
  /-- The published record whose script wrote the stored marker; a rollback carries it on. -/
  publishedBy : Option Text
  /-- Mints on a marker, with the published record it came from. -/
  minted : List (Text × Nat)
  /-- Revoked records from which a resume was answered with 1. -/
  resumed : List Text
  /-- Owner epochs for which a registration was answered with 1. -/
  registered : List Nat
  /-- The results of `INCR` on the owner epoch, in order. -/
  incrs : List Nat

inductive TravelEvent where
  | issue (c : Command)
  | deliver (i : Nat)
  | place (q : Request)
  | rollback (q : Request)
  | expire
  | others (o : Store) (revisionTag revisionFloor : Option Text)

namespace Travel

def start (s : Store) : Travel := ⟨.start s, none, none, none, [], [], [], []⟩

def keys (t : Travel) : Keys := ⟨t.sys.store, t.revisionTag, t.revisionFloor⟩

def owner (t : Travel) : Nat := value t.sys.store.epochText

/-- A marker write by a barrier script belongs to the record written with it. -/
def notePublish (previous : Option Text) : Outcome → Option Text
  | .write next (.set _) _ => some next
  | .write _ .delete _ => none
  | _ => previous

def noteResume (resumed : List Text) : Command → Reply → List Text
  | .resume old _ _ _, .int 1 => resumed ++ [old]
  | _, _ => resumed

def noteRegister (registered : List Nat) : Command → Reply → List Nat
  | .register epoch _ _, .int 1 => registered ++ [value epoch]
  | _, _ => registered

def deliver (t : Travel) (c : Command) : Travel :=
  let o := c.outcome t.sys.store
  { t with
    sys := t.sys.exec c
    publishedBy := notePublish t.publishedBy o
    resumed := noteResume t.resumed c o.reply
    registered := noteRegister t.registered c o.reply }

/-- The effect of a placement or rollback script; `onMarker` when it is a mint on a marker. -/
def applyPlace (t : Travel) (onMarker : Bool) (o : PlaceOutcome) : Travel :=
  let k := t.keys.apply o
  let t' := { t with sys := { t.sys with store := k.store }, revisionTag := k.revisionTag }
  match o with
  | .write (some n) _ _ _ _ =>
    { t' with
      incrs := t.incrs ++ [value n]
      minted := match t.publishedBy with
        | some f => if onMarker then t.minted ++ [(f, value n)] else t.minted
        | none => t.minted }
  | _ => t'

def step (marshal : PlayerLocation → Option Text) (t : Travel) : TravelEvent → Travel
  | .issue c => { t with sys := t.sys.issue c }
  | .deliver i =>
    match t.sys.issued[i]? with
    | some c => t.deliver c
    | none => t
  | .place q => t.applyPlace (q.mint && q.requiredMarker ≠ []) (q.place t.keys)
  | .rollback q => t.applyPlace false (q.rollback marshal t.keys)
  | .expire => { t with sys := { t.sys with store := { t.sys.store with mark := none } },
                        publishedBy := none }
  | .others o revisionTag revisionFloor =>
    { t with
      sys := { t.sys with store := { o with
        ownerEpoch := t.sys.store.ownerEpoch
        handoffFence := t.sys.store.handoffFence
        mark := t.sys.store.mark } }
      revisionTag, revisionFloor }

/-- Every new record has a fresh nonce. -/
def Ok (t : Travel) : TravelEvent → Prop
  | .issue c => t.sys.Ok (.issue c)
  | _ => True

def born (t : Travel) (r : Text) : Nat := t.sys.history.birth r

/-! ## The invariant -/

/-- A handoff was resumed from the revoked record `r`, in the owner epoch `o`: later nothing
older than `r` can be published or minted on, and what is registered is older or newer. -/
structure ResumedOk (t : Travel) (r : Text) : Prop where
  known : r ∈ t.sys.known
  passed : t.born r < t.sys.history.age
  unmarked : ∀ f, t.publishedBy = some f → t.born r ≤ t.born f
  epochs : ∃ rec o, fence r = some rec ∧ (o = value rec.e ∨ o = value rec.e + 2) ∧ o ≤ t.owner ∧
    (∀ e ∈ t.registered, e ≤ value rec.e ∨ o ≤ e) ∧
    (∀ f e, (f, e) ∈ t.minted → t.born f < t.born r → e ≤ o)

structure Safe (t : Travel) : Prop where
  wellBorn : t.sys.history.WellBorn
  incrs_sorted : t.incrs.Pairwise (· < ·)
  incrs_le : ∀ n ∈ t.incrs, n ≤ t.owner
  marked : ∀ f, t.publishedBy = some f → f ∈ t.sys.known ∧ ∃ rec m stamp, fence f = some rec ∧
    t.sys.store.mark = some (markText m stamp) ∧ value rec.e ≤ m ∧ m % 2 = value rec.e % 2
  minted_ok : ∀ f e, (f, e) ∈ t.minted → f ∈ t.sys.known ∧ e ≤ t.owner ∧
    ∃ rec, fence f = some rec ∧ value rec.e < e ∧ e % 2 ≠ value rec.e % 2
  registered_le : ∀ e ∈ t.registered, ∃ g, t.sys.store.record = some g ∧ e ≤ value g.e
  judged : ∀ h f r stamp, .judge h f r stamp ∈ t.sys.issued →
    t.sys.store.raw = r ∨ r ∈ t.resumed →
    ∃ pub rev, fence f = some pub ∧ fence r = some rev ∧ value pub.e = value rev.e
  resume_stored : ∀ r n epoch loc, .resume r n epoch loc ∈ t.sys.issued →
    t.sys.store.raw = n → r ∈ t.resumed
  resumed_ok : ∀ r ∈ t.resumed, t.ResumedOk r

theorem start_safe (s : Store) : (start s).Safe := by
  refine ⟨System.start_wellBorn s, ?_, ?_, ?_, ?_, ?_, ?_, ?_, ?_⟩ <;> simp [start, System.start]

variable {t : Travel}

def Goes (t t' : Travel) : Prop := t'.Safe ∧ t.owner ≤ t'.owner

variable {f : Text}

section

variable (h : t.Safe)

include h

theorem Safe.stays : t.Goes t := ⟨h, le_rfl⟩

/-- Steps that leave the fence, the commands and the replies alone: the owner epoch may grow,
a marker may go, and a mint may be on the stored marker. -/
theorem Safe.of_keys {t' : Travel} (hissued : t'.sys.issued = t.sys.issued)
    (hknown : t'.sys.known = t.sys.known)
    (hfence : t'.sys.store.handoffFence = t.sys.store.handoffFence)
    (hresumed : t'.resumed = t.resumed) (hregistered : t'.registered = t.registered)
    (howner : t.owner ≤ t'.owner) (hsorted : t'.incrs.Pairwise (· < ·))
    (hincrs : ∀ n ∈ t'.incrs, n ≤ t'.owner)
    (hpub : ∀ f, t'.publishedBy = some f → t.publishedBy = some f)
    (hmarked : ∀ f rec, t'.publishedBy = some f → fence f = some rec →
      ∃ m stamp, t'.sys.store.mark = some (markText m stamp) ∧ value rec.e ≤ m ∧
        m % 2 = value rec.e % 2)
    (hminted : ∀ f e, (f, e) ∈ t'.minted → (f, e) ∈ t.minted ∨
      t.publishedBy = some f ∧ e ≤ t'.owner ∧
        ∀ rec, fence f = some rec → value rec.e < e ∧ e % 2 ≠ value rec.e % 2) :
    t.Goes t' := by
  have hraw : t'.sys.store.raw = t.sys.store.raw := by simp [Store.raw, hfence]
  have hhist : t'.sys.history = t.sys.history := by
    simp [System.history, hraw, hknown, hissued]
  have hborn : ∀ x, t'.born x = t.born x := fun x => by rw [born, hhist, born]
  refine ⟨⟨hhist ▸ h.wellBorn, hsorted, hincrs, ?_, ?_, ?_, ?_, ?_, ?_⟩, howner⟩
  · intro f hf
    obtain ⟨hk, rec, -, -, hrec, -⟩ := h.marked f (hpub f hf)
    obtain ⟨m, stamp, hm⟩ := hmarked f rec hf hrec
    exact ⟨hknown ▸ hk, rec, m, stamp, hrec, hm⟩
  · intro f e hfe
    rcases hminted f e hfe with hfe | ⟨hf, hle, hnew⟩
    · obtain ⟨hk, hle, hrest⟩ := h.minted_ok f e hfe
      exact ⟨hknown ▸ hk, hle.trans howner, hrest⟩
    · obtain ⟨hk, rec, -, -, hrec, -⟩ := h.marked f hf
      exact ⟨hknown ▸ hk, hle, rec, hrec, hnew rec hrec⟩
  · intro e he
    simpa [Store.record, hfence] using h.registered_le e (hregistered ▸ he)
  · intro a f r stamp hj
    rw [hraw, hresumed]
    exact h.judged a f r stamp (hissued ▸ hj)
  · intro r n epoch loc hr
    rw [hraw, hresumed]
    exact h.resume_stored r n epoch loc (hissued ▸ hr)
  · intro r hr
    obtain ⟨hk, hpast, hun, rec, o, hrec, ho, hle, hreg, hmint⟩ := h.resumed_ok r (hresumed ▸ hr)
    refine ⟨hknown ▸ hk, ?_, ?_, rec, o, hrec, ho, hle.trans howner, hregistered ▸ hreg, ?_⟩
    · rw [hborn, hhist]
      exact hpast
    · intro f hf
      rw [hborn, hborn]
      exact hun f (hpub f hf)
    · -- a mint on the stored marker is not on one that is older than the resumed record
      intro f e hfe hlt
      rw [hborn, hborn] at hlt
      rcases hminted f e hfe with hfe | ⟨hf, -⟩
      · exact hmint f e hfe hlt
      · exact absurd hlt (not_lt.2 (hun f hf))

/-- The marker belongs to the published record. -/
theorem Safe.mark_of {rec : Fence} (hf : t.publishedBy = some f) (hrec : fence f = some rec) :
    ∃ m stamp, t.sys.store.mark = some (markText m stamp) ∧
      value rec.e ≤ m ∧ m % 2 = value rec.e % 2 := by
  obtain ⟨-, rec', m, stamp, hrec', hm⟩ := h.marked f hf
  obtain rfl := some.inj (hrec.symm.trans hrec')
  exact ⟨m, stamp, hm⟩

/-- `INCR` makes a value that was not produced before. -/
theorem Safe.incrs_append {n : Nat} (hn : n = t.owner + 1) :
    (t.incrs ++ [n]).Pairwise (· < ·) ∧ ∀ m ∈ t.incrs ++ [n], m ≤ n := by
  have hlt : ∀ m ∈ t.incrs, m < n := fun m hm => by
    have := h.incrs_le m hm
    omega
  refine ⟨pairwise_append.2 ⟨h.incrs_sorted, by simp, by simpa using hlt⟩, ?_⟩
  intro m hm
  rcases mem_append.1 hm with hm | hm
  · exact (hlt m hm).le
  · exact (mem_singleton.1 hm).le

/-- A script of scene_manager keeps the invariant: it raises the owner epoch by one or leaves
it, it writes the marker on for a later epoch of the same parity or leaves it, and a mint on a
marker is one on a marker of the current epoch. -/
theorem Safe.write {onMarker : Bool} {i loc tag : Option Text} {mark : MarkWrite} {r : Reply}
    (hi : i = none ∨ i = some (formatUint (t.owner + 1)))
    (hmark : ∀ m stamp, t.sys.store.mark = some (markText m stamp) →
      ∃ m' stamp', mark.apply t.sys.store.mark = some (markText m' stamp') ∧ m ≤ m' ∧
        m' % 2 = m % 2)
    (hon : onMarker = true → ∀ m stamp, t.sys.store.mark = some (markText m stamp) → t.owner = m) :
    t.Goes (t.applyPlace onMarker (.write i loc tag mark r)) := by
  have hmarked : ∀ f rec, t.publishedBy = some f → fence f = some rec → ∃ m stamp,
      mark.apply t.sys.store.mark = some (markText m stamp) ∧ value rec.e ≤ m ∧
        m % 2 = value rec.e % 2 := by
    intro f rec hf hrec
    obtain ⟨m, stamp, hm, hge, hpar⟩ := h.mark_of hf hrec
    obtain ⟨m', stamp', hm', hle, hpar'⟩ := hmark m stamp hm
    exact ⟨m', stamp', hm', hge.trans hle, hpar'.trans hpar⟩
  rcases hi with rfl | rfl
  · have howner : (t.applyPlace onMarker (.write none loc tag mark r)).owner = t.owner := by
      simp [applyPlace, Keys.apply, Store.epochText, owner, keys]
    exact h.of_keys rfl rfl rfl rfl rfl howner.ge h.incrs_sorted
      (fun n hn => (h.incrs_le n hn).trans howner.ge) (fun f hf => hf) hmarked
      (fun f e hfe => .inl hfe)
  · have hn : value (formatUint (t.owner + 1)) = t.owner + 1 := value_toDigits _
    have howner : (t.applyPlace onMarker
        (.write (some (formatUint (t.owner + 1))) loc tag mark r)).owner = t.owner + 1 := by
      simp [applyPlace, Keys.apply, Store.epochText, owner]
    obtain ⟨hsorted, hle⟩ := h.incrs_append hn
    refine h.of_keys rfl rfl rfl rfl rfl ?_ hsorted ?_ (fun f hf => hf) hmarked ?_
    · omega
    · exact fun n hmem => (hle n hmem).trans_eq (hn.trans howner.symm)
    · intro f e hfe
      simp only [applyPlace] at hfe
      split at hfe
      next f' hf' =>
        split at hfe
        next hm =>
          rcases mem_append.1 hfe with hfe | hfe
          · exact .inl hfe
          simp only [mem_singleton] at hfe
          obtain ⟨rfl, rfl⟩ := hfe
          refine .inr ⟨hf', (hn.trans howner.symm).le, fun rec hrec => ?_⟩
          obtain ⟨m, stamp, hstored, hge, hpar⟩ := h.mark_of hf' hrec
          have := hon hm m stamp hstored
          omega
        · exact .inl hfe
      · exact .inl hfe

end

/-- The request's marker is the stored one, so its epoch is the observed one. -/
theorem Request.observedEpoch_eq {q : Request} {m : Nat} {stamp : Text} {mark : Option Text}
    (hmint : q.mint = true) (hne : q.requiredMarker ≠ [])
    (hreq : q.requiredMarker = [] ∨ mark = some q.requiredMarker)
    (hm : mark = some (markText m stamp)) :
    q.requiredMarker = markText m stamp ∧ q.observedEpoch = m := by
  have hmk : q.requiredMarker = markText m stamp :=
    some.inj ((hreq.resolve_left hne).symm.trans hm)
  refine ⟨hmk, ?_⟩
  have hc := (q.committed hmint).resolve_left hne
  rw [hmk] at hc
  exact handoffCommitted_markText hc

/-- **What scene_manager rolls back, the source resumes.** When the rollback of a placement on the
marker of the source is run, the source reads off the keys that it has the player again, in the
epoch two later. -/
theorem resumeEpoch_of_rollback {marshal : PlayerLocation → Option Text}
    {parse : Text → Option PlayerLocation}
    (hcodec : ∀ loc raw, marshal loc = some raw → loc.ownerEpoch ≠ 0 →
      raw ≠ [] ∧ parse raw = some loc)
    {q : Request} {k : Keys} {i l tag : Option Text} {mark : MarkWrite} {reply : Reply}
    (hrun : q.rollback marshal k = .write i l tag mark reply) {src : Source}
    {loc : PlayerLocation} (hold : q.mint = true ∧ q.old = some loc)
    (hmarker : q.requiredMarker = markText src.markEpoch src.requestedAtMs)
    (hself : src.zoneId ≠ 0 ∧ (if loc.zoneId = 0 then q.oldZoneId else loc.zoneId) = src.zoneId ∧
      loc.nodeId = formatUint src.nodeId)
    (hepoch : src.markEpoch ≠ 0 ∧ src.cachedEpoch = src.markEpoch) :
    resumeEpoch (src.ownershipFacts parse (k.apply (q.rollback marshal k)).store) =
      some (src.markEpoch + 2) := by
  have hne : q.requiredMarker ≠ [] := by simp [hmarker, markText]
  obtain ⟨-, hobserved⟩ := Request.observedEpoch_eq hold.1 hne (.inr rfl) (congrArg some hmarker)
  have hplaced : q.placed.epoch = src.markEpoch + 1 := by simp [Request.placed, hold.1, hobserved]
  have hwrite := hrun
  unfold Request.rollback at hwrite
  split at hwrite
  · cases hwrite
  rename_i plan hplan
  rw [hold.2] at hplan
  obtain ⟨hmode, hraw⟩ := planRouteRollback_restored hplan hold.1 hne
  obtain ⟨hcur, -, -, hlocation, hincr⟩ := rollbackPlayerPlacement_write hwrite
  obtain ⟨hnonempty, hparse⟩ := hcodec _ _ hraw (Nat.succ_ne_zero _)
  have hread : (k.apply (q.rollback marshal k)).store.location.bind parse =
      some { loc with
        ownerEpoch := src.markEpoch + 2
        rollbackReceipt := markText src.markEpoch src.requestedAtMs
        zoneId := src.zoneId } := by
    rw [hrun, Keys.apply, hlocation, nonEmpty, if_neg hnonempty, bind_some, hparse, hplaced,
      hmarker, hself.2.1]
  have howner : value (k.apply (q.rollback marshal k)).store.epochText = src.markEpoch + 2 := by
    have hincr : i = some (formatUint (src.markEpoch + 2)) := by
      simpa [hmode, hcur, hplaced] using hincr
    rw [hrun, hincr]
    exact value_toDigits _
  have hmark : markText src.markEpoch src.requestedAtMs ≠ [] := hmarker ▸ hne
  simp [resumeEpoch, classifyOwnership, Source.ownershipFacts, hread, howner, hself, hepoch, hmark]

/-- A mint on the marker of epoch 3; the player was in scene 1 of node 5. -/
def mintedRequest : Request :=
  ⟨3, true, markText 3 ['9'], ['p'], .any, [], [], [], [], some ⟨1, ['5'], 0, 3, 0, []⟩, ['o'], 1,
    false, fun _ => .inr (by decide)⟩

def mintedKeys : Keys :=
  ⟨⟨some ['4'], none, none, none, none, some (markText 3 ['9']), some ['p'], true, true⟩, none,
    none⟩

theorem resumeEpoch_of_rollback_first :
    let restored : PlayerLocation := ⟨1, ['5'], 1, 5, 0, markText 3 ['9']⟩
    let marshal := fun loc => if loc = restored then some ['r'] else none
    resumeEpoch ((⟨1, 5, 3, 3, ['9']⟩ : Source).ownershipFacts
      (fun raw => if raw = ['r'] then some restored else none)
      (mintedKeys.apply (mintedRequest.rollback marshal mintedKeys)).store) = some 5 := by
  intro restored marshal
  refine resumeEpoch_of_rollback (fun loc raw h _ => ?_)
    (show mintedRequest.rollback marshal mintedKeys =
      .write (some ['5']) (some ['r']) none (.set (markText 5 ['9'])) (.int (-5)) from rfl)
    ⟨rfl, rfl⟩ rfl ⟨by decide, rfl, rfl⟩ ⟨by decide, rfl⟩
  obtain ⟨rfl, rfl⟩ : loc = restored ∧ ['r'] = raw := by simpa [marshal] using h
  exact ⟨by decide, if_pos rfl⟩

theorem Safe.place (h : t.Safe) (q : Request) :
    t.Goes (t.applyPlace (q.mint && q.requiredMarker ≠ []) (q.place t.keys)) := by
  have hkeep : ∀ m stamp, t.sys.store.mark = some (markText m stamp) →
      ∃ m' stamp', MarkWrite.keep.apply t.sys.store.mark = some (markText m' stamp') ∧ m ≤ m' ∧
        m' % 2 = m % 2 := fun m stamp hm => ⟨m, stamp, hm, le_rfl, rfl⟩
  cases ho : q.place t.keys with
  | refuse r => exact h.stays
  | write i loc tag mark r =>
    unfold Request.place at ho
    split at ho
    next hmint =>
      obtain ⟨rfl, hcur, hmarker, rfl⟩ := mintEpochAndSetLocation_write ho
      refine h.write (.inr rfl) hkeep fun hon m stamp hm => ?_
      simp only [Bool.and_eq_true, decide_eq_true_eq] at hon
      rw [← (Request.observedEpoch_eq hmint hon.2 hmarker hm).2]
      exact (congrArg value hcur).trans (value_toDigits _)
    next hmint =>
      obtain ⟨rfl, rfl⟩ := setLocationIfEpoch_write ho
      exact h.write (.inl rfl) hkeep fun hon => by simp [hmint] at hon

theorem Safe.rollback (h : t.Safe) (marshal : PlayerLocation → Option Text)
    (q : Request) : t.Goes (t.applyPlace false (q.rollback marshal t.keys)) := by
  cases ho : q.rollback marshal t.keys with
  | refuse r => exact h.stays
  | write i loc tag mark r =>
    unfold Request.rollback at ho
    split at ho
    · cases ho
    rename_i plan hplan
    obtain ⟨hcur, hreq, rfl, -, hi⟩ := rollbackPlayerPlacement_write ho
    obtain ⟨hpm, hforward⟩ := planRouteRollback_marker hplan
    have hi : i = none ∨ i = some (formatUint (value t.keys.store.epochText + 1)) := by
      rw [hi]
      split
      · exact .inl rfl
      · exact .inr rfl
    refine h.write hi (fun m stamp hm => ?_) (by simp)
    rcases hforward with ⟨-, h0⟩ | ⟨hne, hminted, e, time, hcut, hfwd⟩
    · exact ⟨m, stamp, by simpa [h0, MarkWrite.apply] using hm, le_rfl, rfl⟩
    -- the marker is carried on from the epoch before the mint to the one after the rollback
    have hmint : q.mint = true := hminted
    obtain ⟨hmk, hobs⟩ := Request.observedEpoch_eq hmint hne (hpm ▸ hreq) hm
    rw [hmk, cutColon_markText] at hcut
    obtain ⟨-, rfl⟩ := Prod.mk.inj (some.inj hcut)
    refine ⟨m + 2, stamp, ?_, by omega, by omega⟩
    have hplaced : q.placed.epoch + 1 = m + 2 := by
      simp [Request.placed, hmint, hobs]
    rw [hplaced] at hfwd
    simp [hfwd, MarkWrite.apply, markText]

variable {c : Command}

/-- A judging command that is issued now was issued before with the same records, or its
revoked record is new. -/
theorem swap_issued_or_new (h : t.Safe) {c' : Command} {w : Swap ScriptName Text}
    (hok : t.sys.Ok (.issue c)) (hw : c'.swap = some w) (hc' : c' ∈ (t.sys.issue c).issued) :
    (∃ d ∈ t.sys.issued, d.swap = some w) ∨
      t.sys.store.raw ≠ w.next ∧ w.next ∉ t.resumed := by
  rcases mem_append.1 hc' with hc' | hc'
  · exact .inl ⟨c', hc', hw⟩
  obtain rfl := mem_singleton.1 hc'
  rcases hok w hw with hold | ⟨hnew, -⟩
  · obtain ⟨d, hd, hdw⟩ := mem_filterMap.1 hold
    exact .inl ⟨d, hd, hdw⟩
  · refine .inr ⟨fun hraw => hnew (hraw ▸ h.wellBorn.stored_known), fun hres => hnew ?_⟩
    exact (h.resumed_ok _ hres).known

theorem Safe.issue (h : t.Safe) (hok : t.sys.Ok (.issue c)) :
    ({ t with sys := t.sys.issue c } : Travel).Safe := by
  have hsteps : History.Steps t.sys.history (t.sys.issue c).history :=
    System.step_refines (e := .issue c) hok
  have hknown : ∀ x ∈ t.sys.known, x ∈ (t.sys.issue c).known :=
    fun x hx => mem_append_left _ hx
  have hborn : ∀ x ∈ t.sys.known, (t.sys.issue c).history.birth x = t.sys.history.birth x :=
    fun x hx => (hsteps.birth_eq hx).2
  refine ⟨h.wellBorn.steps hsteps, h.incrs_sorted, h.incrs_le, ?_, ?_, h.registered_le, ?_, ?_, ?_⟩
  · intro f hf
    obtain ⟨hk, hrest⟩ := h.marked f hf
    exact ⟨hknown f hk, hrest⟩
  · intro f e hfe
    obtain ⟨hk, hrest⟩ := h.minted_ok f e hfe
    exact ⟨hknown f hk, hrest⟩
  · intro a f r stamp hj hr
    rcases swap_issued_or_new h hok rfl hj with ⟨d, hd, hdw⟩ | ⟨hraw, hres⟩
    · cases d <;> simp [Command.swap] at hdw
      case judge a' f' r' stamp' =>
        obtain ⟨⟨rfl, rfl⟩, rfl⟩ := hdw
        exact h.judged _ _ _ _ hd hr
    · exact absurd hr (not_or.2 ⟨hraw, hres⟩)
  · intro r n epoch loc hrs hraw
    rcases swap_issued_or_new h hok rfl hrs with ⟨d, hd, hdw⟩ | ⟨hne, -⟩
    · cases d <;> simp [Command.swap] at hdw
      case resume r' n' epoch' loc' =>
        obtain ⟨rfl, rfl⟩ := hdw
        exact h.resume_stored _ _ _ _ hd hraw
    · exact absurd hraw hne
  · intro r hr
    obtain ⟨hk, hpast, hun, rec, o, hrec, ho, hle, hreg, hmint⟩ := h.resumed_ok r hr
    have hage : (t.sys.issue c).history.age = t.sys.history.age :=
      hborn _ h.wellBorn.stored_known
    refine ⟨hknown r hk, ?_, ?_, rec, o, hrec, ho, hle, hreg, ?_⟩
    · rw [hage]
      exact (hborn r hk).trans_lt hpast
    · intro f hf
      exact (hborn r hk).trans_le ((hun f hf).trans_eq (hborn f (h.marked f hf).1).symm)
    · intro f e hfe hlt
      refine hmint f e hfe ?_
      exact ((hborn f (h.minted_ok f e hfe).1).symm.trans_lt hlt).trans_eq (hborn r hk)

/-! ## Carrying out a barrier script -/

variable {r : Text}

theorem mem_deliver_resumed :
    r ∈ (t.deliver c).resumed ↔ r ∈ t.resumed ∨ ∃ n epoch loc, c = .resume r n epoch loc ∧
      (c.outcome t.sys.store).reply = .int 1 := by
  simp only [deliver]
  generalize (c.outcome t.sys.store).reply = reply
  unfold noteResume
  split
  next old n epoch loc => simp [eq_comm]
  next hne =>
    refine ⟨.inl, ?_⟩
    rintro (h | ⟨n, epoch, loc, rfl, rfl⟩)
    · exact h
    · exact absurd rfl (hne _ _ _ _ rfl)

theorem mem_deliver_registered {e : Nat} :
    e ∈ (t.deliver c).registered ↔ e ∈ t.registered ∨ ∃ epoch cand prior,
      c = .register epoch cand prior ∧ (c.outcome t.sys.store).reply = .int 1 ∧
        e = value epoch := by
  simp only [deliver]
  generalize (c.outcome t.sys.store).reply = reply
  unfold noteRegister
  split
  next epoch cand prior => simp
  next hne =>
    refine ⟨.inl, ?_⟩
    rintro (h | ⟨epoch, cand, prior, rfl, rfl, -⟩)
    · exact h
    · exact absurd rfl (hne _ _ _ rfl)

/-- Only the marker of the new record's owner epoch is ever set. -/
theorem outcome_set_mark {s : Store} {next v : Text} {r : Reply}
    (h : c.outcome s = .write next (.set v) r) :
    ∃ rec stamp, fence next = some rec ∧ v = markText (value rec.e) stamp := by
  have hcases : ∃ rec epoch, fence next = some rec ∧ rec.e = epoch ∧ marker v epoch = true := by
    cases c with
    | register => obtain ⟨-, h0 | h0, -⟩ := registerFence_write h <;> cases h0
    | cancelRegistration => obtain ⟨-, h0, -⟩ := cancelRegistration_write h; cases h0
    | confirm => exact absurd h (confirmFence_ne_write s)
    | revoke => obtain ⟨-, h0 | h0, -⟩ := revokeFence_write h <;> cases h0
    | judge => obtain ⟨-, h0 | h0, -⟩ := judgeOutcome_write h <;> cases h0
    | resume => obtain ⟨-, h0, -⟩ := resumeFence_write h; cases h0
    | release | credential =>
      obtain ⟨rfl, h0, -, hm, rec, hrep, he⟩ := writeMark_write h
      cases h0
      exact ⟨rec, _, hrep.parsed, he, hm⟩
    | publish =>
      obtain ⟨rfl, h0, -, hm, rec, hrep, he⟩ := publishMark_write h
      cases h0
      exact ⟨rec, _, hrep.parsed, he, hm⟩
  obtain ⟨rec, epoch, hrec, rfl, hm⟩ := hcases
  obtain ⟨stamp, rfl⟩ := marker_eq hm
  exact ⟨rec, stamp, hrec, by rw [markText, formatUint, (fence_canonical hrec).1.toDigits_value]⟩

theorem deliver_owner (t : Travel) (c : Command) : (t.deliver c).owner = t.owner := by
  simp only [deliver, System.exec]
  cases c.outcome t.sys.store <;> rfl

theorem deliver_mark (hf : (t.deliver c).publishedBy = some f) :
    t.publishedBy = some f ∧ (t.deliver c).sys.store.mark = t.sys.store.mark ∨
      ∃ v r, c.outcome t.sys.store = .write f (.set v) r ∧
        (t.deliver c).sys.store.mark = some v := by
  simp only [deliver, System.exec] at hf ⊢
  cases ho : c.outcome t.sys.store with
  | refuse r => exact .inl ⟨by simpa [ho, notePublish] using hf, by simp [Store.apply]⟩
  | write next mark r =>
    cases mark with
    | keep =>
      exact .inl ⟨by simpa [ho, notePublish] using hf, by simp [Store.apply, MarkWrite.apply]⟩
    | delete => simp [ho, notePublish] at hf
    | set v =>
      obtain rfl : next = f := by simpa [ho, notePublish] using hf
      exact .inr ⟨v, r, rfl, by simp [Store.apply, MarkWrite.apply]⟩

theorem deliver_record {g : Fence} (hg : t.sys.store.record = some g) :
    ∃ g', (t.deliver c).sys.store.record = some g' ∧ value g.e ≤ value g'.e := by
  obtain ⟨g', hg', hle⟩ := System.exec_order t.sys.store c hg
  refine ⟨g', hg', ?_⟩
  simp only [Fence.order, Prod.Lex.toLex_le_toLex] at hle
  omega

/-- A script that is answered with 1 and resumes from `r` is a first resume, over the stored
record `r`, or a repeated one. -/
theorem Safe.resume_cases (h : t.Safe) {n epoch loc : Text}
    (hc : .resume r n epoch loc ∈ t.sys.issued)
    (hone : ((Command.resume r n epoch loc).outcome t.sys.store).reply = .int 1) :
    r ∈ t.resumed ∨ t.sys.store.raw = r ∧ (t.sys.exec (.resume r n epoch loc)).store.raw = n ∧
      t.publishedBy = none ∧
      ∃ rec, fence r = some rec ∧ t.sys.store.record = some rec ∧
        (t.owner = value rec.e ∨ t.owner = value rec.e + 2) := by
  obtain ⟨howner, hmark, od, nxt, hold, -, he, -, hval, hcases⟩ := resumeFence_one hone
  rcases hcases with ⟨hs, -⟩ | ⟨hs, hw⟩
  · exact .inl (h.resume_stored r n epoch loc hc (by simp [Store.raw, hs]))
  refine .inr ⟨by simp [Store.raw, hs], ?_, ?_, od, hold, by simp [Store.record, hs, hold], ?_⟩
  · simp only [System.exec, Command.outcome, hw, Store.apply, Store.raw, getD_some]
  · cases hp : t.publishedBy with
    | none => rfl
    | some f =>
      obtain ⟨-, -, m, stamp, -, hm, -⟩ := h.marked f hp
      rw [hmark] at hm
      cases hm
  · have : t.owner = value nxt.e := by simp [owner, Store.epochText, howner, he]
    omega

/-- A registration that is answered with 1 is for the current owner epoch. -/
theorem register_owner {epoch cand prior : Text}
    (hone : ((Command.register epoch cand prior).outcome t.sys.store).reply = .int 1) :
    value epoch = t.owner ∧
      ∃ g, (t.deliver (.register epoch cand prior)).sys.store.record = some g ∧
        value epoch = value g.e := by
  obtain ⟨howner, g, hg, he, hs⟩ := registerFence_one hone
  refine ⟨by simp [owner, Store.epochText, howner], g, ?_, by rw [he]⟩
  simp only [deliver, System.exec, Store.record, Command.outcome, hs, bind_some, hg]

/-- A record that is published by this script is the stored one then. -/
theorem deliver_published (hf : (t.deliver c).publishedBy = some f) :
    t.publishedBy = some f ∨ t.born f = (t.sys.exec c).history.age := by
  rcases deliver_mark hf with ⟨hf, -⟩ | ⟨v, q, ho, -⟩
  · exact .inl hf
  have hnew : (t.sys.exec c).history.stored = f := by
    simp [System.history, System.exec, ho, Store.apply, Store.raw]
  refine .inr ?_
  rw [History.age, hnew]
  rfl

theorem Safe.resumedOk_deliver (h : t.Safe) (hc : c ∈ t.sys.issued) (hr : r ∈ t.resumed) :
    (t.deliver c).ResumedOk r := by
  have hage : t.sys.history.age ≤ (t.sys.exec c).history.age := by
    rcases (System.exec_refines hc).age h.wellBorn with ⟨-, ha⟩ | ha <;> omega
  obtain ⟨hk, hpast, hun, rec, o, hrec, ho, hle, hreg, hmint⟩ := h.resumed_ok r hr
  refine ⟨hk, hpast.trans_le hage, ?_, rec, o, hrec, ho, (deliver_owner t c).symm ▸ hle, ?_, hmint⟩
  · intro f hf
    rcases deliver_published hf with hf | hf
    · exact hun f hf
    · exact (hpast.trans_le hage).le.trans_eq hf.symm
  · intro e he
    rcases mem_deliver_registered.1 he with he | ⟨epoch, cand, prior, rfl, hone, rfl⟩
    · exact hreg e he
    · exact .inr (hle.trans (register_owner hone).1.ge)

theorem Safe.deliver_resumed (h : t.Safe) (hc : c ∈ t.sys.issued)
    (hr : r ∈ (t.deliver c).resumed) : (t.deliver c).ResumedOk r := by
  rcases mem_deliver_resumed.1 hr with hold | ⟨n, epoch, loc, rfl, hone⟩
  · exact h.resumedOk_deliver hc hold
  rcases h.resume_cases hc hone with hold | ⟨-, hnew, hnone, rec, hrec, hstored, ho⟩
  · exact h.resumedOk_deliver hc hold
  -- the first resume: the stored record is the revoked one and there is no marker
  have hswap : (⟨.resume, [r], n⟩ : Swap ScriptName Text) ∈ t.sys.history.issued :=
    mem_filterMap.2 ⟨_, hc, rfl⟩
  have hlt : t.born r < (t.sys.exec (.resume r n epoch loc)).history.age := by
    have hnow : (t.sys.exec (.resume r n epoch loc)).history.stored = n := hnew
    rw [History.age, hnow]
    exact h.wellBorn.consumed_lt _ hswap r (by simp)
  refine ⟨h.wellBorn.consumed_known _ hswap r (by simp), hlt, ?_, rec, t.owner, hrec, ho,
    (deliver_owner t _).ge, ?_, fun f e hfe _ => (h.minted_ok f e hfe).2.1⟩
  · intro f hf
    rcases deliver_published hf with hf | hf
    · rw [hnone] at hf
      cases hf
    · exact hlt.le.trans_eq hf.symm
  · intro e he
    rcases mem_deliver_registered.1 he with he | ⟨epoch', cand, prior, h0, -⟩
    · obtain ⟨g, hg, hge⟩ := h.registered_le e he
      rw [hstored] at hg
      exact .inl (some.inj hg ▸ hge)
    · cases h0

/-- The command that stored a record is, up to repetition, the only one issued for it. -/
theorem Safe.swap_unique (h : t.Safe) {c' : Command} {w w' : Swap ScriptName Text}
    (hc : c ∈ t.sys.issued) (hw : c.swap = some w) (hc' : c' ∈ t.sys.issued)
    (hw' : c'.swap = some w') (hnext : w.next = w'.next) : c.swap = c'.swap := by
  rw [hw, hw', h.wellBorn.next_unique w (mem_filterMap.2 ⟨c, hc, hw⟩) w'
    (mem_filterMap.2 ⟨c', hc', hw'⟩) hnext]

theorem Safe.deliver (h : t.Safe) (hc : c ∈ t.sys.issued) :
    (t.deliver c).Safe := by
  have howner := deliver_owner t c
  refine ⟨h.wellBorn.steps (System.exec_refines hc), h.incrs_sorted, ?_, ?_, ?_, ?_, ?_, ?_,
    fun r hr => h.deliver_resumed hc hr⟩
  · exact fun n hn => howner.symm ▸ h.incrs_le n hn
  · intro f hf
    rcases deliver_mark hf with ⟨hf, hm⟩ | ⟨v, q, ho, hm⟩
    · rw [hm]
      exact h.marked f hf
    · obtain ⟨rec, stamp, hrec, rfl⟩ := outcome_set_mark ho
      obtain ⟨w, hw, -, rfl⟩ := Command.swap_of_next (Command.outcome_write ho).1
      exact ⟨h.wellBorn.next_known w (mem_filterMap.2 ⟨c, hc, hw⟩), rec, _, stamp, hrec, hm,
        le_rfl, rfl⟩
  · intro f e hfe
    rw [howner]
    exact h.minted_ok f e hfe
  · intro e he
    rcases mem_deliver_registered.1 he with he | ⟨epoch, cand, prior, rfl, hone, rfl⟩
    · obtain ⟨g, hg, hle⟩ := h.registered_le e he
      obtain ⟨g', hg', hle'⟩ := deliver_record (c := c) hg
      exact ⟨g', hg', hle.trans hle'⟩
    · obtain ⟨-, g, hg, hge⟩ := register_owner hone
      exact ⟨g, hg, hge.le⟩
  · intro a f r stamp hj hr
    have hold := h.judged a f r stamp hj
    rcases hr with hraw | hr
    · rcases System.exec_raw t.sys c with hsame | ⟨w, mark, q, hw, ho, hnew, -⟩
      · exact hold (.inl (hsame.symm.trans hraw))
      · -- the revoked record was written just now, by this very judgement
        have hsw := h.swap_unique hc hw hj rfl (hnew.symm.trans hraw)
        cases c <;> simp [Command.swap] at hsw
        case judge a' f' r' stamp' =>
          obtain ⟨⟨rfl, rfl⟩, rfl⟩ := hsw
          obtain ⟨hn, -, pub, nxt, hpub, horder, hrep⟩ := judgeOutcome_write ho
          refine ⟨pub, nxt, hpub, hn ▸ hrep.parsed, ?_⟩
          exact congrArg (fun p => (ofLex p).1) horder
    · rcases mem_deliver_resumed.1 hr with hr | ⟨n, epoch, loc, rfl, hone⟩
      · exact hold (.inr hr)
      · rcases h.resume_cases hc hone with hr | ⟨hraw, -⟩
        · exact hold (.inr hr)
        · exact hold (.inl hraw)
  · intro r n epoch loc hrs hraw
    refine mem_deliver_resumed.2 ?_
    rcases System.exec_raw t.sys c with hsame | ⟨w, mark, q, hw, ho, hnew, -⟩
    · exact .inl (h.resume_stored r n epoch loc hrs (hsame.symm.trans hraw))
    have hsw := h.swap_unique hc hw hrs rfl (hnew.symm.trans hraw)
    cases c <;> simp [Command.swap] at hsw
    case resume r' n' epoch' loc' =>
      obtain ⟨rfl, rfl⟩ := hsw
      exact .inr ⟨_, _, _, rfl, resumeFence_write_reply ho⟩

/-! ## Runs -/

variable {marshal : PlayerLocation → Option Text}

theorem Safe.step (h : t.Safe) (e : TravelEvent) (hok : t.Ok e) :
    t.Goes (t.step marshal e) := by
  cases e with
  | issue c => exact ⟨h.issue hok, le_rfl⟩
  | deliver i =>
    simp only [Travel.step]
    split
    next c hc => exact ⟨h.deliver (mem_of_getElem? hc), (deliver_owner t c).ge⟩
    · exact h.stays
  | place q => exact h.place q
  | rollback q => exact h.rollback marshal q
  | expire =>
    exact h.of_keys rfl rfl rfl rfl rfl le_rfl h.incrs_sorted h.incrs_le (by simp [Travel.step])
      (by simp [Travel.step]) (fun f e hfe => .inl hfe)
  | others o revisionTag revisionFloor =>
    exact h.of_keys rfl rfl rfl rfl rfl le_rfl h.incrs_sorted h.incrs_le (fun f hf => hf)
      (fun f rec hf hrec => h.mark_of hf hrec) (fun f e hfe => .inl hfe)

theorem run_goes (h : t.Safe) {evs : List TravelEvent}
    (hok : Admits (step marshal) Ok t evs) :
    t.Goes (run (step marshal) t evs) := by
  refine run_invariant_of_admits (I := t.Goes) (fun t' e ht he => ?_) h.stays hok
  obtain ⟨hsafe, hle⟩ := ht.1.step e he
  exact ⟨hsafe, ht.2.trans hle⟩

/-- A handoff is not both granted and taken back, in every run with fresh nonces:

* when the source resumed from the record that judged the handoff published as `f`, no target
  was registered with an epoch that was minted on the marker of `f`;
* the values that `INCR` produces are pairwise different, and in fact increase;
* the owner epoch has not decreased since any earlier point of the run. -/
theorem granted_or_resumed (marshal : PlayerLocation → Option Text) (s₀ : Store)
    (evs : List TravelEvent) (hok : Machine.Admits (step marshal) Ok (start s₀) evs) :
    let t := Machine.run (step marshal) (start s₀) evs
    (∀ held f r stamp, .judge held f r stamp ∈ t.sys.issued → r ∈ t.resumed →
      ∀ e, (f, e) ∈ t.minted → e ∉ t.registered) ∧
    t.incrs.Pairwise (· < ·) ∧
    (∀ pre post, evs = pre ++ post →
      (Machine.run (step marshal) (start s₀) pre).owner ≤ t.owner) := by
  intro t
  have h : t.Safe := (run_goes (start_safe s₀) hok).1
  refine ⟨?_, h.incrs_sorted, ?_⟩
  · intro held f r stamp hj hr e hfe hreg
    obtain ⟨pub, rev, hpub, hrev, heq⟩ := h.judged held f r stamp hj (.inr hr)
    have hlt : t.born f < t.born r :=
      h.wellBorn.consumed_lt ⟨.judge, [held, f], r⟩ (mem_filterMap.2 ⟨_, hj, rfl⟩) f (by simp)
    obtain ⟨-, -, -, rec, o, hrec, ho, -, hregistered, hminted⟩ := h.resumed_ok r hr
    obtain ⟨-, -, pub', hpub', hmore, hparity⟩ := h.minted_ok f e hfe
    rw [hpub] at hpub'
    rw [hrev] at hrec
    cases hpub'
    cases hrec
    -- the mint is odd against the handoff's epoch, so it lies strictly between the two
    have hle := hminted f e hfe hlt
    have hcases := hregistered e hreg
    omega
  · rintro pre post rfl
    obtain ⟨hpre, hpost⟩ := Machine.admits_append.1 hok
    simp only [t, Machine.run_append]
    exact (run_goes (run_goes (start_safe s₀) hpre).1 hpost).2

/-- The pending save and both acknowledged ones are the version 1 of owner epoch 1. -/
def savedStore : Store :=
  let saved : Text := List.replicate 19 '0' ++ ['1', ':'] ++ List.replicate 19 '0' ++ ['1']
  ⟨some ['1'], none, some saved, some saved, some saved, none, some ['s'], true, true⟩

def sampleRequest : Request :=
  ⟨1, true, ['1', ':', '5'], ['t'], .any, [], [], [], [], some ⟨1, ['s'], 1, 1, 0, []⟩, ['s'], 1,
    false, fun _ => .inr (by decide)⟩

/-- Publish, mint, roll back, judge and resume; the target comes too late with the minted
epoch 2. -/
theorem granted_or_resumed_rollback :
    let marshal : PlayerLocation → Option Text := fun loc => some loc.nodeId
    let held := System.sampleRecord 'H' 'b'
    let frozen := System.sampleRecord 'F' 'c'
    let revoked := System.sampleRecord 'R' 'd'
    let resumed := '3' :: (System.sampleRecord 'H' 'e').tail
    let target := '2' :: (System.sampleRecord 'H' 'f').tail
    let evs : List TravelEvent :=
      [.issue (.register ['1'] held []), .deliver 0,
        .issue (.publish ['1'] ['1', ':', '5'] ['3', '0', '0'] held frozen), .deliver 1,
        .place sampleRequest, .rollback sampleRequest, .place sampleRequest,
        .issue (.judge held frozen revoked ['5']), .deliver 2,
        .issue (.resume revoked resumed ['3'] ['s']), .deliver 3,
        .issue (.register ['2'] target frozen), .deliver 4]
    let t := Machine.run (step marshal) (start savedStore) evs
    t.resumed = [revoked] ∧ t.minted = [(frozen, 2)] ∧ t.incrs = [2, 3] ∧ 2 ∉ t.registered := by
  intro marshal held frozen revoked resumed target evs t
  have hok : Machine.Admits (step marshal) Ok (start savedStore) evs := by
    refine ⟨?_, trivial, ?_, trivial, trivial, trivial, trivial, ?_, trivial, ?_, trivial, ?_,
      trivial, trivial⟩ <;>
    · rintro w hw
      cases hw
      exact .inr (by decide)
  refine ⟨by decide, by decide, by decide, ?_⟩
  exact (granted_or_resumed marshal savedStore evs hok).1 held frozen revoked ['5'] (by decide)
    (by decide) 2 (by decide)

end Travel

end Mmorpg.Handoff
