import Mmorpg.Handoff.FenceRecord

/-!
# The scripts of the handoff barrier

One definition for each Lua script of handoff_sql_barrier.h. A script checks everything first
and writes last, so its effect is an `Outcome`: either it refuses and writes nothing, or it
writes its new record into `handoff_fence` and then keeps, deletes or sets the handoff marker.

`Command.consumed` are the records a script may replace and `Command.next` is the record it
writes. **What a write says about the store** (`outcome_write`): the stored record was one of
the consumed ones or already the new one, and the order of the new record is not smaller.
-/

namespace Mmorpg.Handoff

open Decimal Option

/-- The keys of one player that the scripts read. `typesOk` and `locationOk` stand for the
`TYPE` and `PTTL` checks on the barrier, the marker and the location. -/
structure Store where
  ownerEpoch : Option Text
  handoffFence : Option Text
  pending : Option Text
  playerDatabase : Option Text
  playerDatabase1 : Option Text
  mark : Option Text
  location : Option Text
  typesOk : Bool
  locationOk : Bool
deriving DecidableEq, Repr

/-- `types3`: the owner key must exist as a string. -/
def Store.types3 (s : Store) : Bool := s.typesOk && s.ownerEpoch.isSome

/-- `prior`: the stored record and its parsed form; the empty text stands for no record. A
record that does not parse makes every script fail. -/
def Store.prior (s : Store) : Option (Text × Option Fence) :=
  match s.handoffFence with
  | none => some ([], none)
  | some raw => (fence raw).map fun f => (raw, some f)

inductive Reply where
  | int (n : Int)
  | error (message : String)
  | evidence (owner : Text) (location : Option Text)
deriving DecidableEq, Repr

inductive MarkWrite where
  | keep
  | delete
  | set (value : Text)
deriving DecidableEq, Repr

inductive Outcome where
  | refuse (reply : Reply)
  | write (next : Text) (mark : MarkWrite) (reply : Reply)
deriving DecidableEq, Repr

/-- A later registration may not follow `old`: it is of an older owner epoch, or of the same
one but after a tombstone, by another instance or of no newer generation. -/
def supersedes (candidate : Fence) (old : Option Fence) : Bool :=
  match old with
  | none => true
  | some old =>
    match bytecmp candidate.e old.e with
    | .lt => false
    | .eq => old.n ≠ ['0'] && candidate.i = old.i && bytecmp candidate.n old.n = .gt
    | .gt => true

def markReadable (mark : Option Text) : Bool :=
  match mark with
  | none => true
  | some m =>
    match markParts m with
    | some (e, t) => uint e false && uint t false
    | none => false

def markStamp (mark : Option Text) : Option Text := mark.bind fun m => (markParts m).map (·.2)

/-- `kRegisterFenceLua`. -/
def registerFence (epoch candidate prior : Text) (s : Store) : Outcome :=
  if !s.types3 then .refuse (.error "HANDOFF register shape")
  else
    match fence candidate, s.prior with
    | some cand, some (raw, old) =>
      if !uint epoch false || cand.k ≠ .held || cand.e ≠ epoch then
        .refuse (.error "HANDOFF register record")
      else if s.ownerEpoch ≠ some epoch then .refuse (.int (-1))
      else if raw = candidate then .refuse (.int 1)
      else if raw ≠ prior then .refuse (.int (-2))
      else if !supersedes cand old then .refuse (.int (-2))
      else
        match s.mark with
        | none => .write candidate .keep (.int 1)
        | some m =>
          match markParts m with
          | some (e, t) =>
            if !uint e false || !uint t false || bytecmp e cand.e = .gt then
              .refuse (.error "HANDOFF register marker")
            else .write candidate .delete (.int 1)
          | none => .refuse (.error "HANDOFF register marker")
    | _, _ => .refuse (.error "HANDOFF register record")

/-- `kCancelRegistrationLua`. -/
def cancelRegistration (epoch candidate prior next : Text) (s : Store) : Outcome :=
  if !s.types3 then .refuse (.error "HANDOFF cancel registration shape")
  else
    match fence candidate, fence next, s.prior with
    | some cand, some nxt, some (raw, old) =>
      if !uint epoch false || cand.e ≠ epoch || cand.k ≠ .held || nxt.k ≠ .revoked
          || !sameholder cand nxt || cand.t = nxt.t then
        .refuse (.error "HANDOFF cancel registration record")
      else
        match s.ownerEpoch with
        | none => .refuse (.error "HANDOFF cancel registration owner")
        | some owner =>
          if !uint owner false || bytecmp owner cand.e = .lt then
            .refuse (.error "HANDOFF cancel registration owner")
          else if raw = next then .refuse (.int 1)
          else if raw ≠ candidate && raw ≠ prior then .refuse (.int 0)
          else if raw ≠ candidate && !supersedes cand old then .refuse (.int 0)
          else if !markReadable s.mark then
            .refuse (.error "HANDOFF cancel registration marker")
          else .write next .keep (.int 1)
    | _, _, _ => .refuse (.error "HANDOFF cancel registration record")

/-- `kConfirmFenceLua`: it never writes. -/
def confirmFence (epoch expected : Text) (s : Store) : Outcome :=
  if !s.types3 then .refuse (.error "HANDOFF confirm shape")
  else
    match fence expected, s.prior with
    | some exp, some (raw, _) =>
      if exp.k ≠ .held || exp.e ≠ epoch then .refuse (.error "HANDOFF confirm record")
      else if s.ownerEpoch ≠ some epoch || raw ≠ expected then .refuse (.int (-1))
      else .refuse (.int 0)
    | _, _ => .refuse (.error "HANDOFF confirm record")

/-- `kRevokeFenceLua`. -/
def revokeFence (held published next stamp : Text) (s : Store) : Outcome :=
  if !s.types3 then .refuse (.error "HANDOFF revoke shape")
  else
    match fence held, fence published, fence next, s.prior with
    | some hld, some pub, some nxt, some (raw, _) =>
      if hld.k ≠ .held || !sameholder hld pub || !sameholder hld nxt
          || (pub.k ≠ .frozen && published ≠ held) || (pub.k = .frozen && pub.t = hld.t)
          || (nxt.k ≠ .held && nxt.k ≠ .revoked) || nxt.t = hld.t || nxt.t = pub.t then
        .refuse (.error "HANDOFF revoke record")
      else
        match s.ownerEpoch with
        | none => .refuse (.error "HANDOFF revoke owner")
        | some owner =>
          if !uint owner false then .refuse (.error "HANDOFF revoke owner")
          else if nxt.k = .held && owner ≠ hld.e then .refuse (.int 0)
          else if raw ≠ held && raw ≠ published && raw ≠ next then .refuse (.int 0)
          else if !markReadable s.mark then .refuse (.error "HANDOFF revoke marker")
          else
            .write next (if stamp ≠ [] && markStamp s.mark = some stamp then .delete else .keep)
              (.int 1)
    | _, _, _, _ => .refuse (.error "HANDOFF revoke record")

/-- The common body of `kReleaseMarkLua` and `kCredentialMarkLua`. They differ in whether the
original record has to be held. -/
def writeMark (shape record : String) (heldOnly : Bool) (epoch mark ttl original next : Text)
    (s : Store) : Outcome :=
  if !s.types3 then .refuse (.error shape)
  else
    match fence original, fence next, s.prior with
    | some orig, some nxt, some (raw, _) =>
      if (heldOnly && orig.k ≠ .held) || nxt.k ≠ .frozen || !sameholder orig nxt || orig.t = nxt.t
          || orig.e ≠ epoch || !marker mark epoch || ttl ≠ ['3', '0', '0'] then
        .refuse (.error record)
      else if s.ownerEpoch ≠ some epoch then .refuse (.int 0)
      else if raw = next then .refuse (.int 1)
      else if raw ≠ original then .refuse (.int (-2))
      else .write next (.set mark) (.int 1)
    | _, _, _ => .refuse (.error record)

/-- `kReleaseMarkLua`. -/
def releaseMark : Text → Text → Text → Text → Text → Store → Outcome :=
  writeMark "HANDOFF release shape" "HANDOFF release record" true

/-- `kCredentialMarkLua`. -/
def credentialMark : Text → Text → Text → Text → Text → Store → Outcome :=
  writeMark "HANDOFF credential shape" "HANDOFF credential record" false

/-- The pending save version is readable, of the owner's epoch, and so are the two
acknowledged ones that exist. -/
def savesReadable (epoch : Text) (s : Store) : Bool :=
  match s.pending with
  | none => false
  | some p =>
    version p && (s.playerDatabase.all version) && (s.playerDatabase1.all version)
      && p.take 20 = List.replicate (20 - epoch.length) '0' ++ epoch

/-- `kPublishMarkLua`: only when both tables have acknowledged the pending save. -/
def publishMark (epoch mark ttl held next : Text) (s : Store) : Outcome :=
  if !s.types3 then .refuse (.error "HANDOFF_SQL shape")
  else
    match fence held, fence next, s.prior with
    | some hld, some nxt, some (raw, _) =>
      if hld.k ≠ .held || nxt.k ≠ .frozen || !sameholder hld nxt || hld.t = nxt.t || hld.e ≠ epoch
          || !marker mark epoch || ttl ≠ ['3', '0', '0'] then
        .refuse (.error "HANDOFF_SQL record")
      else if s.ownerEpoch ≠ some epoch then .refuse (.int (-1))
      else if raw = next then .refuse (.int 1)
      else if raw ≠ held then .refuse (.int (-2))
      else if !savesReadable epoch s then .refuse (.error "HANDOFF_SQL stored version")
      else if s.playerDatabase ≠ s.pending || s.playerDatabase1 ≠ s.pending then .refuse (.int 0)
      else .write next (.set mark) (.int 1)
    | _, _, _ => .refuse (.error "HANDOFF_SQL record")

/-- `kJudgeOutcomeLua`: revoke, delete this handoff's marker, then read the evidence. -/
def judgeOutcome (held published next stamp : Text) (s : Store) : Outcome :=
  if !s.locationOk then .refuse (.error "HANDOFF location type")
  else if !s.types3 then .refuse (.error "HANDOFF outcome keys")
  else
    match fence held, fence published, fence next, s.prior with
    | some hld, some pub, some nxt, some (raw, _) =>
      if !sameholder hld pub || !sameholder hld nxt || hld.k ≠ .held || nxt.k ≠ .revoked
          || (pub.k ≠ .frozen && published ≠ held) || (pub.k = .frozen && pub.t = hld.t)
          || nxt.t = hld.t || nxt.t = pub.t then
        .refuse (.error "HANDOFF outcome record")
      else if raw ≠ held && raw ≠ published && raw ≠ next then
        .refuse (.error "HANDOFF outcome superseded")
      else
        match s.ownerEpoch with
        | none => .refuse (.error "HANDOFF outcome owner")
        | some owner =>
          if !uint owner false then .refuse (.error "HANDOFF outcome owner")
          else if !markReadable s.mark then .refuse (.error "HANDOFF outcome marker")
          else
            .write next (if markStamp s.mark = some stamp then .delete else .keep)
              (.evidence owner s.location)
    | _, _, _, _ => .refuse (.error "HANDOFF outcome record")

/-- `kResumeFenceLua`: from the revoked record back to a held one, in the same owner epoch or
two later, while the location is the judged one and no marker exists. -/
def resumeFence (old next epoch location : Text) (s : Store) : Outcome :=
  if !s.locationOk then .refuse (.error "HANDOFF resume location")
  else if !s.types3 then .refuse (.error "HANDOFF resume keys")
  else
    match fence old, fence next, s.prior with
    | some od, some nxt, some (raw, _) =>
      if od.k ≠ .revoked || nxt.k ≠ .held || od.i ≠ nxt.i || od.n ≠ nxt.n || od.a ≠ nxt.a
          || od.t = nxt.t || nxt.e ≠ epoch || (nxt.e ≠ od.e && some nxt.e ≠ plus2 od.e) then
        .refuse (.error "HANDOFF resume record")
      else if s.ownerEpoch ≠ some epoch || s.location.getD [] ≠ location then .refuse (.int 0)
      else if s.mark.isSome then .refuse (.int 0)
      else if raw = next then .refuse (.int 1)
      else if raw ≠ old then .refuse (.int 0)
      else .write next .keep (.int 1)
    | _, _, _ => .refuse (.error "HANDOFF resume record")

/-! ## Commands -/

inductive Command where
  | register (epoch candidate prior : Text)
  | cancelRegistration (epoch candidate prior next : Text)
  | confirm (epoch expected : Text)
  | revoke (held published next stamp : Text)
  | release (epoch mark ttl held next : Text)
  | credential (epoch mark ttl observed next : Text)
  | publish (epoch mark ttl held next : Text)
  | judge (held published next stamp : Text)
  | resume (old next epoch location : Text)
deriving DecidableEq, Repr

namespace Command

def outcome (s : Store) : Command → Outcome
  | .register epoch candidate prior => registerFence epoch candidate prior s
  | .cancelRegistration epoch candidate prior next =>
    Handoff.cancelRegistration epoch candidate prior next s
  | .confirm epoch expected => confirmFence epoch expected s
  | .revoke held published next stamp => revokeFence held published next stamp s
  | .release epoch mark ttl held next => releaseMark epoch mark ttl held next s
  | .credential epoch mark ttl observed next => credentialMark epoch mark ttl observed next s
  | .publish epoch mark ttl held next => publishMark epoch mark ttl held next s
  | .judge held published next stamp => judgeOutcome held published next stamp s
  | .resume old next epoch location => resumeFence old next epoch location s

/-- The records that the script may replace; the empty text is "no record". -/
def consumed : Command → List Text
  | .register _ _ prior => [prior]
  | .cancelRegistration _ candidate prior _ => [candidate, prior]
  | .confirm _ _ => []
  | .revoke held published _ _ => [held, published]
  | .release _ _ _ held _ => [held]
  | .credential _ _ _ observed _ => [observed]
  | .publish _ _ _ held _ => [held]
  | .judge held published _ _ => [held, published]
  | .resume old _ _ _ => [old]

def next : Command → Option Text
  | .register _ candidate _ => some candidate
  | .cancelRegistration _ _ _ next => some next
  | .confirm _ _ => none
  | .revoke _ _ next _ => some next
  | .release _ _ _ _ next => some next
  | .credential _ _ _ _ next => some next
  | .publish _ _ _ _ next => some next
  | .judge _ _ next _ => some next
  | .resume _ next _ _ => some next

end Command

def MarkWrite.apply : MarkWrite → Option Text → Option Text
  | .keep, m => m
  | .delete, _ => none
  | .set v, _ => some v

/-- `HSET` of the new record, then the marker. -/
def Store.apply (s : Store) : Outcome → Store
  | .refuse _ => s
  | .write next mark _ => { s with handoffFence := some next, mark := mark.apply s.mark }

def Outcome.reply : Outcome → Reply
  | .refuse r => r
  | .write _ _ r => r

/-! ## What a write says about the store -/

section Writes

variable {s : Store} {next : Text} {mark : MarkWrite} {r : Reply}

theorem ite_refuse_eq_write {c : Prop} [Decidable c] {q : Reply} {x : Outcome} :
    (if c then Outcome.refuse q else x) = .write next mark r ↔ ¬ c ∧ x = .write next mark r := by
  split
  next hc => simp [hc]
  next hc => simp [hc]

/-- The stored record is one of `records`, and the new record is not below it. -/
structure Replaces (s : Store) (records : List Text) (next : Text) (nxt : Fence) : Prop where
  parsed : fence next = some nxt
  stored : ∃ raw old, s.prior = some (raw, old) ∧ raw ∈ records ∧
    ∀ o, old = some o → o.order ≤ nxt.order

variable {raw : Text} {old : Option Fence}

theorem prior_parsed (h : s.prior = some (raw, old)) :
    (s.handoffFence = none ∧ raw = [] ∧ old = none) ∨
      (s.handoffFence = some raw ∧ ∃ f, fence raw = some f ∧ old = some f) := by
  unfold Store.prior at h
  split at h
  next hn =>
    simp only [some.injEq, Prod.mk.injEq] at h
    exact .inl ⟨hn, h.1.symm, h.2.symm⟩
  next raw' hs =>
    simp only [map_eq_some_iff, Prod.mk.injEq] at h
    obtain ⟨f, hf, rfl, rfl⟩ := h
    exact .inr ⟨hs, f, hf, rfl⟩

theorem prior_of_parsed {f : Fence}
    (h : s.prior = some (raw, old)) (hf : fence raw = some f) : old = some f := by
  rcases prior_parsed h with ⟨-, rfl, -⟩ | ⟨-, g, hg, rfl⟩
  · cases hf
  · rw [hf] at hg
    rw [some.inj hg]

theorem sameholder_order {a b : Fence} (h : sameholder a b = true) : a.order = b.order := by
  simp only [sameholder, Bool.and_eq_true, decide_eq_true_eq] at h
  simp only [Fence.order, h.1.1.1, h.1.2]

variable {nxt : Fence}

/-- A record of the same holder as the stored one keeps the order. -/
theorem Replaces.of_sameholder {f : Fence}
    {records : List Text} (hprior : s.prior = some (raw, old)) (hraw : fence raw = some f)
    (hmem : raw ∈ records) (hnext : fence next = some nxt) (horder : f.order = nxt.order) :
    Replaces s records next nxt := by
  refine ⟨hnext, raw, old, hprior, hmem, fun o ho => ?_⟩
  rw [prior_of_parsed hprior hraw] at ho
  rw [← some.inj ho, horder]

variable {held published : Text}

/-- `revoke` and `judge` accept the held, the published and their own new record. -/
theorem replaces_of_three {hld pub : Fence} (hprior : s.prior = some (raw, old))
    (hheld : fence held = some hld) (hpub : fence published = some pub)
    (hnext : fence next = some nxt)
    (hpo : hld.order = pub.order) (hno : hld.order = nxt.order)
    (hraw : ¬ (decide (raw ≠ held) && decide (raw ≠ published) && decide (raw ≠ next)) = true) :
    Replaces s [held, published, next] next nxt := by
  simp only [Bool.and_eq_true, decide_eq_true_eq, not_and, ne_eq, Decidable.not_not] at hraw
  by_cases h1 : raw = held
  · subst h1
    exact .of_sameholder hprior hheld (by simp) hnext hno
  by_cases h2 : raw = published
  · subst h2
    exact .of_sameholder hprior hpub (by simp) hnext (hpo.symm.trans hno)
  have h3 : raw = next := hraw ⟨h1, h2⟩
  subst h3
  exact .of_sameholder hprior hnext (by simp) hnext rfl

theorem supersedes_order {cand : Fence} (h : supersedes cand old = true)
    (hc : Canonical cand.e ∧ Canonical cand.n)
    (ho : ∀ o, old = some o → Canonical o.e ∧ Canonical o.n) :
    ∀ o, old = some o → o.order < cand.order := by
  rintro o rfl
  obtain ⟨hoe, hon⟩ := ho o rfl
  simp only [supersedes, hc.1.bytecmp_eq hoe, hc.2.bytecmp_eq hon] at h
  simp only [Fence.order, Prod.Lex.toLex_lt_toLex]
  split at h
  · simp at h
  next heq =>
    simp only [Bool.and_eq_true, decide_eq_true_eq] at h
    exact .inr ⟨(compare_eq_iff_eq.1 heq).symm, compare_gt_iff_gt.1 h.2⟩
  next hgt => exact .inl (compare_gt_iff_gt.1 hgt)

theorem prior_canonical (h : s.prior = some (raw, old)) :
    ∀ o, old = some o → Canonical o.e ∧ Canonical o.n := by
  rintro o rfl
  rcases prior_parsed h with ⟨-, -, h0⟩ | ⟨-, f, hf, h0⟩
  · cases h0
  · rw [some.inj h0]
    exact fence_canonical hf

variable {epoch : Text}

theorem confirmFence_ne_write {expected : Text} (s : Store) :
    confirmFence epoch expected s ≠ .write next mark r := by
  intro h
  simp only [confirmFence, ite_refuse_eq_write] at h
  obtain ⟨-, h⟩ := h
  split at h
  · simp only [ite_refuse_eq_write] at h
    cases h.2.2
  · cases h

variable {candidate prior : Text}

theorem registerFence_write
    (h : registerFence epoch candidate prior s = .write next mark r) :
    next = candidate ∧ (mark = .keep ∨ mark = .delete) ∧ s.ownerEpoch = some epoch ∧
      ∃ cand, Replaces s [prior] candidate cand ∧ cand.e = epoch := by
  simp only [registerFence, ite_refuse_eq_write] at h
  obtain ⟨-, h⟩ := h
  split at h
  next cand raw old hcand hprior =>
    simp only [ite_refuse_eq_write] at h
    obtain ⟨hrec, howner, -, hraw, hsup, h⟩ := h
    simp only [Bool.or_eq_true, decide_eq_true_eq, not_or, ne_eq, Decidable.not_not] at hrec
    have hrep : Replaces s [prior] candidate cand := by
      refine ⟨hcand, raw, old, hprior, by simpa using hraw, fun o ho => le_of_lt ?_⟩
      exact supersedes_order (by simpa using hsup) (fence_canonical hcand)
        (prior_canonical hprior) o ho
    refine (?_ : (next = candidate ∧ (mark = .keep ∨ mark = .delete)) ∧ _).elim
      fun hw rest => ⟨hw.1, hw.2, rest⟩
    refine ⟨?_, by simpa using howner, cand, hrep, hrec.2⟩
    split at h
    · cases h
      exact ⟨rfl, .inl rfl⟩
    · split at h
      · rw [ite_refuse_eq_write] at h
        cases h.2
        exact ⟨rfl, .inr rfl⟩
      · cases h
  · cases h

variable {nextArg : Text}

theorem cancelRegistration_write
    (h : cancelRegistration epoch candidate prior nextArg s = .write next mark r) :
    next = nextArg ∧ mark = .keep ∧ ∃ nxt, Replaces s [candidate, prior] next nxt := by
  simp only [cancelRegistration, ite_refuse_eq_write] at h
  obtain ⟨-, h⟩ := h
  split at h
  next cand nxt raw old hcand hnext hprior =>
    rw [ite_refuse_eq_write] at h
    obtain ⟨hrec, h⟩ := h
    simp only [Bool.or_eq_true, decide_eq_true_eq, not_or, ne_eq, Decidable.not_not,
      Bool.not_eq_true', Bool.not_eq_false] at hrec
    have hsame := sameholder_order hrec.1.2
    split at h
    · cases h
    rename_i owner howner
    simp only [ite_refuse_eq_write] at h
    obtain ⟨-, -, hraw, hsup, -, h⟩ := h
    cases h
    refine ⟨rfl, rfl, nxt, ?_⟩
    by_cases hrc : raw = candidate
    · subst hrc
      exact .of_sameholder hprior hcand (by simp) hnext hsame
    -- not registered yet: the candidate itself would have superseded the prior record
    have hrp : raw = prior := by simpa [hrc] using hraw
    have hlt := supersedes_order (by simpa [hrc] using hsup) (fence_canonical hcand)
      (prior_canonical hprior)
    exact ⟨hnext, raw, old, hprior, by simp [hrp], fun o ho => hsame ▸ (hlt o ho).le⟩
  · cases h

theorem revokeFence_write {stamp : Text}
    (h : revokeFence held published nextArg stamp s = .write next mark r) :
    next = nextArg ∧ (mark = .keep ∨ mark = .delete) ∧
      ∃ nxt, Replaces s [held, published, nextArg] next nxt := by
  simp only [revokeFence, ite_refuse_eq_write] at h
  obtain ⟨-, h⟩ := h
  split at h
  next hld pub nxt raw old hheld hpub hnext hprior =>
    rw [ite_refuse_eq_write] at h
    obtain ⟨hrec, h⟩ := h
    simp only [Bool.or_eq_true, decide_eq_true_eq, not_or, ne_eq, Bool.not_eq_true',
      Bool.not_eq_false] at hrec
    split at h
    · cases h
    rename_i owner howner
    simp only [ite_refuse_eq_write] at h
    obtain ⟨-, -, hraw, -, h⟩ := h
    cases h
    refine ⟨rfl, by split <;> simp, nxt, ?_⟩
    exact replaces_of_three hprior hheld hpub hnext
      (sameholder_order hrec.1.1.1.1.1.1.2) (sameholder_order hrec.1.1.1.1.1.2) hraw
  · cases h

theorem writeMark_write {shape record : String} {heldOnly : Bool} {markArg ttl original : Text}
    (h : writeMark shape record heldOnly epoch markArg ttl original nextArg s =
      .write next mark r) :
    next = nextArg ∧ mark = .set markArg ∧ s.ownerEpoch = some epoch ∧ marker markArg epoch = true ∧
      ∃ nxt, Replaces s [original] next nxt ∧ nxt.e = epoch := by
  simp only [writeMark, ite_refuse_eq_write] at h
  obtain ⟨-, h⟩ := h
  split at h
  next orig nxt raw old horig hnext hprior =>
    simp only [ite_refuse_eq_write] at h
    obtain ⟨hrec, howner, -, hraw, h⟩ := h
    cases h
    simp only [Bool.or_eq_true, decide_eq_true_eq, not_or, ne_eq, Decidable.not_not,
      Bool.not_eq_true', Bool.not_eq_false] at hrec howner hraw
    obtain ⟨⟨⟨⟨⟨⟨-, -⟩, hsame⟩, -⟩, he⟩, hmark⟩, -⟩ := hrec
    subst hraw
    refine ⟨rfl, rfl, howner, hmark, nxt,
      .of_sameholder hprior horig (by simp) hnext (sameholder_order hsame), ?_⟩
    simp only [sameholder, Bool.and_eq_true, decide_eq_true_eq] at hsame
    rw [← hsame.1.1.1, he]
  · cases h

/-- A publication passes every check of a release; it only looks at the saves besides. -/
theorem publishMark_write {markArg ttl : Text}
    (h : publishMark epoch markArg ttl held nextArg s = .write next mark r) :
    next = nextArg ∧ mark = .set markArg ∧ s.ownerEpoch = some epoch ∧ marker markArg epoch = true ∧
      ∃ nxt, Replaces s [held] next nxt ∧ nxt.e = epoch := by
  have hrelease : releaseMark epoch markArg ttl held nextArg s = .write next mark r := by
    simp only [publishMark, ite_refuse_eq_write] at h
    simp only [releaseMark, writeMark, ite_refuse_eq_write]
    refine ⟨h.1, ?_⟩
    replace h := h.2
    split at h
    · simp only [ite_refuse_eq_write] at h
      obtain ⟨hrec, howner, hnew, hraw, -, -, h⟩ := h
      simp_all
    · cases h
  exact writeMark_write hrelease

theorem judgeOutcome_write {stamp : Text}
    (h : judgeOutcome held published nextArg stamp s = .write next mark r) :
    next = nextArg ∧ (mark = .keep ∨ mark = .delete) ∧
      ∃ pub nxt, fence published = some pub ∧ pub.order = nxt.order ∧
        Replaces s [held, published, nextArg] next nxt := by
  simp only [judgeOutcome, ite_refuse_eq_write] at h
  obtain ⟨-, -, h⟩ := h
  split at h
  next hld pub nxt raw old hheld hpub hnext hprior =>
    simp only [ite_refuse_eq_write] at h
    obtain ⟨hrec, hraw, h⟩ := h
    simp only [Bool.or_eq_true, decide_eq_true_eq, not_or, ne_eq, Bool.not_eq_true',
      Bool.not_eq_false] at hrec
    split at h
    · cases h
    rename_i owner howner
    simp only [ite_refuse_eq_write] at h
    obtain ⟨-, -, h⟩ := h
    cases h
    have hpo := sameholder_order hrec.1.1.1.1.1.1.1
    have hno := sameholder_order hrec.1.1.1.1.1.1.2
    exact ⟨rfl, by split <;> simp, pub, nxt, hpub, hpo.symm.trans hno,
      replaces_of_three hprior hheld hpub hnext hpo hno hraw⟩
  · cases h

/-- What a script that answers 1 passed on its way there, refusing replies apart. -/
theorem ite_refuse_reply_one {c : Prop} [Decidable c] {q : Reply} {x : Outcome}
    (hq : q ≠ .int 1) :
    (if c then Outcome.refuse q else x).reply = .int 1 ↔ ¬ c ∧ x.reply = .int 1 := by
  split
  next hc => simp [hc, Outcome.reply, hq]
  next hc => simp [hc]

variable {location : Text}

/-- `resume` answers 1 only in the owner epoch of the new record and with no marker; the stored
record is then the new one, or the revoked one, which is replaced. -/
theorem resumeFence_one {old : Text}
    (h : (resumeFence old nextArg epoch location s).reply = .int 1) :
    s.ownerEpoch = some epoch ∧ s.mark = none ∧ ∃ od nxt, fence old = some od ∧
      fence nextArg = some nxt ∧ nxt.e = epoch ∧ od.n = nxt.n ∧
      (value nxt.e = value od.e ∨ value nxt.e = value od.e + 2) ∧
      (s.handoffFence = some nextArg ∧
          resumeFence old nextArg epoch location s = .refuse (.int 1) ∨
        s.handoffFence = some old ∧
          resumeFence old nextArg epoch location s = .write nextArg .keep (.int 1)) := by
  unfold resumeFence at h ⊢
  rw [ite_refuse_reply_one (by simp), ite_refuse_reply_one (by simp)] at h
  obtain ⟨hloc, htypes, h⟩ := h
  rw [if_neg hloc, if_neg htypes]
  split at h
  next od nxt raw prev hold hnext hprior =>
    rw [ite_refuse_reply_one (by simp), ite_refuse_reply_one (by simp),
      ite_refuse_reply_one (by simp)] at h
    obtain ⟨hrec, howner, hmark, h⟩ := h
    simp only [hold, hnext, if_neg hrec, if_neg howner, if_neg hmark]
    simp only [Bool.or_eq_true, Bool.and_eq_true, decide_eq_true_eq, not_or, not_and, ne_eq,
      Decidable.not_not] at hrec howner
    have he : value nxt.e = value od.e ∨ value nxt.e = value od.e + 2 := by
      by_cases heq : nxt.e = od.e
      · exact .inl (by rw [heq])
      · exact .inr (plus2_value (fence_canonical hold).1 (hrec.2 heq).symm).2
    refine ⟨howner.1, by simpa using hmark, od, nxt, rfl, rfl, hrec.1.2, hrec.1.1.1.1.2, he, ?_⟩
    have hstored : raw ≠ [] → s.handoffFence = some raw := by
      intro hne
      rcases prior_parsed hprior with ⟨-, h0, -⟩ | ⟨hs, -⟩
      · exact absurd h0 hne
      · exact hs
    split at h
    next heq =>
      subst heq
      exact .inl ⟨hstored (by rintro rfl; cases hnext), by simp⟩
    next hne =>
      rw [ite_refuse_reply_one (by simp)] at h
      obtain ⟨hraw, -⟩ := h
      have hraw : raw = old := by simpa using hraw
      subst hraw
      exact .inr ⟨hstored (by rintro rfl; cases hold), by simp [hne]⟩
  · simp [Outcome.reply] at h

/-- `register` answers 1 only in the owner epoch of the candidate, which is stored then. -/
theorem registerFence_one
    (h : (registerFence epoch candidate prior s).reply = .int 1) :
    s.ownerEpoch = some epoch ∧ ∃ cand, fence candidate = some cand ∧ cand.e = epoch ∧
      (s.apply (registerFence epoch candidate prior s)).handoffFence = some candidate := by
  unfold registerFence at h ⊢
  rw [ite_refuse_reply_one (by simp)] at h
  obtain ⟨htypes, h⟩ := h
  rw [if_neg htypes]
  split at h
  next cand raw old hcand hprior =>
    rw [ite_refuse_reply_one (by simp), ite_refuse_reply_one (by simp)] at h
    obtain ⟨hrec, howner, h⟩ := h
    simp only [hcand, if_neg hrec, if_neg howner]
    simp only [Bool.or_eq_true, decide_eq_true_eq, not_or, ne_eq, Decidable.not_not] at hrec howner
    refine ⟨howner, cand, rfl, hrec.2, ?_⟩
    split at h
    next heq =>
      subst heq
      rw [if_pos rfl]
      rcases prior_parsed hprior with ⟨-, rfl, -⟩ | ⟨hs, -⟩
      · cases hcand
      · simpa [Store.apply] using hs
    next hne =>
      rw [ite_refuse_reply_one (by simp), ite_refuse_reply_one (by simp)] at h
      obtain ⟨hraw, hsup, h⟩ := h
      rw [if_neg hne, if_neg hraw, if_neg hsup]
      split at h
      · simp [Store.apply]
      split at h
      · rw [ite_refuse_reply_one (by simp)] at h
        simp only [if_neg h.1]
        simp [Store.apply]
      · simp [Outcome.reply] at h
  · simp [Outcome.reply] at h

theorem resumeFence_write_reply {old : Text}
    (h : resumeFence old nextArg epoch location s = .write next mark r) :
    (resumeFence old nextArg epoch location s).reply = .int 1 := by
  have hr := h
  simp only [resumeFence, ite_refuse_eq_write] at hr
  obtain ⟨-, -, hr⟩ := hr
  split at hr
  · simp only [ite_refuse_eq_write] at hr
    cases hr.2.2.2.2.2
    rw [h]
    rfl
  · cases hr

theorem resumeFence_write {old : Text}
    (h : resumeFence old nextArg epoch location s = .write next mark r) :
    next = nextArg ∧ mark = .keep ∧ ∃ nxt, Replaces s [old] next nxt := by
  obtain ⟨-, -, od, nxt, hold, hnext, -, hn, he, hs⟩ := resumeFence_one (resumeFence_write_reply h)
  rcases hs with ⟨-, hs⟩ | ⟨hstored, hw⟩
  · rw [hs] at h
    cases h
  rw [hw] at h
  cases h
  refine ⟨rfl, rfl, nxt, hnext, old, some od, ?_, by simp, ?_⟩
  · simp [Store.prior, hstored, hold]
  · rintro o ho
    cases ho
    simp only [Fence.order, hn, Prod.Lex.toLex_le_toLex, le_refl, and_true]
    omega

theorem Replaces.mono {records records' : List Text}
    (h : Replaces s records next nxt) (hsub : records ⊆ records') :
    Replaces s records' next nxt := by
  obtain ⟨hp, raw, old, hprior, hmem, hle⟩ := h
  exact ⟨hp, raw, old, hprior, hsub hmem, hle⟩

/-- **What a write says about the store**: the script wrote its own new record, over one of the
records it consumes or over the new record itself, and did not lower the order. -/
theorem Command.outcome_write {c : Command} (h : c.outcome s = .write next mark r) :
    c.next = some next ∧ ∃ nxt, Replaces s (c.consumed ++ [next]) next nxt := by
  cases c with
  | register epoch candidate prior =>
    obtain ⟨rfl, -, -, nxt, hrep, -⟩ := registerFence_write h
    exact ⟨rfl, nxt, hrep.mono (by simp [Command.consumed])⟩
  | cancelRegistration epoch candidate prior next =>
    obtain ⟨rfl, -, nxt, hrep⟩ := cancelRegistration_write h
    exact ⟨rfl, nxt, hrep.mono (by simp [Command.consumed])⟩
  | confirm epoch expected => exact absurd h (confirmFence_ne_write s)
  | revoke held published next stamp =>
    obtain ⟨rfl, -, nxt, hrep⟩ := revokeFence_write h
    exact ⟨rfl, nxt, hrep.mono (by simp [Command.consumed])⟩
  | release epoch mark ttl held next | credential epoch mark ttl observed next =>
    obtain ⟨rfl, -, -, -, nxt, hrep, -⟩ := writeMark_write h
    exact ⟨rfl, nxt, hrep.mono (by simp [Command.consumed])⟩
  | publish epoch mark ttl held next =>
    obtain ⟨rfl, -, -, -, nxt, hrep, -⟩ := publishMark_write h
    exact ⟨rfl, nxt, hrep.mono (by simp [Command.consumed])⟩
  | judge held published next stamp =>
    obtain ⟨rfl, -, pub, nxt, -, -, hrep⟩ := judgeOutcome_write h
    exact ⟨rfl, nxt, hrep.mono (by simp [Command.consumed])⟩
  | resume old next epoch location =>
    obtain ⟨rfl, -, nxt, hrep⟩ := resumeFence_write h
    exact ⟨rfl, nxt, hrep.mono (by simp [Command.consumed])⟩

end Writes

end Mmorpg.Handoff
