import Mathlib.Data.List.Basic

/-!
# Segment clients

A client hands out the ids of a range it was granted and fetches the next range in advance: the
login and guild services use the blocking Go client (client.go), scenes the C++ client on their
event loop (guid_segment_client.cpp). Both hold a current and a next range and the end of the last
range they have accepted, below which they accept no further one (`Buffers`). They differ in what
wakes them: the Go client has at most one fetch, whose result arrives once, while the C++ client
gives a fetch up after a timeout and accepts what arrives later.

All that the ids depend on are the buffers, and each function of the clients changes them by one of
four moves, each of which keeps the ids increasing and within the granted ranges (`Buffers.Ok`).
-/

namespace Mmorpg.IdSegment

open Option List

/-- 2^55 -/
def defaultMaxIDExclusive : Nat := 36028797018963968

structure Segment where
  pos : Nat
  hi : Nat
  prefetchAt : Nat
deriving DecidableEq, Repr

def Segment.remaining (s : Segment) : Nat := s.hi - s.pos

structure Buffers where
  cur : Segment
  next : Option Segment
  highWater : Nat
deriving DecidableEq, Repr

structure PrefetchAt where
  num : Nat
  den : Nat
deriving DecidableEq, Repr

def prefetchThreshold (share : PrefetchAt) (length : Nat) : Nat :=
  max 1 ((share.num * length + (share.den - 1)) / share.den)

def makeSegment (share : PrefetchAt) (lo hi : Nat) : Segment :=
  ⟨lo, hi, prefetchThreshold share (hi - lo)⟩

inductive RangeViolation where
  | loBelowOne
  | hiNotAboveLo
  | hiAboveMax
  | regressed
deriving DecidableEq, Repr

namespace Buffers

def empty : Buffers := ⟨⟨0, 0, 0⟩, none, 0⟩

/-- `validateLocked` and `ValidateRange`. -/
def validate (b : Buffers) (maxIDExclusive lo hi : Nat) : Option RangeViolation :=
  if lo < 1 then some .loBelowOne
  else if hi ≤ lo then some .hiNotAboveLo
  else if hi > maxIDExclusive then some .hiAboveMax
  else if lo < b.highWater then some .regressed
  else none

def switch (b : Buffers) : Buffers :=
  match b.next with
  | some s => if b.cur.remaining = 0 then { b with cur := s, next := none } else b
  | none => b

def take (b : Buffers) : Buffers := { b with cur := { b.cur with pos := b.cur.pos + 1 } }

end Buffers

structure FetchRequest where
  fetch : Nat
  step : Nat
deriving DecidableEq, Repr

structure Effects where
  issued : Option Nat
  request : Option FetchRequest
deriving DecidableEq, Repr

/-! ## The Go client -/

structure GoOptions where
  step : Nat
  minStep : Nat
  maxStep : Nat
  prefetchAt : PrefetchAt
  maxIDExclusive : Nat
  retryBackoff : Nat
deriving DecidableEq, Repr

/-- Times are milliseconds. -/
structure GoClient where
  opt : GoOptions
  buf : Buffers
  step : Nat
  curInstalledAt : Option Nat
  inflight : Option Nat
  fetchesStarted : Nat
  notBefore : Nat
  closed : Bool
deriving DecidableEq, Repr

namespace GoClient

def stepGrowBelow : Nat := 900000

def stepShrinkAbove : Nat := 1800000

def new (bizTag : String) (opt : GoOptions) : Option GoClient :=
  let minStep := if opt.minStep = 0 then min 10 opt.step else opt.minStep
  let maxStep := if opt.maxStep = 0 then max 1000 opt.step else opt.maxStep
  let prefetchAt := if opt.prefetchAt.num = 0 then ⟨1, 10⟩ else opt.prefetchAt
  let maxIDExclusive :=
    if opt.maxIDExclusive = 0 then defaultMaxIDExclusive else opt.maxIDExclusive
  let retryBackoff := if opt.retryBackoff = 0 then 500 else opt.retryBackoff
  if bizTag = "" || opt.step = 0 || minStep > opt.step || opt.step > maxStep ||
      prefetchAt.num > prefetchAt.den || maxIDExclusive > defaultMaxIDExclusive then none
  else
    some ⟨⟨opt.step, minStep, maxStep, prefetchAt, maxIDExclusive, retryBackoff⟩, .empty,
      opt.step, none, none, 0, 0, false⟩

def canStartFetch (c : GoClient) (now : Nat) : Bool :=
  c.inflight.isNone && c.buf.next.isNone && c.notBefore ≤ now

/-- `startFetchLocked` -/
def startFetch (c : GoClient) : GoClient × Option FetchRequest :=
  ({ c with inflight := some c.fetchesStarted, fetchesStarted := c.fetchesStarted + 1 },
    some ⟨c.fetchesStarted, c.step⟩)

/-- `onRangeExhaustedLocked`: the step doubles if the range was used up fast. -/
def onRangeExhausted (c : GoClient) (now : Nat) : GoClient :=
  match c.curInstalledAt with
  | none => c
  | some installed =>
    let lasted := now - installed
    let step :=
      if lasted < stepGrowBelow then min (c.step * 2) c.opt.maxStep
      else if lasted > stepShrinkAbove then max (c.step / 2) c.opt.minStep
      else c.step
    { c with curInstalledAt := none, step := step }

def install (c : GoClient) (now : Nat) : GoClient :=
  if c.buf.cur.remaining = 0 && c.buf.next.isSome then
    { c with buf := c.buf.switch, curInstalledAt := some now }
  else c

def takeId (c : GoClient) (now : Nat) : GoClient :=
  let c := { c with buf := c.buf.take }
  if c.buf.cur.remaining = 0 then c.onRangeExhausted now else c

/-- One round of `Next` under the lock. Without an id the caller sleeps or waits for the fetch. -/
def next (c : GoClient) (now : Nat) : GoClient × Effects :=
  if c.closed then (c, ⟨none, none⟩)
  else
    let c := c.install now
    if c.buf.cur.remaining > 0 then
      let id := c.buf.cur.pos
      let c := c.takeId now
      if c.buf.cur.remaining ≤ c.buf.cur.prefetchAt && c.canStartFetch now then
        let (c, req) := c.startFetch
        (c, ⟨some id, req⟩)
      else (c, ⟨some id, none⟩)
    else if c.canStartFetch now then
      let (c, req) := c.startFetch
      (c, ⟨none, req⟩)
    else (c, ⟨none, none⟩)

def warm (c : GoClient) : GoClient × Effects :=
  if c.closed || c.buf.cur.remaining > 0 || c.buf.next.isSome || c.inflight.isSome then
    (c, ⟨none, none⟩)
  else
    let (c, req) := c.startFetch
    (c, ⟨none, req⟩)

def close (c : GoClient) : GoClient := { c with closed := true }

/-- `finishFetch` of a fetch that is in flight; without a range the call has failed. -/
def finishFetch (c : GoClient) (fetch : Nat) (range : Option (Nat × Nat)) (now : Nat) : GoClient :=
  if c.inflight ≠ some fetch then c
  else
    let c := { c with inflight := none }
    let failed := { c with notBefore := now + c.opt.retryBackoff }
    match range with
    | none => failed
    | some (lo, hi) =>
      match c.buf.validate c.opt.maxIDExclusive lo hi with
      | some _ => failed
      | none =>
        { c with
          buf := { c.buf with next := some (makeSegment c.opt.prefetchAt lo hi), highWater := hi } }

end GoClient

/-! ## The C++ client -/

structure CppOptions where
  initialStep : Nat
  minStep : Nat
  maxStep : Nat
  prefetchAt : PrefetchAt
  maxIdExclusive : Nat
  retryBackoffMin : Nat
  retryBackoffMax : Nat
  stepGrowBelow : Nat
  stepShrinkAbove : Nat
deriving DecidableEq, Repr

structure CppClient where
  opt : CppOptions
  stopped : Bool
  buf : Buffers
  curStartedAt : Nat
  step : Nat
  inflight : Bool
  fetchSeq : Nat
  retryPending : Bool
  retryGen : Nat
  backoff : Nat
deriving DecidableEq, Repr

namespace CppClient

def enable (kindName : String) (opt : CppOptions) : Option CppClient :=
  let minStep := if opt.minStep = 0 then opt.initialStep else opt.minStep
  let maxStep := if opt.maxStep = 0 then opt.initialStep else opt.maxStep
  let backoffMin := if opt.retryBackoffMin = 0 then 500 else opt.retryBackoffMin
  let backoffMax := max opt.retryBackoffMax backoffMin
  if kindName = "" || opt.initialStep = 0 ||
      !(minStep ≤ opt.initialStep && opt.initialStep ≤ maxStep) ||
      !(0 < opt.prefetchAt.num && opt.prefetchAt.num ≤ opt.prefetchAt.den) ||
      (opt.maxIdExclusive = 0 || opt.maxIdExclusive > defaultMaxIDExclusive) ||
      opt.stepShrinkAbove < opt.stepGrowBelow then none
  else
    some ⟨⟨opt.initialStep, minStep, maxStep, opt.prefetchAt, opt.maxIdExclusive, backoffMin,
      backoffMax, opt.stepGrowBelow, opt.stepShrinkAbove⟩, false, .empty, 0, opt.initialStep, false,
      0, false, 0, backoffMin⟩

def shutdown (c : CppClient) : CppClient :=
  if c.stopped then c
  else
    { c with
      stopped := true
      retryGen := c.retryGen + 1
      fetchSeq := c.fetchSeq + 1
      retryPending := false
      inflight := false }

def isReady (c : CppClient) : Bool :=
  c.buf.cur.remaining > 0 || c.buf.next.any (·.remaining > 0)

/-- `BecomeCurrent` of the next range. -/
def becomeCurrent (c : CppClient) (now : Nat) : CppClient :=
  if c.buf.cur.remaining = 0 && c.buf.next.isSome then
    { c with buf := c.buf.switch, curStartedAt := now }
  else c

def onCurrentExhausted (c : CppClient) (now : Nat) : CppClient :=
  let lasted := now - c.curStartedAt
  let step :=
    if lasted < c.opt.stepGrowBelow then min (c.step * 2) c.opt.maxStep
    else if lasted > c.opt.stepShrinkAbove then max (c.step / 2) c.opt.minStep
    else c.step
  { c with step := step }

/-- `OnFetchFailed` and `ScheduleRetry`. -/
def onFetchFailed (c : CppClient) : CppClient :=
  if c.stopped || c.retryPending then c
  else
    { c with
      retryPending := true
      backoff := min (c.backoff * 2) c.opt.retryBackoffMax
      retryGen := c.retryGen + 1 }

/-- `sent` is the answer of the transport. -/
def startFetch (c : CppClient) (sent : Bool) : CppClient × Option FetchRequest :=
  if c.stopped || c.inflight || c.retryPending || c.buf.next.isSome then (c, none)
  else
    let c := { c with fetchSeq := c.fetchSeq + 1, inflight := true }
    if !sent then ({ c with inflight := false }.onFetchFailed, none)
    else (c, some ⟨c.fetchSeq, c.step⟩)

def maybePrefetch (c : CppClient) (sent : Bool) : CppClient × Option FetchRequest :=
  if c.buf.next.isNone && !c.inflight && !c.retryPending &&
      c.buf.cur.remaining ≤ c.buf.cur.prefetchAt then
    c.startFetch sent
  else (c, none)

def takeId (c : CppClient) (now : Nat) : CppClient :=
  let c := { c with buf := c.buf.take }
  if c.buf.cur.remaining = 0 then c.onCurrentExhausted now else c

def tryNext (c : CppClient) (now : Nat) (sent : Bool) : CppClient × Effects :=
  let c := c.becomeCurrent now
  if c.buf.cur.remaining > 0 then
    let id := c.buf.cur.pos
    let (c, req) := (c.takeId now).maybePrefetch sent
    (c, ⟨some id, req⟩)
  else
    let (c, req) := c.startFetch sent
    (c, ⟨none, req⟩)

def warm (c : CppClient) (sent : Bool) : CppClient × Effects :=
  if c.isReady then (c, ⟨none, none⟩)
  else
    let (c, req) := c.startFetch sent
    (c, ⟨none, req⟩)

def onFetchTimeout (c : CppClient) (seq : Nat) : CppClient :=
  if !c.inflight || seq ≠ c.fetchSeq then c else { c with inflight := false }.onFetchFailed

def onTransportFailure (c : CppClient) : CppClient :=
  if !c.inflight then c else { c with inflight := false }.onFetchFailed

def onRetryTimer (c : CppClient) (gen : Nat) (sent : Bool) : CppClient × Effects :=
  if gen ≠ c.retryGen || !c.retryPending then (c, ⟨none, none⟩)
  else
    let c := { c with retryPending := false }
    if c.buf.next.isSome || c.buf.cur.remaining > c.buf.cur.prefetchAt then (c, ⟨none, none⟩)
    else
      let (c, req) := c.startFetch sent
      (c, ⟨none, req⟩)

/-- Where an accepted range goes: a surplus one is dropped, but the end is kept. -/
def accept (c : CppClient) (lo hi now : Nat) : CppClient :=
  let c := { c with buf := { c.buf with highWater := hi }, backoff := c.opt.retryBackoffMin }
  let segment := makeSegment c.opt.prefetchAt lo hi
  if c.buf.cur.remaining = 0 && c.buf.next.isNone then
    { c with buf := { c.buf with cur := segment }, curStartedAt := now }
  else if c.buf.next.isNone then { c with buf := { c.buf with next := some segment } }
  else c

/-- `OnResponse`: any answer of the data service to any fetch, however late. -/
def onResponse (c : CppClient) (range : Option (Nat × Nat)) (now : Nat) : CppClient :=
  let c := { c with inflight := false }
  match range with
  | none => c.onFetchFailed
  | some (lo, hi) =>
    match c.buf.validate c.opt.maxIdExclusive lo hi with
    | some _ => c.onFetchFailed
    | none => c.accept lo hi now

end CppClient

/-! ## Clients -/

inductive Client where
  | go (c : GoClient)
  | cpp (c : CppClient)

inductive Input where
  /-- `Next` or `TryNext`. -/
  | next (now : Nat) (sent : Bool)
  | warm (sent : Bool)
  /-- `Close` or `Shutdown`. -/
  | close
  /-- The call of a fetch ends without a range, or times out. -/
  | fetchFailed (fetch now : Nat)
  | transportFailure
  | retryTimer (gen : Nat) (sent : Bool)

namespace Client

def buf : Client → Buffers
  | .go c => c.buf
  | .cpp c => c.buf

def handle : Client → Input → Client × Effects
  | .go c, .next now _ => (.go (c.next now).1, (c.next now).2)
  | .go c, .warm _ => (.go c.warm.1, c.warm.2)
  | .go c, .close => (.go c.close, ⟨none, none⟩)
  | .go c, .fetchFailed fetch now => (.go (c.finishFetch fetch none now), ⟨none, none⟩)
  | .go c, .transportFailure => (.go c, ⟨none, none⟩)
  | .go c, .retryTimer _ _ => (.go c, ⟨none, none⟩)
  | .cpp c, .next now sent => (.cpp (c.tryNext now sent).1, (c.tryNext now sent).2)
  | .cpp c, .warm sent => (.cpp (c.warm sent).1, (c.warm sent).2)
  | .cpp c, .close => (.cpp c.shutdown, ⟨none, none⟩)
  | .cpp c, .fetchFailed seq _ => (.cpp (c.onFetchTimeout seq), ⟨none, none⟩)
  | .cpp c, .transportFailure => (.cpp c.onTransportFailure, ⟨none, none⟩)
  | .cpp c, .retryTimer gen sent => (.cpp (c.onRetryTimer gen sent).1, (c.onRetryTimer gen sent).2)

def answer (fetch : Nat) (range : Option (Nat × Nat)) (now : Nat) : Client → Client
  | .go c => .go (c.finishFetch fetch range now)
  | .cpp c => .cpp (c.onResponse range now)

end Client

/-! ## Moves of the buffers -/

def Within (granted : Nat → Nat → Prop) (id : Nat) : Prop :=
  ∃ lo hi, granted lo hi ∧ lo ≤ id ∧ id < hi

namespace Buffers

/-- The ranges follow one another and are granted, and so are the ids handed out so far. -/
structure Ok (granted : Nat → Nat → Prop) (issued : List Nat) (b : Buffers) : Prop where
  cur : b.cur.pos ≤ b.cur.hi ∧ b.cur.hi ≤ b.highWater
  next : ∀ s ∈ b.next, b.cur.hi ≤ s.pos ∧ s.pos ≤ s.hi ∧ s.hi ≤ b.highWater
  curWithin : ∀ id, b.cur.pos ≤ id → id < b.cur.hi → Within granted id
  nextWithin : ∀ s ∈ b.next, ∀ id, s.pos ≤ id → id < s.hi → Within granted id
  below : ∀ id ∈ issued, id < b.cur.pos
  within : ∀ id ∈ issued, Within granted id
  increasing : issued.Pairwise (· < ·)

/-- How a client's own activity changes its buffers, with the id it hands out. -/
inductive Move (b : Buffers) : Option Nat → Buffers → Prop
  | keep : Move b none b
  | switch : Move b none b.switch
  | take (h : 0 < b.switch.cur.remaining) : Move b (some b.switch.cur.pos) b.switch.take

/-- How a range is accepted: as the next one, as the current one, or not at all. -/
inductive Accept (b : Buffers) (lo hi : Nat) : Buffers → Prop
  | next (share : PrefetchAt) :
      Accept b lo hi { b with next := some (makeSegment share lo hi), highWater := hi }
  | cur (share : PrefetchAt) (hnext : b.next = none) :
      Accept b lo hi { b with cur := makeSegment share lo hi, highWater := hi }
  | drop : Accept b lo hi { b with highWater := hi }

theorem validate_eq_none {b : Buffers} {maxIDExclusive lo hi : Nat}
    (h : b.validate maxIDExclusive lo hi = none) : lo < hi ∧ b.highWater ≤ lo := by
  unfold validate at h
  split at h
  · cases h
  split at h
  · cases h
  split at h
  · cases h
  split at h
  · cases h
  omega

namespace Ok

variable {granted granted' : Nat → Nat → Prop} {issued : List Nat} {b b' : Buffers}

theorem empty (granted : Nat → Nat → Prop) : Buffers.empty.Ok granted [] := by
  constructor <;> simp [Buffers.empty]

variable (h : b.Ok granted issued)

include h

theorem mono (hg : ∀ lo hi, granted lo hi → granted' lo hi) : b.Ok granted' issued := by
  have hw : ∀ id, Within granted id → Within granted' id := by
    rintro id ⟨lo, hi, hgr, hid⟩
    exact ⟨lo, hi, hg lo hi hgr, hid⟩
  exact { h with
    curWithin := fun id hlo hhi => hw id (h.curWithin id hlo hhi)
    nextWithin := fun s hs id hlo hhi => hw id (h.nextWithin s hs id hlo hhi)
    within := fun id hid => hw id (h.within id hid) }

theorem switch : b.switch.Ok granted issued := by
  unfold Buffers.switch
  split
  next s hs =>
    split
    · obtain ⟨hcur, hpos, hhi⟩ := h.next s hs
      refine ⟨⟨hpos, hhi⟩, by simp, h.nextWithin s hs, by simp, fun id hid => ?_, h.within,
        h.increasing⟩
      have := h.below id hid
      have := h.cur.1
      dsimp only
      omega
    · exact h
  · exact h

theorem take (hleft : 0 < b.cur.remaining) : b.take.Ok granted (issued ++ [b.cur.pos]) := by
  unfold Segment.remaining at hleft
  refine ⟨⟨?_, h.cur.2⟩, h.next, fun id hlo hhi => ?_, h.nextWithin,
    forall_mem_append.2 ⟨fun id hid => Nat.lt_succ_of_lt (h.below id hid), ?_⟩,
    forall_mem_append.2 ⟨h.within, forall_mem_singleton.2 ?_⟩, ?_⟩
  · dsimp only [Buffers.take]
    omega
  · exact h.curWithin id (Nat.le_of_succ_le hlo) hhi
  · exact forall_mem_singleton.2 (Nat.lt_succ_self _)
  · exact h.curWithin _ (Nat.le_refl _) (by omega)
  · refine pairwise_append.2 ⟨h.increasing, pairwise_singleton _ _, ?_⟩
    intro id hid id' hid'
    rw [mem_singleton.1 hid']
    exact h.below id hid

theorem move {id : Option Nat} (hm : b.Move id b') : b'.Ok granted (issued ++ id.toList) := by
  cases hm with
  | keep => simpa using h
  | switch => simpa using h.switch
  | take hleft => exact h.switch.take hleft

theorem accept {lo hi : Nat} (hg : granted lo hi) (hlt : lo < hi) (hlow : b.highWater ≤ lo)
    (ha : b.Accept lo hi b') : b'.Ok granted issued := by
  have hcur := h.cur
  have hwithin : ∀ id, lo ≤ id → id < hi → Within granted id := fun id hl hh => ⟨lo, hi, hg, hl, hh⟩
  cases ha with
  | next share =>
    refine { h with cur := ⟨hcur.1, ?_⟩, next := ?_, nextWithin := ?_ }
    · dsimp only
      omega
    · rintro s hs
      cases hs
      exact ⟨Nat.le_trans hcur.2 hlow, Nat.le_of_lt hlt, Nat.le_refl _⟩
    · rintro s hs
      cases hs
      exact hwithin
  | cur share hnext =>
    refine ⟨⟨Nat.le_of_lt hlt, Nat.le_refl _⟩, ?_, hwithin, ?_, fun id hid => ?_, h.within,
      h.increasing⟩
    · simp [hnext]
    · simp [hnext]
    · have := h.below id hid
      dsimp only [makeSegment]
      omega
  | drop =>
    refine { h with cur := ⟨hcur.1, ?_⟩, next := fun s hs => ?_ }
    · dsimp only
      omega
    · obtain ⟨hpos, hle, hhi⟩ := h.next s hs
      dsimp only
      omega

end Ok

end Buffers

/-! ## What the clients do -/

namespace GoClient

theorem new_buf {bizTag : String} {opt : GoOptions} {c : GoClient} (h : new bizTag opt = some c) :
    c.buf = .empty := by
  simp only [new, ite_none_left_eq_some, some.injEq] at h
  obtain ⟨-, rfl⟩ := h
  rfl

variable (c : GoClient) (now : Nat)

@[simp] theorem install_buf : (c.install now).buf = c.buf.switch := by
  unfold install Buffers.switch
  cases hnext : c.buf.next with
  | none => simp
  | some s => by_cases hleft : c.buf.cur.remaining = 0 <;> simp [hleft]

@[simp] theorem onRangeExhausted_buf : (c.onRangeExhausted now).buf = c.buf := by
  unfold onRangeExhausted
  split <;> rfl

@[simp] theorem takeId_buf : (c.takeId now).buf = c.buf.take := by
  unfold takeId
  dsimp only
  split
  · exact onRangeExhausted_buf _ now
  · rfl

theorem next_move : c.buf.Move (c.next now).2.issued (c.next now).1.buf := by
  have hinstall := c.install_buf now
  unfold next
  split
  · exact .keep
  dsimp only
  generalize c.install now = c₁ at hinstall
  split
  next hleft =>
    rw [hinstall] at hleft
    split
    · simpa only [startFetch, takeId_buf, hinstall] using .take hleft
    · simpa only [takeId_buf, hinstall] using .take hleft
  · split
    · simpa only [startFetch, hinstall] using .switch
    · simpa only [hinstall] using .switch

theorem warm_move : c.buf.Move c.warm.2.issued c.warm.1.buf := by
  unfold warm
  split
  · exact .keep
  · exact .keep

theorem finishFetch_buf (fetch : Nat) (range : Option (Nat × Nat)) (now : Nat) :
    (c.finishFetch fetch range now).buf = c.buf ∨
      ∃ lo hi, range = some (lo, hi) ∧ lo < hi ∧ c.buf.highWater ≤ lo ∧
        c.buf.Accept lo hi (c.finishFetch fetch range now).buf := by
  unfold finishFetch
  split
  · exact .inl rfl
  dsimp only
  split
  · exact .inl rfl
  rename_i lo hi
  split
  · exact .inl rfl
  next hvalid =>
    obtain ⟨hlt, hlow⟩ := Buffers.validate_eq_none hvalid
    exact .inr ⟨lo, hi, rfl, hlt, hlow, .next _⟩

end GoClient

namespace CppClient

theorem enable_buf {kindName : String} {opt : CppOptions} {c : CppClient}
    (h : enable kindName opt = some c) : c.buf = .empty := by
  simp only [enable, ite_none_left_eq_some, some.injEq] at h
  obtain ⟨-, rfl⟩ := h
  rfl

variable (c : CppClient) (now : Nat)

@[simp] theorem becomeCurrent_buf : (c.becomeCurrent now).buf = c.buf.switch := by
  unfold becomeCurrent Buffers.switch
  cases hnext : c.buf.next with
  | none => simp
  | some s => by_cases hleft : c.buf.cur.remaining = 0 <;> simp [hleft]

@[simp] theorem onFetchFailed_buf : c.onFetchFailed.buf = c.buf := by
  unfold onFetchFailed
  split <;> rfl

variable (sent : Bool)

@[simp] theorem startFetch_buf : (c.startFetch sent).1.buf = c.buf := by
  unfold startFetch
  split
  · rfl
  · dsimp only
    split
    · exact onFetchFailed_buf _
    · rfl

@[simp] theorem maybePrefetch_buf : (c.maybePrefetch sent).1.buf = c.buf := by
  unfold maybePrefetch
  split
  · exact startFetch_buf c sent
  · rfl

@[simp] theorem takeId_buf : (c.takeId now).buf = c.buf.take := by
  unfold takeId
  dsimp only
  split <;> rfl

theorem tryNext_move (sent : Bool) :
    c.buf.Move (c.tryNext now sent).2.issued (c.tryNext now sent).1.buf := by
  have hcurrent := c.becomeCurrent_buf now
  unfold tryNext
  dsimp only
  generalize c.becomeCurrent now = c₁ at hcurrent
  split
  next hleft =>
    rw [hcurrent] at hleft
    simpa only [maybePrefetch_buf, takeId_buf, hcurrent] using .take hleft
  · simpa only [startFetch_buf, hcurrent] using .switch

theorem warm_move : c.buf.Move (c.warm sent).2.issued (c.warm sent).1.buf := by
  unfold warm
  split
  · exact .keep
  · dsimp only
    rw [startFetch_buf]
    exact .keep

theorem onRetryTimer_move (gen : Nat) (sent : Bool) :
    c.buf.Move (c.onRetryTimer gen sent).2.issued (c.onRetryTimer gen sent).1.buf := by
  unfold onRetryTimer
  split
  · exact .keep
  dsimp only
  split
  · exact .keep
  · dsimp only
    rw [startFetch_buf]
    exact .keep

theorem accept_buf (lo hi now : Nat) : c.buf.Accept lo hi (c.accept lo hi now).buf := by
  unfold accept
  dsimp only
  split
  next hempty =>
    rw [Bool.and_eq_true] at hempty
    exact .cur _ (isNone_iff_eq_none.1 hempty.2)
  · split
    · exact .next _
    · exact .drop

theorem onResponse_buf (range : Option (Nat × Nat)) (now : Nat) :
    (c.onResponse range now).buf = c.buf ∨
      ∃ lo hi, range = some (lo, hi) ∧ lo < hi ∧ c.buf.highWater ≤ lo ∧
        c.buf.Accept lo hi (c.onResponse range now).buf := by
  unfold onResponse
  dsimp only
  split
  · exact .inl (onFetchFailed_buf _)
  rename_i lo hi
  split
  · exact .inl (onFetchFailed_buf _)
  next hvalid =>
    obtain ⟨hlt, hlow⟩ := Buffers.validate_eq_none hvalid
    exact .inr ⟨lo, hi, rfl, hlt, hlow, accept_buf { c with inflight := false } lo hi now⟩

end CppClient

namespace Client

theorem handle_move (c : Client) (input : Input) :
    c.buf.Move (c.handle input).2.issued (c.handle input).1.buf := by
  cases c with
  | go c =>
    cases input with
    | next now sent => exact c.next_move now
    | warm sent => exact c.warm_move
    | close | transportFailure | retryTimer gen sent => exact .keep
    | fetchFailed fetch now =>
      obtain heq | ⟨lo, hi, hnone, -⟩ := c.finishFetch_buf fetch none now
      · simpa only [handle, buf, heq] using .keep
      · cases hnone
  | cpp c =>
    cases input with
    | next now sent => exact c.tryNext_move now sent
    | warm sent => exact c.warm_move sent
    | close =>
      have hbuf : c.shutdown.buf = c.buf := by
        unfold CppClient.shutdown
        split <;> rfl
      simpa only [handle, buf, hbuf] using .keep
    | fetchFailed seq now =>
      have hbuf : (c.onFetchTimeout seq).buf = c.buf := by
        unfold CppClient.onFetchTimeout
        split <;> simp
      simpa only [handle, buf, hbuf] using .keep
    | transportFailure =>
      have hbuf : c.onTransportFailure.buf = c.buf := by
        unfold CppClient.onTransportFailure
        split <;> simp
      simpa only [handle, buf, hbuf] using .keep
    | retryTimer gen sent => exact c.onRetryTimer_move gen sent

theorem answer_buf (c : Client) (fetch : Nat) (range : Option (Nat × Nat)) (now : Nat) :
    (c.answer fetch range now).buf = c.buf ∨
      ∃ lo hi, range = some (lo, hi) ∧ lo < hi ∧ c.buf.highWater ≤ lo ∧
        c.buf.Accept lo hi (c.answer fetch range now).buf := by
  cases c with
  | go c => exact c.finishFetch_buf fetch range now
  | cpp c => exact c.onResponse_buf range now

end Client

end Mmorpg.IdSegment
