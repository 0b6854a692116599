import Mathlib.Data.List.Pairwise
import Mmorpg.IdSegment.Clients
import Mmorpg.IdSegment.Store
import Mmorpg.Lib.Run

/-!
# Segments and ids of a tag

The table, the replicas of the data service that allocate from it, the migrations and the clients.
A request of a client is served any number of times, by any replica, at any time; the result of an
allocation is an answer to the client that asked and arrives at any time, any number of times, or
never.

The history `log` records the ranges that were granted and the floors that were set, in order. Of
one tag, every range starts at or above the end of what the log holds before it (`Ok.sorted`),
because rows only grow and a range lies between the row before and the row after its commit. So
ranges are disjoint, and since a client's ids are increasing ids of its own ranges, no id is handed
out twice.
-/

namespace Mmorpg.IdSegment

open List Function Option

inductive Entry where
  | range (tag : String) (lo hi client : Nat)
  | floor (tag : String) (bound : Nat)
deriving DecidableEq, Repr

namespace Entry

def tag : Entry → String
  | .range tag _ _ _ => tag
  | .floor tag _ => tag

/-- No id at or above this belongs to the entry. -/
def top : Entry → Nat
  | .range _ _ hi _ => hi
  | .floor _ bound => bound

/-- A later range of the same tag starts at or above the earlier entry. -/
def Before (e : Entry) : Entry → Prop
  | .range tag lo _ _ => e.tag = tag → e.top ≤ lo
  | .floor _ _ => True

end Entry

structure Holder where
  tag : String
  client : Client
  issued : List Nat

structure System where
  table : Table
  calls : Nat → Option Call
  floors : Nat → Option FloorRaise
  holders : Nat → Option Holder
  requests : List Request
  log : List Entry

inductive Event where
  | startGo (i : Nat) (tag : String) (opt : GoOptions)
  | startCpp (i : Nat) (tag : String) (opt : CppOptions)
  | input (i : Nat) (input : Input)
  /-- A replica starts to serve a request. -/
  | serve (k request : Nat) (allowAutoSeed : Bool)
  /-- The next statement of an allocation. -/
  | exec (k : Nat) (fault : Fault)
  /-- The result of an allocation arrives at the client that asked for it. -/
  | answer (k now : Nat)
  | bootstrap (tag : String)
  | startFloor (k : Nat) (tag : String)
  | floor (k maxConsumed : Nat) (fault : Fault)

namespace System

def start (t : Table) : System := ⟨t, fun _ => none, fun _ => none, fun _ => none, [], []⟩

def setHolder (s : System) (i : Nat) (h : Holder) : System :=
  { s with holders := update s.holders i (some h) }

def startClient (s : System) (i : Nat) (tag : String) (client : Option Client) : System :=
  match client with
  | none => s
  | some client => if (s.holders i).isSome then s else s.setHolder i ⟨tag, client, []⟩

def onInput (s : System) (i : Nat) (input : Input) : System :=
  match s.holders i with
  | none => s
  | some h =>
    let (client, effects) := h.client.handle input
    let requests := effects.request.toList.map fun r => ⟨i, r.fetch, h.tag, r.step⟩
    { s.setHolder i { h with client, issued := h.issued ++ effects.issued.toList } with
      requests := s.requests ++ requests }

def onServe (s : System) (k request : Nat) (allowAutoSeed : Bool) : System :=
  match s.requests[request]? with
  | none => s
  | some req =>
    if (s.calls k).isSome then s
    else { s with calls := update s.calls k (some (Call.start req allowAutoSeed)) }

def onExec (s : System) (k : Nat) (fault : Fault) : System :=
  match s.calls k with
  | none => s
  | some c =>
    let (table, c') := c.exec s.table fault
    { s with
      table
      calls := update s.calls k (some c')
      log := s.log ++ (c.granted c').toList.map fun r => .range c.req.tag r.1 r.2 c.req.client }

def rangeOf : Except AllocateError (Nat × Nat) → Option (Nat × Nat)
  | .ok r => some r
  | .error _ => none

def onAnswer (s : System) (k now : Nat) : System :=
  match s.calls k with
  | none => s
  | some c =>
    match c.phase, s.holders c.req.client with
    | .done result, some h =>
      s.setHolder c.req.client
        { h with client := h.client.answer c.req.fetch (rangeOf result) now }
    | _, _ => s

def onStartFloor (s : System) (k : Nat) (tag : String) : System :=
  if (s.floors k).isSome then s
  else { s with floors := update s.floors k (some (FloorRaise.start s.table tag)) }

def onFloor (s : System) (k maxConsumed : Nat) (fault : Fault) : System :=
  match s.floors k with
  | none => s
  | some f =>
    let (table, f', floor) := f.exec s.table maxConsumed fault
    { s with
      table
      floors := update s.floors k (some f')
      log := s.log ++ floor.toList.map fun x => .floor f.tag x }

def step (s : System) : Event → System
  | .startGo i tag opt => s.startClient i tag ((GoClient.new tag opt).map .go)
  | .startCpp i tag opt => s.startClient i tag ((CppClient.enable tag opt).map .cpp)
  | .input i input => s.onInput i input
  | .serve k request allowAutoSeed => s.onServe k request allowAutoSeed
  | .exec k fault => s.onExec k fault
  | .answer k now => s.onAnswer k now
  | .bootstrap tag => { s with table := bootstrapIdSegmentRow s.table tag }
  | .startFloor k tag => s.onStartFloor k tag
  | .floor k maxConsumed fault => s.onFloor k maxConsumed fault

/-! ## The invariant -/

def Granted (s : System) (i : Nat) (tag : String) (lo hi : Nat) : Prop :=
  .range tag lo hi i ∈ s.log

structure Ok (s : System) : Prop where
  sorted : s.log.Pairwise Entry.Before
  ranges : ∀ tag lo hi i, .range tag lo hi i ∈ s.log → 1 ≤ lo ∧ lo < hi ∧ hi < idSegmentCap
  reached : ∀ e ∈ s.log, ∃ row, s.table e.tag = some row ∧ e.top ≤ row.maxID
  calls : ∀ k c, s.calls k = some c → c.Ok s.table
  results : ∀ k c lo hi, s.calls k = some c → c.phase = .done (.ok (lo, hi)) →
    .range c.req.tag lo hi c.req.client ∈ s.log
  floors : ∀ k f, s.floors k = some f → f.Ok s.table
  tags : ∀ req ∈ s.requests, ∃ h, s.holders req.client = some h ∧ h.tag = req.tag
  callTags : ∀ k c, s.calls k = some c → ∃ h, s.holders c.req.client = some h ∧ h.tag = c.req.tag
  holders : ∀ i h, s.holders i = some h → h.client.buf.Ok (s.Granted i h.tag) h.issued

namespace Ok

variable {s : System}

theorem start (t : Table) : (System.start t).Ok := by
  constructor <;> simp [System.start]

/-- A statement changes the table and notes at most one entry, which lies between the rows before
and after it. -/
theorem store (h : s.Ok) {table : Table} (entry : Option Entry) (hle : TableLe s.table table)
    (hreached : ∀ e ∈ entry, ∃ row, table e.tag = some row ∧ e.top ≤ row.maxID)
    (hrange : ∀ tag lo hi i, entry = some (.range tag lo hi i) → 1 ≤ lo ∧ lo < hi ∧
      ∃ row, s.table tag = some row ∧ row.maxID ≤ lo) :
    { s with table, log := s.log ++ entry.toList }.Ok := by
  refine ⟨?_, fun tag lo hi i he => ?_, fun e he => ?_, fun k c hc => (h.calls k c hc).mono hle,
    fun k c lo hi hc hphase => ?_, fun k f hf => (h.floors k f hf).mono hle, h.tags, h.callTags,
    fun i hd hhd => ?_⟩
  · refine pairwise_append.2 ⟨h.sorted, ?_, fun e he e' he' => ?_⟩
    · cases entry <;> simp
    · cases e' with
      | floor tag bound => trivial
      | range tag lo hi i =>
        intro htag
        obtain ⟨-, -, row, hrow, hlo⟩ := hrange tag lo hi i (by simpa using he')
        obtain ⟨row₂, hrow₂, htop⟩ := h.reached e he
        rw [htag, hrow] at hrow₂
        cases hrow₂
        exact Nat.le_trans htop hlo
  · rcases mem_append.1 he with he | he
    · exact h.ranges tag lo hi i he
    · rw [mem_toList] at he
      obtain ⟨hpos, hlt, -⟩ := hrange tag lo hi i he
      obtain ⟨row, -, htop⟩ := hreached _ he
      exact ⟨hpos, hlt, Nat.lt_of_le_of_lt htop row.check⟩
  · rcases mem_append.1 he with he | he
    · obtain ⟨row, hrow, htop⟩ := h.reached e he
      obtain ⟨row', hrow', hgrown⟩ := hle _ _ hrow
      exact ⟨row', hrow', Nat.le_trans htop hgrown.maxID⟩
    · exact hreached e (by simpa using he)
  · exact mem_append_left _ (h.results k c lo hi hc hphase)
  · exact (h.holders i hd hhd).mono fun lo hi hg => mem_append_left _ hg

theorem setCall (h : s.Ok) {k : Nat} {c : Call} (hc : c.Ok s.table)
    (hresult : ∀ lo hi, c.phase = .done (.ok (lo, hi)) →
      .range c.req.tag lo hi c.req.client ∈ s.log)
    (htag : ∃ hd, s.holders c.req.client = some hd ∧ hd.tag = c.req.tag) :
    { s with calls := update s.calls k (some c) }.Ok := by
  have hcases : ∀ k' c', update s.calls k (some c) k' = some c' →
      c' = c ∨ s.calls k' = some c' := by
    intro k' c' hk
    by_cases hkk : k' = k
    · subst hkk
      rw [update_self] at hk
      exact .inl (some.inj hk).symm
    · rw [update_of_ne hkk] at hk
      exact .inr hk
  refine { h with
    calls := fun k' c' hk => ?_
    results := fun k' c' lo hi hk hphase => ?_
    callTags := fun k' c' hk => ?_ }
  · rcases hcases k' c' hk with rfl | hk
    · exact hc
    · exact h.calls k' c' hk
  · rcases hcases k' c' hk with rfl | hk
    · exact hresult lo hi hphase
    · exact h.results k' c' lo hi hk hphase
  · rcases hcases k' c' hk with rfl | hk
    · exact htag
    · exact h.callTags k' c' hk

theorem setFloor (h : s.Ok) {k : Nat} {f : FloorRaise} (hf : f.Ok s.table) :
    { s with floors := update s.floors k (some f) }.Ok := by
  refine { h with floors := fun k' f' hk => ?_ }
  by_cases hkk : k' = k
  · subst hkk
    dsimp only at hk
    rw [update_self] at hk
    exact some.inj hk ▸ hf
  · dsimp only at hk
    rw [update_of_ne hkk] at hk
    exact h.floors k' f' hk

theorem setHolder (h : s.Ok) {i : Nat} {hd : Holder}
    (htag : ∀ old, s.holders i = some old → hd.tag = old.tag)
    (hbuf : hd.client.buf.Ok (s.Granted i hd.tag) hd.issued) : (s.setHolder i hd).Ok := by
  have hkeep : ∀ j tag, (∃ old, s.holders j = some old ∧ old.tag = tag) →
      ∃ new, (s.setHolder i hd).holders j = some new ∧ new.tag = tag := by
    rintro j tag ⟨old, hold, rfl⟩
    by_cases hji : j = i
    · subst hji
      exact ⟨hd, update_self .., htag old hold⟩
    · exact ⟨old, (update_of_ne hji ..).trans hold, rfl⟩
  refine { h with
    tags := fun req hreq => hkeep _ _ (h.tags req hreq)
    callTags := fun k c hc => hkeep _ _ (h.callTags k c hc)
    holders := fun j new hj => ?_ }
  by_cases hji : j = i
  · subst hji
    dsimp only [System.setHolder] at hj
    rw [update_self] at hj
    cases hj
    exact hbuf
  · dsimp only [System.setHolder] at hj
    rw [update_of_ne hji] at hj
    exact h.holders j new hj

theorem addRequests (h : s.Ok) {requests : List Request}
    (htag : ∀ req ∈ requests, ∃ hd, s.holders req.client = some hd ∧ hd.tag = req.tag) :
    { s with requests := s.requests ++ requests }.Ok :=
  { h with tags := forall_mem_append.2 ⟨h.tags, htag⟩ }

/-! ## Every step keeps it -/

variable (h : s.Ok)

include h

theorem startClient (i : Nat) (tag : String) {client : Option Client}
    (hempty : ∀ c ∈ client, c.buf = .empty) : (s.startClient i tag client).Ok := by
  unfold System.startClient
  split
  · exact h
  rename_i c
  split
  · exact h
  next hnew =>
    refine h.setHolder (fun old hold => absurd (isSome_of_mem hold) hnew) ?_
    rw [hempty c rfl]
    exact .empty _

theorem onInput (i : Nat) (input : Input) : (s.onInput i input).Ok := by
  unfold System.onInput
  split
  · exact h
  rename_i hd hhd
  dsimp only
  refine Ok.addRequests (h.setHolder (fun old hold => ?_) ?_) fun req hreq => ?_
  · rw [hhd] at hold
    rw [some.inj hold]
  · exact (h.holders i hd hhd).move (hd.client.handle_move input)
  · obtain ⟨r, -, rfl⟩ := mem_map.1 hreq
    exact ⟨_, update_self .., rfl⟩

theorem onServe (k request : Nat) (allowAutoSeed : Bool) :
    (s.onServe k request allowAutoSeed).Ok := by
  unfold System.onServe
  split
  · exact h
  rename_i req hreq
  split
  · exact h
  rename_i hnew
  refine h.setCall (.start s.table req allowAutoSeed) (fun lo hi hphase => ?_)
    (h.tags req (mem_of_getElem? hreq))
  unfold Call.start at hphase
  dsimp only at hphase
  split at hphase
  · cases hphase
  · split at hphase <;> cases hphase

theorem onExec (k : Nat) (fault : Fault) : (s.onExec k fault).Ok := by
  unfold System.onExec
  split
  · exact h
  rename_i c hc
  have he := Call.exec_effect (h.calls k c hc) fault
  dsimp only
  generalize c.exec s.table fault = out at he
  obtain ⟨table, c'⟩ := out
  dsimp only at he ⊢
  have hstore := h.store ((c.granted c').map fun r => .range c.req.tag r.1 r.2 c.req.client)
    he.le (fun e hgr => ?_) (fun tag lo hi i hgr => ?_)
  · rw [toList_map] at hstore
    refine hstore.setCall he.ok (fun lo hi hphase => ?_) ?_
    · rw [he.req]
      rcases he.result _ hphase with hold | hgr
      · exact mem_append_left _ (h.results k c lo hi hc hold)
      · exact mem_append_right _ (by simp [hgr])
    · rw [he.req]
      exact h.callTags k c hc
  · obtain ⟨r, hr, rfl⟩ := map_eq_some_iff.1 hgr
    obtain ⟨-, -, -, row', -, hrow', -, hhi⟩ := he.range r.1 r.2 hr
    exact ⟨row', hrow', hhi⟩
  · obtain ⟨r, hr, heq⟩ := map_eq_some_iff.1 hgr
    cases heq
    obtain ⟨hpos, hlt, row, -, hrow, -, hlo, -⟩ := he.range r.1 r.2 hr
    exact ⟨hpos, hlt, row, hrow, hlo⟩

theorem onAnswer (k now : Nat) : (s.onAnswer k now).Ok := by
  unfold System.onAnswer
  split
  · exact h
  rename_i c hc
  split
  next result hd hphase hhd =>
    refine h.setHolder (fun old hold => ?_) ?_
    · rw [hhd] at hold
      rw [some.inj hold]
    · have hold := h.holders _ hd hhd
      obtain heq | ⟨lo, hi, hrange, hlt, hlow, haccept⟩ :=
        hd.client.answer_buf c.req.fetch (rangeOf result) now
      · rw [heq]
        exact hold
      · refine hold.accept ?_ hlt hlow haccept
        -- The answer is the result of the call, which was granted to this client.
        obtain ⟨hd', hhd', htag⟩ := h.callTags k c hc
        obtain rfl : hd = hd' := some.inj (hhd.symm.trans hhd')
        cases result with
        | error e => cases hrange
        | ok r =>
          cases hrange
          rw [Granted, htag]
          exact h.results k c lo hi hc hphase
  · exact h

theorem onFloor (k maxConsumed : Nat) (fault : Fault) : (s.onFloor k maxConsumed fault).Ok := by
  unfold System.onFloor
  split
  · exact h
  rename_i f hf
  have he := FloorRaise.exec_effect (h.floors k f hf) maxConsumed fault
  dsimp only
  generalize f.exec s.table maxConsumed fault = out at he
  obtain ⟨table, f', floor⟩ := out
  dsimp only at he ⊢
  have hstore := h.store (floor.map fun x => .floor f.tag x) he.le (fun e hx => ?_)
    (fun tag lo hi i hx => ?_)
  · rw [toList_map] at hstore
    exact hstore.setFloor he.ok
  · obtain ⟨x, hmem, rfl⟩ := map_eq_some_iff.1 hx
    exact he.floor x hmem
  · obtain ⟨x, -, heq⟩ := map_eq_some_iff.1 hx
    cases heq

theorem step (e : Event) : (s.step e).Ok := by
  cases e with
  | startGo i tag opt =>
    refine h.startClient i tag fun c hc => ?_
    obtain ⟨g, hg, rfl⟩ := map_eq_some_iff.1 hc
    exact GoClient.new_buf hg
  | startCpp i tag opt =>
    refine h.startClient i tag fun c hc => ?_
    obtain ⟨g, hg, rfl⟩ := map_eq_some_iff.1 hc
    exact CppClient.enable_buf hg
  | input i input => exact h.onInput i input
  | serve k request allowAutoSeed => exact h.onServe k request allowAutoSeed
  | exec k fault => exact h.onExec k fault
  | answer k now => exact h.onAnswer k now
  | bootstrap tag =>
    have hle : TableLe s.table (bootstrapIdSegmentRow s.table tag) := by
      unfold bootstrapIdSegmentRow
      split
      · exact insertIgnore_le _ _ _
      · exact .refl _
    simpa [System.step] using h.store none hle (by simp) (by simp)
  | startFloor k tag =>
    dsimp only [System.step]
    unfold onStartFloor
    split
    · exact h
    · exact h.setFloor (.start s.table tag)
  | floor k maxConsumed fault => exact h.onFloor k maxConsumed fault

end Ok

variable {s : System}

theorem Ok.run (h : s.Ok) (evs : List Event) : (Machine.run System.step s evs).Ok :=
  Machine.run_invariant (I := Ok) (fun _ e hs => hs.step e) h evs

/-! ## Ranges and ids -/

/-- Of two ranges of a tag one starts after the other. -/
theorem Ok.disjoint (h : s.Ok) {tag : String} {lo hi i lo' hi' j : Nat}
    (he : .range tag lo hi i ∈ s.log) (he' : .range tag lo' hi' j ∈ s.log)
    (hne : Entry.range tag lo hi i ≠ .range tag lo' hi' j) : hi ≤ lo' ∨ hi' ≤ lo := by
  have hsorted : s.log.Pairwise fun e e' => e.Before e' ∨ e'.Before e :=
    h.sorted.imp fun hbefore => .inl hbefore
  have hsymm : Std.Symm fun e e' : Entry => e.Before e' ∨ e'.Before e := ⟨fun _ _ hor => hor.symm⟩
  rcases hsorted.forall he he' hne with hbefore | hbefore
  · exact .inl (hbefore rfl)
  · exact .inr (hbefore rfl)

theorem Ok.issued_ne (h : s.Ok) {i j : Nat} {hd hd' : Holder}
    (hi : s.holders i = some hd) (hj : s.holders j = some hd') (hij : i ≠ j)
    (htag : hd.tag = hd'.tag) {id : Nat} (hid : id ∈ hd.issued) : id ∉ hd'.issued := by
  intro hid'
  obtain ⟨lo, top, hg, hlo, htop⟩ := (h.holders i hd hi).within id hid
  obtain ⟨lo', top', hg', hlo', htop'⟩ := (h.holders j hd' hj).within id hid'
  rw [Granted, ← htag] at hg'
  have hne : Entry.range hd.tag lo top i ≠ .range hd.tag lo' top' j := by
    intro heq
    cases heq
    exact hij rfl
  rcases h.disjoint hg hg' hne with hle | hle
  · omega
  · omega

/-- A failed allocation has written nothing but the first row of a tag without row. -/
theorem Ok.failed (h : s.Ok) {k : Nat} {c : Call} {e : AllocateError}
    (hc : s.calls k = some c) (hphase : c.phase = .done (.error e))
    (hreported : c.unreported = false) : ∀ w ∈ c.writes, c.IsSeed w := by
  rcases (h.calls k c hc).writes with ⟨r, hr⟩ | hlost | hseeds
  · cases hphase.symm.trans hr
  · rw [hreported] at hlost
    cases hlost
  · exact hseeds

/-- In every run, from any table: the ranges of a tag start at or above every range granted and
every floor set before and lie below the cap; an allocation only does to the table what it notes,
which is at most the first row of the tag if it fails and no reply was lost; and every client hands
out increasing ids of its own ranges, so that no id of a tag is handed out twice. -/
theorem segments_never_repeat (table : Table) (evs : List Event) :
    let s := Machine.run System.step (start table) evs
    s.log.Pairwise Entry.Before ∧
    (∀ tag lo hi i, .range tag lo hi i ∈ s.log → 1 ≤ lo ∧ lo < hi ∧ hi < idSegmentCap) ∧
    (∀ k c fault, s.calls k = some c →
      c.Writes s.table (c.exec s.table fault).1 (c.exec s.table fault).2) ∧
    (∀ k c e, s.calls k = some c → c.phase = .done (.error e) → c.unreported = false →
      ∀ w ∈ c.writes, c.allowAutoSeed = true ∧ w = (none, firstRow c.req.step)) ∧
    (∀ i hd, s.holders i = some hd → hd.issued.Pairwise (· < ·) ∧
      ∀ id ∈ hd.issued, ∃ lo hi, .range hd.tag lo hi i ∈ s.log ∧ lo ≤ id ∧ id < hi) ∧
    ∀ i j hd hd', s.holders i = some hd → s.holders j = some hd' → i ≠ j → hd.tag = hd'.tag →
      ∀ id ∈ hd.issued, id ∉ hd'.issued := by
  intro s
  have h : s.Ok := (Ok.start table).run evs
  exact ⟨h.sorted, h.ranges, fun k c fault _ => c.exec_writes s.table fault,
    fun k c e hc hphase hreported => h.failed hc hphase hreported,
    fun i hd hi => ⟨(h.holders i hd hi).increasing, (h.holders i hd hi).within⟩,
    fun i j hd hd' hi hj hij htag id hid => h.issued_ne hi hj hij htag hid⟩

def sceneOptions : CppOptions :=
  ⟨10, 0, 0, ⟨1, 10⟩, defaultMaxIDExclusive, 500, 5000, 900000, 1800000⟩

def loginOptions : GoOptions := ⟨10, 0, 0, ⟨0, 1⟩, 0, 0⟩

def twoClients : List Event :=
  [.bootstrap "mail", .startCpp 0 "mail" sceneOptions, .startGo 1 "mail" loginOptions,
    .input 0 (.next 0 true), .input 1 (.next 0 true), .serve 0 0 false, .serve 1 1 false,
    .exec 0 .none, .exec 1 .none, .exec 0 .none, .exec 1 .none, .serve 2 1 false, .exec 2 .none,
    .exec 2 .none, .answer 0 5, .answer 2 5, .answer 0 6, .input 0 (.next 6 true),
    .input 1 (.next 6 true), .input 0 (.next 6 true)]

/-- The first allocation for the second client meets a changed version, the next one succeeds. -/
theorem two_clients_differ :
    let s := Machine.run System.step (start fun _ => none) twoClients
    ∃ hd hd', s.holders 0 = some hd ∧ s.holders 1 = some hd' ∧ hd.issued = [1, 2] ∧
      hd'.issued = [11] ∧ ∀ id ∈ hd.issued, id ∉ hd'.issued := by
  intro s
  refine ⟨_, _, rfl, rfl, rfl, rfl, ?_⟩
  exact (segments_never_repeat (fun _ => none) twoClients).2.2.2.2.2 0 1 _ _ rfl rfl (by decide) rfl

/-- Three lock errors, and the last attempt finds no row. -/
def seedAndFail : List Event :=
  [.startCpp 0 "mail" sceneOptions, .input 0 (.next 0 true), .serve 0 0 true, .exec 0 .lock,
    .exec 0 .lock, .exec 0 .lock, .exec 0 .none, .exec 0 .none]

/-- The reply of the commit is lost. -/
def commitUnreported : List Event :=
  [.bootstrap "mail", .startCpp 0 "mail" sceneOptions, .input 0 (.next 0 true), .serve 0 0 false,
    .exec 0 .none, .exec 0 .unreported]

/-- An allocation that fails after it has inserted a row, and one that fails after it has advanced
the row. -/
theorem failed_allocation_inserts_row :
    let s := Machine.run System.step (start fun _ => none) seedAndFail
    let s' := Machine.run System.step (start fun _ => none) commitUnreported
    (start fun _ => none).table "mail" = none ∧
      (∃ c, s.calls 0 = some c ∧ c.phase = .done (.error .attempts)) ∧
      s.table "mail" = some (firstRow 10) ∧
      (∃ c, s'.calls 0 = some c ∧ c.phase = .done (.error .sql)) ∧
      (s'.table "mail").map (·.maxID) = some 11 :=
  ⟨rfl, ⟨_, rfl, rfl⟩, rfl, ⟨_, rfl, rfl⟩, rfl⟩

end System

end Mmorpg.IdSegment
