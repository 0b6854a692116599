import Mathlib.Data.Finset.Card
import Mathlib.Data.List.Pairwise
import Mathlib.Logic.Function.Basic
import Mmorpg.Lib.Run

/-!
# The offset acker of one partition claim

`claimAcker` (go/db/internal/kafka/key_ordered_consumer.go) turns out-of-order completions
of one Kafka claim into the marking of a contiguous prefix. The window is `order[head:]`;
`ack` advances `head` over completed offsets and compacts the slice when the dead prefix is
long. Every method runs under the acker's mutex, so a run is a list of calls.

`History` says what the calls mean without a window: which offsets are live (tracked and
not untracked), which of them wait for a completion, which were acked, and whether the
claim was closed by a failure or a stop. `Agrees` ties the two together; the window plus
what was marked is exactly the live list (`Agrees.window`), so no offset is lost.
-/

namespace Mmorpg.Kafka

open List Function Machine

/-- A message of the claim. Only `Offset` is read by the acker; the value is what the
session is given to mark. -/
structure ConsumerMessage where
  offset : Int
  value : String
deriving DecidableEq, Repr

/-- `claimAcker`. `tracked` is the key set of a Go map, `completed` a Go map, `pending` the
wait group's counter, `failureCh` a channel of capacity one, and `marked` the log of
`session.MarkMessage` calls. -/
structure ClaimAcker where
  order : List Int
  head : Nat
  tracked : Finset Int
  completed : Int → Option ConsumerMessage
  failed : Bool
  canceled : Bool
  failureCh : Option String
  pending : Int
  marked : List ConsumerMessage

namespace ClaimAcker

def new : ClaimAcker where
  order := []
  head := 0
  tracked := ∅
  completed := fun _ => none
  failed := false
  canceled := false
  failureCh := none
  pending := 0
  marked := []

def track (a : ClaimAcker) : Option ConsumerMessage → ClaimAcker
  | none => a
  | some msg =>
    if msg.offset ∈ a.tracked then a
    else { a with
      tracked := insert msg.offset a.tracked
      order := a.order ++ [msg.offset]
      pending := a.pending + 1 }

/-- `claimAcker.untrack`: only the last offset of `order`, still tracked and not below
`head`, is taken out again. `last < head` is `len(order) ≤ head` on naturals. -/
def untrack (a : ClaimAcker) : Option ConsumerMessage → ClaimAcker × Bool
  | none => (a, false)
  | some msg =>
    if msg.offset ∉ a.tracked ∨ a.order.length ≤ a.head ∨
        a.order.getLast? ≠ some msg.offset then (a, false)
    else
      ({ a with
        tracked := a.tracked.erase msg.offset
        order := a.order.dropLast
        pending := a.pending - 1 }, true)

/-- The loop of `ack` over `order[head:]`: mark while the next offset is completed. -/
def advance : List Int → ClaimAcker → ClaimAcker
  | [], a => a
  | offset :: rest, a =>
    match a.completed offset with
    | none => a
    | some next => advance rest { a with
        marked := a.marked ++ [next]
        completed := update a.completed offset none
        head := a.head + 1 }

/-- The in-place compaction at the end of `ack`. -/
def compact (a : ClaimAcker) : ClaimAcker :=
  if 1024 ≤ a.head ∧ a.order.length ≤ a.head * 2 then
    { a with order := a.order.drop a.head, head := 0 }
  else a

/-- The part of `ack` under `!failed`, up to the compaction. -/
def complete (a : ClaimAcker) (msg : ConsumerMessage) : ClaimAcker :=
  let a := { a with completed := update a.completed msg.offset (some msg) }
  advance (a.order.drop a.head) a

/-- `ack` with the compaction passed in. -/
def ackWith (compact : ClaimAcker → ClaimAcker) (a : ClaimAcker) :
    Option ConsumerMessage → ClaimAcker
  | none => a
  | some msg =>
    if msg.offset ∉ a.tracked then a
    else
      let a := { a with tracked := a.tracked.erase msg.offset }
      let a := if a.failed then a else compact (a.complete msg)
      { a with pending := a.pending - 1 }

/-- `claimAcker.fail`. The send on `failureCh` is dropped when the channel is full. -/
def fail (a : ClaimAcker) (msg : Option ConsumerMessage) (err : String) : ClaimAcker :=
  match msg with
  | none => a
  | some msg =>
    if msg.offset ∉ a.tracked then a
    else { a with
      tracked := a.tracked.erase msg.offset
      failed := true
      completed := fun _ => none
      canceled := true
      failureCh := a.failureCh.or (some err)
      pending := a.pending - 1 }

def stop (a : ClaimAcker) : ClaimAcker :=
  { a with
    completed := if a.failed then a.completed else fun _ => none
    failed := true
    canceled := true }

end ClaimAcker

inductive Call where
  | track (msg : Option ConsumerMessage)
  | untrack (msg : Option ConsumerMessage)
  | ack (msg : Option ConsumerMessage)
  | fail (msg : Option ConsumerMessage) (err : String)
  | stop
deriving DecidableEq, Repr

namespace ClaimAcker

def stepWith (compact : ClaimAcker → ClaimAcker) (a : ClaimAcker) : Call → ClaimAcker
  | .track msg => a.track msg
  | .untrack msg => (a.untrack msg).1
  | .ack msg => a.ackWith compact msg
  | .fail msg err => a.fail msg err
  | .stop => a.stop

def after (calls : List Call) : ClaimAcker := run (stepWith compact) new calls

/-- The same calls on an acker that never compacts its slice. -/
def afterUncompacted (calls : List Call) : ClaimAcker := run (stepWith id) new calls

end ClaimAcker

def trackOffsets (calls : List Call) : List Int :=
  calls.filterMap fun
    | .track (some msg) => some msg.offset
    | _ => none

/-! ## What the calls mean -/

/-- `live`: tracked and not untracked, in tracking order; `waiting`: live and not yet acked
or failed; `acked`: completed by an `ack`; `closed`: a waiting offset failed, or `stop`. -/
structure History where
  live : List Int
  waiting : Finset Int
  acked : Finset Int
  closed : Bool
deriving DecidableEq

namespace History

def empty : History := ⟨[], ∅, ∅, false⟩

/-- A call about an offset that does not wait has no meaning, and only the offset tracked
last can be untracked. -/
def step (h : History) : Call → History
  | .track (some msg) =>
    if msg.offset ∈ h.waiting then h
    else { h with live := h.live ++ [msg.offset], waiting := insert msg.offset h.waiting }
  | .untrack (some msg) =>
    if msg.offset ∈ h.waiting ∧ h.live.getLast? = some msg.offset then
      { h with live := h.live.dropLast, waiting := h.waiting.erase msg.offset }
    else h
  | .ack (some msg) =>
    if msg.offset ∈ h.waiting then
      { h with waiting := h.waiting.erase msg.offset, acked := insert msg.offset h.acked }
    else h
  | .fail (some msg) _ =>
    if msg.offset ∈ h.waiting then
      { h with waiting := h.waiting.erase msg.offset, closed := true }
    else h
  | .stop => { h with closed := true }
  | _ => h

def after (calls : List Call) : History := run step empty calls

end History

namespace ClaimAcker

/-! ## The marking loop -/

/-- The loop marks a prefix of the window it walks, stops at the first offset that is not
completed, and touches nothing but `marked`, `completed` and `head`. -/
theorem advance_spec (w : List Int) (a : ClaimAcker) (hw : w.Nodup)
    (hc : ∀ o m, a.completed o = some m → m.offset = o) :
    ∃ n ms c,
      advance w a = { a with marked := a.marked ++ ms, completed := c, head := a.head + n } ∧
      n ≤ w.length ∧ ms.map (·.offset) = w.take n ∧
      (∀ o, c o = if o ∈ w.take n then none else a.completed o) ∧
      (∀ o ∈ w.take n, (a.completed o).isSome) ∧
      (∀ o, (w.drop n).head? = some o → a.completed o = none) := by
  induction w generalizing a with
  | nil => exact ⟨0, [], a.completed, by simp [advance]⟩
  | cons offset rest ih =>
    obtain ⟨hnotin, hrest⟩ := nodup_cons.1 hw
    unfold advance
    cases hcur : a.completed offset with
    | none =>
      refine ⟨0, [], a.completed, by simp, by simp, by simp, by simp, by simp, ?_⟩
      intro o ho
      simp only [drop_zero, List.head?_cons, Option.some.injEq] at ho
      exact ho ▸ hcur
    | some next =>
      have hoff : next.offset = offset := hc _ _ hcur
      -- the offset just marked is out of the map, so the map still names its own offsets
      have hc' : ∀ o m, update a.completed offset none o = some m → m.offset = o := by
        intro o m hm
        by_cases ho : o = offset
        · subst ho; simp at hm
        · rw [update_of_ne ho] at hm
          exact hc o m hm
      obtain ⟨n, ms, c, heq, hn, hms, hcs, hsome, hstop⟩ := ih
        { a with
          marked := a.marked ++ [next]
          completed := update a.completed offset none
          head := a.head + 1 } hrest hc'
      simp only at heq hcs hsome hstop
      have hne : ∀ o ∈ rest, o ≠ offset := fun o ho he => hnotin (he ▸ ho)
      refine ⟨n + 1, next :: ms, c, ?_, ?_, ?_, ?_, ?_, ?_⟩
      · simp only [heq]
        simp [Nat.add_assoc, Nat.add_comm 1 n]
      · simpa using hn
      · simp [hoff, hms]
      · intro o
        rw [hcs o]
        by_cases ho : o = offset
        · subst ho; simp
        · simp [ho, update_of_ne]
      · intro o ho
        rcases mem_cons.1 (by simpa using ho) with rfl | ho'
        · simp [hcur]
        · have := hsome o ho'
          rwa [update_of_ne (hne o (mem_of_mem_take ho'))] at this
      · intro o ho
        have hmem : o ∈ rest := by
          have : o ∈ rest.drop n := mem_of_mem_head? (by simpa using ho)
          exact mem_of_mem_drop this
        have := hstop o (by simpa using ho)
        rwa [update_of_ne (hne o hmem)] at this

/-- The guard of `untrack`, told by the window: the offset is tracked and stands last in
`order[head:]`. -/
theorem untrack_eq (a : ClaimAcker) (msg : ConsumerMessage) :
    a.untrack (some msg) =
      if msg.offset ∈ a.tracked ∧ (a.order.drop a.head).getLast? = some msg.offset then
        ({ a with
          tracked := a.tracked.erase msg.offset
          order := a.order.dropLast
          pending := a.pending - 1 }, true)
      else (a, false) := by
  simp only [untrack, List.getLast?_drop]
  by_cases ht : msg.offset ∈ a.tracked
  · by_cases hl : a.order.length ≤ a.head
    · simp [ht, hl]
    · by_cases hg : a.order.getLast? = some msg.offset
      · simp [ht, hl, hg]
      · simp [ht, hl, hg]
  · simp [ht]

variable {a : ClaimAcker} {o : Int}

/-- Cutting the last offset of a window that is not empty keeps `head` inside the slice. -/
theorem head_le_dropLast (h : (a.order.drop a.head).getLast? = some o) :
    a.head ≤ a.order.dropLast.length := by
  rw [List.getLast?_drop] at h
  split at h
  · cases h
  · rw [length_dropLast]
    omega

@[simp] theorem compact_pending (a : ClaimAcker) : a.compact.pending = a.pending := by
  unfold compact
  split <;> rfl

theorem compact_setPending (a : ClaimAcker) (p : Int) :
    ({ a with pending := p } : ClaimAcker).compact = { a.compact with pending := p } := by
  unfold compact
  split <;> rfl

@[simp] theorem complete_pending (a : ClaimAcker) (msg : ConsumerMessage) :
    (a.complete msg).pending = a.pending := by
  have key : ∀ (w : List Int) (b : ClaimAcker), (advance w b).pending = b.pending := by
    intro w
    induction w with
    | nil => intro b; rfl
    | cons o rest ih =>
      intro b
      unfold advance
      split
      · rfl
      · rw [ih]
  exact key _ _

/-! ## Compaction is invisible -/

/-- Two ackers that differ only in where their common window stands in the slice. -/
structure SameWindow (a b : ClaimAcker) : Prop where
  window : a.order.drop a.head = b.order.drop b.head
  left_le : a.head ≤ a.order.length
  right_le : b.head ≤ b.order.length
  rest : b = { a with order := b.order, head := b.head }

variable (msg : Option ConsumerMessage)

namespace SameWindow

variable {a b : ClaimAcker} (h : SameWindow a b)

include h

theorem compact_left : SameWindow a.compact b := by
  unfold compact
  split
  · refine ⟨?_, Nat.zero_le _, h.right_le, ?_⟩
    · simpa using h.window
    · rw [h.rest]
  · exact h

theorem track : SameWindow (a.track msg) (b.track msg) := by
  cases msg with
  | none => exact h
  | some msg =>
    have ht : b.tracked = a.tracked := by rw [h.rest]
    simp only [ClaimAcker.track, ht]
    split
    · exact h
    refine ⟨?_, ?_, ?_, ?_⟩
    · simp only [drop_append_of_le_length h.left_le,
        drop_append_of_le_length h.right_le, h.window]
    · simpa using Nat.le_succ_of_le h.left_le
    · simpa using Nat.le_succ_of_le h.right_le
    · rw [h.rest]

theorem untrack : SameWindow (a.untrack msg).1 (b.untrack msg).1 := by
  cases msg with
  | none => exact h
  | some msg =>
    have ht : b.tracked = a.tracked := by rw [h.rest]
    rw [untrack_eq, untrack_eq, ht, ← h.window]
    split
    · next hcond =>
      refine ⟨?_, head_le_dropLast hcond.2, head_le_dropLast (h.window ▸ hcond.2), ?_⟩
      · simp only [← dropLast_drop_eq_drop_dropLast, h.window]
      · rw [h.rest]
    · exact h

theorem complete (msg : ConsumerMessage) : SameWindow (a.complete msg) (b.complete msg) := by
  have key : ∀ (w : List Int) (a b : ClaimAcker), a.order.drop a.head = w →
      SameWindow a b → SameWindow (advance w a) (advance w b) := by
    intro w
    induction w with
    | nil => intro a b _ h; exact h
    | cons offset rest ih =>
      intro a b hw h
      have hc : b.completed = a.completed := by rw [h.rest]
      unfold advance
      rw [hc]
      cases a.completed offset with
      | none => exact h
      | some next =>
        have hnext {c : ClaimAcker} (hc : c.order.drop c.head = offset :: rest) :
            c.head < c.order.length ∧ c.order.drop (c.head + 1) = rest := by
          refine ⟨?_, by rw [← tail_drop, hc, tail_cons]⟩
          by_contra hge
          rw [drop_eq_nil_of_le (Nat.le_of_not_lt hge)] at hc
          cases hc
        obtain ⟨hlt, ha⟩ := hnext hw
        obtain ⟨hlt', hb⟩ := hnext (h.window ▸ hw)
        refine ih _ _ ha ⟨?_, hlt, hlt', ?_⟩
        · rw [ha, hb]
        · rw [h.rest]
  simp only [ClaimAcker.complete]
  rw [← h.window]
  refine key (a.order.drop a.head) _ _ rfl { h with rest := ?_ }
  rw [h.rest]

theorem ack : SameWindow (a.ackWith compact msg) (b.ackWith id msg) := by
  cases msg with
  | none => exact h
  | some msg =>
    have ht : b.tracked = a.tracked := by rw [h.rest]
    have hf : b.failed = a.failed := by rw [h.rest]
    simp only [ackWith, ht]
    split
    · exact h
    have herase : SameWindow { a with tracked := a.tracked.erase msg.offset }
        { b with tracked := a.tracked.erase msg.offset } := by
      refine { h with rest := ?_ }
      rw [h.rest]
    by_cases hfa : a.failed = true
    · rw [if_pos hfa, if_pos (hf.trans hfa)]
      refine { h with rest := ?_ }
      rw [h.rest]
    · rw [if_neg hfa, if_neg (hf ▸ hfa)]
      have hstep := (herase.complete msg).compact_left
      refine { hstep with rest := ?_ }
      simp only [id_eq]
      rw [hstep.rest]

theorem step (call : Call) : SameWindow (stepWith compact a call) (stepWith id b call) := by
  cases call with
  | track msg => exact h.track msg
  | untrack msg => exact h.untrack msg
  | ack msg => exact h.ack msg
  | fail msg err =>
    cases msg with
    | none => exact h
    | some msg =>
      have ht : b.tracked = a.tracked := by rw [h.rest]
      simp only [stepWith, fail, ht]
      split
      · exact h
      · refine { h with rest := ?_ }
        rw [h.rest]
  | stop =>
    refine { h with rest := ?_ }
    simp only [stepWith, stop]
    rw [h.rest]

end SameWindow

variable (calls : List Call)

/-- **Compaction is invisible**: the acker and the one that never compacts agree on
everything but the position of their common window. -/
theorem after_sameWindow : SameWindow (after calls) (afterUncompacted calls) :=
  run_simulates (fun _ _ call h => h.step call) ⟨rfl, Nat.le_refl _, Nat.le_refl _, rfl⟩ calls

/-! ## The acker computes the meaning of the calls -/

/-- The acker agrees with the meaning of the calls it has seen. `window` is the statement
that nothing is lost: what was marked, followed by the window, is the live list. -/
structure Agrees (a : ClaimAcker) (h : History) : Prop where
  tracked : a.tracked = h.waiting
  failed : a.failed = h.closed
  head_le : a.head ≤ a.order.length
  window : a.marked.map (·.offset) ++ a.order.drop a.head = h.live
  sorted : h.live.Pairwise (· < ·)
  waiting_live : ∀ o ∈ h.waiting, o ∈ h.live ∧ o ∉ h.acked
  acked_live : ∀ o ∈ h.acked, o ∈ h.live
  marked_acked : ∀ o ∈ a.marked.map (·.offset), o ∈ h.acked
  completed_offset : ∀ o m, a.completed o = some m → m.offset = o
  completed_iff : a.failed = false → ∀ o,
    (a.completed o).isSome ↔ o ∈ h.acked ∧ o ∈ a.order.drop a.head
  stuck : a.failed = false → ∀ o, (a.order.drop a.head).head? = some o → o ∉ h.acked
  pending : a.pending = a.tracked.card

namespace Agrees

variable {a : ClaimAcker} {h : History}

theorem new : Agrees ClaimAcker.new History.empty := by
  constructor <;> simp [ClaimAcker.new, History.empty]

variable (hag : Agrees a h)

include hag

theorem window_nodup : (a.order.drop a.head).Nodup := by
  have : (a.marked.map (·.offset) ++ a.order.drop a.head).Nodup := by
    rw [hag.window]
    exact hag.sorted.imp fun hlt => ne_of_lt hlt
  exact this.of_append_right

/-- A waiting offset stands in the window: everything marked is acked. -/
theorem waiting_window (ho : o ∈ h.waiting) : o ∈ a.order.drop a.head := by
  obtain ⟨hlive, hnot⟩ := hag.waiting_live o ho
  rw [← hag.window, mem_append] at hlive
  rcases hlive with hm | hw
  · exact absurd (hag.marked_acked o hm) hnot
  · exact hw

/-- The wait group counts the waiting offsets, also when one of them leaves. -/
theorem card_erase (hw : o ∈ h.waiting) : a.pending - 1 = ((h.waiting.erase o).card : Int) := by
  rw [Finset.card_erase_of_mem hw]
  have := hag.pending
  rw [hag.tracked] at this
  have hpos : 0 < h.waiting.card := Finset.card_pos.2 ⟨_, hw⟩
  omega

theorem compact : Agrees a.compact h := by
  unfold ClaimAcker.compact
  split
  · exact { hag with head_le := Nat.zero_le _ }
  · exact hag

theorem track (hinc : ∀ m ∈ msg, ∀ o ∈ h.live, o < m.offset) :
    Agrees (a.track msg) (h.step (.track msg)) := by
  cases msg with
  | none => exact hag
  | some msg =>
    have hnew : msg.offset ∉ h.live := fun hmem => lt_irrefl _ (hinc msg rfl _ hmem)
    have hnotw : msg.offset ∉ h.waiting := fun hw => hnew (hag.waiting_live _ hw).1
    have hnota : msg.offset ∉ h.acked := fun ha => hnew (hag.acked_live _ ha)
    have hdrop : (a.order ++ [msg.offset]).drop a.head = a.order.drop a.head ++ [msg.offset] :=
      drop_append_of_le_length hag.head_le
    simp only [ClaimAcker.track, History.step, hag.tracked, if_neg hnotw]
    refine
      { hag with
        tracked := rfl, head_le := ?_, window := ?_, sorted := ?_, waiting_live := ?_,
        acked_live := ?_, completed_iff := ?_, stuck := ?_, pending := ?_ }
    · simpa using Nat.le_succ_of_le hag.head_le
    · simp only [hdrop, ← append_assoc, hag.window]
    · rw [pairwise_append]
      exact ⟨hag.sorted, pairwise_singleton _ _, by simpa using hinc msg rfl⟩
    · intro o ho
      rcases Finset.mem_insert.1 ho with rfl | ho
      · exact ⟨by simp, hnota⟩
      · obtain ⟨hl, hna⟩ := hag.waiting_live o ho
        exact ⟨mem_append_left _ hl, hna⟩
    · intro o ho
      exact mem_append_left _ (hag.acked_live o ho)
    · intro hf o
      simp only [hdrop, mem_append, mem_singleton]
      rw [hag.completed_iff hf o]
      constructor
      · rintro ⟨ha, hw⟩
        exact ⟨ha, Or.inl hw⟩
      · rintro ⟨ha, hw | rfl⟩
        · exact ⟨ha, hw⟩
        · exact absurd ha hnota
    · intro hf o ho
      simp only [hdrop, List.head?_append] at ho
      cases hh : (a.order.drop a.head).head? with
      | some o' =>
        rw [hh] at ho
        simp only [Option.some_or, Option.some.injEq] at ho
        exact ho ▸ hag.stuck hf o' hh
      | none =>
        rw [hh] at ho
        simp only [List.head?_cons, Option.none_or, Option.some.injEq] at ho
        exact ho ▸ hnota
    · rw [Finset.card_insert_of_notMem hnotw]
      have := hag.pending
      rw [hag.tracked] at this
      push_cast
      omega

/-- Untracking cuts the same offset off the window and off the live list. -/
theorem untrack : Agrees (a.untrack msg).1 (h.step (.untrack msg)) := by
  cases msg with
  | none => exact hag
  | some msg =>
    rw [untrack_eq]
    simp only [History.step, hag.tracked]
    by_cases hw : msg.offset ∈ h.waiting
    · have hmem := hag.waiting_window hw
      have hne : a.order.drop a.head ≠ [] := ne_nil_of_mem hmem
      have hlast : h.live.getLast? = (a.order.drop a.head).getLast? := by
        rw [← hag.window, List.getLast?_append, List.getLast?_eq_some_getLast hne, Option.some_or]
      rw [hlast]
      by_cases hl : (a.order.drop a.head).getLast? = some msg.offset
      · simp only [hw, hl, and_self, if_true]
        have hcut : h.live.dropLast =
            a.marked.map (·.offset) ++ (a.order.drop a.head).dropLast := by
          rw [← hag.window, dropLast_append_of_ne_nil hne]
        obtain ⟨ys, hys⟩ := List.getLast?_eq_some_iff.1 hl
        have hys' : (a.order.drop a.head).dropLast = ys := by rw [hys, dropLast_concat]
        have hsub : ∀ o ∈ h.live, o ≠ msg.offset → o ∈ h.live.dropLast := by
          intro o ho hne'
          rw [hcut, hys']
          rw [← hag.window, hys] at ho
          simpa [hne', or_assoc] using ho
        have hnota := (hag.waiting_live _ hw).2
        refine
          { hag with
            tracked := rfl, head_le := head_le_dropLast hl, window := ?_,
            sorted := hag.sorted.sublist (dropLast_sublist _), waiting_live := ?_,
            acked_live := ?_, completed_iff := ?_, stuck := ?_, pending := hag.card_erase hw }
        · simp only [← dropLast_drop_eq_drop_dropLast]
          exact hcut.symm
        · intro o ho
          obtain ⟨hne', ho⟩ := Finset.mem_erase.1 ho
          exact ⟨hsub o (hag.waiting_live o ho).1 hne', (hag.waiting_live o ho).2⟩
        · intro o ho
          exact hsub o (hag.acked_live o ho) fun he => hnota (he ▸ ho)
        · intro hf o
          simp only [← dropLast_drop_eq_drop_dropLast, hys']
          rw [hag.completed_iff hf o, hys]
          constructor
          · rintro ⟨ha, hin⟩
            rcases mem_append.1 hin with hin | hin
            · exact ⟨ha, hin⟩
            · exact absurd (mem_singleton.1 hin ▸ ha) hnota
          · rintro ⟨ha, hin⟩
            exact ⟨ha, mem_append_left _ hin⟩
        · intro hf o ho
          simp only [← dropLast_drop_eq_drop_dropLast, hys'] at ho
          refine hag.stuck hf o ?_
          rw [hys, List.head?_append, ho, Option.some_or]
      · simp only [hl, and_false, if_false]
        exact hag
    · simp only [hw, false_and, if_false]
      exact hag

/-- An acknowledged offset is live and waits no more. -/
theorem acked (hw : o ∈ h.waiting) :
    (∀ o' ∈ h.waiting.erase o, o' ∈ h.live ∧ o' ∉ insert o h.acked) ∧
      ∀ o' ∈ insert o h.acked, o' ∈ h.live := by
  refine ⟨fun o' ho => ?_, fun o' ho => ?_⟩
  · obtain ⟨hne, ho⟩ := Finset.mem_erase.1 ho
    obtain ⟨hl, hna⟩ := hag.waiting_live o' ho
    exact ⟨hl, by simp [hne, hna]⟩
  · rcases Finset.mem_insert.1 ho with rfl | ho
    · exact (hag.waiting_live _ hw).1
    · exact hag.acked_live o' ho

/-- The completion of a waiting offset marks the longest completed prefix of the window. -/
theorem complete {msg : ConsumerMessage} (hw : msg.offset ∈ h.waiting) (hf : a.failed = false) :
    Agrees { ({ a with tracked := a.tracked.erase msg.offset } : ClaimAcker).complete msg with
        pending := a.pending - 1 } (h.step (.ack (some msg))) := by
  have hmem := hag.waiting_window hw
  have hnd := hag.window_nodup
  set w := a.order.drop a.head with hwdef
  have hoff : ∀ o m, update a.completed msg.offset (some msg) o = some m →
      m.offset = o := by
    intro o m hm
    by_cases ho : o = msg.offset
    · subst ho
      rw [update_self] at hm
      rw [← Option.some.inj hm]
    · rw [update_of_ne ho] at hm
      exact hag.completed_offset o m hm
  -- what is completed once `msg` is in the map: the acked offsets of the window
  have hdone : ∀ o, (update a.completed msg.offset (some msg) o).isSome ↔
      o ∈ insert msg.offset h.acked ∧ o ∈ w := by
    intro o
    rw [Finset.mem_insert]
    by_cases ho : o = msg.offset
    · subst ho
      simpa using hmem
    · rw [update_of_ne ho, hag.completed_iff hf o]
      simp [ho, hwdef]
  obtain ⟨n, ms, c, heq, hn, hms, hcs, hsome, hstop⟩ := advance_spec w
    { a with
      tracked := a.tracked.erase msg.offset
      completed := update a.completed msg.offset (some msg) } hnd hoff
  simp only at heq hcs hsome hstop
  have hdrop : a.order.drop (a.head + n) = w.drop n := by rw [hwdef, drop_drop]
  have hlen : w.length = a.order.length - a.head := by rw [hwdef, length_drop]
  have hsplit : w.take n ++ w.drop n = w := take_append_drop n w
  have hin : ∀ o, o ∈ w.drop n ↔ o ∈ w ∧ o ∉ w.take n := by
    intro o
    have hnd' := hnd
    rw [← hsplit, nodup_append] at hnd'
    constructor
    · intro ho
      exact ⟨mem_of_mem_drop ho, fun ht => hnd'.2.2 o ht o ho rfl⟩
    · rintro ⟨ho, hnt⟩
      rw [← hsplit, mem_append] at ho
      exact ho.resolve_left hnt
  simp only [ClaimAcker.complete, heq, History.step, if_pos hw, ← hwdef]
  refine
    { hag with
      tracked := by rw [hag.tracked], head_le := ?_, window := ?_,
      waiting_live := (hag.acked hw).1, acked_live := (hag.acked hw).2, marked_acked := ?_,
      completed_offset := ?_, completed_iff := ?_, stuck := ?_, pending := ?_ }
  · have := hag.head_le
    simp only
    omega
  · simp only [hdrop, map_append, hms, append_assoc, hsplit]
    exact hag.window
  · intro o ho
    simp only [map_append, hms, mem_append] at ho
    rcases ho with ho | ho
    · exact Finset.mem_insert_of_mem (hag.marked_acked o ho)
    · exact ((hdone o).1 (hsome o ho)).1
  · intro o m hm
    simp only [hcs] at hm
    split at hm
    · cases hm
    · exact hoff o m hm
  · intro _ o
    simp only [hcs, hdrop, hin]
    split
    · next ht => simp [ht]
    · next ht =>
      rw [hdone o]
      simp [ht]
  · intro _ o ho hacked
    simp only [hdrop] at ho
    have hmemw : o ∈ w := mem_of_mem_drop (mem_of_mem_head? ho)
    have : (update a.completed msg.offset (some msg) o).isSome :=
      (hdone o).2 ⟨hacked, hmemw⟩
    rw [hstop o ho] at this
    cases this
  · simp only [hag.tracked]
    exact hag.card_erase hw

theorem ack : Agrees (a.ackWith ClaimAcker.compact msg) (h.step (.ack msg)) := by
  cases msg with
  | none => exact hag
  | some msg =>
    simp only [ackWith, hag.tracked]
    by_cases hw : msg.offset ∈ h.waiting
    · rw [if_neg (not_not.2 hw)]
      by_cases hf : a.failed = true
      · rw [if_pos hf]
        simp only [History.step, if_pos hw]
        have hclosed : a.failed ≠ false := by simp [hf]
        exact { hag with
          tracked := rfl
          waiting_live := (hag.acked hw).1
          acked_live := (hag.acked hw).2
          marked_acked := fun o ho => Finset.mem_insert_of_mem (hag.marked_acked o ho)
          completed_iff := fun hopen => absurd hopen hclosed
          stuck := fun hopen => absurd hopen hclosed
          pending := hag.card_erase hw }
      · rw [if_neg hf, ← hag.tracked]
        have hdone := hag.complete hw (by simpa using hf)
        have := hdone.compact
        rw [compact_setPending] at this
        rw [compact_pending, complete_pending]
        exact this
    · rw [if_pos hw]
      simp only [History.step, if_neg hw]
      exact hag

/-- Once the claim is closed the acker only keeps its books. -/
theorem close {t : Finset Int} {p : Int} (ht : t ⊆ h.waiting) (hp : p = t.card) (b : Bool)
    (ch : Option String) :
    Agrees { a with
        tracked := t, failed := true, completed := fun _ => none, canceled := b,
        failureCh := ch, pending := p }
      { h with waiting := t, closed := true } :=
  { hag with
    tracked := rfl
    failed := rfl
    waiting_live := fun o ho => hag.waiting_live o (ht ho)
    completed_offset := fun _ _ hm => by cases hm
    completed_iff := fun hf => by cases hf
    stuck := fun hf => by cases hf
    pending := hp }

theorem fail (err : String) : Agrees (a.fail msg err) (h.step (.fail msg err)) := by
  cases msg with
  | none => exact hag
  | some msg =>
    simp only [ClaimAcker.fail, History.step, hag.tracked]
    by_cases hw : msg.offset ∈ h.waiting
    · rw [if_neg (not_not.2 hw), if_pos hw]
      exact hag.close (Finset.erase_subset _ _) (hag.card_erase hw) _ _
    · rw [if_pos hw, if_neg hw]
      exact hag

theorem stop : Agrees a.stop (h.step .stop) := by
  by_cases hf : a.failed = true
  · have hclosed : h.closed = true := by rw [← hag.failed, hf]
    have hstep : h.step .stop = h := by
      simp only [History.step, ← hclosed]
    rw [hstep]
    simp only [ClaimAcker.stop, hf, if_true]
    exact { hag with
      failed := hclosed.symm
      completed_iff := fun hf' => by cases hf'
      stuck := fun hf' => by cases hf' }
  · have hp : a.pending = (h.waiting.card : Int) := by rw [hag.pending, hag.tracked]
    have := hag.close (Finset.Subset.refl _) hp true a.failureCh
    simp only [ClaimAcker.stop, if_neg hf, hag.tracked]
    exact this

end Agrees

/-- The offsets of the live list were all given to `track`. -/
theorem live_subset_trackOffsets : ∀ o ∈ (History.after calls).live, o ∈ trackOffsets calls := by
  induction calls using List.reverseRecOn with
  | nil => intro o ho; cases ho
  | append_singleton calls call ih =>
    intro o ho
    have hmono : o ∈ trackOffsets calls → o ∈ trackOffsets (calls ++ [call]) := by
      intro h
      simp only [trackOffsets, filterMap_append, mem_append]
      exact Or.inl h
    simp only [History.after, run_snoc] at ho
    change o ∈ (History.step (History.after calls) call).live at ho
    unfold History.step at ho
    split at ho
    · next msg =>
      split at ho
      · exact hmono (ih o ho)
      · simp only [mem_append, mem_singleton] at ho
        rcases ho with ho | rfl
        · exact hmono (ih o ho)
        · simp [trackOffsets]
    · split at ho
      · exact hmono (ih o (mem_of_mem_dropLast ho))
      · exact hmono (ih o ho)
    · split at ho <;> exact hmono (ih o ho)
    · split at ho <;> exact hmono (ih o ho)
    · exact hmono (ih o ho)
    · exact hmono (ih o ho)

/-- The acker computes the meaning of every list of calls that tracks increasing offsets. -/
theorem after_agrees (hinc : (trackOffsets calls).Pairwise (· < ·)) :
    Agrees (after calls) (History.after calls) := by
  induction calls using List.reverseRecOn with
  | nil => exact Agrees.new
  | append_singleton calls call ih =>
    have hsplit : trackOffsets (calls ++ [call]) = trackOffsets calls ++ trackOffsets [call] := by
      simp [trackOffsets, filterMap_append]
    rw [hsplit, pairwise_append] at hinc
    have hag := ih hinc.1
    simp only [after, History.after, run_snoc]
    change Agrees (stepWith compact (after calls) call) (History.step (History.after calls) call)
    cases call with
    | track msg =>
      refine hag.track msg ?_
      rintro m rfl o ho
      exact hinc.2.2 o (live_subset_trackOffsets calls o ho) m.offset (by simp [trackOffsets])
    | untrack msg => exact hag.untrack msg
    | ack msg => exact hag.ack msg
    | fail msg err => exact hag.fail msg err
    | stop => exact hag.stop

/-- A failed acker marks nothing and stays failed. -/
theorem step_of_failed (hf : a.failed = true) (call : Call) :
    (stepWith compact a call).failed = true ∧ (stepWith compact a call).marked = a.marked := by
  cases call with
  | track msg | untrack msg | ack msg =>
    cases msg with
    | none => exact ⟨hf, rfl⟩
    | some msg =>
      simp only [stepWith, track, untrack, ackWith]
      split <;> exact ⟨hf, rfl⟩
  | fail msg err =>
    cases msg with
    | none => exact ⟨hf, rfl⟩
    | some msg =>
      simp only [stepWith, fail]
      split
      · exact ⟨hf, rfl⟩
      · exact ⟨rfl, rfl⟩
  | stop => exact ⟨rfl, rfl⟩

theorem marked_of_failed (hf : a.failed = true) (calls : List Call) :
    (run (stepWith compact) a calls).marked = a.marked :=
  run_rel (I := fun a : ClaimAcker => a.failed = true)
    (R := fun a b : ClaimAcker => b.marked = a.marked)
    (fun _ call hf => (step_of_failed hf call).1) (fun _ => rfl) (fun h h' => h'.trans h)
    (fun _ call hf => (step_of_failed hf call).2) hf calls

theorem fail_closes {msg : ConsumerMessage} (ht : msg.offset ∈ a.tracked)
    (err : String) :
    (a.fail (some msg) err).failed = true ∧ (a.fail (some msg) err).marked = a.marked := by
  simp only [fail, if_neg (not_not.2 ht), and_self]

namespace Agrees

variable {a : ClaimAcker} {h : History}

/-- Everything live up to a marked offset is acked: the window lies above what is marked. -/
theorem acked_of_le_marked (hag : Agrees a h) {m : ConsumerMessage} (hm : m ∈ a.marked)
    (ho : o ∈ h.live) (hle : o ≤ m.offset) : o ∈ h.acked := by
  have hmo : m.offset ∈ a.marked.map (·.offset) := mem_map_of_mem hm
  rw [← hag.window, mem_append] at ho
  rcases ho with ho | ho
  · exact hag.marked_acked o ho
  · have hsorted := hag.sorted
    rw [← hag.window, pairwise_append] at hsorted
    exact absurd (hsorted.2.2 _ hmo o ho) (not_lt.2 hle)

/-- While the claim is open, an acked offset whose live predecessors are acked is marked:
otherwise the head of the window would be acked, and the loop does not stop there. -/
theorem marked_of_acked (hag : Agrees a h) (hopen : h.closed = false) (ho : o ∈ h.acked)
    (hpre : ∀ o' ∈ h.live, o' < o → o' ∈ h.acked) :
    o ∈ a.marked.map (·.offset) := by
  have hlive := hag.acked_live o ho
  have hopen' : a.failed = false := hag.failed.trans hopen
  rw [← hag.window, mem_append] at hlive
  rcases hlive with hm | hw
  · exact hm
  exfalso
  cases hwin : a.order.drop a.head with
  | nil => rw [hwin] at hw; cases hw
  | cons first rest =>
    have hstuck := hag.stuck hopen' first (by rw [hwin, List.head?_cons])
    rw [hwin] at hw
    rcases mem_cons.1 hw with rfl | hw
    · exact hstuck ho
    · have hsorted := hag.sorted
      rw [← hag.window, hwin, pairwise_append, pairwise_cons] at hsorted
      have hfirst : first ∈ h.live := by rw [← hag.window, hwin]; simp
      exact hstuck (hpre first hfirst (hsorted.2.1.1 o hw))

end Agrees

/-- **Marking is a safe prefix.** For every list of calls that tracks increasing offsets:
a marked offset is live and everything live up to it is acked; while the claim is open an
acked offset is marked as soon as everything live before it is acked; after a stop, or after
a failure of an offset that is tracked then, nothing more is marked; and the acker that
compacts marks the same messages and keeps the same window as the one that never does, what
was marked followed by the window being exactly the live list. -/
theorem marked_offsets_safe (calls : List Call) (hinc : (trackOffsets calls).Pairwise (· < ·)) :
    let a := after calls
    let h := History.after calls
    let u := afterUncompacted calls
    (∀ m ∈ a.marked, m.offset ∈ h.live ∧ ∀ o ∈ h.live, o ≤ m.offset → o ∈ h.acked) ∧
    (h.closed = false → ∀ o ∈ h.acked, (∀ o' ∈ h.live, o' < o → o' ∈ h.acked) →
      o ∈ a.marked.map (·.offset)) ∧
    (∀ later, (after (calls ++ .stop :: later)).marked = a.marked) ∧
    (∀ msg err later, msg.offset ∈ h.waiting →
      (after (calls ++ .fail (some msg) err :: later)).marked = a.marked) ∧
    a.marked = u.marked ∧ a.order.drop a.head = u.order.drop u.head ∧
    a.marked.map (·.offset) ++ a.order.drop a.head = h.live := by
  intro a h u
  have hag : Agrees a h := after_agrees calls hinc
  have hsame : SameWindow a u := after_sameWindow calls
  refine ⟨?_, ?_, ?_, ?_, ?_, hsame.window, hag.window⟩
  · intro m hm
    exact ⟨hag.acked_live _ (hag.marked_acked _ (mem_map_of_mem hm)),
      fun o ho hle => hag.acked_of_le_marked hm ho hle⟩
  · intro hopen o ho hpre
    exact hag.marked_of_acked hopen ho hpre
  · intro later
    simp only [after, run_append, run_cons]
    exact marked_of_failed rfl later
  · intro msg err later hw
    simp only [after, run_append, run_cons]
    have ht : msg.offset ∈ (Machine.run (stepWith compact) new calls).tracked := by
      change msg.offset ∈ a.tracked
      rw [hag.tracked]
      exact hw
    obtain ⟨hf, hm⟩ := fail_closes ht err
    exact (marked_of_failed hf later).trans hm
  · rw [hsame.rest]

/-- The guarantee on three offsets acked out of order, with a fourth untracked. -/
theorem marked_offsets_safe_three :
    let m := fun o => some (ConsumerMessage.mk o "v")
    let calls : List Call := [.track (m 5), .track (m 7), .track (m 8), .track (m 9),
      .untrack (m 9), .ack (m 7), .ack (m 5)]
    (trackOffsets calls).Pairwise (· < ·) ∧
      (after calls).marked.map (·.offset) ++ (after calls).order.drop (after calls).head =
        (History.after calls).live ∧
      (after calls).marked.map (·.offset) = [5, 7] := by
  refine ⟨by decide, (marked_offsets_safe _ (by decide)).2.2.2.2.2.2, by decide⟩

/-- A `fail` of an offset that is not tracked any more is ignored: the acker marks on. -/
theorem fail_untracked_marks_on :
    ¬ ∀ (calls later : List Call) (msg : ConsumerMessage) (err : String),
      (trackOffsets (calls ++ .fail (some msg) err :: later)).Pairwise (· < ·) →
      (after (calls ++ .fail (some msg) err :: later)).marked =
        (after (calls ++ [.fail (some msg) err])).marked := by
  intro hall
  have := hall [.track (some ⟨1, "a"⟩), .track (some ⟨2, "b"⟩), .ack (some ⟨1, "a"⟩)]
    [.ack (some ⟨2, "b"⟩)] ⟨1, "a"⟩ "late" (by decide)
  exact absurd this (by decide)

end ClaimAcker

end Mmorpg.Kafka
