import Mathlib.Data.List.Basic
import Mmorpg.SaveBarrier.Version

/-!
# Barrier against SQL

shared/savebarrier/reconcile.go: what a loader concludes from the versions in the barrier and
in the two SQL rows. Versions are texts, a missing one is the empty text, and Go's comparison
of strings orders them; `rank` is that order (`textCmp_gt_iff`).
-/

namespace Mmorpg.SaveBarrier

open Decimal

/-- Go's comparison of strings. -/
def textCmp : Text → Text → Ordering
  | [], [] => .eq
  | [], _ :: _ => .lt
  | _ :: _, [] => .gt
  | x :: s, y :: t => if x = y then textCmp s t else if x > y then .gt else .lt

/-- Go's `max` on strings. -/
def textMax (a b : Text) : Text := if textCmp a b = .lt then b else a

def rowVersion (fenceOwnerEpoch fenceSaveSeq : Nat) : Text :=
  if fenceOwnerEpoch = 0 ∧ fenceSaveSeq = 0 then [] else version fenceOwnerEpoch fenceSaveSeq

def requireVersions (versions : List Text) : Bool :=
  versions.all fun v => v = [] || (parse v).isSome

inductive BarrierState where
  | committed
  | inflight
  | ackAhead
deriving DecidableEq, Repr

def classifyBarrier (pending ackFirst ackSecond : Text) : Option BarrierState :=
  if !requireVersions [pending, ackFirst, ackSecond] then none
  else if textCmp ackFirst pending = .gt || textCmp ackSecond pending = .gt then some .ackAhead
  else if pending = [] then some .committed
  else if ackFirst = pending && ackSecond = pending then some .committed
  else some .inflight

inductive Verdict where
  | consistent
  | adoptSQL
  | inflight
  | reconciling
  | sqlBehind
deriving DecidableEq, Repr

structure Observation where
  pending : Text
  ackFirst : Text
  ackSecond : Text
  sqlFirst : Text
  sqlSecond : Text
deriving DecidableEq, Repr

def reconcile (o : Observation) : Option Verdict :=
  if !requireVersions [o.pending, o.ackFirst, o.ackSecond, o.sqlFirst, o.sqlSecond] then none
  else
    let sqlNewest := textMax o.sqlFirst o.sqlSecond
    if textCmp (textMax o.ackFirst o.ackSecond) sqlNewest = .gt then some .sqlBehind
    else if o.sqlFirst ≠ o.sqlSecond then
      if textCmp sqlNewest o.pending = .gt then some .reconciling else some .inflight
    else if o.sqlFirst = o.pending && o.ackFirst = o.sqlFirst && o.ackSecond = o.sqlFirst then
      some .consistent
    else if textCmp o.sqlFirst o.pending ≠ .lt then some .adoptSQL
    else some .inflight

/-! ## The order of versions and missing versions -/

def VersionOrEmpty (s : Text) : Prop := s = [] ∨ isVersion s = true

/-- Missing versions come first. -/
def rank (s : Text) : WithBot (Nat ×ₗ Nat) := if s = [] then ⊥ else (order s : WithBot _)

variable {s : Text}

theorem ne_nil_of_isVersion (h : isVersion s = true) : s ≠ [] := by
  rintro rfl
  simp [isVersion] at h

theorem rank_of_isVersion (h : isVersion s = true) : rank s = order s :=
  if_neg (ne_nil_of_isVersion h)

variable {a b : Text}

theorem textCmp_eq_bytecmpSame (hl : a.length = b.length) :
    textCmp a b = bytecmpSame a b := by
  induction a generalizing b with
  | nil =>
    obtain rfl : b = [] := List.length_eq_zero_iff.1 hl.symm
    rfl
  | cons x a ih =>
    cases b with
    | nil => simp at hl
    | cons y b => rw [textCmp, bytecmpSame, ih (by simpa using hl)]

theorem length_of_isVersion (h : isVersion s = true) : s.length = 41 := by
  obtain ⟨e, q, he, hq, rfl⟩ := exists_of_isVersion h
  exact length_version he hq

theorem textCmp_gt_iff (ha : VersionOrEmpty a) (hb : VersionOrEmpty b) :
    textCmp a b = .gt ↔ rank b < rank a := by
  rcases ha with rfl | ha <;> rcases hb with rfl | hb
  · simp [textCmp]
  · rw [rank_of_isVersion hb]
    cases b with
    | nil => simp [isVersion] at hb
    | cons y b => simp [textCmp, rank]
  · rw [rank_of_isVersion ha]
    cases a with
    | nil => simp [isVersion] at ha
    | cons x a => simp [textCmp, rank]
  · have hl := (length_of_isVersion ha).trans (length_of_isVersion hb).symm
    rw [textCmp_eq_bytecmpSame hl, rank_of_isVersion ha, rank_of_isVersion hb, WithBot.coe_lt_coe,
      ← versionGt_iff ha hb, versionGt, decide_eq_true_eq]

theorem textCmp_swap (a b : Text) : (textCmp a b).swap = textCmp b a := by
  induction a generalizing b with
  | nil => cases b <;> rfl
  | cons x a ih =>
    cases b with
    | nil => rfl
    | cons y b =>
      rw [textCmp, textCmp]
      by_cases hxy : x = y
      · rw [if_pos hxy, if_pos hxy.symm, ih]
      rw [if_neg hxy, if_neg (Ne.symm hxy)]
      have hne : x.toNat ≠ y.toNat := fun h => hxy (Char.toNat_inj.1 h)
      by_cases hgt : x > y
      · have : ¬ y > x := show ¬ x.toNat < y.toNat from Nat.lt_asymm hgt
        rw [if_pos hgt, if_neg this]
        rfl
      · have : y > x := show x.toNat < y.toNat from Nat.lt_of_le_of_ne (Nat.not_lt.1 hgt) hne
        rw [if_neg hgt, if_pos this]
        rfl

theorem textCmp_lt_iff (ha : VersionOrEmpty a) (hb : VersionOrEmpty b) :
    textCmp a b = .lt ↔ rank a < rank b := by
  rw [← textCmp_gt_iff hb ha, ← textCmp_swap a b]
  cases textCmp a b <;> simp

theorem rank_textMax (ha : VersionOrEmpty a) (hb : VersionOrEmpty b) :
    VersionOrEmpty (textMax a b) ∧ rank (textMax a b) = max (rank a) (rank b) := by
  unfold textMax
  split
  next h => exact ⟨hb, (max_eq_right ((textCmp_lt_iff ha hb).1 h).le).symm⟩
  next h => exact ⟨ha, (max_eq_left (not_lt.1 (mt (textCmp_lt_iff ha hb).2 h))).symm⟩

theorem requireVersions_of {versions : List Text} (h : ∀ v ∈ versions, VersionOrEmpty v) :
    requireVersions versions = true := by
  refine List.all_eq_true.2 fun v hv => ?_
  rcases h v hv with rfl | hver
  · rfl
  · simp [isVersion_iff.1 hver]

/-- SQL is not judged to be behind when every ACK is at most the version of its row. -/
theorem reconcile_of_acked {o : Observation}
    (h : ∀ v ∈ [o.pending, o.ackFirst, o.ackSecond, o.sqlFirst, o.sqlSecond], VersionOrEmpty v)
    (hfirst : rank o.ackFirst ≤ rank o.sqlFirst) (hsecond : rank o.ackSecond ≤ rank o.sqlSecond) :
    ∃ v, reconcile o = some v ∧ v ≠ .sqlBehind := by
  obtain ⟨hack, hackmax⟩ := rank_textMax (h o.ackFirst (by simp)) (h o.ackSecond (by simp))
  obtain ⟨hsql, hsqlmax⟩ := rank_textMax (h o.sqlFirst (by simp)) (h o.sqlSecond (by simp))
  have hnot :
      ¬ textCmp (textMax o.ackFirst o.ackSecond) (textMax o.sqlFirst o.sqlSecond) = .gt := by
    rw [textCmp_gt_iff hack hsql, hackmax, hsqlmax, not_lt]
    exact max_le_max hfirst hsecond
  simp only [reconcile, requireVersions_of h, Bool.not_true, Bool.false_eq_true, if_false, hnot]
  split
  · split
    · exact ⟨_, rfl, by decide⟩
    · exact ⟨_, rfl, by decide⟩
  · split
    · exact ⟨_, rfl, by decide⟩
    · split
      · exact ⟨_, rfl, by decide⟩
      · exact ⟨_, rfl, by decide⟩

end Mmorpg.SaveBarrier
