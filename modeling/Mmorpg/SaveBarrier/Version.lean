import Mathlib.Data.List.TakeDrop
import Mathlib.Data.List.TakeWhile
import Mathlib.Data.Prod.Lex
import Mathlib.Order.WithBot
import Mmorpg.Lib.Decimal

/-!
# Save versions

The version of a save is the text `epoch:seq` with two fields of width 20 (shared/savebarrier,
version.go). The scripts check and compare these texts byte by byte; here that is shown to be
the lexicographic order of the pairs (`versionGt_iff`), which `order` reads off a text.
-/

namespace Mmorpg.SaveBarrier

open Decimal List

def version (ownerEpoch saveSeq : Nat) : Text :=
  padded 20 ownerEpoch ++ ':' :: padded 20 saveSeq

/-- `version_gt`, for texts of one length. -/
def versionGt (a b : Text) : Bool := bytecmpSame a b = .gt

/-- The pattern `^%d+:%d+$`. -/
def twoNumbers (s : Text) : Bool :=
  match s.span Char.isDigit with
  | (first, ':' :: second) => first ≠ [] && second ≠ [] && second.all Char.isDigit
  | _ => false

def isVersion (s : Text) : Bool :=
  s.length = 41 && s[20]? = some ':' && twoNumbers s
    && !versionGt (s.take 20) maxUint64 && !versionGt (s.drop 21) maxUint64

def parse (s : Text) : Option (Nat × Nat) :=
  if s.length ≠ 41 || s[20]? ≠ some ':' then none
  else if !s.zipIdx.all (fun p => p.2 = 20 || p.1.isDigit) then none
  else if value (s.take 20) ≥ 2 ^ 64 || value (s.drop 21) ≥ 2 ^ 64 then none
  else some (value (s.take 20), value (s.drop 21))

/-- Owner epoch and save sequence number, compared lexicographically. -/
def order (s : Text) : Nat ×ₗ Nat := toLex (value (s.take 20), value (s.drop 21))

/-! ## Versions are pairs -/

variable {a b : Text}

theorem versionGt_digits (ha : Digits a) (hb : Digits b) (hl : a.length = b.length) :
    versionGt a b = true ↔ value b < value a := by
  rw [versionGt, decide_eq_true_eq, bytecmpSame_eq_compare ha hb hl, compare_gt_iff_gt]

theorem length_padded_uint64 {n : Nat} (h : n < 2 ^ 64) : (padded 20 n).length = 20 :=
  length_padded (by omega) (h.trans (by omega))

variable {e q : Nat}

theorem take_version (he : e < 2 ^ 64) : (version e q).take 20 = padded 20 e :=
  take_left' (length_padded_uint64 he)

theorem drop_field (hl : a.length = 20) : (a ++ ':' :: b).drop 21 = b := by
  rw [← singleton_append, ← append_assoc, drop_left' (by simp [hl])]

section

variable (he : e < 2 ^ 64)

include he

theorem drop_version : (version e q).drop 21 = padded 20 q :=
  drop_field (length_padded_uint64 he)

theorem order_version : order (version e q) = toLex (e, q) := by
  rw [order, take_version he, drop_version he, value_padded, value_padded]

theorem length_version (hq : q < 2 ^ 64) : (version e q).length = 41 := by
  simp [version, length_padded_uint64 he, length_padded_uint64 hq]

theorem colon_version : (version e q)[20]? = some ':' := by
  rw [version, List.getElem?_append_right (length_padded_uint64 he).le, length_padded_uint64 he]
  rfl

end

/-- Every text of two fields of digits is the version of their numbers. -/
theorem eq_version (ha : Digits a) (hla : a.length = 20) (hb : Digits b) (hlb : b.length = 20) :
    a ++ ':' :: b = version (value a) (value b) := by
  have hpad : ∀ d : Text, Digits d → d.length = 20 → padded 20 (value d) = d := by
    intro d hd hl
    rw [← hl]
    exact padded_value hd (by rintro rfl; simp at hl)
  rw [version, hpad a ha hla, hpad b hb hlb]

/-- The loop of `Parse` looks at every byte but the colon. -/
theorem digits_but_colon (hl : a.length = 20) :
    (a ++ ':' :: b).zipIdx.all (fun p => p.2 = 20 || p.1.isDigit) = true ↔ Digits a ∧ Digits b := by
  have hfield : ∀ (d : Text) (k : Nat), k + d.length ≤ 20 ∨ 20 < k →
      ((d.zipIdx k).all (fun p => p.2 = 20 || p.1.isDigit) = true ↔ Digits d) := by
    intro d
    induction d with
    | nil => simp [Digits]
    | cons c d ih =>
      intro k hk
      rw [length_cons] at hk
      have hne : k ≠ 20 := by omega
      rw [zipIdx_cons, all_cons, Bool.and_eq_true, ih (k + 1) (by omega)]
      simp [Digits, hne]
  rw [zipIdx_append, zipIdx_cons, all_append, all_cons, Bool.and_eq_true,
    Bool.and_eq_true, hl, hfield a 0 (by omega), hfield b 21 (by omega)]
  simp

variable {s : Text}

/-- **`Parse` is the inverse of `Version`** and rejects every other text. -/
theorem parse_eq_some : parse s = some (e, q) ↔ e < 2 ^ 64 ∧ q < 2 ^ 64 ∧ s = version e q := by
  constructor
  · intro h
    unfold parse at h
    split at h
    · cases h
    rename_i hform
    obtain ⟨hlen, hcolon⟩ : s.length = 41 ∧ s[20]? = some ':' := by simpa using hform
    obtain ⟨a, b, rfl, hl⟩ : ∃ a b, s = a ++ ':' :: b ∧ a.length = 20 := by
      obtain ⟨hlt, hcolon⟩ := List.getElem?_eq_some_iff.1 hcolon
      refine ⟨s.take 20, s.drop 21, ?_, by simp [hlen]⟩
      rw [← hcolon, ← drop_eq_getElem_cons, take_append_drop]
    rw [take_left' hl, drop_field hl] at h
    split at h
    · cases h
    rename_i hdigits
    rw [Bool.not_eq_true', Bool.not_eq_false, digits_but_colon hl] at hdigits
    obtain ⟨ha, hb⟩ := hdigits
    split at h
    · cases h
    rename_i hrange
    obtain ⟨rfl, rfl⟩ := Prod.mk.inj (Option.some.inj h)
    obtain ⟨he, hq⟩ : value a < 2 ^ 64 ∧ value b < 2 ^ 64 := by simpa using hrange
    simp only [length_append, length_cons] at hlen
    exact ⟨he, hq, eq_version ha hl hb (by omega)⟩
  · rintro ⟨he, hq, rfl⟩
    have hdigits := (digits_but_colon (length_padded_uint64 he)).2
      ⟨digits_padded 20 e, digits_padded 20 q⟩
    rw [parse, length_version he hq, colon_version he, take_version he, drop_version he,
      value_padded, value_padded, version, hdigits]
    simpa using ⟨he, hq⟩

/-- A run of digits ends where something else stands. -/
theorem span_digits (ha : Digits a) {c : Char} (hc : c.isDigit = false) (b : Text) :
    (a ++ c :: b).span Char.isDigit = (a, c :: b) := by
  rw [span_eq_takeWhile_dropWhile, takeWhile_append_of_pos ha,
    dropWhile_append_of_pos ha]
  simp [hc]

theorem twoNumbers_version (e q : Nat) : twoNumbers (version e q) = true := by
  have hne : ∀ n, padded 20 n ≠ [] := fun n => by simp [padded]
  rw [twoNumbers, version, span_digits (digits_padded 20 e) (by decide)]
  simp only [ne_eq, hne, not_false_eq_true, decide_true, Bool.true_and]
  exact all_eq_true.2 (digits_padded 20 q)

theorem isVersion_version (he : e < 2 ^ 64) (hq : q < 2 ^ 64) :
    isVersion (version e q) = true := by
  have hle : ∀ n, n < 2 ^ 64 → versionGt (padded 20 n) maxUint64 = false := by
    intro n hn
    rw [Bool.eq_false_iff, ne_eq, versionGt_digits (digits_padded 20 n) digits_maxUint64
      ((length_padded_uint64 hn).trans length_maxUint64.symm), value_padded, value_maxUint64]
    omega
  simp only [isVersion, length_version he hq, colon_version he, twoNumbers_version, take_version he,
    drop_version he, hle e he, hle q hq, decide_true, Bool.not_false, Bool.and_self]

/-- Two runs of digits around one colon, at the place where the colon is. -/
theorem twoNumbers_split (h : twoNumbers s = true) :
    ∃ a b, s = a ++ ':' :: b ∧ Digits a ∧ Digits b := by
  unfold twoNumbers at h
  rw [span_eq_takeWhile_dropWhile] at h
  split at h
  next a b hspan =>
    obtain ⟨ha, hb⟩ := Prod.mk.inj hspan
    refine ⟨a, b, ?_, ?_, ?_⟩
    · rw [← hb, ← ha, takeWhile_append_dropWhile]
    · intro c hc
      rw [← ha] at hc
      exact mem_takeWhile_imp hc
    · simp only [Bool.and_eq_true] at h
      exact all_eq_true.1 h.2
  · cases h

theorem exists_of_isVersion (h : isVersion s = true) :
    ∃ e q, e < 2 ^ 64 ∧ q < 2 ^ 64 ∧ s = version e q := by
  simp only [isVersion, Bool.and_eq_true, decide_eq_true_eq, Bool.not_eq_true'] at h
  obtain ⟨⟨⟨⟨hlen, hcolon⟩, htwo⟩, hfirst⟩, hsecond⟩ := h
  obtain ⟨a, b, rfl, ha, hb⟩ := twoNumbers_split htwo
  -- the colon at place 20 is the only character that is no digit
  have hla : a.length = 20 := by
    rcases Nat.lt_trichotomy a.length 20 with hlt | heq | hgt
    · rw [List.getElem?_append_right hlt.le, List.getElem?_cons, if_neg (by omega)] at hcolon
      cases hb _ (mem_of_getElem? hcolon)
    · exact heq
    · rw [List.getElem?_append_left hgt] at hcolon
      cases ha _ (mem_of_getElem? hcolon)
  have hlb : b.length = 20 := by
    simp only [length_append, length_cons] at hlen
    omega
  have hlt : ∀ d : Text, Digits d → d.length = 20 → versionGt d maxUint64 = false →
      value d < 2 ^ 64 := by
    intro d hd hl hgt
    rw [Bool.eq_false_iff, ne_eq, versionGt_digits hd digits_maxUint64
      (hl.trans length_maxUint64.symm), value_maxUint64] at hgt
    omega
  rw [take_left' hla] at hfirst
  rw [drop_field hla] at hsecond
  exact ⟨value a, value b, hlt a ha hla hfirst, hlt b hb hlb hsecond, eq_version ha hla hb hlb⟩

theorem isVersion_iff : isVersion s = true ↔ (parse s).isSome = true := by
  constructor
  · intro h
    obtain ⟨e, q, he, hq, rfl⟩ := exists_of_isVersion h
    rw [parse_eq_some.2 ⟨he, hq, rfl⟩]
    rfl
  · intro h
    obtain ⟨p, hp⟩ := Option.isSome_iff_exists.1 h
    obtain ⟨he, hq, rfl⟩ := parse_eq_some.1 hp
    exact isVersion_version he hq

/-- The byte order of versions is the order of the pairs. -/
theorem versionGt_iff (ha : isVersion a = true) (hb : isVersion b = true) :
    versionGt a b = true ↔ order b < order a := by
  obtain ⟨e, q, he, hq, rfl⟩ := exists_of_isVersion ha
  obtain ⟨e', q', he', hq', rfl⟩ := exists_of_isVersion hb
  have hl := (length_padded_uint64 he).trans (length_padded_uint64 he').symm
  have hl' := (length_padded_uint64 hq).trans (length_padded_uint64 hq').symm
  rw [order_version he, order_version he', Prod.Lex.toLex_lt_toLex, versionGt, version, version,
    decide_eq_true_eq, bytecmpSame_append hl]
  have hrest : bytecmpSame (':' :: padded 20 q) (':' :: padded 20 q') = compare q q' := by
    rw [bytecmpSame, if_pos rfl, bytecmpSame_eq_compare (digits_padded 20 q) (digits_padded 20 q')
      hl', value_padded, value_padded]
  rw [hrest, bytecmpSame_eq_compare (digits_padded 20 e) (digits_padded 20 e') hl, value_padded,
    value_padded]
  rcases Nat.lt_trichotomy e e' with h | rfl | h
  · rw [compare_lt_iff_lt.2 h]
    simp [Nat.lt_asymm h, (Nat.ne_of_lt h).symm]
  · rw [compare_eq_iff_eq.2 rfl]
    simp [Ordering.then, compare_gt_iff_gt]
  · rw [compare_gt_iff_gt.2 h]
    simp [h]

theorem order_injective (ha : isVersion a = true) (hb : isVersion b = true)
    (h : order a = order b) : a = b := by
  obtain ⟨e, q, he, hq, rfl⟩ := exists_of_isVersion ha
  obtain ⟨e', q', he', hq', rfl⟩ := exists_of_isVersion hb
  rw [order_version he, order_version he'] at h
  obtain ⟨rfl, rfl⟩ := Prod.mk.inj (toLex.injective h)
  rfl

end Mmorpg.SaveBarrier
