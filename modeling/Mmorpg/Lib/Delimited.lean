import Mathlib.Data.List.Basic

/-!
# Unambiguous concatenation

When a text can be cut back into the pieces it was put together from. A code whose words end by
themselves is `SelfDelimiting`. A word over an alphabet ends at the first character outside of it
(`append_inj_of_stop`), the last separator of a text is found from its end
(`append_cons_inj_last`), and words that hold no separator survive being joined
(`intercalate_inj`) or terminated (`flatMap_terminated_inj`).
-/

namespace Delimited

open List

variable {α β : Type*}

/-- Every word of the code says where it ends. -/
def SelfDelimiting (enc : β → List α) : Prop :=
  ∀ ⦃x y s t⦄, enc x ++ s = enc y ++ t → x = y ∧ s = t

/-! ## Words over an alphabet -/

section Alphabet

variable {p : α → Prop} {a b s t : List α}

/-- Two words over an alphabet, each followed by something outside of it or by nothing. -/
theorem append_inj_of_stop (ha : ∀ x ∈ a, p x) (hb : ∀ x ∈ b, p x)
    (hs : ∀ x ∈ s.head?, ¬ p x) (ht : ∀ x ∈ t.head?, ¬ p x) (h : a ++ s = b ++ t) :
    a = b ∧ s = t := by
  induction a generalizing b with
  | nil =>
    cases b with
    | nil => exact ⟨rfl, h⟩
    | cons y b =>
      have hy : y ∈ s.head? := by
        rw [nil_append] at h
        rw [h]
        rfl
      exact absurd (hb y mem_cons_self) (hs y hy)
  | cons x a ih =>
    cases b with
    | nil =>
      have hx : x ∈ t.head? := by
        rw [nil_append] at h
        rw [← h]
        rfl
      exact absurd (ha x mem_cons_self) (ht x hx)
    | cons y b =>
      obtain ⟨rfl, htail⟩ := cons_eq_cons.1 h
      obtain ⟨rfl, hst⟩ := ih (fun z hz => ha z (mem_cons_of_mem _ hz))
        (fun z hz => hb z (mem_cons_of_mem _ hz)) htail
      exact ⟨rfl, hst⟩

/-- The same, with a separator outside the alphabet behind each word. -/
theorem append_cons_inj {c : α} (hc : ¬ p c) (ha : ∀ x ∈ a, p x) (hb : ∀ x ∈ b, p x)
    (h : a ++ c :: s = b ++ c :: t) : a = b ∧ s = t := by
  have hstop : ∀ u : List α, ∀ x ∈ (c :: u).head?, ¬ p x := by
    intro u x hx
    obtain rfl : c = x := Option.some.inj hx
    exact hc
  obtain ⟨hab, hst⟩ := append_inj_of_stop ha hb (hstop s) (hstop t) h
  exact ⟨hab, (cons_eq_cons.1 hst).2⟩

end Alphabet

/-- The last separator of a text. -/
theorem append_cons_inj_last {c : α} {a b s t : List α} (hs : c ∉ s) (ht : c ∉ t)
    (h : a ++ c :: s = b ++ c :: t) : a = b ∧ s = t := by
  have hrev : s.reverse ++ c :: a.reverse = t.reverse ++ c :: b.reverse := by
    simpa using congrArg List.reverse h
  have hfree : ∀ {u : List α}, c ∉ u → ∀ x ∈ u.reverse, x ≠ c :=
    fun hu x hx hxc => hu (hxc ▸ mem_reverse.1 hx)
  obtain ⟨hst, hab⟩ := append_cons_inj (p := (· ≠ c)) (by simp) (hfree hs) (hfree ht) hrev
  exact ⟨reverse_injective hab, reverse_injective hst⟩

/-! ## Lists of words -/

/-- Words that are not empty and hold no separator can be read off their join. -/
theorem intercalate_inj [DecidableEq α] {c : α} {xs ys : List (List α)}
    (hx : ∀ w ∈ xs, w ≠ [] ∧ c ∉ w) (hy : ∀ w ∈ ys, w ≠ [] ∧ c ∉ w)
    (h : [c].intercalate xs = [c].intercalate ys) : xs = ys := by
  have hnil : ∀ zs : List (List α), (∀ w ∈ zs, w ≠ [] ∧ c ∉ w) →
      [c].intercalate zs = [] → zs = [] := by
    intro zs hz he
    cases zs with
    | nil => rfl
    | cons w zs =>
      cases zs with
      | nil =>
        rw [intercalate_singleton] at he
        exact absurd he (hz w mem_cons_self).1
      | cons v zs =>
        rw [intercalate_cons_cons] at he
        simp at he
  by_cases hxs : xs = []
  · subst hxs
    exact (hnil ys hy h.symm).symm
  by_cases hys : ys = []
  · subst hys
    exact hnil xs hx h
  rw [← splitOn_intercalate c (fun w hw => (hx w hw).2) hxs, h,
    splitOn_intercalate c (fun w hw => (hy w hw).2) hys]

theorem mem_intercalate {c x : α} {xs : List (List α)} (h : x ∈ [c].intercalate xs) :
    x = c ∨ ∃ w ∈ xs, x ∈ w := by
  induction xs with
  | nil => exact absurd h not_mem_nil
  | cons w xs ih =>
    cases xs with
    | nil =>
      rw [intercalate_singleton] at h
      exact .inr ⟨w, mem_cons_self, h⟩
    | cons v xs =>
      rw [intercalate_cons_cons, mem_append, mem_append] at h
      rcases h with (h | h) | h
      · exact .inr ⟨w, mem_cons_self, h⟩
      · exact .inl (mem_singleton.1 h)
      · rcases ih h with h | ⟨u, hu, hxu⟩
        · exact .inl h
        · exact .inr ⟨u, mem_cons_of_mem _ hu, hxu⟩

/-- Words over an alphabet, each closed by `c`, and the whole list closed by `d`. -/
theorem flatMap_terminated_inj {p : α → Prop} {c d : α} (hc : ¬ p c) (hd : ¬ p d) (hcd : c ≠ d)
    {enc : β → List α} (hp : ∀ v, ∀ x ∈ enc v, p x) (henc : Function.Injective enc)
    {xs ys : List β} {s t : List α}
    (h : (xs.flatMap fun v => enc v ++ [c]) ++ d :: s =
      (ys.flatMap fun v => enc v ++ [c]) ++ d :: t) :
    xs = ys ∧ s = t := by
  have hstop : ∀ e : α, ¬ p e → ∀ u : List α, ∀ x ∈ (e :: u).head?, ¬ p x := by
    intro e he u x hx
    obtain rfl : e = x := Option.some.inj hx
    exact he
  induction xs generalizing ys with
  | nil =>
    cases ys with
    | nil => exact ⟨rfl, (cons_eq_cons.1 h).2⟩
    | cons y ys =>
      -- the closing `d` meets a word or the terminator behind an empty one
      simp only [flatMap_nil, flatMap_cons, nil_append, append_assoc,
        cons_append] at h
      obtain ⟨-, h⟩ := append_inj_of_stop (a := []) (by simp) (hp y) (hstop d hd s)
        (hstop c hc _) h
      exact absurd (cons_eq_cons.1 h).1.symm hcd
  | cons x xs ih =>
    cases ys with
    | nil =>
      simp only [flatMap_nil, flatMap_cons, nil_append, append_assoc,
        cons_append] at h
      obtain ⟨-, h⟩ := append_inj_of_stop (b := []) (hp x) (by simp) (hstop c hc _)
        (hstop d hd t) h
      exact absurd (cons_eq_cons.1 h).1 hcd
    | cons y ys =>
      simp only [flatMap_cons, append_assoc, cons_append, nil_append] at h
      obtain ⟨hxy, h⟩ := append_cons_inj hc (hp x) (hp y) h
      obtain ⟨rfl, hst⟩ := ih h
      exact ⟨by rw [henc hxy], hst⟩

end Delimited
