import Mathlib.Algebra.Order.Ring.Nat
import Mmorpg.Lib.Delimited

/-!
# The protocol buffer wire format

The deterministic encoding of a message: its known fields in the order of their numbers, a field
with its default value left out, then the bytes of the fields that the schema does not know.
Varints and length-delimited payloads say where they end, so a field is read off the front of
what follows it as long as that does not begin with the same tag (`field_append_inj`). Bytes are
written as text in lower-case hexadecimal.
-/

namespace ProtoWire

open Delimited List

abbrev Bytes := List UInt8

/-! ## Payloads -/

/-- Base 128, least significant group first, the top bit set on all groups but the last. -/
def varint (n : Nat) : Bytes :=
  if n < 128 then [UInt8.ofNat n] else UInt8.ofNat (n % 128 + 128) :: varint (n / 128)
termination_by n
decreasing_by omega

def delimited (b : Bytes) : Bytes := varint b.length ++ b

theorem ofNat_inj {m n : Nat} (hm : m < 256) (hn : n < 256) (h : UInt8.ofNat m = UInt8.ofNat n) :
    m = n := by
  have := congrArg UInt8.toNat h
  simp only [UInt8.toNat_ofNat'] at this
  omega

theorem selfDelimiting_varint : SelfDelimiting varint := by
  intro m
  induction m using Nat.strongRecOn with
  | ind m ih =>
    intro n s t h
    rw [varint, varint.eq_def n] at h
    split at h <;> split at h <;> rename_i hm hn <;> obtain ⟨hb, h⟩ := cons_eq_cons.1 h
    · exact ⟨ofNat_inj (by omega) (by omega) hb, h⟩
    · have := ofNat_inj (by omega) (by omega) hb
      omega
    · have := ofNat_inj (by omega) (by omega) hb
      omega
    · have hlow := ofNat_inj (by omega) (by omega) hb
      obtain ⟨hhigh, hst⟩ := ih (m / 128) (by omega) h
      exact ⟨by omega, hst⟩

theorem selfDelimiting_delimited : SelfDelimiting delimited := by
  intro a b s t h
  simp only [delimited, append_assoc] at h
  obtain ⟨hlen, h⟩ := selfDelimiting_varint h
  exact append_inj h hlen

/-! ## Fields -/

/-- The tag byte of a field with a number below sixteen. -/
def tag (number wire : Nat) : UInt8 := UInt8.ofNat (8 * number + wire)

/-- What does not begin with one of the tags. -/
def Avoids (tags : List UInt8) (s : Bytes) : Prop := ∀ t ∈ tags, s.head? ≠ some t

section Field

variable {β : Type*} [DecidableEq β] {label : UInt8} {enc : β → Bytes} {default v w : β}
  {s t : Bytes}

/-- A field of a message, left out when it has its default value. -/
def field (label : UInt8) (enc : β → Bytes) (default v : β) : Bytes :=
  if v = default then [] else label :: enc v

/-- A `uint32` or `uint64` field. -/
def uintField (number n : Nat) : Bytes := field (tag number 0) varint 0 n

/-- A `bytes` or `string` field. -/
def bytesField (number : Nat) (b : Bytes) : Bytes := field (tag number 2) delimited [] b

theorem field_append_inj (henc : SelfDelimiting enc) {tags : List UInt8}
    (hs : Avoids (label :: tags) s) (ht : Avoids (label :: tags) t)
    (h : field label enc default v ++ s = field label enc default w ++ t) : v = w ∧ s = t := by
  rw [field, field] at h
  split at h <;> split at h <;> rename_i hv hw
  · exact ⟨hv.trans hw.symm, h⟩
  · exact absurd (by rw [nil_append] at h; rw [h]; rfl) (hs label mem_cons_self)
  · exact absurd (by rw [nil_append] at h; rw [← h]; rfl) (ht label mem_cons_self)
  · exact henc (cons_eq_cons.1 h).2

theorem Avoids.field_append {us ts : List UInt8} (h : Avoids us s)
    (hsub : ∀ t ∈ ts, t ∈ us ∧ t ≠ label) : Avoids ts (field label enc default v ++ s) := by
  intro t ht
  obtain ⟨hmem, hne⟩ := hsub t ht
  rw [field]
  split
  · exact h t hmem
  · exact fun h => hne (Option.some.inj h).symm

end Field

/-! ## Messages -/

/-- What writes a value in front of the unknown fields: it determines both, and it begins with
none of the tags. -/
structure Writes {α : Type*} (unknown tags : List UInt8) (enc : α → Bytes → Bytes) : Prop where
  inj {a b : α} {u v : Bytes} : Avoids unknown u → Avoids unknown v → enc a u = enc b v →
    a = b ∧ u = v
  avoids {a : α} {u : Bytes} : Avoids unknown u → Avoids tags (enc a u)

namespace Writes

variable {α : Type*} {unknown tags : List UInt8} {enc : α → Bytes → Bytes}

theorem nil (hsub : tags ⊆ unknown) : Writes unknown tags fun (_ : Unit) u => u :=
  ⟨fun _ _ h => ⟨rfl, h⟩, fun hu t ht => hu t (hsub ht)⟩

/-- A field is read off the front, since what follows begins with a later tag or with an unknown
one. -/
theorem field {β : Type*} [DecidableEq β] {label : UInt8} {value : β → Bytes} {default : β}
    (h : Writes unknown (label :: tags) enc) (hvalue : SelfDelimiting value) (hne : label ∉ tags) :
    Writes unknown tags fun (x : β × α) u =>
      ProtoWire.field label value default x.1 ++ enc x.2 u where
  inj hu hv heq := by
    obtain ⟨hfirst, heq⟩ := field_append_inj hvalue (h.avoids hu) (h.avoids hv) heq
    obtain ⟨hrest, hunknown⟩ := h.inj hu hv heq
    exact ⟨Prod.ext hfirst hrest, hunknown⟩
  avoids hu := (h.avoids hu).field_append fun t ht =>
    ⟨mem_cons_of_mem label ht, fun heq => hne (heq ▸ ht)⟩

theorem uint {number : Nat} (h : Writes unknown (tag number 0 :: tags) enc)
    (hne : tag number 0 ∉ tags) :
    Writes unknown tags fun (x : Nat × α) u => uintField number x.1 ++ enc x.2 u :=
  h.field selfDelimiting_varint hne

theorem bytes {number : Nat} (h : Writes unknown (tag number 2 :: tags) enc)
    (hne : tag number 2 ∉ tags) :
    Writes unknown tags fun (x : Bytes × α) u => bytesField number x.1 ++ enc x.2 u :=
  h.field selfDelimiting_delimited hne

end Writes

/-- The numbers that a field can have. -/
def IsNumber (n : Nat) : Prop := 0 < n ∧ n < 2 ^ 29

instance (n : Nat) : Decidable (IsNumber n) := inferInstanceAs (Decidable (_ ∧ _))

/-- Unknown fields in the form that a writer of values gives them: every tag, number and length
is the shortest varint. -/
inductive Shortest : Bytes → Prop
  | nil : Shortest []
  | number {s : Bytes} (n v : Nat) (hn : IsNumber n) (hv : v < 2 ^ 64) (hs : Shortest s) :
      Shortest (varint (8 * n) ++ (varint v ++ s))
  | fixed64 {s : Bytes} (n : Nat) (b : Bytes) (hn : IsNumber n) (hb : b.length = 8)
      (hs : Shortest s) : Shortest (varint (8 * n + 1) ++ (b ++ s))
  | bytes {s : Bytes} (n : Nat) (b : Bytes) (hn : IsNumber n) (hs : Shortest s) :
      Shortest (varint (8 * n + 2) ++ (delimited b ++ s))
  | group {s g : Bytes} (n : Nat) (hn : IsNumber n) (hg : Shortest g) (hs : Shortest s) :
      Shortest (varint (8 * n + 3) ++ (g ++ (varint (8 * n + 4) ++ s)))
  | fixed32 {s : Bytes} (n : Nat) (b : Bytes) (hn : IsNumber n) (hb : b.length = 4)
      (hs : Shortest s) : Shortest (varint (8 * n + 5) ++ (b ++ s))

/-! ## Hexadecimal text -/

def hexByte (b : UInt8) : List Char := [(b.toNat / 16).digitChar, (b.toNat % 16).digitChar]

def hex (bs : Bytes) : List Char := bs.flatMap hexByte

def IsHexDigit (c : Char) : Prop := c ∈ ['0', '1', '2', '3', '4', '5', '6', '7', '8', '9', 'a',
  'b', 'c', 'd', 'e', 'f']

instance (c : Char) : Decidable (IsHexDigit c) := inferInstanceAs (Decidable (c ∈ _))

theorem isHexDigit_digitChar : ∀ n : Fin 16, IsHexDigit n.val.digitChar := by decide

theorem digitChar_inj : ∀ m n : Fin 16, m.val.digitChar = n.val.digitChar → m = n := by decide

theorem hexByte_inj {a b : UInt8} (h : hexByte a = hexByte b) : a = b := by
  have ha := a.toNat_lt
  have hb := b.toNat_lt
  simp only [hexByte, List.cons.injEq, and_true] at h
  have hhigh := digitChar_inj ⟨a.toNat / 16, by omega⟩ ⟨b.toNat / 16, by omega⟩ h.1
  have hlow := digitChar_inj ⟨a.toNat % 16, by omega⟩ ⟨b.toNat % 16, by omega⟩ h.2
  simp only [Fin.mk.injEq] at hhigh hlow
  exact UInt8.toNat_inj.1 (by omega)

theorem hex_injective : Function.Injective hex := by
  intro a b h
  induction a generalizing b with
  | nil =>
    cases b with
    | nil => rfl
    | cons y b => cases h
  | cons x a ih =>
    cases b with
    | nil => cases h
    | cons y b =>
      have hsplit : hexByte x ++ hex a = hexByte y ++ hex b := h
      obtain ⟨hxy, htail⟩ := append_inj hsplit rfl
      rw [hexByte_inj hxy, ih htail]

theorem isHexDigit_of_mem_hex {bs : Bytes} : ∀ c ∈ hex bs, IsHexDigit c := by
  intro c hc
  obtain ⟨b, -, hc⟩ := mem_flatMap.1 hc
  have hb := b.toNat_lt
  simp only [hexByte, mem_cons, not_mem_nil, or_false] at hc
  rcases hc with rfl | rfl
  · exact isHexDigit_digitChar ⟨b.toNat / 16, by omega⟩
  · exact isHexDigit_digitChar ⟨b.toNat % 16, by omega⟩

end ProtoWire
