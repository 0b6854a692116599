import Mmorpg.Handoff.OwnerEpoch
import Mmorpg.SaveBarrier.Scripts

/-!
# The parsers of the fence record

The scene (`ParseFence`, `EncodeFence` of handoff_sql_barrier.h) and the Go services
(`ParseHandoffFence`) read the numbers of a record, the Lua function `fence` keeps them as texts.
Each of the three has its own splitting, number and nonce checks; once these are seen to be the
same functions, so are the parsers (`parsers_agree`). A text holds the bytes of a string.
-/

namespace Mmorpg.Handoff

open Decimal List

/-- The record of the C++ and Go code. A state is absent for `kCount`. -/
structure HandoffFence where
  ownerEpoch : Nat
  sceneInstance : Text
  generation : Nat
  admissionToken : Text
  state : Option FenceState
  token : Text
deriving DecidableEq, Repr

/-- The letter of a state, by which both parsers switch. -/
def FenceState.ofLetter (c : Char) : Option FenceState :=
  if c = 'H' then some .held else if c = 'F' then some .frozen
  else if c = 'R' then some .revoked else none

def FenceState.letter : FenceState → Char
  | .held => 'H'
  | .frozen => 'F'
  | .revoked => 'R'

/-- What `ParseFence` and `ParseHandoffFence` do with the parts, each with its own checks of a
number, a nonce and an instance. -/
def readFence (number : Text → Bool → Option Nat) (isNonce : Text → Bool → Bool)
    (isInstance : Text → Bool) : List Text → Option HandoffFence
  | [e, i, n, a, k, t] => do
    let owner ← number e false
    let generation ← number n true
    if !isNonce a true || !isNonce t false || k.length ≠ 1 || !isInstance i then none
    else
      let state ← k.head?.bind FenceState.ofLetter
      if generation = 0 then
        if state ≠ .revoked || i ≠ [] || a ≠ zeroNonce then none
        else some ⟨owner, i, generation, a, some state, t⟩
      else if i = [] || a = zeroNonce then none
      else some ⟨owner, i, generation, a, some state, t⟩
  | _ => none

/-- The guard of both number readers. -/
def misshapen (v : Text) : Bool :=
  v = [] || v.length > 20 || (v.length ≠ 1 && v.head? = some '0')

/-! ## C++ -/

def isFenceNonce (v : Text) (allowZero : Bool) : Bool :=
  v.length = 32 && (allowZero || v ≠ zeroNonce)
    && v.all fun ch => ('0' ≤ ch && ch ≤ '9') || ('a' ≤ ch && ch ≤ 'f')

/-- `std::from_chars` for 64 bits: the number of the leading digits and what is behind them. -/
def fromChars (v : Text) : Option (Nat × Text) :=
  let digits := v.takeWhile Char.isDigit
  if digits = [] || value digits ≥ 2 ^ 64 then none
  else some (value digits, v.dropWhile Char.isDigit)

def parseFenceNumber (v : Text) (allowZero : Bool) : Option Nat :=
  if misshapen v then none
  else do
    let (number, rest) ← fromChars v
    if rest ≠ [] || (!allowZero && number = 0) then none else some number

/-- The loop of `ParseFence` that cuts the parts off, with the number of parts that still follow:
every part but the last one ends at a bar. -/
def cutParts : Nat → Text → Option (List Text)
  | 0, v => if '|' ∈ v then none else some [v]
  | n + 1, v =>
    if '|' ∈ v then (cutParts n (v.drop (v.idxOf '|' + 1))).map (v.take (v.idxOf '|') :: ·)
    else none

def parseFence (v : Text) : Option HandoffFence :=
  (cutParts 5 v).bind <| readFence parseFenceNumber isFenceNonce fun i =>
    !(i.length > 256 || i.any fun ch => ch.toNat ≤ 32 || ch.toNat = 127)

def HandoffFence.text (f : HandoffFence) (state : FenceState) : Text :=
  Nat.toDigits 10 f.ownerEpoch ++ '|' :: (f.sceneInstance ++ '|' ::
    (Nat.toDigits 10 f.generation ++ '|' :: (f.admissionToken ++ '|' ::
      ([state.letter] ++ '|' :: f.token))))

def encodeFence (f : HandoffFence) : Option Text := do
  let state ← f.state
  if (parseFence (f.text state)).isSome then some (f.text state) else none

/-! ## Go -/

def isHandoffFenceNonce (v : Text) (allowZero : Bool) : Bool :=
  if v.length ≠ 32 then false
  else if v.any fun c => (c < '0' || c > '9') && (c < 'a' || c > 'f') then false
  else allowZero || v ≠ zeroNonce

def parseHandoffFenceNumber (v : Text) (allowZero : Bool) : Option Nat :=
  if misshapen v then none
  else if v.any fun c => c < '0' || c > '9' then none
  else do
    let number ← parseUint v
    if !allowZero && number = 0 then none else some number

/-- At most 256 bytes, none of them a control character or a blank. -/
def isHandoffFenceInstance (v : Text) : Bool :=
  if v.length > 256 then false else !v.any fun c => c.toNat ≤ 32 || c.toNat = 127

def parseHandoffFence (raw : Text) : Option HandoffFence :=
  readFence parseHandoffFenceNumber isHandoffFenceNonce isHandoffFenceInstance (raw.splitOn '|')

/-! ## The checks are the same -/

/-- The number of a text that `uint` accepts. -/
def uintValue (v : Text) (zero : Bool) : Option Nat := if uint v zero then some (value v) else none

variable (v : Text) (zero : Bool)

theorem isFenceNonce_eq : isFenceNonce v zero = nonce v zero := by
  rw [isFenceNonce, nonce, Bool.and_right_comm]
  rfl

theorem not_isHexDigit (c : Char) :
    ((c < '0' || c > '9') && (c < 'a' || c > 'f')) = !isHexDigit c := by
  change _ = !(('0' ≤ c && c ≤ '9') || ('a' ≤ c && c ≤ 'f'))
  simp only [Bool.not_or, Bool.not_and, ← decide_not, Char.not_le]

theorem not_isDigit (c : Char) : (c < '0' || c > '9') = !c.isDigit := by
  change _ = !('0' ≤ c && c ≤ '9')
  simp only [Bool.not_and, ← decide_not, Char.not_le]

theorem isHandoffFenceNonce_eq : isHandoffFenceNonce v zero = nonce v zero := by
  simp only [isHandoffFenceNonce, nonce, not_isHexDigit, ← not_all_eq_any_not]
  by_cases hlen : v.length = 32
  · cases v.all isHexDigit <;> simp [hlen]
  · simp [hlen]

theorem uint_eq : uint v zero =
    (!misshapen v && v.all Char.isDigit && value v < 2 ^ 64 && (zero || value v ≠ 0)) := by
  rw [Bool.eq_iff_iff, uint_iff]
  simp only [misshapen, Bool.and_eq_true, Bool.not_eq_true', Bool.or_eq_false_iff,
    Bool.and_eq_false_iff, Bool.or_eq_true, decide_eq_true_eq, decide_eq_false_iff_not, not_not,
    ← and_assoc]
  refine and_congr_left fun _ => and_congr_left fun hlt => ?_
  rw [canonical_iff, all_eq_true]
  constructor
  · intro h
    have hlen : v.length ≤ 20 := by
      rw [← (canonical_iff.2 h).toDigits_value]
      exact (Nat.length_toDigits_le_iff (by omega) (by omega)).2 (by omega)
    exact ⟨⟨⟨h.1, hlen.not_gt⟩, h.2.2⟩, h.2.1⟩
  · exact fun h => ⟨h.1.1.1, h.2, h.1.2⟩

theorem misshapen_nil : misshapen [] = true := rfl

theorem parseHandoffFenceNumber_eq : parseHandoffFenceNumber v zero = uintValue v zero := by
  simp only [uintValue, uint_eq, parseHandoffFenceNumber, parseUint, not_isDigit,
    ← not_all_eq_any_not]
  cases hshape : misshapen v with
  | true => rfl
  | false =>
    have hne : v ≠ [] := fun h => by simp [h, misshapen_nil] at hshape
    cases v.all Char.isDigit with
    | false => rfl
    | true =>
      rw [decide_eq_true hne]
      cases decide (value v < 2 ^ 64) <;> cases zero <;> by_cases hzero : value v = 0 <;>
        simp [hzero]

/-- What `std::from_chars` reads to the end is what `strconv.ParseUint` reads. -/
theorem parseFenceNumber_eq : parseFenceNumber v zero = uintValue v zero := by
  rw [← parseHandoffFenceNumber_eq, parseFenceNumber, parseHandoffFenceNumber]
  simp only [fromChars, parseUint, not_isDigit, ← not_all_eq_any_not]
  cases hd : v.all Char.isDigit with
  | false =>
    have hrest : v.dropWhile Char.isDigit ≠ [] := fun h => by
      rw [all_eq_true.2 (dropWhile_eq_nil_iff.1 h)] at hd
      cases hd
    generalize (decide (v.takeWhile Char.isDigit = []) || _) = fails
    cases fails <;> simp [hrest]
  | true =>
    have hall := all_eq_true.1 hd
    rw [takeWhile_eq_self_iff.2 hall, dropWhile_eq_nil_iff.2 hall]
    by_cases hne : v = []
    · simp [hne, misshapen_nil]
    · generalize 2 ^ 64 = range
      by_cases hlt : value v < range
      · simp [hne, hlt, Nat.not_le.2 hlt]
      · simp [hne, hlt, Nat.not_lt.1 hlt]

theorem splitOn_bar {a : Text} (ha : '|' ∉ a) (b : Text) :
    (a ++ '|' :: b).splitOn '|' = a :: b.splitOn '|' := by
  refine splitOnP_append_cons_of_forall_mem (p := (· == '|')) (fun c hc => ?_) _
    (beq_self_eq_true _) b
  rw [beq_eq_false_iff_ne]
  rintro rfl
  exact ha hc

theorem cutParts_eq (n : Nat) (v : Text) : cutParts n v =
    if (v.splitOn '|').length = n + 1 then some (v.splitOn '|') else none := by
  induction n generalizing v with
  | zero =>
    unfold cutParts
    split
    next hbar =>
      obtain ⟨a, b, rfl, ha⟩ := eq_append_cons_of_mem hbar
      have hpos := length_pos_iff.2 (splitOn_ne_nil '|' b)
      rw [if_neg]
      rw [splitOn_bar ha, length_cons]
      omega
    next hbar => simp [splitOn_eq_singleton hbar]
  | succ n ih =>
    unfold cutParts
    split
    next hbar =>
      obtain ⟨a, b, rfl, ha⟩ := eq_append_cons_of_mem hbar
      have hidx : (a ++ '|' :: b).idxOf '|' = a.length := by
        rw [idxOf_append_of_notMem ha, idxOf_cons_self, Nat.add_zero]
      have hdrop : (a ++ '|' :: b).drop (a.length + 1) = b := by simp
      rw [hidx, hdrop, take_left, ih, splitOn_bar ha]
      simp only [length_cons, Nat.add_right_cancel_iff]
      split <;> rfl
    next hbar => simp [splitOn_eq_singleton hbar]

theorem FenceState.ofText_eq (k : Text) : FenceState.ofText k =
    if k.length ≠ 1 then none else k.head?.bind FenceState.ofLetter := by
  unfold FenceState.ofText
  split
  · rfl
  · rfl
  · rfl
  next hH hF hR =>
    split
    · rfl
    next hlen =>
      obtain ⟨c, rfl⟩ := length_eq_one_iff.1 (not_not.1 hlen)
      simp only [List.cons.injEq, and_true] at hH hF hR
      change none = FenceState.ofLetter c
      rw [FenceState.ofLetter, if_neg hH, if_neg hF, if_neg hR]

/-- The record that the Lua table stands for. -/
def Fence.read (f : Fence) : HandoffFence := ⟨value f.e, f.i, value f.n, f.a, some f.k, f.t⟩

variable (s : Text)

theorem fence_read : (fence s).map Fence.read =
    readFence uintValue nonce (fun i => i.length ≤ 256 && !i.any isControlOrSpace)
      (s.splitOn '|') := by
  unfold fence
  split
  next e i n a k t hparts =>
    rw [hparts]
    simp only [FenceState.ofText_eq, readFence, uintValue, Fence.wellFormed]
    have hzero (h : uint n true = true) : n = ['0'] ↔ value n = 0 :=
      ⟨fun h => h ▸ rfl, fun hv => by rw [← (uint_canonical h).toDigits_value, hv]; rfl⟩
    generalize k.head?.bind FenceState.ofLetter = state
    by_cases hk : k.length = 1
    · cases state with
      | none => simp [hk]
      | some state =>
        cases uint e false
        · simp [hk]
        cases hn : uint n true
        · simp [hk]
        cases nonce a true
        · simp [hk]
        cases nonce t false
        · simp [hk]
        simp only [hk, hzero hn, Bool.true_and]
        cases i.any isControlOrSpace
        swap
        · simp
        by_cases hlen : i.length ≤ 256
        swap
        · simp [hlen]
        by_cases hg : value n = 0 <;> by_cases hi : i = [] <;> by_cases ha : a = zeroNonce <;>
          cases state <;> simp [hg, hi, ha, hlen, Fence.read]
    · simp [hk]
  next hparts =>
    unfold readFence
    split
    next heq => exact absurd heq (hparts _ _ _ _ _ _)
    · rfl

theorem parseFence_eq : parseFence s = (fence s).map Fence.read := by
  have hinstance : (fun i : Text => !(decide (i.length > 256) || i.any isControlOrSpace)) =
      fun i => decide (i.length ≤ 256) && !i.any isControlOrSpace := by
    funext i
    simp only [Bool.not_or, ← decide_not, Nat.not_lt]
  rw [fence_read, ← hinstance, parseFence, cutParts_eq,
    funext₂ parseFenceNumber_eq, funext₂ isFenceNonce_eq]
  split
  · rfl
  next hlen =>
    unfold readFence
    split
    next heq => simp [heq] at hlen
    · rfl

theorem parseHandoffFence_eq : parseHandoffFence s = (fence s).map Fence.read := by
  have hinstance : isHandoffFenceInstance =
      fun i => decide (i.length ≤ 256) && !i.any isControlOrSpace := by
    funext i
    change (if i.length > 256 then false else !i.any isControlOrSpace) = _
    split
    next hlen => simp [hlen]
    next hlen => rw [decide_eq_true (Nat.not_lt.1 hlen), Bool.true_and]
  rw [fence_read, parseHandoffFence, hinstance, funext₂ parseHandoffFenceNumber_eq,
    funext₂ isHandoffFenceNonce_eq]

/-! ## Writing and reading -/

theorem FenceState.ofText_eq_some {k : Text} {state : FenceState}
    (h : FenceState.ofText k = some state) : k = [state.letter] := by
  unfold FenceState.ofText at h
  split at h <;> cases h <;> rfl

theorem FenceState.letter_injective : Function.Injective FenceState.letter := by
  rintro ⟨⟩ ⟨⟩ h <;> first | rfl | cases h

theorem fence_parts {s : Text} {g : Fence} (h : fence s = some g) :
    s.splitOn '|' = [g.e, g.i, g.n, g.a, [g.k.letter], g.t] := by
  unfold fence at h
  split at h
  next hparts =>
    split at h
    · cases h
    next hstate =>
      split at h
      · cases h
        rw [hparts, FenceState.ofText_eq_some hstate]
      · cases h
  · cases h

theorem splitOn_of_length {a : Text} (h : (a.splitOn '|').length = 1) : a.splitOn '|' = [a] := by
  obtain ⟨b, hb⟩ := length_eq_one_iff.1 h
  have hjoin : ['|'].intercalate (a.splitOn '|') = a := intercalate_splitOn '|'
  rw [hb] at hjoin ⊢
  simpa using hjoin

/-- A text that has six parts has no bar in the fields it was made of. -/
theorem splitOn_text {f : HandoffFence} {k : FenceState}
    (h : ((f.text k).splitOn '|').length = 6) : (f.text k).splitOn '|' =
      [Nat.toDigits 10 f.ownerEpoch, f.sceneInstance, Nat.toDigits 10 f.generation,
        f.admissionToken, [k.letter], f.token] := by
  have hsplit (a b : Text) : (a ++ '|' :: b).splitOn '|' = a.splitOn '|' ++ b.splitOn '|' :=
    splitOnP_append_cons a b (beq_self_eq_true _)
  have hpos (a : Text) : 0 < (a.splitOn '|').length :=
    length_pos_iff.2 (splitOn_ne_nil '|' a)
  simp only [HandoffFence.text, hsplit, length_append] at h ⊢
  have h₁ := hpos (Nat.toDigits 10 f.ownerEpoch)
  have h₂ := hpos f.sceneInstance
  have h₃ := hpos (Nat.toDigits 10 f.generation)
  have h₄ := hpos f.admissionToken
  have h₅ := hpos [k.letter]
  have h₆ := hpos f.token
  rw [splitOn_of_length (a := Nat.toDigits 10 f.ownerEpoch) (by omega),
    splitOn_of_length (a := f.sceneInstance) (by omega),
    splitOn_of_length (a := Nat.toDigits 10 f.generation) (by omega),
    splitOn_of_length (a := f.admissionToken) (by omega),
    splitOn_of_length (a := [k.letter]) (by omega), splitOn_of_length (a := f.token) (by omega)]
  rfl

theorem encodeFence_eq_some_iff {s : Text} {f : HandoffFence} :
    encodeFence f = some s ↔ parseFence s = some f := by
  constructor
  · intro h
    simp only [encodeFence, Option.bind_eq_bind, Option.bind_eq_some_iff] at h
    obtain ⟨k, hk, h⟩ := h
    split at h
    next hsome =>
      cases h
      rw [parseFence_eq, Option.isSome_map] at hsome
      obtain ⟨g, hg⟩ := Option.isSome_iff_exists.1 hsome
      have hparts := fence_parts hg
      rw [splitOn_text (by rw [hparts]; rfl)] at hparts
      simp only [List.cons.injEq, and_true] at hparts
      obtain ⟨he, hi, hn, ha, hletter, ht⟩ := hparts
      rw [parseFence_eq, hg, Option.map_some, Fence.read, ← he, ← hi, ← hn, ← ha, ← ht,
        ← FenceState.letter_injective hletter, ← hk, value_toDigits, value_toDigits]
    · cases h
  · intro h
    rw [parseFence_eq, Option.map_eq_some_iff] at h
    obtain ⟨g, hg, rfl⟩ := h
    have htext : g.read.text g.k = s := by
      have hjoin : ['|'].intercalate (s.splitOn '|') = s := intercalate_splitOn '|'
      obtain ⟨he, hn⟩ := fence_canonical hg
      rw [fence_parts hg] at hjoin
      rw [HandoffFence.text, Fence.read, he.toDigits_value, hn.toDigits_value, ← hjoin]
      simp
    change (if (parseFence (g.read.text g.k)).isSome then _ else _) = _
    rw [htext, parseFence_eq, hg]
    rfl

/-- **All parsers of a fence record agree, and the encoder is their inverse.** -/
theorem parsers_agree (s : Text) :
    parseFence s = (fence s).map Fence.read ∧ parseHandoffFence s = parseFence s ∧
      ∀ f, encodeFence f = some s ↔ parseFence s = some f :=
  ⟨parseFence_eq s, (parseHandoffFence_eq s).trans (parseFence_eq s).symm,
    fun _ => encodeFence_eq_some_iff⟩

/-! ## The digit loops of the scripts -/

/-- **The loops over digits compute what integers would:** two more, unless that has no 64 bits,
and the player's number modulo 64. -/
theorem digit_loops_exact (n : Nat) :
    (plus2 (Nat.toDigits 10 n) =
      if n + 2 ≤ 2 ^ 64 - 1 then some (Nat.toDigits 10 (n + 2)) else none) ∧
    SaveBarrier.bucketOf (Nat.toDigits 10 n) = n % 64 := by
  constructor
  · simp only [plus2_toDigits, Nat.le_sub_one_iff_lt (Nat.two_pow_pos 64)]
  · rw [SaveBarrier.bucketOf_eq (digits_toDigits n), value_toDigits]

end Mmorpg.Handoff
