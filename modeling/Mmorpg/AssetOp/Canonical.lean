import Mmorpg.AssetOp.System
import Mmorpg.Lib.Decimal
import Mmorpg.Lib.ProtoWire

/-!
# The signing string of an asset request

`Canonical` (auth.go) writes the text that a service signs and `AssetOpCanonical`
(asset_op_auth.cpp) the text that the scene recomputes for the signature check. Both texts are
lines: a version, the caller, the method, seven numbers, the bundle and the time. The caller is
the only free text, so the lines are found from the end; inside the bundle every list ends at a
separator that its entries cannot hold, and instances stand there as the hexadecimal text of
their deterministic encoding.

The text determines every signed field with one exception. Behind at least one item instance an
absent pet instance and a pet instance whose encoding is empty are both written as nothing
(`Confusable`), so a request changed in this way keeps its signature.

The two sides serialise an instance with two libraries. The Go one appends unknown fields as the
raw bytes that it read; the C++ runtime is not part of the repository and keeps them parsed, so
what it writes for them is a parameter here. Both texts are the same as long as the runtime writes
those bytes back (`Shortest`).
-/

namespace Mmorpg.AssetOp.Wire

open Decimal Delimited ProtoWire List Option Function

/-! ## Messages -/

/-- The largest message that the C++ library serialises. -/
def maxMessageBytes : Nat := 2147483647

def encodeItem (item : AssetItemInstance) (unknownFields : Bytes) : Bytes :=
  uintField 1 item.itemUuid ++ (uintField 2 item.configId ++ (uintField 3 item.stackSize ++
    (bytesField 4 item.instanceProto ++ unknownFields)))

def utf8 (s : String) : Bytes := s.toByteArray.data.toList

def encodePet (pet : AssetPetInstance) (unknownFields : Bytes) : Bytes :=
  uintField 1 pet.petId ++ (uintField 2 pet.petTableId ++ (bytesField 3 (utf8 pet.name) ++
    (uintField 4 pet.level ++ (bytesField 5 pet.instanceProto ++ unknownFields))))

def itemTags : List UInt8 := [tag 1 0, tag 2 0, tag 3 0, tag 4 2]

def petTags : List UInt8 := [tag 1 0, tag 2 0, tag 3 2, tag 4 0, tag 5 2]

/-- An item instance as it is read from the wire. What is kept as unknown does not begin with
a field that the schema knows. -/
structure ItemMessage extends AssetItemInstance where
  unknownFields : Bytes
  unread : Avoids itemTags unknownFields
  fits : (encodeItem toAssetItemInstance unknownFields).length ≤ maxMessageBytes

structure PetMessage extends AssetPetInstance where
  unknownFields : Bytes
  unread : Avoids petTags unknownFields
  fits : (encodePet toAssetPetInstance unknownFields).length ≤ maxMessageBytes

def ItemMessage.encode (m : ItemMessage) : Bytes := encodeItem m.toAssetItemInstance m.unknownFields

def PetMessage.encode (m : PetMessage) : Bytes := encodePet m.toAssetPetInstance m.unknownFields

/-- The encoding by the C++ library. -/
def ItemMessage.serialize (reencode : Bytes → Bytes) (m : ItemMessage) : Bytes :=
  encodeItem m.toAssetItemInstance (reencode m.unknownFields)

def PetMessage.serialize (reencode : Bytes → Bytes) (m : PetMessage) : Bytes :=
  encodePet m.toAssetPetInstance (reencode m.unknownFields)

structure Bundle where
  currencies : List CurrencyAmount
  items : List ItemGrant
  itemUuids : List Nat
  petId : Nat
  itemInstances : List ItemMessage
  petInstance : Option PetMessage

structure AssetOpAuth where
  caller : Text
  timestampMs : Nat
  signatureHex : Text

/-- The request as it is read from the wire; the stream is an open enumeration. -/
structure Request where
  playerId : Nat
  stream : Int
  seq : Nat
  correlationId : Nat
  txType : Nat
  bundle : Option Bundle
  streamEpoch : Nat
  auth : Option AssetOpAuth

/-- The getters of an absent message read the default. -/
def Request.getBundle (r : Request) : Bundle := r.bundle.getD ⟨[], [], [], 0, [], none⟩

def Request.getAuth (r : Request) : AssetOpAuth := r.auth.getD ⟨[], 0, []⟩

/-- `RPC` of types.go; `invalid` stands for every other number. -/
inductive RPC where
  | invalid
  | debit
  | credit
  | abort
  | ackReceipt
deriving DecidableEq, Repr

/-- `rpcNames` -/
def RPC.string : RPC → Text
  | .invalid => "invalid".toList
  | .debit => "debit".toList
  | .credit => "credit".toList
  | .abort => "abort_debit".toList
  | .ackReceipt => "ack_receipt".toList

/-! ## Writing the text -/

/-- `strconv.FormatUint`, `std::to_string` -/
def formatUint (n : Nat) : Text := Nat.toDigits 10 n

/-- `strconv.FormatInt`, `std::to_string` -/
def formatInt (n : Int) : Text :=
  if n < 0 then '-' :: formatUint n.natAbs else formatUint n.natAbs

/-- The loop over a list with a comma before every entry but the first. -/
def writeList {β : Type} (word : β → Text) (b : Text) (xs : List β) : Text :=
  xs.zipIdx.foldl (fun b x => (if x.2 > 0 then b ++ [','] else b) ++ word x.1) b

def currencyWord (c : CurrencyAmount) : Text :=
  formatUint c.currencyType ++ ':' :: formatUint c.amount

def itemWord (it : ItemGrant) : Text := formatUint it.configId ++ ':' :: formatUint it.count

/-- The part of the bundle before the instances, which both sides write alike. -/
def writePlain (b : Text) (bundle : Bundle) : Text :=
  let b := writeList currencyWord (b ++ "c=".toList) bundle.currencies
  let b := writeList itemWord (b ++ ";i=".toList) bundle.items
  let b := writeList formatUint (b ++ ";u=".toList) bundle.itemUuids
  b ++ ";p=".toList ++ formatUint bundle.petId

def writeBundleCanonical (b : Text) (bundle : Bundle) : Text :=
  let b := writePlain b bundle
  if bundle.itemInstances.length > 0 || bundle.petInstance.isSome then
    let b := b ++ ";v2=".toList
    let b := bundle.itemInstances.foldl (fun b item => b ++ hex item.encode ++ [',']) b
    let b := b ++ [';']
    match bundle.petInstance with
    | some pet => b ++ hex pet.encode
    | none => b
  else b

def canonicalVersion : Text := "mmorpg-asset-op/v1".toList

def canonical (rpc : RPC) (req : Request) (tsMs : Nat) : Text :=
  let b := canonicalVersion ++ ['\n']
  let b := b ++ req.getAuth.caller ++ ['\n']
  let b := b ++ rpc.string ++ ['\n']
  let b := b ++ formatUint req.playerId ++ ['\n']
  let b := b ++ formatInt req.stream ++ ['\n']
  let b := b ++ formatUint req.streamEpoch ++ ['\n']
  let b := b ++ formatUint req.seq ++ ['\n']
  let b := b ++ formatUint req.correlationId ++ ['\n']
  let b := b ++ formatUint req.txType ++ ['\n']
  let b := writeBundleCanonical b req.getBundle ++ ['\n']
  b ++ formatUint tsMs

section Scene

-- what the C++ runtime writes for unknown fields that it has parsed
variable (reencode : Bytes → Bytes)

/-- `appendInstance` of the scene: nothing when the library refuses to serialise. -/
def appendInstance (out : Text) (bytes : Bytes) : Option Text :=
  if bytes.length ≤ maxMessageBytes then some (out ++ hex bytes) else none

/-- The loop over the item instances; the second component tells that it ended early. -/
def appendItems (out : Text) : List ItemMessage → Text × Bool
  | [] => (out, false)
  | item :: rest =>
    match appendInstance out (item.serialize reencode) with
    | none => (out ++ "!invalid".toList, true)
    | some out => appendItems (out ++ [',']) rest

def appendBundleCanonical (out : Text) (bundle : Bundle) : Text :=
  let out := writePlain out bundle
  if bundle.itemInstances.length > 0 || bundle.petInstance.isSome then
    let (out, failed) := appendItems reencode (out ++ ";v2=".toList) bundle.itemInstances
    if failed then out
    else
      let out := out ++ [';']
      match bundle.petInstance with
      | none => out
      | some pet => (appendInstance out (pet.serialize reencode)).getD (out ++ "!invalid".toList)
  else out

def kAssetOpCanonicalVersion : Text := "mmorpg-asset-op/v1".toList

def assetOpCanonical (rpc : Text) (request : Request) : Text :=
  let out := kAssetOpCanonicalVersion ++ ['\n']
  let out := out ++ request.getAuth.caller ++ ['\n']
  let out := out ++ rpc ++ ['\n']
  let out := out ++ formatUint request.playerId ++ ['\n']
  let out := out ++ formatInt request.stream ++ ['\n']
  let out := out ++ formatUint request.streamEpoch ++ ['\n']
  let out := out ++ formatUint request.seq ++ ['\n']
  let out := out ++ formatUint request.correlationId ++ ['\n']
  let out := out ++ formatUint request.txType ++ ['\n']
  let out := appendBundleCanonical reencode out request.getBundle ++ ['\n']
  out ++ formatUint request.getAuth.timestampMs

/-! ## Both sides write the same text -/

/-- The runtime writes the unknown fields of every instance back as they were read. -/
def Bundle.Rewritten (bundle : Bundle) : Prop :=
  (∀ item ∈ bundle.itemInstances, reencode item.unknownFields = item.unknownFields) ∧
    ∀ pet ∈ bundle.petInstance, reencode pet.unknownFields = pet.unknownFields

variable {reencode}

theorem appendItems_eq (out : Text) {items : List ItemMessage}
    (h : ∀ item ∈ items, reencode item.unknownFields = item.unknownFields) :
    appendItems reencode out items =
      (items.foldl (fun b item => b ++ hex item.encode ++ [',']) out, false) := by
  induction items generalizing out with
  | nil => rfl
  | cons item rest ih =>
    rw [forall_mem_cons] at h
    rw [appendItems, ItemMessage.serialize, h.1, appendInstance, if_pos item.fits]
    exact ih _ h.2

theorem appendBundleCanonical_eq (out : Text) {bundle : Bundle} (h : bundle.Rewritten reencode) :
    appendBundleCanonical reencode out bundle = writeBundleCanonical out bundle := by
  rw [appendBundleCanonical, writeBundleCanonical, appendItems_eq _ h.1]
  cases hpet : bundle.petInstance with
  | none => rfl
  | some pet =>
    dsimp only
    rw [PetMessage.serialize, h.2 pet hpet, appendInstance, if_pos pet.fits]
    rfl

theorem assetOpCanonical_eq (rpc : RPC) {req : Request} (h : req.getBundle.Rewritten reencode) :
    assetOpCanonical reencode rpc.string req = canonical rpc req req.getAuth.timestampMs := by
  rw [assetOpCanonical, appendBundleCanonical_eq _ h]
  rfl

end Scene

/-! ## Words of the text -/

theorem formatUint_inj {m n : Nat} (h : formatUint m = formatUint n) : m = n :=
  toDigits_injective h

theorem isDigit_of_mem_formatUint {n : Nat} : ∀ c ∈ formatUint n, c.isDigit = true :=
  digits_toDigits n

theorem formatUint_ne_nil (n : Nat) : formatUint n ≠ [] := Nat.toDigits_ne_nil

theorem formatInt_inj {m n : Int} (h : formatInt m = formatInt n) : m = n := by
  have hneg : ∀ (a : Text) (k : Nat), '-' :: a ≠ formatUint k := by
    intro a k hk
    have := isDigit_of_mem_formatUint '-' (hk ▸ mem_cons_self)
    exact absurd this (by decide)
  rw [formatInt, formatInt] at h
  split at h <;> split at h
  · have := formatUint_inj (cons_eq_cons.1 h).2
    omega
  · exact absurd h (hneg _ _)
  · exact absurd h.symm (hneg _ _)
  · have := formatUint_inj h
    omega

theorem RPC.string_inj : ∀ a b : RPC, a.string = b.string → a = b := by
  intro a b
  cases a <;> cases b <;> decide

theorem pairWord_inj {a b c d : Nat}
    (h : formatUint a ++ ':' :: formatUint b = formatUint c ++ ':' :: formatUint d) :
    a = c ∧ b = d := by
  obtain ⟨hac, hbd⟩ := append_cons_inj (p := fun x : Char => x.isDigit = true) (by decide)
    isDigit_of_mem_formatUint isDigit_of_mem_formatUint h
  exact ⟨formatUint_inj hac, formatUint_inj hbd⟩

theorem currencyWord_injective : Injective currencyWord := by
  intro a b h
  obtain ⟨htype, hamount⟩ := pairWord_inj h
  rw [CurrencyAmount.mk.injEq]
  exact ⟨htype, hamount⟩

theorem itemWord_injective : Injective itemWord := by
  intro a b h
  obtain ⟨hconfig, hcount⟩ := pairWord_inj h
  rw [ItemGrant.mk.injEq]
  exact ⟨hconfig, hcount⟩

def NumberWord (w : Text) : Prop := w ≠ [] ∧ ∀ c ∈ w, c.isDigit = true ∨ c = ':'

theorem numberWord_formatUint (n : Nat) : NumberWord (formatUint n) :=
  ⟨formatUint_ne_nil n, fun c hc => .inl (isDigit_of_mem_formatUint c hc)⟩

theorem numberWord_pair (m n : Nat) : NumberWord (formatUint m ++ ':' :: formatUint n) := by
  refine ⟨by simp, fun c hc => ?_⟩
  rcases mem_append.1 hc with hc | hc
  · exact .inl (isDigit_of_mem_formatUint c hc)
  · rcases mem_cons.1 hc with hc | hc
    · exact .inr hc
    · exact .inl (isDigit_of_mem_formatUint c hc)

theorem NumberWord.comma_notMem {w : Text} (h : NumberWord w) : ',' ∉ w := by
  intro hc
  rcases h.2 _ hc with h | h
  · exact absurd h (by decide)
  · exact absurd h (by decide)

/-! ## Lists -/

theorem foldl_writeList {β : Type} (word : β → Text) (b : Text) (xs : List β) (k : Nat) :
    (xs.zipIdx (k + 1)).foldl (fun b x => (if x.2 > 0 then b ++ [','] else b) ++ word x.1) b =
      b ++ xs.flatMap fun x => ',' :: word x := by
  induction xs generalizing b k with
  | nil => simp
  | cons x xs ih => simp [ih]

theorem intercalate_cons {α : Type} (c : α) (w : List α) (ws : List (List α)) :
    [c].intercalate (w :: ws) = w ++ ws.flatMap fun v => c :: v := by
  induction ws generalizing w with
  | nil => simp
  | cons v ws ih => simp [ih]

theorem writeList_eq {β : Type} (word : β → Text) (b : Text) (xs : List β) :
    writeList word b xs = b ++ [','].intercalate (xs.map word) := by
  cases xs with
  | nil => simp [writeList]
  | cons x xs =>
    rw [writeList, zipIdx_cons, foldl_cons, foldl_writeList, map_cons,
      intercalate_cons]
    simp [flatMap_map]

/-- The characters inside a part of the bundle: they end neither the part nor the line. -/
def Inside (c : Char) : Prop := c ≠ ';' ∧ c ≠ '\n'

theorem inside_of_isDigit {c : Char} (h : c.isDigit = true) : Inside c := by
  constructor <;> rintro rfl <;> exact absurd h (by decide)

theorem inside_of_isHexDigit {c : Char} (h : IsHexDigit c) : Inside c := by
  constructor <;> rintro rfl <;> exact absurd h (by decide)

section JoinedList

variable {β : Type} {word : β → Text} (hword : ∀ x, NumberWord (word x))

include hword in
theorem inside_of_mem_join {xs : List β} :
    ∀ c ∈ [','].intercalate (xs.map word), Inside c := by
  intro c hc
  rcases mem_intercalate hc with rfl | ⟨w, hw, hc⟩
  · exact ⟨by decide, by decide⟩
  · obtain ⟨x, -, rfl⟩ := mem_map.1 hw
    rcases (hword x).2 c hc with h | rfl
    · exact inside_of_isDigit h
    · exact ⟨by decide, by decide⟩

include hword in
theorem join_inj (hinj : Injective word) {xs ys : List β}
    (h : [','].intercalate (xs.map word) = [','].intercalate (ys.map word)) : xs = ys := by
  have hfree : ∀ zs : List β, ∀ w ∈ zs.map word, w ≠ [] ∧ ',' ∉ w := by
    intro zs w hw
    obtain ⟨x, -, rfl⟩ := mem_map.1 hw
    exact ⟨(hword x).1, (hword x).comma_notMem⟩
  exact hinj.list_map (intercalate_inj (hfree xs) (hfree ys) h)

end JoinedList

/-! ## Instances -/

/-- The encoding determines the instance and its unknown fields. -/
theorem encodeItem_inj {a b : AssetItemInstance} {u v : Bytes} (hu : Avoids itemTags u)
    (hv : Avoids itemTags v) (h : encodeItem a u = encodeItem b v) : a = b ∧ u = v := by
  have hrest : Writes itemTags [tag 4 2, tag 3 0, tag 2 0, tag 1 0] _ := .nil (by decide)
  have hproto := hrest.bytes (by decide)
  have hsize := hproto.uint (by decide)
  have hconfig := hsize.uint (by decide)
  have huuid := hconfig.uint (by decide)
  obtain ⟨hfields, hunknown⟩ := huuid.inj
    (a := (a.itemUuid, a.configId, a.stackSize, a.instanceProto, ()))
    (b := (b.itemUuid, b.configId, b.stackSize, b.instanceProto, ())) hu hv h
  cases a
  cases b
  cases hfields
  exact ⟨rfl, hunknown⟩

theorem utf8_inj {s t : String} (h : utf8 s = utf8 t) : s = t :=
  String.toByteArray_inj.1 (ByteArray.ext (Array.toList_inj.1 h))

theorem encodePet_inj {a b : AssetPetInstance} {u v : Bytes} (hu : Avoids petTags u)
    (hv : Avoids petTags v) (h : encodePet a u = encodePet b v) : a = b ∧ u = v := by
  have hrest : Writes petTags [tag 5 2, tag 4 0, tag 3 2, tag 2 0, tag 1 0] _ := .nil (by decide)
  have hproto := hrest.bytes (by decide)
  have hlevel := hproto.uint (by decide)
  have hname := hlevel.bytes (by decide)
  have htable := hname.uint (by decide)
  have hid := htable.uint (by decide)
  obtain ⟨hfields, hunknown⟩ := hid.inj
    (a := (a.petId, a.petTableId, utf8 a.name, a.level, a.instanceProto, ()))
    (b := (b.petId, b.petTableId, utf8 b.name, b.level, b.instanceProto, ())) hu hv h
  cases a
  cases b
  simp only [Prod.mk.injEq] at hfields
  obtain ⟨rfl, rfl, hname, rfl, rfl, -⟩ := hfields
  rw [utf8_inj hname]
  exact ⟨rfl, hunknown⟩

theorem ItemMessage.encode_injective : Injective ItemMessage.encode := by
  intro a b h
  obtain ⟨hitem, hunknown⟩ := encodeItem_inj a.unread b.unread h
  rw [ItemMessage.mk.injEq]
  exact ⟨hitem, hunknown⟩

theorem PetMessage.encode_injective : Injective PetMessage.encode := by
  intro a b h
  obtain ⟨hpet, hunknown⟩ := encodePet_inj a.unread b.unread h
  rw [PetMessage.mk.injEq]
  exact ⟨hpet, hunknown⟩

def emptyPet : PetMessage := ⟨⟨0, 0, "", 0, []⟩, [], by simp [Avoids], by decide⟩

theorem PetMessage.encode_eq_nil_iff {m : PetMessage} : m.encode = [] ↔ m = emptyPet :=
  ⟨fun h => PetMessage.encode_injective (h.trans (by rfl)), fun h => by rw [h]; rfl⟩

/-! ## The bundle -/

def petText : Option PetMessage → Text
  | some pet => hex pet.encode
  | none => []

def instancesText (bundle : Bundle) : Text :=
  if bundle.itemInstances.length > 0 || bundle.petInstance.isSome then
    ";v2=".toList ++ ((bundle.itemInstances.flatMap fun item => hex item.encode ++ [',']) ++
      ';' :: petText bundle.petInstance)
  else []

def bundleText (bundle : Bundle) : Text :=
  "c=".toList ++ ([','].intercalate (bundle.currencies.map currencyWord) ++
    ';' :: ("i=".toList ++ ([','].intercalate (bundle.items.map itemWord) ++
      ';' :: ("u=".toList ++ ([','].intercalate (bundle.itemUuids.map formatUint) ++
        ';' :: ("p=".toList ++ (formatUint bundle.petId ++ instancesText bundle)))))))

theorem foldl_append_flatMap {β : Type} (f : β → Text) (b : Text) (xs : List β) :
    xs.foldl (fun b x => b ++ f x) b = b ++ xs.flatMap f := by
  induction xs generalizing b with
  | nil => simp
  | cons x xs ih => simp [ih]

theorem writeBundleCanonical_eq (b : Text) (bundle : Bundle) :
    writeBundleCanonical b bundle = b ++ bundleText bundle := by
  have hplain : ∀ tail : Text, writePlain b bundle ++ tail =
      b ++ ("c=".toList ++ ([','].intercalate (bundle.currencies.map currencyWord) ++
        ';' :: ("i=".toList ++ ([','].intercalate (bundle.items.map itemWord) ++
          ';' :: ("u=".toList ++ ([','].intercalate (bundle.itemUuids.map formatUint) ++
            ';' :: ("p=".toList ++ (formatUint bundle.petId ++ tail)))))))) := by
    simp [writePlain, writeList_eq]
  rw [bundleText, ← hplain, writeBundleCanonical, instancesText]
  split
  · simp only [append_assoc, foldl_append_flatMap]
    cases bundle.petInstance <;> simp [petText]
  · simp

/-- Two bundles that differ only in the pet instance, absent or without content in each, and
that carry item instances. -/
structure Confusable (a b : Bundle) : Prop where
  currencies_eq : a.currencies = b.currencies
  items_eq : a.items = b.items
  itemUuids_eq : a.itemUuids = b.itemUuids
  petId_eq : a.petId = b.petId
  itemInstances_eq : a.itemInstances = b.itemInstances
  itemInstances_ne_nil : a.itemInstances ≠ []
  petInstance_ne : a.petInstance ≠ b.petInstance
  left_empty : ∀ pet ∈ a.petInstance, pet = emptyPet
  right_empty : ∀ pet ∈ b.petInstance, pet = emptyPet

theorem petText_eq_nil_iff {pet : Option PetMessage} :
    petText pet = [] ↔ ∀ m ∈ pet, m = emptyPet := by
  cases pet with
  | none => simp [petText]
  | some m =>
    have hnil : hex m.encode = [] ↔ m.encode = [] :=
      ⟨fun h => hex_injective (h.trans rfl), fun h => by rw [h]; rfl⟩
    rw [petText, hnil, PetMessage.encode_eq_nil_iff]
    simp

theorem petText_eq {a b : Option PetMessage} (h : petText a = petText b) :
    a = b ∨ petText a = [] ∧ petText b = [] := by
  cases a with
  | none => exact .inr ⟨rfl, h.symm⟩
  | some m =>
    cases b with
    | none => exact .inr ⟨h, rfl⟩
    | some n => exact .inl (by rw [PetMessage.encode_injective (hex_injective h)])

variable {a b : Bundle}

theorem instancesText_eq (h : instancesText a = instancesText b) :
    a.itemInstances = b.itemInstances ∧ (a.petInstance = b.petInstance ∨
      a.itemInstances ≠ [] ∧ petText a.petInstance = [] ∧ petText b.petInstance = []) := by
  have hnone : ∀ {c : Bundle}, ¬ (c.itemInstances.length > 0 || c.petInstance.isSome) = true →
      c.itemInstances = [] ∧ c.petInstance = none := by
    simp [length_eq_zero_iff]
  rw [instancesText, instancesText] at h
  split at h <;> split at h <;> rename_i ha hb
  · have htail := append_cancel_left h
    obtain ⟨hitems, hpet⟩ := flatMap_terminated_inj (p := IsHexDigit) (by decide) (by decide)
      (by decide) (fun _ => isHexDigit_of_mem_hex)
      (hex_injective.comp ItemMessage.encode_injective) htail
    refine ⟨hitems, ?_⟩
    by_cases hnil : a.itemInstances = []
    · -- without item instances the part itself says that there is a pet instance
      have hsome : a.petInstance.isSome ∧ b.petInstance.isSome := by
        rw [← hitems] at hb
        simpa [hnil] using And.intro ha hb
      obtain ⟨m, hm⟩ := isSome_iff_exists.1 hsome.1
      obtain ⟨n, hn⟩ := isSome_iff_exists.1 hsome.2
      rw [hm, hn] at hpet ⊢
      exact .inl (by rw [PetMessage.encode_injective (hex_injective hpet)])
    · exact (petText_eq hpet).imp id fun hp => ⟨hnil, hp⟩
  · exact absurd h (by simp)
  · exact absurd h (by simp)
  · obtain ⟨hia, hpa⟩ := hnone ha
    obtain ⟨hib, hpb⟩ := hnone hb
    exact ⟨hia.trans hib.symm, .inl (hpa.trans hpb.symm)⟩

theorem Confusable.instancesText_eq (h : Confusable a b) :
    instancesText a = instancesText b := by
  have hlen : 0 < a.itemInstances.length := length_pos_iff.2 h.itemInstances_ne_nil
  rw [instancesText, instancesText, petText_eq_nil_iff.2 h.left_empty,
    petText_eq_nil_iff.2 h.right_empty, ← h.itemInstances_eq]
  simp [hlen]

/-- The line of the bundle determines the bundle up to the confusion of pet instances. -/
theorem bundleText_eq_iff :
    bundleText a = bundleText b ↔ a = b ∨ Confusable a b := by
  constructor
  · intro h
    have hstop : ∀ c : Bundle, ∀ x ∈ (instancesText c).head?, ¬ Inside x := by
      intro c x hx
      rw [instancesText] at hx
      split at hx
      · obtain rfl : ';' = x := some.inj hx
        exact fun h => h.1 rfl
      · cases hx
    have hsemi : ¬ Inside ';' := fun h => h.1 rfl
    obtain ⟨hcurrencies, h⟩ := append_cons_inj hsemi
      (inside_of_mem_join fun _ => numberWord_pair _ _)
      (inside_of_mem_join fun _ => numberWord_pair _ _) (append_cancel_left h)
    obtain ⟨hitems, h⟩ := append_cons_inj hsemi
      (inside_of_mem_join fun _ => numberWord_pair _ _)
      (inside_of_mem_join fun _ => numberWord_pair _ _) (append_cancel_left h)
    obtain ⟨huuids, h⟩ := append_cons_inj hsemi (inside_of_mem_join numberWord_formatUint)
      (inside_of_mem_join numberWord_formatUint) (append_cancel_left h)
    obtain ⟨hpetId, h⟩ := append_inj_of_stop
      (fun c hc => inside_of_isDigit (isDigit_of_mem_formatUint c hc))
      (fun c hc => inside_of_isDigit (isDigit_of_mem_formatUint c hc))
      (hstop a) (hstop b) (append_cancel_left h)
    have hcurrencies := join_inj (fun _ => numberWord_pair _ _) currencyWord_injective hcurrencies
    have hitems := join_inj (fun _ => numberWord_pair _ _) itemWord_injective hitems
    have huuids := join_inj numberWord_formatUint toDigits_injective huuids
    obtain ⟨hinst, hpet⟩ := instancesText_eq h
    by_cases hne : a.petInstance = b.petInstance
    · left
      rw [Bundle.mk.injEq]
      exact ⟨hcurrencies, hitems, huuids, formatUint_inj hpetId, hinst, hne⟩
    · obtain ⟨hitemsNe, hleft, hright⟩ := hpet.resolve_left hne
      exact .inr ⟨hcurrencies, hitems, huuids, formatUint_inj hpetId, hinst, hitemsNe, hne,
        petText_eq_nil_iff.1 hleft, petText_eq_nil_iff.1 hright⟩
  · rintro (rfl | h)
    · rfl
    · rw [bundleText, bundleText, h.currencies_eq, h.items_eq, h.itemUuids_eq, h.petId_eq,
        h.instancesText_eq]

/-! ## Lines -/

theorem formatUint_noLF (n : Nat) : '\n' ∉ formatUint n :=
  fun h => absurd (isDigit_of_mem_formatUint _ h) (by decide)

theorem formatInt_noLF (n : Int) : '\n' ∉ formatInt n := by
  rw [formatInt]
  split
  · exact fun h => (mem_cons.1 h).elim (by decide) (formatUint_noLF _)
  · exact formatUint_noLF _

theorem RPC.string_noLF : ∀ rpc : RPC, '\n' ∉ rpc.string := by
  intro rpc
  cases rpc <;> decide

theorem instancesText_noLF (bundle : Bundle) : '\n' ∉ instancesText bundle := by
  have hhex : ∀ bs : Bytes, '\n' ∉ hex bs :=
    fun bs h => (inside_of_isHexDigit (isHexDigit_of_mem_hex _ h)).2 rfl
  have hpet : '\n' ∉ petText bundle.petInstance := by
    cases bundle.petInstance with
    | none => simp [petText]
    | some pet => exact hhex _
  rw [instancesText]
  split
  · simp [hhex, hpet]
  · simp

theorem bundleText_noLF (bundle : Bundle) : '\n' ∉ bundleText bundle := by
  have hjoin : ∀ {β : Type} (word : β → Text) (xs : List β), (∀ x, NumberWord (word x)) →
      '\n' ∉ [','].intercalate (xs.map word) :=
    fun _ _ hword h => (inside_of_mem_join hword _ h).2 rfl
  have hcurrencies := hjoin currencyWord bundle.currencies fun _ => numberWord_pair _ _
  have hitems := hjoin itemWord bundle.items fun _ => numberWord_pair _ _
  have huuids := hjoin formatUint bundle.itemUuids numberWord_formatUint
  simp [bundleText, hcurrencies, hitems, huuids, formatUint_noLF, instancesText_noLF]

/-- Two requests for methods agree in every line but that of the bundle. -/
structure SameHeader (rpc rpc' : RPC) (a b : Request) : Prop where
  caller_eq : a.getAuth.caller = b.getAuth.caller
  rpc_eq : rpc = rpc'
  playerId_eq : a.playerId = b.playerId
  stream_eq : a.stream = b.stream
  streamEpoch_eq : a.streamEpoch = b.streamEpoch
  seq_eq : a.seq = b.seq
  correlationId_eq : a.correlationId = b.correlationId
  txType_eq : a.txType = b.txType
  timestampMs_eq : a.getAuth.timestampMs = b.getAuth.timestampMs

def SameSigned (rpc rpc' : RPC) (a b : Request) : Prop :=
  SameHeader rpc rpc' a b ∧ a.getBundle = b.getBundle

/-- The lines of the text, to be cut at the last line feed. -/
theorem canonical_lines (rpc : RPC) (req : Request) (tsMs : Nat) :
    canonical rpc req tsMs =
      (((((((((canonicalVersion ++ '\n' :: req.getAuth.caller) ++ '\n' :: rpc.string) ++
        '\n' :: formatUint req.playerId) ++ '\n' :: formatInt req.stream) ++
        '\n' :: formatUint req.streamEpoch) ++ '\n' :: formatUint req.seq) ++
        '\n' :: formatUint req.correlationId) ++ '\n' :: formatUint req.txType) ++
        '\n' :: bundleText req.getBundle) ++ '\n' :: formatUint tsMs := by
  simp [canonical, writeBundleCanonical_eq]

theorem canonical_eq_iff {rpc rpc' : RPC} {a b : Request} :
    canonical rpc a a.getAuth.timestampMs = canonical rpc' b b.getAuth.timestampMs ↔
      SameHeader rpc rpc' a b ∧
        (a.getBundle = b.getBundle ∨ Confusable a.getBundle b.getBundle) := by
  rw [canonical_lines, canonical_lines]
  constructor
  · intro h
    obtain ⟨h, hts⟩ := append_cons_inj_last (formatUint_noLF _) (formatUint_noLF _) h
    obtain ⟨h, hbundle⟩ := append_cons_inj_last (bundleText_noLF _) (bundleText_noLF _) h
    obtain ⟨h, htx⟩ := append_cons_inj_last (formatUint_noLF _) (formatUint_noLF _) h
    obtain ⟨h, hcorr⟩ := append_cons_inj_last (formatUint_noLF _) (formatUint_noLF _) h
    obtain ⟨h, hseq⟩ := append_cons_inj_last (formatUint_noLF _) (formatUint_noLF _) h
    obtain ⟨h, hepoch⟩ := append_cons_inj_last (formatUint_noLF _) (formatUint_noLF _) h
    obtain ⟨h, hstream⟩ := append_cons_inj_last (formatInt_noLF _) (formatInt_noLF _) h
    obtain ⟨h, hplayer⟩ := append_cons_inj_last (formatUint_noLF _) (formatUint_noLF _) h
    obtain ⟨h, hrpc⟩ := append_cons_inj_last rpc.string_noLF rpc'.string_noLF h
    refine ⟨⟨?_, RPC.string_inj _ _ hrpc, formatUint_inj hplayer, formatInt_inj hstream,
      formatUint_inj hepoch, formatUint_inj hseq, formatUint_inj hcorr, formatUint_inj htx,
      formatUint_inj hts⟩, bundleText_eq_iff.1 hbundle⟩
    exact (cons_eq_cons.1 (append_cancel_left h)).2
  · rintro ⟨hh, hbundle⟩
    rw [hh.caller_eq, hh.rpc_eq, hh.playerId_eq, hh.stream_eq, hh.streamEpoch_eq, hh.seq_eq,
      hh.correlationId_eq, hh.txType_eq, hh.timestampMs_eq, bundleText_eq_iff.2 hbundle]

/-- Every unknown field of the instances has its shortest form. -/
def Request.ShortestUnknowns (r : Request) : Prop :=
  (∀ item ∈ r.getBundle.itemInstances, Shortest item.unknownFields) ∧
    ∀ pet ∈ r.getBundle.petInstance, Shortest pet.unknownFields

/-- The text is unambiguous on every pair of requests but those that agree in everything apart
from an empty pet instance beside item instances; and the scene writes the text of the services
for every request whose unknown fields the runtime leaves as they are. -/
theorem canonical_unambiguous_iff (reencode : Bytes → Bytes)
    (hruntime : ∀ u, Shortest u → reencode u = u) (rpc rpc' : RPC) (a b : Request) :
    ((canonical rpc a a.getAuth.timestampMs = canonical rpc' b b.getAuth.timestampMs →
        SameSigned rpc rpc' a b) ↔
      ¬ (SameHeader rpc rpc' a b ∧ Confusable a.getBundle b.getBundle)) ∧
    (a.ShortestUnknowns →
      assetOpCanonical reencode rpc.string a = canonical rpc a a.getAuth.timestampMs) := by
  refine ⟨?_, fun hshort => assetOpCanonical_eq rpc
    ⟨fun item hitem => hruntime _ (hshort.1 item hitem),
      fun pet hpet => hruntime _ (hshort.2 pet hpet)⟩⟩
  rw [canonical_eq_iff]
  constructor
  · rintro h ⟨hh, hc⟩
    obtain ⟨-, heq⟩ := h ⟨hh, .inr hc⟩
    exact hc.petInstance_ne (by rw [heq])
  · rintro h ⟨hh, heq | hc⟩
    · exact ⟨hh, heq⟩
    · exact absurd ⟨hh, hc⟩ h

/-- A grant of one item instance with these bytes behind its known fields. -/
def grant (unknownFields : Bytes) (hunread : Avoids itemTags unknownFields)
    (hlen : unknownFields.length ≤ 3) : Bundle :=
  ⟨[], [], [], 0, [⟨⟨7, 1, 1, []⟩, unknownFields, hunread, by
    simp [encodeItem, uintField, bytesField, field, varint, maxMessageBytes]
    omega⟩], none⟩

def grantRequest (bundle : Bundle) : Request :=
  ⟨1, 4, 1, 9, 3, some bundle, 1, some ⟨"trade".toList, 1000, []⟩⟩

/-- Field 5 with the number zero, in two bytes and in one. -/
def longZero : Bytes := [40, 128, 0]

def shortZero : Bytes := [40, 0]

def plainGrant : Bundle := grant [] (by simp [Avoids]) (by decide)

def longGrant : Bundle := grant longZero (by simp [Avoids, longZero, itemTags, tag]) (by decide)

def shortGrant : Bundle := grant shortZero (by simp [Avoids, shortZero, itemTags, tag]) (by decide)

/-- A runtime that shortens one field. -/
def shortenZero (u : Bytes) : Bytes := if u = longZero then shortZero else u

theorem shortest_shortZero : Shortest shortZero := by
  have h := Shortest.number 5 0 (by decide) (by decide) .nil
  simpa [varint, shortZero] using h

theorem not_shortest_longZero : ¬ Shortest longZero := by
  have hlabel : ∀ {n : Nat} {s : Bytes}, varint n ++ s = longZero → n = 40 ∧ s = [128, 0] := by
    intro n s h
    exact selfDelimiting_varint (h.trans (by simp [longZero, varint]))
  generalize hu : longZero = u at *
  intro h
  cases h with
  | nil => cases hu
  | number n v _ _ _ =>
    have h := (hlabel rfl).2
    rw [varint] at h
    split at h
    next hlt =>
      have : v = 128 := ofNat_inj (by omega) (by decide) (cons_eq_cons.1 h).1
      omega
    next hge =>
      have hrest : varint (v / 128) ++ _ = varint 0 ++ [] :=
        (cons_eq_cons.1 h).2.trans (by simp [varint])
      have := (selfDelimiting_varint hrest).1
      omega
  | fixed64 n => exact absurd (hlabel rfl).1 (by omega)
  | bytes n => exact absurd (hlabel rfl).1 (by omega)
  | group n => exact absurd (hlabel rfl).1 (by omega)
  | fixed32 n => exact absurd (hlabel rfl).1 (by omega)

theorem shortenZero_eq (u : Bytes) (h : Shortest u) : shortenZero u = u := by
  refine if_neg ?_
  rintro rfl
  exact not_shortest_longZero h

theorem canonical_unambiguous_iff_shortGrant :
    let a := grantRequest shortGrant
    let b := grantRequest plainGrant
    (canonical .credit a 1000 = canonical .credit b 1000 → SameSigned .credit .credit a b) ∧
      assetOpCanonical shortenZero RPC.credit.string a = canonical .credit a 1000 := by
  intro a b
  obtain ⟨hpair, htext⟩ := canonical_unambiguous_iff shortenZero shortenZero_eq .credit .credit a b
  refine ⟨hpair.2 fun h => ?_, htext ⟨?_, ?_⟩⟩
  · have := congrArg (map (·.unknownFields)) h.2.itemInstances_eq
    cases this
  · intro item hitem
    obtain rfl := mem_singleton.1 hitem
    exact shortest_shortZero
  · intro pet hpet
    cases hpet

theorem canonical_confuses_empty_pet :
    (¬ ∀ (rpc rpc' : RPC) (a b : Request),
      canonical rpc a a.getAuth.timestampMs = canonical rpc' b b.getAuth.timestampMs →
        SameSigned rpc rpc' a b) ∧
    ¬ ∀ (rpc : RPC) (a : Request), assetOpCanonical shortenZero rpc.string a =
      canonical rpc a a.getAuth.timestampMs := by
  constructor
  · intro h
    have hsame := h .credit .credit (grantRequest plainGrant)
      (grantRequest { plainGrant with petInstance := some emptyPet })
      (canonical_eq_iff.2 ⟨⟨rfl, rfl, rfl, rfl, rfl, rfl, rfl, rfl, rfl⟩, .inr
        ⟨rfl, rfl, rfl, rfl, rfl, cons_ne_nil _ _, (some_ne_none _).symm,
          fun _ h => absurd h (not_mem_none _), fun _ h => (some.inj h).symm⟩⟩)
    exact absurd (congrArg Bundle.petInstance hsame.2) (some_ne_none _).symm
  · intro h
    have hrewritten : (grantRequest shortGrant).getBundle.Rewritten id :=
      ⟨fun _ _ => rfl, fun _ _ => rfl⟩
    -- the scene's text for the long form is the text for the short one
    have hscene : assetOpCanonical shortenZero RPC.credit.string (grantRequest longGrant) =
        assetOpCanonical id RPC.credit.string (grantRequest shortGrant) := rfl
    have htext := (h .credit (grantRequest longGrant)).symm.trans
      (hscene.trans (assetOpCanonical_eq .credit hrewritten))
    rcases (canonical_eq_iff.1 htext).2 with hbundle | hconf
    · cases congrArg (fun b => b.itemInstances.map (·.unknownFields)) hbundle
    · cases congrArg (map (·.unknownFields)) hconf.itemInstances_eq

end Mmorpg.AssetOp.Wire
