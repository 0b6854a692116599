import Mathlib.Logic.Function.Basic
import Mmorpg.Lib.Run

/-!
# Currencies and debts of a player

`CurrencySystem` (currency_system.cpp): balances in 64-bit slots, and for each currency at most
one debt that gains pay off first (补缴). Gains, costs and the debt operations of the game
masters are translated with their checks; logs and anomaly detection are left out.

**Conservation** (`conserved_iff`): a call that fails leaves every balance and debt as it was, a
cost is taken exactly, a debt operation touches only the debt it names, and a gain raises balance
minus outstanding debt by its amount exactly if what an active debt leaves of it fits into the
slot. `AddCurrency` does not check that, so a balance near 2^64 wraps around.
-/

namespace Mmorpg.Currency

open Option Function

inductive Result where
  | success
  | invalidParameter
  | assetFrozen
  | assetBlocked
  | assetCurrencyInsufficient
  | featureUnavailable
deriving DecidableEq, Repr

/-- `kCurrencyMax`: gold, diamonds and bound diamonds. -/
def kCurrencyMax : Nat := 3

def isKnownCurrencyType (type : UInt32) : Bool := type.toNat < kCurrencyMax

structure CurrencyDebt where
  owed : UInt64
  paid : UInt64
  frozen : Bool
  expiresAt : UInt64
  reason : String
  gmOperator : String
  createdAt : UInt64
  unknownFields : List UInt8
deriving DecidableEq

def CurrencyDebt.empty : CurrencyDebt := ⟨0, 0, false, 0, "", "", 0, []⟩

def CurrencyDebt.remaining (debt : CurrencyDebt) : UInt64 :=
  if debt.owed > debt.paid then debt.owed - debt.paid else 0

def remainingOf (debt : Option CurrencyDebt) : UInt64 := (debt.map (·.remaining)).getD 0

/-- The stored component, without the debts, which `PlayerCurrencyComp` holds. -/
structure CurrencyComp where
  values : List UInt64
  blockedTypes : List UInt32

structure PlayerCurrencyComp where
  debts : UInt32 → Option CurrencyDebt
  dirty : Bool

structure Wallet where
  currency : Option CurrencyComp
  comp : Option PlayerCurrencyComp

structure Env where
  isCrossZoneFrozen : Bool
  isGainBlocked : Bool
  nowSecondsUTC : UInt64
  carriesNewerVersionFields : List UInt8 → Bool

def ensureCurrencySlots (currency : CurrencyComp) : CurrencyComp :=
  { currency with
    values := currency.values ++ List.replicate (kCurrencyMax - currency.values.length) 0 }

def CurrencyComp.balance (currency : CurrencyComp) (type : UInt32) : UInt64 :=
  currency.values.getD type.toNat 0

def CurrencyComp.setBalance (currency : CurrencyComp) (type : UInt32) (v : UInt64) :
    CurrencyComp :=
  { currency with values := currency.values.set type.toNat v }

namespace Wallet

/-- `ResolveCurrencyField`: the component with all slots, if the field exists. -/
def resolveCurrencyField (w : Wallet) (type : UInt32) : Option CurrencyComp :=
  if !isKnownCurrencyType type then none else w.currency.map ensureCurrencySlots

def isCurrencyBlocked (w : Wallet) (type : UInt32) : Bool :=
  w.currency.any (·.blockedTypes.contains type)

def debtCarriesUnknownFields (env : Env) (w : Wallet) (type : UInt32) : Bool :=
  isKnownCurrencyType type &&
    (w.comp.bind (·.debts type)).any (env.carriesNewerVersionFields ·.unknownFields)

end Wallet

/-- The part of `AddCurrency` that pays the debt: the debts and what is left of the gain. -/
def repay (env : Env) (debts : UInt32 → Option CurrencyDebt) (type : UInt32) (gain : UInt64) :
    (UInt32 → Option CurrencyDebt) × UInt64 :=
  match debts type with
  | none => (debts, gain)
  | some debt =>
    let expired := debt.expiresAt > 0 && env.nowSecondsUTC ≥ debt.expiresAt
    if debt.remaining > 0 && !debt.frozen && !expired then
      let deduct := if debt.remaining < gain then debt.remaining else gain
      let debt := { debt with paid := debt.paid + deduct }
      (update debts type (if debt.remaining ≤ 0 then none else some debt), gain - deduct)
    else (debts, gain)

def addCurrency (env : Env) (w : Wallet) (type : UInt32) (amount : Int64) : Result × Wallet :=
  if amount ≤ 0 then (.invalidParameter, w)
  else if !isKnownCurrencyType type then (.invalidParameter, w)
  else if env.isCrossZoneFrozen then (.assetFrozen, w)
  else if env.isGainBlocked then (.assetBlocked, w)
  else if w.isCurrencyBlocked type then (.assetBlocked, w)
  else
    match w.comp, w.resolveCurrencyField type with
    | some comp, some currency =>
      let (debts, gain) := repay env comp.debts type amount.toUInt64
      let currency := if gain > 0 then currency.setBalance type (currency.balance type + gain)
        else currency
      (.success, ⟨some currency, some ⟨debts, true⟩⟩)
    | _, _ => (.invalidParameter, w)

/-- `DeductCurrency`: the slots are there even after a refusal. -/
def deductCurrency (env : Env) (w : Wallet) (type : UInt32) (amount : Int64) : Result × Wallet :=
  if amount ≤ 0 then (.invalidParameter, w)
  else if !isKnownCurrencyType type then (.invalidParameter, w)
  else if env.isCrossZoneFrozen then (.assetFrozen, w)
  else
    match w.comp, w.resolveCurrencyField type with
    | some comp, some currency =>
      let cost := amount.toUInt64
      if currency.balance type < cost then
        (.assetCurrencyInsufficient, { w with currency := some currency })
      else
        (.success, ⟨some (currency.setBalance type (currency.balance type - cost)),
          some { comp with dirty := true }⟩)
    | _, _ => (.invalidParameter, w)

def PlayerCurrencyComp.setDebt (comp : PlayerCurrencyComp) (type : UInt32)
    (debt : Option CurrencyDebt) : PlayerCurrencyComp :=
  { comp with debts := update comp.debts type debt }

def maxUInt64 : UInt64 := 18446744073709551615

/-- `AttachDebt`. The access `debts[type]` creates the entry before the amount is checked. -/
def attachDebt (env : Env) (w : Wallet) (type : UInt32) (oweAmount : Int64)
    (reason gmOperator : String) (expiresAt : UInt64) : Result × Wallet :=
  if oweAmount ≤ 0 then (.invalidParameter, w)
  else if !isKnownCurrencyType type then (.invalidParameter, w)
  else
    match w.comp with
    | none => (.invalidParameter, w)
    | some comp =>
      if w.debtCarriesUnknownFields env type then (.featureUnavailable, w)
      else
        let debtToAdd := oweAmount.toUInt64
        let debt := (comp.debts type).getD .empty
        if debt.owed > maxUInt64 - debtToAdd then
          (.invalidParameter, { w with comp := some (comp.setDebt type (some debt)) })
        else
          let debt := { debt with
            owed := debt.owed + debtToAdd
            reason := reason
            gmOperator := gmOperator
            expiresAt := expiresAt
            createdAt := if debt.createdAt = 0 then env.nowSecondsUTC else debt.createdAt }
          (.success, { w with comp := some { comp.setDebt type (some debt) with dirty := true } })

/-- `WaiveDebt`: the amount that was written off. -/
def waiveDebt (w : Wallet) (type : UInt32) : UInt64 × Wallet :=
  match w.comp with
  | none => (0, w)
  | some comp =>
    match comp.debts type with
    | none => (0, w)
    | some debt =>
      (debt.remaining, { w with comp := some { comp.setDebt type none with dirty := true } })

/-- The new `owed` of `AdjustDebt`, if it does not overflow. It never falls below `paid`. -/
def CurrencyDebt.adjust (debt : CurrencyDebt) (delta : Int64) : Option CurrencyDebt :=
  if delta > 0 then
    let increase := delta.toUInt64
    if debt.owed > maxUInt64 - increase then none
    else some { debt with owed := debt.owed + increase }
  else
    let decrease :=
      if delta = Int64.minValue then Int64.maxValue.toUInt64 + 1 else (-delta).toUInt64
    if decrease ≥ debt.owed || debt.owed - decrease < debt.paid then
      some { debt with owed := debt.paid }
    else some { debt with owed := debt.owed - decrease }

/-- `AdjustDebt`. The code returns nothing: the branches that log an error and return are the
failures. -/
def adjustDebt (env : Env) (w : Wallet) (type : UInt32) (delta : Int64)
    (gmOperator reason : String) : Result × Wallet :=
  match w.comp with
  | none => (.invalidParameter, w)
  | some comp =>
    match comp.debts type with
    | none =>
      if delta ≤ 0 then (.success, w)
      else
        let debt := { CurrencyDebt.empty with
          owed := delta.toUInt64
          createdAt := env.nowSecondsUTC
          reason := reason
          gmOperator := gmOperator }
        (.success, { w with comp := some { comp.setDebt type (some debt) with dirty := true } })
    | some debt =>
      match debt.adjust delta with
      | none => (.invalidParameter, w)
      | some debt =>
        let debt := { debt with
          gmOperator := if gmOperator.isEmpty then debt.gmOperator else gmOperator
          reason := if reason.isEmpty then debt.reason else reason }
        (.success, { w with comp := some { comp.setDebt type (some debt) with dirty := true } })

def freezeDebt (w : Wallet) (type : UInt32) (freeze : Bool) (gmOperator : String) : Wallet :=
  match w.comp with
  | none => w
  | some comp =>
    match comp.debts type with
    | none => w
    | some debt =>
      let debt := { debt with
        frozen := freeze
        gmOperator := if gmOperator.isEmpty then debt.gmOperator else gmOperator }
      { w with comp := some { comp.setDebt type (some debt) with dirty := true } }

/-! ## Calls -/

inductive Call where
  | addCurrency (env : Env) (type : UInt32) (amount : Int64)
  | deductCurrency (env : Env) (type : UInt32) (amount : Int64)
  | attachDebt (env : Env) (type : UInt32) (oweAmount : Int64) (reason gmOperator : String)
      (expiresAt : UInt64)
  | waiveDebt (type : UInt32)
  | adjustDebt (env : Env) (type : UInt32) (delta : Int64) (gmOperator reason : String)
  | freezeDebt (type : UInt32) (freeze : Bool) (gmOperator : String)

namespace Call

def type : Call → UInt32
  | .addCurrency _ type _ => type
  | .deductCurrency _ type _ => type
  | .attachDebt _ type _ _ _ _ => type
  | .waiveDebt type => type
  | .adjustDebt _ type _ _ _ => type
  | .freezeDebt type _ _ => type

def perform (w : Wallet) : Call → Result × Wallet
  | .addCurrency env type amount => Currency.addCurrency env w type amount
  | .deductCurrency env type amount => Currency.deductCurrency env w type amount
  | .attachDebt env type oweAmount reason gmOperator expiresAt =>
    Currency.attachDebt env w type oweAmount reason gmOperator expiresAt
  | .waiveDebt type => (.success, (Currency.waiveDebt w type).2)
  | .adjustDebt env type delta gmOperator reason =>
    Currency.adjustDebt env w type delta gmOperator reason
  | .freezeDebt type freeze gmOperator => (.success, Currency.freezeDebt w type freeze gmOperator)

def step (w : Wallet) (call : Call) : Wallet := (call.perform w).2

end Call

namespace Wallet

def balance (w : Wallet) (type : UInt32) : UInt64 := (w.currency.map (·.balance type)).getD 0

def debt (w : Wallet) (type : UInt32) : Option CurrencyDebt := w.comp.bind (·.debts type)

def outstanding (w : Wallet) (type : UInt32) : UInt64 := remainingOf (w.debt type)

structure Unchanged (w w' : Wallet) : Prop where
  balance : ∀ t, w'.balance t = w.balance t
  debt : ∀ t, w'.debt t = w.debt t
  blocked : w'.currency.map (·.blockedTypes) = w.currency.map (·.blockedTypes)
  dirty : w'.comp.map (·.dirty) = w.comp.map (·.dirty)

end Wallet

/-- What a successful call has to do to the balances and debts. -/
def Call.Exact (w w' : Wallet) : Call → Prop
  | .addCurrency _ type amount =>
    (w'.balance type).toNat - ((w'.outstanding type).toNat : Int) =
        (w.balance type).toNat - ((w.outstanding type).toNat : Int) + amount.toInt ∧
      w.balance type ≤ w'.balance type ∧
      ∀ t, t ≠ type → w'.balance t = w.balance t ∧ w'.debt t = w.debt t
  | .deductCurrency _ type amount =>
    ((w'.balance type).toNat : Int) = (w.balance type).toNat - amount.toInt ∧
      w'.debt = w.debt ∧ ∀ t, t ≠ type → w'.balance t = w.balance t
  | call => w'.balance = w.balance ∧ ∀ t, t ≠ call.type → w'.debt t = w.debt t

/-- The call does what it should do if it succeeds, and nothing if it fails. -/
def Call.Conserved (w : Wallet) (call : Call) : Prop :=
  if (call.perform w).1 = .success then call.Exact w (call.perform w).2
  else w.Unchanged (call.perform w).2

/-- What a gain pays of the debt: nothing of one that is frozen or expired. -/
def payable (env : Env) : Option CurrencyDebt → Nat
  | none => 0
  | some debt =>
    if debt.frozen = true ∨ 0 < debt.expiresAt ∧ debt.expiresAt ≤ env.nowSecondsUTC then 0
    else debt.owed.toNat - debt.paid.toNat

/-- The gains that `AddCurrency` does not refuse. -/
structure Wallet.Takes (env : Env) (w : Wallet) (type : UInt32) (amount : Int64) : Prop where
  positive : 0 < amount
  known : type.toNat < kCurrencyMax
  free : env.isCrossZoneFrozen = false ∧ env.isGainBlocked = false
  unblocked : w.isCurrencyBlocked type = false
  stored : w.comp.isSome = true ∧ w.currency.isSome = true

/-- What a gain leaves for the balance fits into its slot. -/
def Call.Fits (w : Wallet) : Call → Prop
  | .addCurrency env type amount => w.Takes env type amount →
      (w.balance type).toNat + (amount.toInt.toNat -
        min amount.toInt.toNat (payable env (w.debt type))) < 18446744073709551616
  | _ => True

/-! ## Slots and amounts -/

variable {type : UInt32}

namespace CurrencyComp

theorem balance_ensureCurrencySlots (currency : CurrencyComp) (t : UInt32) :
    (ensureCurrencySlots currency).balance t = currency.balance t := by
  simp only [balance, ensureCurrencySlots, List.getD_eq_getElem?_getD, List.getElem?_append,
    List.getElem?_replicate]
  split
  · rfl
  next h =>
    rw [List.getElem?_eq_none (by omega)]
    split <;> rfl

theorem balance_setBalance {currency : CurrencyComp} (hlen : type.toNat < currency.values.length)
    (v : UInt64) (t : UInt32) :
    (currency.setBalance type v).balance t = if t = type then v else currency.balance t := by
  simp only [balance, setBalance]
  by_cases ht : t = type
  · subst ht
    simp [hlen]
  · have hne : type.toNat ≠ t.toNat := fun e => ht (UInt32.toNat_inj.1 e.symm)
    simp [ht, hne]

end CurrencyComp

theorem toNat_toUInt64 {amount : Int64} (h : ¬ amount ≤ 0) :
    (amount.toUInt64.toNat : Int) = amount.toInt := by
  have hpos : 0 < amount := Int64.not_le.1 h
  have hle : 0 ≤ amount := Int64.le_of_lt hpos
  rw [Int64.toNat_toUInt64_of_le hle]
  have := Int64.le_iff_toInt_le.1 hle
  exact Int.toNat_of_nonneg this

variable (debt : CurrencyDebt)

theorem CurrencyDebt.toNat_remaining :
    debt.remaining.toNat = debt.owed.toNat - debt.paid.toNat := by
  unfold remaining
  split
  next h => exact UInt64.toNat_sub_of_le _ _ (UInt64.le_of_lt h)
  next h =>
    have := UInt64.not_lt.1 h
    rw [UInt64.le_iff_toNat_le] at this
    simp [Nat.sub_eq_zero_of_le this]

theorem remainingOf_if :
    remainingOf (if debt.remaining ≤ 0 then none else some debt) = debt.remaining := by
  split
  next h => exact (UInt64.le_zero_iff.1 h).symm
  · rfl

/-- A repayment moves from the gain to the debt, and no other debt is touched. -/
theorem repay_spec (env : Env) (debts : UInt32 → Option CurrencyDebt) (type : UInt32)
    (gain : UInt64) :
    (repay env debts type gain).2.toNat = gain.toNat - min gain.toNat (payable env (debts type)) ∧
      (repay env debts type gain).2.toNat + (remainingOf (debts type)).toNat =
        gain.toNat + (remainingOf ((repay env debts type gain).1 type)).toNat ∧
      ∀ t, t ≠ type → (repay env debts type gain).1 t = debts t := by
  unfold repay
  split
  next hnone => exact ⟨by simp [hnone, payable], rfl, fun _ _ => rfl⟩
  rename_i debt hdebt
  have hrem := debt.toNat_remaining
  have hpayable : payable env (debts type) =
      if debt.frozen || (debt.expiresAt > 0 && env.nowSecondsUTC ≥ debt.expiresAt) then 0
      else debt.remaining.toNat := by simp [hdebt, payable, hrem]
  dsimp only
  split
  next hactive =>
    simp only [Bool.and_eq_true, Bool.not_eq_true'] at hactive
    rw [hactive.1.2, hactive.2, Bool.or_self, if_neg Bool.false_ne_true] at hpayable
    generalize hd : (if debt.remaining < gain then debt.remaining else gain) = deduct
    have hmin : deduct.toNat = min gain.toNat debt.remaining.toNat := by
      rw [← hd]
      split
      next h => exact (Nat.min_eq_right (Nat.le_of_lt (UInt64.lt_iff_toNat_lt.1 h))).symm
      next h => exact (Nat.min_eq_left (UInt64.le_iff_toNat_le.1 (UInt64.not_lt.1 h))).symm
    have howed := debt.owed.toNat_lt
    have hpaid : (debt.paid + deduct).toNat = debt.paid.toNat + deduct.toNat := by
      by_cases hz : deduct.toNat = 0
      · have : deduct = 0 := UInt64.toNat_inj.1 hz
        simp [this]
      · rw [UInt64.toNat_add, Nat.mod_eq_of_lt (by omega)]
    have hleft : (gain - deduct).toNat = gain.toNat - deduct.toNat :=
      UInt64.toNat_sub_of_le _ _ (UInt64.le_iff_toNat_le.2 (hmin ▸ Nat.min_le_left _ _))
    refine ⟨by rw [hleft, hmin, hpayable], ?_, fun t ht => update_of_ne ht _ _⟩
    dsimp only
    rw [update_self, remainingOf_if, CurrencyDebt.toNat_remaining, hdebt]
    simp only [remainingOf, map_some, getD_some]
    omega
  next hidle =>
    refine ⟨?_, rfl, fun _ _ => rfl⟩
    have hnone : payable env (debts type) = 0 := by
      rw [hpayable]
      split
      · rfl
      next hactive =>
        simp only [Bool.not_eq_true, Bool.or_eq_false_iff] at hactive
        simp only [hactive, Bool.not_false, Bool.and_true, decide_eq_true_eq] at hidle
        rw [UInt64.le_zero_iff.1 (UInt64.not_lt.1 hidle)]
        rfl
    rw [hnone, Nat.min_zero, Nat.sub_zero]

/-! ## What a call does -/

variable {c : CurrencyComp}

theorem resolveCurrencyField_eq_some {w : Wallet} (h : w.resolveCurrencyField type = some c) :
    ∃ c₀, w.currency = some c₀ ∧ c = ensureCurrencySlots c₀ ∧ type.toNat < c.values.length := by
  unfold Wallet.resolveCurrencyField at h
  split at h
  · cases h
  rename_i hknown
  obtain ⟨c₀, hc₀, rfl⟩ := map_eq_some_iff.1 h
  refine ⟨c₀, hc₀, rfl, ?_⟩
  have hlt : type.toNat < kCurrencyMax := by simpa [isKnownCurrencyType] using hknown
  simp only [ensureCurrencySlots, List.length_append, List.length_replicate]
  omega

/-- A gain is refused, or is credited after the repayment. -/
theorem addCurrency_cases (env : Env) (w : Wallet) (type : UInt32) (amount : Int64) :
    (¬ w.Takes env type amount ∧ ∃ r, r ≠ .success ∧ addCurrency env w type amount = (r, w)) ∨
      w.Takes env type amount ∧
      ∃ comp c, w.comp = some comp ∧ w.resolveCurrencyField type = some c ∧
        addCurrency env w type amount =
          (.success, ⟨some (if (repay env comp.debts type amount.toUInt64).2 > 0 then
              c.setBalance type (c.balance type + (repay env comp.debts type amount.toUInt64).2)
            else c), some ⟨(repay env comp.debts type amount.toUInt64).1, true⟩⟩) := by
  unfold addCurrency
  split
  next hpos => exact .inl ⟨fun h => Int64.not_lt.2 hpos h.positive, _, by decide, rfl⟩
  next hpos =>
  split
  next hknown => exact .inl ⟨fun h => by simp [isKnownCurrencyType, h.known] at hknown, _,
      by decide, rfl⟩
  next hknown =>
  split
  next hfrozen => exact .inl ⟨fun h => by simp [h.free.1] at hfrozen, _, by decide, rfl⟩
  next hfrozen =>
  split
  next hgain => exact .inl ⟨fun h => by simp [h.free.2] at hgain, _, by decide, rfl⟩
  next hgain =>
  split
  next hblocked => exact .inl ⟨fun h => by simp [h.unblocked] at hblocked, _, by decide, rfl⟩
  next hblocked =>
  have hknown : isKnownCurrencyType type = true := by simpa using hknown
  split
  next comp c hcomp hc =>
    obtain ⟨c₀, hc₀, -, -⟩ := resolveCurrencyField_eq_some hc
    exact .inr ⟨⟨Int64.not_le.1 hpos, of_decide_eq_true hknown, by simp_all, by simp_all,
      by simp [hcomp, hc₀]⟩, comp, c, hcomp, hc, rfl⟩
  next hmissing =>
    refine .inl ⟨fun h => ?_, _, by decide, rfl⟩
    obtain ⟨comp, hcomp⟩ := isSome_iff_exists.1 h.stored.1
    obtain ⟨c, hc⟩ := isSome_iff_exists.1 h.stored.2
    exact hmissing comp _ hcomp (by simp [Wallet.resolveCurrencyField, hknown, hc]; rfl)

/-- A cost fails, perhaps after the slots were made, or is taken from a sufficient balance. -/
theorem deductCurrency_cases (env : Env) (w : Wallet) (type : UInt32) (amount : Int64) :
    (∃ r, r ≠ .success ∧ (deductCurrency env w type amount = (r, w) ∨
      ∃ c, w.resolveCurrencyField type = some c ∧
        deductCurrency env w type amount = (r, { w with currency := some c }))) ∨
      ∃ comp c, ¬ amount ≤ 0 ∧ w.comp = some comp ∧ w.resolveCurrencyField type = some c ∧
        amount.toUInt64 ≤ c.balance type ∧ deductCurrency env w type amount =
          (.success, ⟨some (c.setBalance type (c.balance type - amount.toUInt64)),
            some { comp with dirty := true }⟩) := by
  unfold deductCurrency
  split
  · exact .inl ⟨_, by decide, .inl rfl⟩
  next hpos =>
  split
  · exact .inl ⟨_, by decide, .inl rfl⟩
  split
  · exact .inl ⟨_, by decide, .inl rfl⟩
  split
  next comp c hcomp hc =>
    dsimp only
    split
    · exact .inl ⟨_, by decide, .inr ⟨c, hc, rfl⟩⟩
    next hle => exact .inr ⟨comp, c, hpos, hcomp, hc, UInt64.not_lt.1 hle, rfl⟩
  · exact .inl ⟨_, by decide, .inl rfl⟩

namespace Wallet

variable {w w' : Wallet}

theorem Unchanged.refl (w : Wallet) : w.Unchanged w :=
  ⟨fun _ => rfl, fun _ => rfl, rfl, rfl⟩

theorem balance_of_resolve (h : w.resolveCurrencyField type = some c) (t : UInt32) :
    c.balance t = w.balance t := by
  obtain ⟨c₀, hc₀, rfl, -⟩ := resolveCurrencyField_eq_some h
  simp [balance, hc₀, CurrencyComp.balance_ensureCurrencySlots]

theorem Unchanged.resolve (h : w.resolveCurrencyField type = some c) :
    w.Unchanged { w with currency := some c } := by
  refine ⟨balance_of_resolve h, fun _ => rfl, ?_, rfl⟩
  obtain ⟨c₀, hc₀, rfl, -⟩ := resolveCurrencyField_eq_some h
  simp [hc₀, ensureCurrencySlots]

end Wallet

namespace Call

variable (w : Wallet) {call : Call}

theorem conserved_of_fail {w : Wallet} (h : (call.perform w).1 ≠ .success)
    (hsame : w.Unchanged (call.perform w).2) : call.Conserved w := by
  rw [Conserved, if_neg h]
  exact hsame

theorem conserved_of_success {w : Wallet} (h : (call.perform w).1 = .success)
    (hexact : call.Exact w (call.perform w).2) : call.Conserved w := by
  rw [Conserved, if_pos h]
  exact hexact

variable (env : Env)

theorem addCurrency_conserved_iff (type : UInt32) (amount : Int64) :
    (addCurrency env type amount).Conserved w ↔ (addCurrency env type amount).Fits w := by
  rcases addCurrency_cases env w type amount with
    ⟨hnot, r, hr, heq⟩ | ⟨htakes, comp, c, hcomp, hc, heq⟩
  · simp only [Conserved, Fits, perform, heq, hr, hnot, false_implies, iff_true]
    exact .refl w
  generalize hg : repay env comp.debts type amount.toUInt64 = paid at heq
  obtain ⟨-, -, -, hlen⟩ := resolveCurrencyField_eq_some hc
  obtain ⟨hleft, hmoved, hothers⟩ := repay_spec env comp.debts type amount.toUInt64
  rw [hg] at hleft hmoved hothers
  have hamount := toNat_toUInt64 (Int64.not_le.2 htakes.positive)
  have hdebt : ∀ t, w.debt t = comp.debts t := fun t => by simp [Wallet.debt, hcomp]
  have hnat : amount.toInt.toNat = amount.toUInt64.toNat := by rw [← hamount, Int.toNat_natCast]
  simp only [Conserved, Fits, perform, heq, htakes, true_implies, hdebt, hnat, ← hleft]
  generalize hw' : Wallet.mk _ _ = w'
  have hdebt' : ∀ t, w'.debt t = paid.1 t := fun t => by simp [← hw', Wallet.debt]
  have hbalance : ∀ t, w'.balance t =
      if t = type then w.balance type + paid.2 else w.balance t := by
    intro t
    rw [← hw']
    simp only [Wallet.balance, map_some]
    split
    · rw [CurrencyComp.balance_setBalance hlen, Wallet.balance_of_resolve hc,
      Wallet.balance_of_resolve hc]; rfl
    rename_i hzero
    have : paid.2 = 0 := UInt64.le_zero_iff.1 (UInt64.not_lt.1 hzero)
    rw [Wallet.balance_of_resolve hc, this, UInt64.add_zero]
    split
    next ht => rw [ht]; rfl
    · rfl
  have hsum : (w'.balance type).toNat =
      ((w.balance type).toNat + paid.2.toNat) % 18446744073709551616 := by
    rw [hbalance, if_pos rfl, UInt64.toNat_add]
  simp only [Exact, Wallet.outstanding, hdebt, hdebt', UInt64.le_iff_toNat_le]
  constructor
  · rintro ⟨hexact, -, -⟩
    omega
  · intro hfits
    refine ⟨by omega, by omega, fun t ht => ⟨?_, hothers t ht⟩⟩
    rw [hbalance, if_neg ht]

theorem deductCurrency_conserved (type : UInt32) (amount : Int64) :
    (deductCurrency env type amount).Conserved w := by
  rcases deductCurrency_cases env w type amount with
    ⟨r, hr, heq | ⟨c, hc, heq⟩⟩ | ⟨comp, c, hpos, hcomp, hc, hle, heq⟩
  · refine conserved_of_fail ?_ ?_ <;> simp only [perform, heq]
    · exact hr
    · exact .refl w
  · refine conserved_of_fail ?_ ?_ <;> simp only [perform, heq]
    · exact hr
    · exact .resolve hc
  · obtain ⟨-, -, -, hlen⟩ := resolveCurrencyField_eq_some hc
    have hbalance : ∀ t, ((deductCurrency env type amount).perform w).2.balance t =
        if t = type then w.balance type - amount.toUInt64 else w.balance t := fun t => by
      simp only [perform, heq, Wallet.balance, map_some]
      rw [CurrencyComp.balance_setBalance hlen, Wallet.balance_of_resolve hc,
        Wallet.balance_of_resolve hc]
      rfl
    refine conserved_of_success (by simp only [perform, heq]) ⟨?_, ?_, fun t ht => ?_⟩
    · rw [Wallet.balance_of_resolve hc, UInt64.le_iff_toNat_le] at hle
      rw [hbalance, if_pos rfl, UInt64.toNat_sub_of_le _ _ (UInt64.le_iff_toNat_le.2 hle),
        ← toNat_toUInt64 hpos]
      omega
    · funext t
      simp [perform, heq, Wallet.debt, hcomp]
    · rw [hbalance, if_neg ht]

/-- A debt operation does nothing or replaces the debt it names. -/
theorem conserved_of_debt {w : Wallet}
    (hexact : ∀ w', w'.balance = w.balance → (∀ t, t ≠ call.type → w'.debt t = w.debt t) →
      call.Exact w w')
    (h : (∃ r, call.perform w = (r, w)) ∨ ∃ comp debt, w.comp = some comp ∧
      call.perform w = (.success,
        { w with comp := some { comp.setDebt call.type debt with dirty := true } })) :
    call.Conserved w := by
  rcases h with ⟨r, h⟩ | ⟨comp, debt, hcomp, h⟩
  · rw [Conserved, h]
    split
    · exact hexact w rfl fun _ _ => rfl
    · exact .refl w
  · rw [Conserved, h]
    refine hexact _ rfl fun t ht => ?_
    simp [Wallet.debt, hcomp, PlayerCurrencyComp.setDebt, update_of_ne ht]

theorem attachDebt_conserved (type : UInt32) (oweAmount : Int64) (reason gmOperator : String)
    (expiresAt : UInt64) :
    (attachDebt env type oweAmount reason gmOperator expiresAt).Conserved w := by
  refine conserved_of_debt (fun w' hb hd => ⟨hb, hd⟩) ?_
  simp only [perform, Currency.attachDebt]
  split
  · exact .inl ⟨_, rfl⟩
  split
  · exact .inl ⟨_, rfl⟩
  split
  · exact .inl ⟨_, rfl⟩
  next comp hcomp =>
  split
  · exact .inl ⟨_, rfl⟩
  split
  next hover =>
    -- a new entry has room for every amount, so the entry that is set again was there
    refine .inl ⟨.invalidParameter, ?_⟩
    cases hdebt : comp.debts type with
    | none =>
      rw [hdebt] at hover
      exact absurd hover (UInt64.not_lt.2 UInt64.zero_le)
    | some debt =>
      have hsame : comp.setDebt type (some debt) = comp := by
        simp [PlayerCurrencyComp.setDebt, ← hdebt]
      rw [getD_some, hsame, ← hcomp]
  · exact .inr ⟨comp, _, hcomp, rfl⟩

theorem waiveDebt_conserved (type : UInt32) : (waiveDebt type).Conserved w := by
  refine conserved_of_debt (fun w' hb hd => ⟨hb, hd⟩) ?_
  simp only [perform, Currency.waiveDebt]
  split
  · exact .inl ⟨_, rfl⟩
  next comp hcomp =>
  split
  · exact .inl ⟨_, rfl⟩
  · exact .inr ⟨comp, none, hcomp, rfl⟩

theorem adjustDebt_conserved (type : UInt32) (delta : Int64) (gmOperator reason : String) :
    (adjustDebt env type delta gmOperator reason).Conserved w := by
  refine conserved_of_debt (fun w' hb hd => ⟨hb, hd⟩) ?_
  simp only [perform, Currency.adjustDebt]
  split
  · exact .inl ⟨_, rfl⟩
  next comp hcomp =>
  split
  · split
    · exact .inl ⟨_, rfl⟩
    · exact .inr ⟨comp, _, hcomp, rfl⟩
  · split
    · exact .inl ⟨_, rfl⟩
    · exact .inr ⟨comp, _, hcomp, rfl⟩

theorem freezeDebt_conserved (type : UInt32) (freeze : Bool) (gmOperator : String) :
    (freezeDebt type freeze gmOperator).Conserved w := by
  refine conserved_of_debt (fun w' hb hd => ⟨hb, hd⟩) ?_
  simp only [perform, Currency.freezeDebt]
  split
  · exact .inl ⟨_, rfl⟩
  next comp hcomp =>
  split
  · exact .inl ⟨_, rfl⟩
  · exact .inr ⟨comp, _, hcomp, rfl⟩

/-- **Conservation of one call**: it can only fail to be exact as a gain that does not fit. -/
theorem conserved_iff (call : Call) : call.Conserved w ↔ call.Fits w := by
  cases call with
  | addCurrency env type amount => exact addCurrency_conserved_iff w env type amount
  | deductCurrency env type amount => exact iff_of_true (deductCurrency_conserved w ..) trivial
  | attachDebt => exact iff_of_true (attachDebt_conserved w ..) trivial
  | waiveDebt => exact iff_of_true (waiveDebt_conserved w ..) trivial
  | adjustDebt => exact iff_of_true (adjustDebt_conserved w ..) trivial
  | freezeDebt => exact iff_of_true (freezeDebt_conserved w ..) trivial

end Call

/-- **Currency and debt are conserved** in a run, call by call, exactly if no gain of it exceeds
the slot of its balance. -/
theorem currency_conserved (w : Wallet) (calls : List Call) :
    Machine.Admits Call.step (fun w call => call.Conserved w) w calls ↔
      Machine.Admits Call.step (fun w call => call.Fits w) w calls := by
  induction calls generalizing w with
  | nil => exact Iff.rfl
  | cons call calls ih => exact and_congr (Call.conserved_iff w call) (ih _)

def quietEnv : Env := ⟨false, false, 0, fun _ => false⟩

def fullWallet : Wallet := ⟨some ⟨[18446744073709551615, 0, 0], []⟩, some ⟨fun _ => none, false⟩⟩

/-- One coin more and the gold is gone. -/
theorem full_slot_wraps :
    (addCurrency quietEnv fullWallet 0 1).1 = .success ∧
      (addCurrency quietEnv fullWallet 0 1).2.balance 0 = 0 ∧
      ¬ ∀ (w : Wallet) (calls : List Call),
        Machine.Admits Call.step (fun w call => call.Conserved w) w calls := by
  refine ⟨by decide, by decide, fun h => ?_⟩
  have hfits := (Call.conserved_iff fullWallet _).1 (h fullWallet [.addCurrency quietEnv 0 1]).1
  exact absurd (hfits ⟨by decide, by decide, ⟨rfl, rfl⟩, rfl, rfl, rfl⟩) (by decide)

end Mmorpg.Currency
