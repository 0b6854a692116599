import Mmorpg.Commerce.Lifecycle

/-!
# Refund decisions

A paid order whose buyer changed hands is refunded: `deliver` stores the decision and answers every
later call for the order from the stored row. The answer is derived from the status column, which a
request to cancel overwrites; between the decision and the return nothing else does.
-/

namespace Mmorpg.Commerce

open Blocks (bind_eq_ok)

def Contract.deliveryDigest (c : Contract) : Option RmbDelivery :=
  (c.workflow.bind Workflow.rmb).bind RmbTerms.deliveryDigest

structure RefundDecided (o : RmbDelivery) (c : Contract) : Prop where
  digest : c.deliveryDigest = some o
  status : c.status = .refundPending
  stage : c.workflow.map Workflow.stage = some .rmbRefund

def DecidesRefund (s : World) (i : DeliverInput) (o : RmbDelivery) : Prop :=
  ∃ c c', s.contracts.get o.listing = some c ∧ c.deliveryDigest = none ∧
    deliver i o c = .ok (c', some .refundPending)

def AcceptsCancel (id : CommerceId) (s : World) (e : Event) : Prop :=
  ∃ dir account c c', e = .rmbCancel id dir account ∧ s.contracts.get id = some c ∧
    rmbCancel dir id account c = .ok c'

def AcceptsReturn (id : CommerceId) (s : World) (e : Event) : Prop :=
  ∃ dir o c c', e = .returned id dir o ∧ s.contracts.get id = some c ∧
    returned dir id o c = .ok c'

/-- The calls that a consignment for money gets from its seller, the mall and its worker. -/
def Event.isRmbCall : Event → Bool
  | .rmbCancel .. | .rmbStep .. | .deliver .. | .returned .. => true
  | _ => false

variable {cfg : Config} {s : World} {e : Event} {o : RmbDelivery} {c : Contract}

theorem deliver_refund {i : DeliverInput} {c' : Contract} (hnone : c.deliveryDigest = none)
    (h : deliver i o c = .ok (c', some .refundPending)) : RefundDecided o c' := by
  unfold deliver at h
  obtain ⟨r, _ | w⟩ := c
  · cases h
  dsimp only at h
  split at h
  · cases h
  rename_i t hw
  have hdigest : t.deliveryDigest = none := by
    simpa [Contract.deliveryDigest, hw] using hnone
  split at h
  · cases h
  split at h
  · cases h
  rw [hdigest, if_neg (not_not.2 rfl)] at h
  obtain ⟨owned, -, h⟩ := bind_eq_ok h
  split at h
  · obtain ⟨c₁, hsave, h⟩ := bind_eq_ok h
    cases h
    unfold rmbSave at hsave
    obtain ⟨-, -, hsave⟩ := bind_eq_ok hsave
    dsimp only at hsave
    rw [if_neg (by simp [hw])] at hsave
    obtain ⟨d, hbody, hsave⟩ := bind_eq_ok hsave
    cases hsave
    unfold refundBody at hbody
    dsimp only at hbody
    rw [hw] at hbody
    dsimp only at hbody
    rw [hdigest, if_neg (not_not.2 rfl)] at hbody
    split at hbody
    · cases hbody
    · cases hbody
      exact ⟨by simp [Contract.deliveryDigest, Draft.save, Draft.decideRefund, Draft.move,
        Draft.setTerms, hw], rfl, rfl⟩
  · obtain ⟨-, -, h⟩ := bind_eq_ok h
    obtain ⟨d, hbody, h⟩ := bind_eq_ok h
    unfold deliveryBody at hbody
    dsimp only at hbody
    rw [hw] at hbody
    dsimp only at hbody
    rw [hdigest, if_neg (not_not.2 rfl)] at hbody
    split at hbody
    · cases hbody
    obtain ⟨owner, -, hbody⟩ := bind_eq_ok hbody
    split at hbody
    · cases hbody
    · cases hbody
      cases h

/-- A replay of the paid order leaves the row and tells its status. -/
theorem deliver_replay {i : DeliverInput} {o' : RmbDelivery} {x : Contract × Option ReceiptState}
    (hdigest : c.deliveryDigest = some o) (h : deliver i o' c = .ok x) :
    o' = o ∧ x = (c, receiptOf c.status) := by
  unfold deliver at h
  obtain ⟨r, _ | w⟩ := c
  · cases h
  dsimp only at h
  split at h
  · cases h
  rename_i t hw
  have hstored : t.deliveryDigest = some o := by
    simpa [Contract.deliveryDigest, hw] using hdigest
  split at h
  · cases h
  split at h
  · cases h
  rw [hstored, if_pos (by simp)] at h
  split at h
  · cases h
  rename_i hsame
  cases h
  exact ⟨(Option.some.inj (not_not.1 hsame)).symm, rfl⟩

theorem World.update_get {id k : CommerceId} {f : Contract → Except Err Contract}
    (hget : s.contracts.get k = some c) (h : k = id → ∀ c', f c = .ok c' → c' = c) :
    (s.update id f).contracts.get k = some c := by
  unfold World.update
  by_cases hk : k = id
  · subst hk
    rw [hget]
    dsimp only
    split
    · exact hget
    next c' hc' =>
      rw [h rfl c' hc']
      exact Table.get_put_self ..
  · split
    · exact hget
    split
    · exact hget
    · exact (Table.get_put_of_ne hk).trans hget

/-- Until the return is accepted, only an accepted request to cancel changes the row. -/
theorem step_refundDecided {id : CommerceId} (hdecided : RefundDecided o c)
    (hget : s.contracts.get id = some c) (hcall : e.isRmbCall = true)
    (hcancel : ¬ AcceptsCancel id s e) (hreturn : ¬ AcceptsReturn id s e) :
    (step cfg s e).contracts.get id = some c := by
  cases e with
  | rmbCancel k dir account =>
    refine World.update_get hget fun hk c' h => ?_
    subst hk
    exact absurd ⟨dir, account, c, c', rfl, hget, h⟩ hcancel
  | returned k dir o' =>
    refine World.update_get hget fun hk c' h => ?_
    subst hk
    exact absurd ⟨dir, o', c, c', rfl, hget, h⟩ hreturn
  | rmbStep k i =>
    refine World.update_get hget fun _ c' h => ?_
    have hstage := hdecided.stage
    split at h
    · unfold rmbStep at h
      obtain ⟨r, _ | w⟩ := c
      · cases h
      have hs : w.stage = .rmbRefund := Option.some.inj hstage
      dsimp only at h
      split at h
      · cases h
      · rw [hs] at h
        cases h
        rfl
    · cases h
  | deliver i o' mallOk =>
    change (s.deliver i o' mallOk).contracts.get id = some c
    unfold World.deliver
    by_cases hk : id = o'.listing
    · subst hk
      rw [hget]
      dsimp only
      split
      · exact hget
      · have hx := (deliver_replay hdecided.digest ‹_›).2
        cases hx
        exact Table.get_put_self ..
    · split
      · exact hget
      split
      · exact hget
      · exact (Table.get_put_of_ne hk).trans hget
  | _ => cases hcall

/-- **Once `deliver` stored the decision to refund an order, every later successful call for the
order sends the receipt of the pending refund**, whatever calls come in between, as long as no
request to cancel the consignment was accepted and its return was not. Events that do not touch the
consignment may come at any time. -/
theorem refund_remembered (cfg : Config) (es es' : List Event) (i i' : DeliverInput)
    (o : RmbDelivery) (mallOk : Bool)
    (hdecides : DecidesRefund (Machine.run (step cfg) World.empty es) i o)
    (hcalls : Machine.Admits (step cfg)
      (fun s e => e.isRmbCall = true ∨
        (step cfg s e).contracts.get o.listing = s.contracts.get o.listing)
      (Machine.run (step cfg) World.empty (es ++ [.deliver i o mallOk])) es')
    (hreturn : Machine.Admits (step cfg) (fun s e => ¬ AcceptsReturn o.listing s e)
      (Machine.run (step cfg) World.empty (es ++ [.deliver i o mallOk])) es')
    (hcancel : Machine.Admits (step cfg) (fun s e => ¬ AcceptsCancel o.listing s e)
      (Machine.run (step cfg) World.empty (es ++ [.deliver i o mallOk])) es') :
    let s := Machine.run (step cfg) World.empty (es ++ [.deliver i o mallOk] ++ es')
    ∃ c, s.contracts.get o.listing = some c ∧ ∀ x, deliver i' o c = .ok x →
      (step cfg s (.deliver i' o true)).receipts =
        s.receipts ++ [⟨o.order, o.listing, .refundPending⟩] := by
  obtain ⟨c, c', hget, hnone, hdeliver⟩ := hdecides
  have hdecided := deliver_refund hnone hdeliver
  have hstored : (Machine.run (step cfg) World.empty
      (es ++ [.deliver i o mallOk])).contracts.get o.listing = some c' := by
    rw [Machine.run_snoc]
    change (World.deliver _ i o mallOk).contracts.get o.listing = some c'
    rw [World.deliver, hget]
    dsimp only
    rw [hdeliver]
    exact Table.get_put_self ..
  intro s
  have hrow : s.contracts.get o.listing = some c' := by
    change (Machine.run (step cfg) World.empty _).contracts.get o.listing = some c'
    rw [Machine.run_append]
    refine Machine.run_invariant_of_admits
      (I := fun s : World => s.contracts.get o.listing = some c') (fun s e hs hok => ?_) hstored
      (hcalls.and (hreturn.and hcancel))
    rcases hok.1 with hcall | hsame
    · exact step_refundDecided hdecided hs hcall hok.2.2 hok.2.1
    · exact hsame.trans hs
  refine ⟨c', hrow, fun x hx => ?_⟩
  have hreplay := (deliver_replay hdecided.digest hx).2
  change (s.deliver i' o true).receipts = _
  rw [World.deliver, hrow]
  dsimp only
  rw [hx, hreplay, hdecided.status]
  rfl

/-! ## A listing whose buyer changed hands -/

def sampleRmbInput : RmbInput where
  dir := sampleDirectory
  lookup := sampleDirectory
  begun := none
  sealed := false
  confirmed := none
  cancelState := none
  transferred := false
  proof := "p"
  registered := true
  listing := none
  seen := (1, 0, 0)
  input := ⟨sampleApplied, 1, fun _ => 1, 0, 0⟩

def sampleListing : List Event :=
  [.create 7 sampleDirectory none 0 1 (.rmb ⟨"a", 1, 0, { items := [(1, 2)] }, 100⟩),
    .rmbStep 7 sampleRmbInput, .rmbStep 7 sampleRmbInput, .rmbStep 7 sampleRmbInput,
    .rmbStep 7 sampleRmbInput]

/-- The buyer is now of another account. -/
def samplePaid : RmbDelivery := ⟨"order", 2, "b", 1, 7, "trade:7", "p", 100⟩

def sampleDelivery : DeliverInput := ⟨sampleDirectory, sampleDirectory, 0⟩

theorem sampleListing_decides :
    DecidesRefund (Machine.run (step sampleConfig) World.empty sampleListing) sampleDelivery
      samplePaid :=
  ⟨_, _, rfl, rfl, rfl⟩

theorem refund_remembered_listing :
    (Machine.run (step sampleConfig) World.empty
      (sampleListing ++ [.deliver sampleDelivery samplePaid false] ++ [.rmbStep 7 sampleRmbInput] ++
        [.deliver sampleDelivery samplePaid true])).receipts =
      [⟨"order", 7, .refundPending⟩] := by
  have h := refund_remembered sampleConfig sampleListing [.rmbStep 7 sampleRmbInput] sampleDelivery
    sampleDelivery samplePaid false sampleListing_decides ⟨.inl rfl, trivial⟩
    ⟨(by rintro ⟨_, _, _, _, h, -⟩; cases h), trivial⟩
    ⟨(by rintro ⟨_, _, _, _, h, -⟩; cases h), trivial⟩
  obtain ⟨c, hget, h⟩ := h
  cases hget
  rw [Machine.run_snoc]
  exact (h _ rfl).trans rfl

/-- The seller cancels after the decision: the next call for the order succeeds and sends
nothing. -/
theorem refund_forgotten : ¬ ∀ (cfg : Config) (es es' : List Event) (i i' : DeliverInput)
    (o : RmbDelivery) (mallOk : Bool),
    DecidesRefund (Machine.run (step cfg) World.empty es) i o →
    Machine.Admits (step cfg) (fun _ e => e.isRmbCall = true)
      (Machine.run (step cfg) World.empty (es ++ [.deliver i o mallOk])) es' →
    Machine.Admits (step cfg) (fun s e => ¬ AcceptsReturn o.listing s e)
      (Machine.run (step cfg) World.empty (es ++ [.deliver i o mallOk])) es' →
    let s := Machine.run (step cfg) World.empty (es ++ [.deliver i o mallOk] ++ es')
    ∀ c x, s.contracts.get o.listing = some c → deliver i' o c = .ok x →
      (step cfg s (.deliver i' o true)).receipts =
        s.receipts ++ [⟨o.order, o.listing, .refundPending⟩] := by
  intro h
  have hreceipts := h sampleConfig sampleListing [.rmbCancel 7 sampleDirectory "a"] sampleDelivery
    sampleDelivery samplePaid true sampleListing_decides ⟨rfl, trivial⟩
    ⟨(by rintro ⟨_, _, _, _, h, -⟩; cases h), trivial⟩ _ _ rfl rfl
  have hlength := congrArg List.length hreceipts
  exact absurd hlength (by decide +kernel)

end Mmorpg.Commerce
