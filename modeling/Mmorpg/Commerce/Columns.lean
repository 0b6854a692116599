import Mmorpg.Commerce.Life

/-!
# The columns of a row

Who trades what never changes: a transaction writes no column but the status, the buyer and, of an
order that is matched, the quantity that was filled (`DraftStep.row`).
-/

namespace Mmorpg.Commerce

open Blocks (bind_eq_ok Flow)

def SameRow (r r' : Record) : Prop :=
  ∃ status buyer, r' = { r with status := status, buyerPlayerId := buyer }

theorem SameRow.refl (r : Record) : SameRow r r := ⟨r.status, r.buyerPlayerId, rfl⟩

theorem SameRow.trans {r r' r'' : Record} (h : SameRow r r') (h' : SameRow r' r'') :
    SameRow r r'' := by
  obtain ⟨s, b, rfl⟩ := h
  obtain ⟨s', b', rfl⟩ := h'
  exact ⟨s', b', rfl⟩

def SameTerms (w w' : Workflow) : Prop :=
  ∃ stage legs cancel, w' = { w with stage := stage, legs := legs, cancelRequested := cancel }

theorem SameTerms.refl (w : Workflow) : SameTerms w w := ⟨w.stage, w.legs, w.cancelRequested, rfl⟩

variable {w w' : Workflow}

theorem SameTerms.trans {w'' : Workflow} (h : SameTerms w w') (h' : SameTerms w' w'') :
    SameTerms w w'' := by
  obtain ⟨s, l, c, rfl⟩ := h
  obtain ⟨s', l', c', rfl⟩ := h'
  exact ⟨s', l', c', rfl⟩

theorem addLeg_terms (w : Workflow) (role : Role) (player : PlayerId)
    (stream : AssetOp.AssetOpStream) (b : AssetOp.AssetBundle) :
    SameTerms w (addLeg w role player stream b) := by
  unfold addLeg
  split
  · exact .refl _
  · exact ⟨_, _, _, rfl⟩

variable {receiver : PlayerId}

theorem transferLeg_terms {role : Role} {src : Option Leg}
    (h : transferLeg w role receiver src = .ok w') : SameTerms w w' := by
  obtain ⟨l, b, -, -, rfl⟩ := transferLeg_ok h
  exact addLeg_terms _ _ _ _ _

theorem returnApplied_terms {role : Role} {src : Option Leg}
    (h : returnApplied w role receiver src = .ok w') : SameTerms w w' := by
  unfold returnApplied at h
  split at h
  · exact transferLeg_terms h
  · cases h
    exact .refl _

structure SameTrade (d d' : Draft) : Prop where
  row : SameRow d.r d'.r
  terms : SameTerms d.w d'.w

theorem SameTrade.refl (d : Draft) : SameTrade d d := ⟨.refl _, .refl _⟩

variable {d d' : Draft}

theorem SameTrade.trans {d'' : Draft} (h : SameTrade d d') (h' : SameTrade d' d'') :
    SameTrade d d'' :=
  ⟨h.row.trans h'.row, h.terms.trans h'.terms⟩

/-- Legs may be added, and the stage, the status and the wish to cancel be written. -/
theorem SameTrade.of_terms (h : SameTerms d.w w) (status : Status)
    (buyer : PlayerId) (stage : Stage) (cancel : Bool) :
    SameTrade d ⟨{ d.r with status := status, buyerPlayerId := buyer },
      { w with stage := stage, cancelRequested := cancel }⟩ :=
  ⟨⟨_, _, rfl⟩, h.trans ⟨_, _, _, rfl⟩⟩

variable {p : Policy} {f : Flow Draft}

/-- Only what a block does behind its guard matters. -/
theorem SameTrade.guard {c : Prop} [Decidable c] {x : Except Err (Flow Draft)}
    (hx : x = .ok f → SameTrade d f.state) (h : (if c then x else .ok (.go d)) = .ok f) :
    SameTrade d f.state := by
  split at h
  · exact hx h
  · cases h
    exact .refl _

theorem planOfferEscrow_same
    (h : planOfferEscrow p d = .ok f) : SameTrade d f.state := by
  refine .guard (fun h => ?_) h
  dsimp only at h
  split at h
  · cases h
    exact .of_terms (addLeg_terms _ _ _ _ _) _ _ _ _
  split at h <;> cases h <;> exact .of_terms (addLeg_terms _ _ _ _ _) _ _ _ _

theorem planBuyerEscrow_same
    (h : planBuyerEscrow p d = .ok f) : SameTrade d f.state := by
  refine .guard (fun h => ?_) h
  dsimp only at h
  split at h <;> cases h <;> exact .of_terms (addLeg_terms _ _ _ _ _) _ _ _ _

variable {now : Nat}

theorem planConfirm_same
    (h : planConfirm now d = .ok f) : SameTrade d f.state := by
  refine .guard (fun h => ?_) h
  obtain ⟨w₁, h₁, h⟩ := bind_eq_ok h
  obtain ⟨w₂, h₂, h⟩ := bind_eq_ok h
  cases h
  exact ⟨⟨_, _, rfl⟩, SameTerms.trans ⟨_, _, _, rfl⟩
    ((returnApplied_terms h₁).trans (returnApplied_terms h₂))⟩

theorem planBidFreeze_same (h : planBidFreeze d = .ok f) :
    SameTrade d f.state := by
  refine .guard (fun h => ?_) h
  dsimp only at h
  split at h
  · cases h
    exact .of_terms (addLeg_terms _ _ _ _ _) _ _ _ _
  split at h <;> cases h <;> exact .of_terms (addLeg_terms _ _ _ _ _) _ _ _ _

theorem planBidRefund_same (h : planBidRefund d = .ok f) :
    SameTrade d f.state := by
  refine .guard (fun h => ?_) h
  dsimp only at h
  split at h
  · cases h
  obtain ⟨w₁, h₁, h⟩ := bind_eq_ok h
  cases h
  exact .of_terms (transferLeg_terms h₁) _ _ _ _

theorem planEscrow_same (h : planEscrow p d = .ok f) :
    SameTrade d f.state := by
  refine .guard (fun h => ?_) h
  extract_lets w₁ w₂ a b at h
  have hw : SameTerms d.w w₂ := by
    have hw₁ : SameTerms d.w w₁ := addLeg_terms _ _ _ _ _
    refine hw₁.trans ?_
    dsimp only [w₂]
    split
    · exact addLeg_terms _ _ _ _ _
    · exact .refl _
  -- Two legs are added in the stage that is entered.
  have hpaid : ∀ {stage : Stage} {w' w'' : Workflow}, SameTerms { w₂ with stage := stage } w' →
      SameTerms w' w'' → SameTerms d.w w'' := fun h' h'' =>
    hw.trans (SameTerms.trans ⟨_, _, _, rfl⟩ (h'.trans h''))
  split at h
  · cases h
    exact .of_terms hw _ _ _ _
  split at h
  · obtain ⟨w₃, h₃, h⟩ := bind_eq_ok h
    obtain ⟨w₄, h₄, h⟩ := bind_eq_ok h
    cases h
    exact ⟨⟨_, _, rfl⟩, hpaid (returnApplied_terms h₃) (returnApplied_terms h₄)⟩
  split at h
  · obtain ⟨w₃, h₃, h⟩ := bind_eq_ok h
    obtain ⟨w₄, h₄, h⟩ := bind_eq_ok h
    cases h
    exact ⟨⟨_, _, rfl⟩, hpaid (transferLeg_terms h₃) (transferLeg_terms h₄)⟩
  split at h
  · cases h
    exact .of_terms hw _ _ _ _
  split at h <;> cases h <;> exact .of_terms hw _ _ _ _

theorem planPay_same (h : planPay d = .ok f) :
    SameTrade d f.state := by
  refine .guard (fun h => ?_) h
  extract_lets name w b at h
  have hw : SameTerms d.w w := by
    dsimp only [w]
    split
    · exact addLeg_terms _ _ _ _ _
    · exact .refl _
  split at h
  · cases h
    exact .of_terms hw _ _ _ _
  split at h
  · cases h
    exact .of_terms hw d.r.status 0 _ _
  obtain ⟨w₁, h₁, h⟩ := bind_eq_ok h
  obtain ⟨w₂, h₂, h⟩ := bind_eq_ok h
  cases h
  exact ⟨⟨_, _, rfl⟩, hw.trans (SameTerms.trans ⟨_, _, _, rfl⟩
    ((transferLeg_terms h₁).trans (transferLeg_terms h₂)))⟩

theorem planLotClose_same
    (h : planLotClose now d = .ok f) : SameTrade d f.state := by
  refine .guard (fun h => ?_) h
  obtain ⟨w₁, h₁, h⟩ := bind_eq_ok h
  cases h
  exact ⟨⟨_, _, rfl⟩, SameTerms.trans ⟨_, _, _, rfl⟩
    ((transferLeg_terms h₁).trans (addLeg_terms _ _ _ _ _))⟩

theorem planExpire_same
    (h : planExpire now d = .ok f) : SameTrade d f.state := by
  unfold planExpire at h
  split at h <;> cases h
  · exact .of_terms (.refl _) _ _ _ _
  · exact .refl _

theorem planCancel_same (h : planCancel d = .ok f) :
    SameTrade d f.state := by
  refine .guard (fun h => ?_) h
  dsimp only at h
  split at h
  · cases h
  split at h
  · cases h
  cases h
  have hmove : SameTerms d.w (d.move .giveBack .cancelPending).w := ⟨_, _, _, rfl⟩
  have hadd : ∀ b : AssetOp.AssetBundle, SameTerms (d.move .giveBack .cancelPending).w
      (if nonEmpty b then addLeg (d.move .giveBack .cancelPending).w .sellerReturn
        d.r.sellerPlayerId .tradeCredit b else (d.move .giveBack .cancelPending).w) := by
    intro b
    split
    · exact addLeg_terms _ _ _ _ _
    · exact .refl _
  exact ⟨⟨_, _, rfl⟩, hmove.trans (hadd _)⟩

theorem planFinish_same (h : planFinish d = .ok f) :
    SameTrade d f.state := by
  refine .guard (fun h => ?_) h
  dsimp only at h
  split at h <;> cases h
  · exact .of_terms (.refl _) _ _ _ _
  · exact .refl _

theorem planRmb_same (h : planRmb p d = .ok d') : SameTrade d d' := by
  unfold planRmb at h
  split at h
  · cases h
  split at h
  · dsimp only at h
    split at h
    · cases h
      exact .of_terms (addLeg_terms _ _ _ _ _) _ _ _ _
    split at h
    · cases h
      exact .of_terms (addLeg_terms _ _ _ _ _) _ _ _ _
    split at h
    · obtain ⟨w₁, h₁, h⟩ := bind_eq_ok h
      cases h
      exact ⟨⟨_, _, rfl⟩, (addLeg_terms _ _ _ _ _).trans
        (SameTerms.trans ⟨_, _, _, rfl⟩ (transferLeg_terms h₁))⟩
    · cases h
      exact .of_terms (addLeg_terms _ _ _ _ _) _ _ _ _
  · split at h
    · cases h
      exact .refl _
    dsimp only at h
    split at h
    · cases h
    obtain ⟨w₁, h₁, h⟩ := bind_eq_ok h
    split at h
    · cases h
      exact .of_terms (transferLeg_terms h₁) _ _ _ _
    split at h <;> cases h <;> exact .of_terms (transferLeg_terms h₁) _ _ _ _
  · split at h
    · cases h
      exact .refl _
    obtain ⟨w₁, h₁, h⟩ := bind_eq_ok h
    dsimp only at h
    split at h
    · split at h <;> cases h <;> exact .of_terms (returnApplied_terms h₁) _ _ _ _
    · cases h
      exact .of_terms (returnApplied_terms h₁) _ _ _ _
  · cases h
    exact .refl _

/-- A plan writes no column but the status and the buyer, and no term of the trade. -/
theorem plan_same (h : plan p now d = .ok d') :
    SameTrade d d' := by
  unfold plan at h
  split at h
  · exact planRmb_same h
  split at h
  · cases h
    unfold planOfficial
    dsimp only
    split
    · exact .of_terms (addLeg_terms _ _ _ _ _) _ _ _ _
    split <;> exact .of_terms (addLeg_terms _ _ _ _ _) _ _ _ _
  · refine Blocks.runBlocks_keeps (I := fun s => SameTrade d s) (fun b hb s f hs hf => ?_)
      (.refl _) h
    refine hs.trans ?_
    simp only [planBlocks, List.mem_cons, List.not_mem_nil, or_false] at hb
    rcases hb with rfl | rfl | rfl | rfl | rfl | rfl | rfl | rfl | rfl | rfl | rfl
    · exact planOfferEscrow_same hf
    · exact planBuyerEscrow_same hf
    · exact planConfirm_same hf
    · exact planBidFreeze_same hf
    · exact planBidRefund_same hf
    · exact planEscrow_same hf
    · exact planPay_same hf
    · exact planLotClose_same hf
    · exact planExpire_same hf
    · exact planCancel_same hf
    · exact planFinish_same hf

theorem marketBarrier_same (unfinished bad : Nat) (d : Draft) :
    SameTrade d (marketBarrier unfinished bad d) := by
  unfold marketBarrier
  split
  · exact .refl _
  split
  · exact .of_terms (.refl _) _ _ _ _
  dsimp only
  split <;> split <;> split <;> exact .of_terms (.refl _) _ _ _ _

theorem advanceDraft_same {i : AdvanceInput}
    (h : advanceDraft p i d = .ok d') : SameTrade d d' := by
  obtain ⟨legs, partly, -, ⟨-, rfl⟩ | ⟨-, d₁, legs', hplan, -, rfl⟩⟩ := advanceDraft_ok h
  · exact ⟨⟨_, _, rfl⟩, ⟨_, _, _, rfl⟩⟩
  · have hlegs : ∀ (d : Draft) (legs : List Leg), SameTrade d (d.setLegs legs) :=
      fun _ _ => ⟨.refl _, ⟨_, _, _, rfl⟩⟩
    exact (hlegs d legs).trans ((plan_same hplan).trans
      ((marketBarrier_same _ _ d₁).trans (hlegs _ legs')))

theorem mutateConfirm_row {me : PlayerId}
    (h : mutateConfirm me now d = .ok d') : SameRow d.r d'.r := by
  have hboth : ∀ d₁ : Draft, SameRow d₁.r (if d₁.w.sellerConfirmed = true ∧
      d₁.w.buyerConfirmed = true then d₁.move .escrow .escrowing else d₁).r := by
    intro d₁
    split
    · exact ⟨_, _, rfl⟩
    · exact .refl _
  unfold mutateConfirm at h
  split at h
  · cases h
  split at h
  · cases h
  dsimp only at h
  split at h
  · split at h <;> cases h
    exact hboth ⟨d.r, _⟩
  split at h
  · split at h
    · cases h
    split at h <;> cases h
    · exact SameRow.trans ⟨_, _, rfl⟩ (hboth (Draft.move ⟨d.r, _⟩ _ _))
    · exact hboth ⟨d.r, _⟩
  · cases h

/-- A step writes no column but the status, the buyer and what was filled. -/
theorem DraftStep.row {cfg : Config} {t : Contracts} {e : Event} {id : CommerceId}
    (h : DraftStep cfg t e id d d') :
    SameRow d.r d'.r ∨ ∃ qty, e.isMatch = true ∧ notOpen d = false ∧ d.r.kind = .marketMatch ∧
      d.r.side ≠ 0 ∧ qty ≤ sub32 d.r.quantity d.r.filledQuantity ∧ d' = fill qty d := by
  cases h with
  | common h =>
    refine .inl ?_
    cases h with
    | confirmed h => exact mutateConfirm_row h
    | bought h =>
      obtain ⟨-, -, -, -, identity, rfl⟩ := mutateBuy_ok h
      exact ⟨_, _, rfl⟩
    | cancelled h =>
      obtain ⟨-, -, rfl⟩ := mutateCancel_ok h
      exact ⟨_, _, rfl⟩
    | advanced _ _ h => exact (advanceDraft_same h).row
    | quarantined _ _ h =>
      subst h
      exact ⟨_, _, rfl⟩
  | rmb _ h =>
    refine .inl ?_
    cases h with
    | saved h => exact h ▸ .refl _
    | cancelled _ _ h | frozen _ h | roleReturned _ h | roleTransferred _ _ h | registering _ h
    | listed _ h | unlisted _ h | refundDecided _ h | deliveryStarted _ h | returned _ _ h =>
      subst h
      exact ⟨_, _, rfl⟩
  | filled he hkind hside hopen hqty h => exact .inr ⟨_, he, hopen, hkind, hside, hqty, h⟩
  | bidRefunded _ _ h | bidTaken _ _ h | lotTook _ _ h | bidSettled _ h =>
    subst h
    exact .inl ⟨_, _, rfl⟩

end Mmorpg.Commerce
