import Mmorpg.Commerce.Life

/-!
# The life of a consignment for money

The legs of a consignment for money (kind 6) in every phase. The assets of the seller are paid out
by one credit; when the credit to the buyer fails, they are returned. A character has no legs: it
is frozen and transferred by the role directory.

A consignment that was taken out as Manual can still be cancelled by the seller, which overwrites
its status (`Standing`).
-/

namespace Mmorpg.Commerce

open List

open Blocks (bind_eq_ok)

/-- In the stage with such a status, or taken out of it as Manual, which a later request to cancel
may have overwritten. -/
def Standing (d : Draft) (stage : Stage) (ok : Status → Prop) : Prop :=
  (d.w.stage = stage ∧ ok d.r.status) ∨
    (d.w.stage = .manual ∧ (d.r.status = .manual ∨ d.r.status = .cancelPending))

def Status.live (s : Status) : Prop := s.terminal = false

variable {d : Draft} {stage : Stage} {ok : Status → Prop}

theorem Standing.stage_eq {stage' : Stage} (h : Standing d stage ok) (hs : d.w.stage = stage')
    (hne : stage' ≠ .manual) :
    stage' = stage ∧ ok d.r.status := by
  rcases h with ⟨hstage, hstatus⟩ | ⟨hstage, -⟩
  · exact ⟨hs.symm.trans hstage, hstatus⟩
  · exact absurd (hs.symm.trans hstage) hne

theorem Standing.manual : Standing (d.move .manual .manual) stage ok := .inr ⟨rfl, .inl rfl⟩

theorem Standing.cancel (h : Standing d stage Status.live) :
    Standing d.cancelPending stage Status.live := by
  rcases h with ⟨hs, -⟩ | ⟨hs, -⟩
  · exact .inl ⟨hs, rfl⟩
  · exact .inr ⟨hs, .inr rfl⟩

theorem Standing.cancel_closed {closed : Status}
    (h : Standing d stage (· = closed)) (hne : d.r.status ≠ closed) (ok : Status → Prop) :
    Standing d.cancelPending stage ok := by
  rcases h with ⟨-, hstatus⟩ | ⟨hs, -⟩
  · exact absurd hstatus hne
  · exact .inr ⟨hs, .inr rfl⟩

def FailedCredit (buyer : PlayerId) (a : Leg) (fails : List Leg) : Prop :=
  fails = [] ∨ ∃ x : Leg, fails = [x] ∧ x.Pays .rmbBuyerCredit buyer a ∧ isDone x = true ∧
    isApplied x = false

inductive RmbLife (d : Draft) : Prop where
  | escrowing (hat : Standing d .rmbEscrow Status.live)
      (hlegs : d.w.legs = [] ∨ ∃ a, d.w.legs = [a] ∧ d.SellerDebit a)
  | refused {a : Leg} (hat : Standing d .rmbReturned (· = .cancelled)) (hlegs : d.w.legs = [a])
      (ha : d.SellerDebit a) (hdone : isDone a = true) (hrefused : isApplied a = false)
  | held {a : Leg} {stage : Stage} (hat : Standing d stage Status.live)
      (hstage : stage ∈ [.rmbReady, .rmbRegistering, .rmbListed, .rmbDelivery])
      (hlegs : d.w.legs = [a]) (ha : d.SellerDebit a) (hheld : isApplied a = true)
  | delivering {a x : Leg} (hat : Standing d .rmbDelivery Status.live)
      (hlegs : d.w.legs = [a, x]) (ha : d.SellerDebit a)
      (hx : x.Pays .rmbBuyerCredit d.r.buyerPlayerId a)
  | delivered {a x : Leg} (hat : Standing d .rmbDelivered (· = .settled))
      (hlegs : d.w.legs = [a, x]) (ha : d.SellerDebit a)
      (hx : x.Pays .rmbBuyerCredit d.r.buyerPlayerId a) (happlied : isApplied x = true)
  | refunding {a : Leg} {fails : List Leg} {stage : Stage} (hat : Standing d stage Status.live)
      (hstage : stage = .rmbRefund ∨ stage = .rmbReturn) (hlegs : d.w.legs = a :: fails)
      (ha : d.SellerDebit a) (hheld : isApplied a = true)
      (hfails : FailedCredit d.r.buyerPlayerId a fails)
  | returning {a y : Leg} {fails : List Leg} (hat : Standing d .rmbReturn Status.live)
      (hlegs : d.w.legs = a :: (fails ++ [y])) (ha : d.SellerDebit a)
      (hfails : FailedCredit d.r.buyerPlayerId a fails)
      (hy : y.Pays .sellerReturn d.r.sellerPlayerId a)
  | returned {a y : Leg} {fails : List Leg} (hat : Standing d .rmbReturned (· = .cancelled))
      (hlegs : d.w.legs = a :: (fails ++ [y])) (ha : d.SellerDebit a)
      (hfails : FailedCredit d.r.buyerPlayerId a fails)
      (hy : y.Pays .sellerReturn d.r.sellerPlayerId a) (happlied : isApplied y = true)

theorem FailedCredit.later {buyer : PlayerId} {a a' : Leg} {fails fails' : List Leg}
    (h : FailedCredit buyer a fails) (ha : Later a a') (hl : Forall₂ Later fails fails') :
    FailedCredit buyer a' fails' := by
  rcases h with rfl | ⟨x, rfl, hx, hdone, hrefused⟩
  · rcases hl with _ | _
    exact .inl rfl
  · rcases hl with _ | ⟨lx, _ | _⟩
    exact .inr ⟨_, rfl, hx.later lx ha, lx.isDone hdone, by rw [lx.isApplied_eq hdone, hrefused]⟩

theorem FailedCredit.role_ne {buyer : PlayerId} {a : Leg} {fails : List Leg} {role : Role}
    (h : FailedCredit buyer a fails) (hne : role ≠ .rmbBuyerCredit) :
    ∀ l ∈ fails, l.role ≠ role := by
  rcases h with rfl | ⟨x, rfl, hx, -⟩
  · exact fun l hl => nomatch hl
  · intro l hl
    rw [mem_singleton.1 hl, hx.role]
    exact hne.symm

variable {d' : Draft}

namespace RmbLife

variable {d : Draft}

/-- The legs may go on, as long as the phase says the same of stage and status. -/
theorem drift (h : RmbLife d)
    (hshape : ∃ status version stage legs cancelRequested,
      d' = ⟨{ d.r with status, version }, { d.w with stage, legs, cancelRequested }⟩)
    (hl : Forall₂ Later d.w.legs d'.w.legs)
    (hlive : ∀ {s}, Standing d s Status.live → Standing d' s Status.live)
    (hsettled : ∀ {s}, Standing d s (· = .settled) → Standing d' s (· = .settled))
    (hcancelled : ∀ {s}, Standing d s (· = .cancelled) → Standing d' s (· = .cancelled)) :
    RmbLife d' := by
  obtain ⟨status, version, stage, legs, cancelRequested, rfl⟩ := hshape
  dsimp only at hl
  cases h with
  | escrowing hat hlegs =>
    exact .escrowing (hlive hat) (collecting_later hlegs hl)
  | refused hat hlegs ha hdone hrefused =>
    rw [hlegs] at hl
    rcases hl with _ | ⟨la, _ | _⟩
    exact .refused (hcancelled hat) rfl (ha.later la) (la.isDone hdone)
      (by rw [la.isApplied_eq hdone, hrefused])
  | held hat hstage hlegs ha hheld =>
    rw [hlegs] at hl
    rcases hl with _ | ⟨la, _ | _⟩
    exact .held (hlive hat) hstage rfl (ha.later la) (la.isApplied hheld)
  | delivering hat hlegs ha hx =>
    rw [hlegs] at hl
    rcases hl with _ | ⟨la, _ | ⟨lx, _ | _⟩⟩
    exact .delivering (hlive hat) rfl (ha.later la) (hx.later lx la)
  | delivered hat hlegs ha hx happlied =>
    rw [hlegs] at hl
    rcases hl with _ | ⟨la, _ | ⟨lx, _ | _⟩⟩
    exact .delivered (hsettled hat) rfl (ha.later la) (hx.later lx la) (lx.isApplied happlied)
  | refunding hat hstage hlegs ha hheld hfails =>
    rw [hlegs] at hl
    rcases hl with _ | ⟨la, lfails⟩
    exact .refunding (hlive hat) hstage rfl (ha.later la) (la.isApplied hheld)
      (hfails.later la lfails)
  | returning hat hlegs ha hfails hy =>
    rw [hlegs] at hl
    rcases hl with _ | ⟨la, lrest⟩
    obtain ⟨fails', _, rfl, lfails, _ | ⟨ly, _ | _⟩⟩ := later_append lrest
    exact .returning (hlive hat) rfl (ha.later la) (hfails.later la lfails) (hy.later ly la)
  | returned hat hlegs ha hfails hy happlied =>
    rw [hlegs] at hl
    rcases hl with _ | ⟨la, lrest⟩
    obtain ⟨fails', _, rfl, lfails, _ | ⟨ly, _ | _⟩⟩ := later_append lrest
    exact .returned (hcancelled hat) rfl (ha.later la) (hfails.later la lfails) (hy.later ly la)
      (ly.isApplied happlied)

theorem cancel (h : RmbLife d) (hguard : d.r.status ≠ .settled ∧ d.r.status ≠ .cancelled) :
    RmbLife d.cancelPending :=
  h.drift ⟨_, _, _, _, _, rfl⟩ (later_refl _) .cancel (·.cancel_closed hguard.1 _)
    (·.cancel_closed hguard.2 _)

theorem stage_mem (h : RmbLife d) :
    d.w.stage ∈ [.rmbEscrow, .rmbReady, .rmbRegistering, .rmbListed, .rmbDelivery, .rmbDelivered,
      .rmbRefund, .rmbReturn, .rmbReturned, .manual] := by
  cases h with
  | held hat hstage =>
    rcases hat with ⟨hs, -⟩ | ⟨hs, -⟩
    · rw [hs]
      simp only [mem_cons, not_mem_nil, or_false] at hstage ⊢
      tauto
    · simp [hs]
  | refunding hat hstage =>
    rcases hat with ⟨hs, -⟩ | ⟨hs, -⟩
    · rcases hstage with hstage | hstage <;> simp [hs, hstage]
    · simp [hs]
  | escrowing hat | refused hat | delivering hat | delivered hat | returning hat | returned hat =>
    rcases hat with ⟨hs, -⟩ | ⟨hs, -⟩ <;> simp [hs]

/-! ## The phases by stage -/

structure ByStage (d : Draft) : Prop where
  rmbEscrow : d.w.stage = .rmbEscrow →
    d.r.status.live ∧ (d.w.legs = [] ∨ ∃ a, d.w.legs = [a] ∧ d.SellerDebit a)
  /-- Before anything was paid out. -/
  held : d.w.stage = .rmbReady ∨ d.w.stage = .rmbRegistering ∨ d.w.stage = .rmbListed →
    d.r.status.live ∧ ∃ a, d.w.legs = [a] ∧ d.SellerDebit a ∧ isApplied a = true
  rmbDelivery : d.w.stage = .rmbDelivery → d.r.status.live ∧ ∃ a, d.SellerDebit a ∧
    isApplied a = true ∧ (d.w.legs = [a] ∨
      ∃ x : Leg, d.w.legs = [a, x] ∧ x.Pays .rmbBuyerCredit d.r.buyerPlayerId a)
  refunding : d.w.stage = .rmbRefund ∨ d.w.stage = .rmbReturn →
    d.r.status.live ∧ ∃ a fails, d.SellerDebit a ∧ isApplied a = true ∧
      FailedCredit d.r.buyerPlayerId a fails ∧ (d.w.legs = a :: fails ∨
        (d.w.stage = .rmbReturn ∧ ∃ y : Leg, d.w.legs = a :: (fails ++ [y]) ∧
          y.Pays .sellerReturn d.r.sellerPlayerId a))

theorem by_stage (h : RmbLife d) : ByStage d := by
  cases h with
  | escrowing hat hlegs =>
    rcases hat with ⟨hs, hlive⟩ | ⟨hs, -⟩ <;> constructor <;> intro hs' <;>
      first | exact ⟨hlive, hlegs⟩ | simp [hs] at hs'
  | held hat hstage hlegs ha hheld =>
    simp only [mem_cons, not_mem_nil, or_false] at hstage
    rcases hat with ⟨rfl, hlive⟩ | ⟨hs, -⟩ <;> constructor <;> intro hs' <;>
      first
        | exact ⟨hlive, _, hlegs, ha, hheld⟩
        | exact ⟨hlive, _, ha, hheld, .inl hlegs⟩
        | simp [hs] at hs'
        | rcases hstage with hs | hs | hs | hs <;> simp [hs] at hs'
  | delivering hat hlegs ha hx =>
    rcases hat with ⟨hs, hlive⟩ | ⟨hs, -⟩ <;> constructor <;> intro hs' <;>
      first | exact ⟨hlive, _, ha, hx.held, .inr ⟨_, hlegs, hx⟩⟩ | simp [hs] at hs'
  | refunding hat hstage hlegs ha hheld hfails =>
    rcases hat with ⟨rfl, hlive⟩ | ⟨hs, -⟩ <;> constructor <;> intro hs' <;>
      first
        | exact ⟨hlive, _, _, ha, hheld, hfails, .inl hlegs⟩
        | simp [hs] at hs'
        | rcases hstage with hs | hs <;> simp [hs] at hs'
  | returning hat hlegs ha hfails hy =>
    rcases hat with ⟨hs, hlive⟩ | ⟨hs, -⟩ <;> constructor <;> intro hs' <;>
      first
        | exact ⟨hlive, _, _, ha, hy.held, hfails, .inr ⟨hs, _, hlegs, hy⟩⟩
        | simp [hs] at hs'
  | refused hat | delivered hat | returned hat =>
    rcases hat with ⟨hs, -⟩ | ⟨hs, -⟩ <;> constructor <;> intro hs' <;> simp [hs] at hs'

end RmbLife

theorem RmbMove.keeps {e : Event} {id : CommerceId} (h : RmbMove e id d d') :
    d'.r.kind = d.r.kind ∧ d'.w.legs = d.w.legs ∧ ∀ P : PlayerId → Prop,
      (∃ t, d.w.rmb = some t ∧ P t.characterPlayerId) →
      ∃ t, d'.w.rmb = some t ∧ P t.characterPlayerId := by
  have hset : ∀ f : RmbTerms → RmbTerms, (∀ t, (f t).characterPlayerId = t.characterPlayerId) →
      ∀ P : PlayerId → Prop, (∃ t, d.w.rmb = some t ∧ P t.characterPlayerId) →
      ∃ t, d.w.rmb.map f = some t ∧ P t.characterPlayerId := by
    rintro f hf P ⟨t, hterms, hp⟩
    exact ⟨f t, by rw [hterms]; rfl, (hf t).symm ▸ hp⟩
  cases h with
  | frozen _ heq | registering _ heq | refundDecided _ heq | deliveryStarted _ heq =>
    subst heq
    exact ⟨rfl, rfl, hset _ fun _ => rfl⟩
  | cancelled _ _ heq | roleReturned _ heq | roleTransferred _ _ heq | listed _ heq
  | unlisted _ heq | returned _ _ heq | saved heq =>
    subst heq
    exact ⟨rfl, rfl, fun _ h => h⟩

structure AssetListing (d : Draft) : Prop where
  kind : d.r.kind = .rmbConsignment
  terms : ∃ t, d.w.rmb = some t ∧ t.characterPlayerId = 0
  life : RmbLife d

namespace AssetListing

variable {p : Policy}

theorem planRmb_keeps {d d' : Draft} (h : AssetListing d) (hplan : planRmb p d = .ok d') :
    AssetListing d' := by
  obtain ⟨hkind, ⟨t, hterms, hzero⟩, hlife⟩ := h
  have hmk : ∀ {d₁ : Draft}, d₁.r.kind = d.r.kind → d₁.w.rmb = d.w.rmb → RmbLife d₁ →
      AssetListing d₁ := fun hk ht hl => ⟨hk.trans hkind, ⟨t, ht.trans hterms, hzero⟩, hl⟩
  unfold planRmb at hplan
  rw [hterms] at hplan
  dsimp only at hplan
  split at hplan
  next hs =>
    obtain ⟨hlive, hlegs⟩ := hlife.by_stage.rmbEscrow hs
    obtain ⟨a, ha, hadd, hleg⟩ := addLeg_collect hlegs (by simp)
    rw [hadd, hleg] at hplan
    split at hplan
    · cases hplan
      exact hmk rfl rfl (.escrowing (.inl ⟨hs, hlive⟩) (.inr ⟨a, rfl, ha⟩))
    rename_i hdone
    rw [done_some, not_not] at hdone
    split at hplan
    next hrefused =>
      cases hplan
      exact hmk rfl rfl (.refused (.inl ⟨rfl, rfl⟩) rfl ha hdone (by simpa using hrefused))
    rename_i hheld
    rw [applied_some, not_not] at hheld
    split at hplan
    · obtain ⟨w₁, h₁, hplan⟩ := bind_eq_ok hplan
      cases hplan
      obtain ⟨y, hy, rfl⟩ := transferLeg_pays h₁ (by simp [Draft.move, ha.role]) hheld
      have hlegs' : [a, y] = a :: ([] ++ [y]) := rfl
      exact hmk rfl rfl (.returning (.inl ⟨rfl, rfl⟩) hlegs' ha (.inl rfl) hy)
    · cases hplan
      exact hmk rfl rfl (.held (.inl ⟨rfl, rfl⟩) (.head _) rfl ha hheld)
  next hs =>
    obtain ⟨hlive, a, ha, hheld, hlegs⟩ := hlife.by_stage.rmbDelivery hs
    have hleg : leg d.w .sellerDebit = some a := by
      rcases hlegs with hlegs | ⟨x, hlegs, -⟩ <;> simp [leg, hlegs, ha.role]
    rw [if_neg (by simp [hzero]), hleg, if_neg (by simp [hheld])] at hplan
    obtain ⟨w₁, h₁, hplan⟩ := bind_eq_ok hplan
    rcases hlegs with hlegs | ⟨x, hlegs, hx⟩
    · -- The credit is added and waits for its outcome.
      obtain ⟨x, hx, hw₁, hopen, hlegx⟩ := transferLeg_new h₁ (by simp [hlegs, ha.role]) hheld
      rw [hlegx, done_some, if_pos (by simp [hopen])] at hplan
      cases hplan
      subst hw₁
      exact hmk rfl rfl (.delivering (.inl ⟨hs, hlive⟩) (by simp [hlegs]) ha hx)
    · obtain rfl := transferLeg_old h₁ ⟨x, by simp [hlegs], hx.role⟩
      have hlegx : leg d.w .rmbBuyerCredit = some x := by simp [leg, hlegs, ha.role, hx.role]
      rw [hlegx] at hplan
      split at hplan
      · cases hplan
        exact hmk rfl rfl hlife
      rename_i hdone
      rw [done_some, not_not] at hdone
      split at hplan
      · cases hplan
        exact hmk rfl rfl (.delivered (.inl ⟨rfl, rfl⟩) hlegs ha hx ‹_›)
      next hrefused =>
        cases hplan
        exact hmk rfl rfl (.refunding (.inl ⟨rfl, rfl⟩) (.inl rfl) hlegs ha hheld
          (.inr ⟨x, rfl, hx, hdone, by simpa using hrefused⟩))
  next hs =>
    obtain ⟨hlive, a, fails, ha, hheld, hfails, hlegs⟩ := hlife.by_stage.refunding (.inr hs)
    have hleg : leg d.w .sellerDebit = some a := by
      rcases hlegs with hlegs | ⟨-, y, hlegs, -⟩ <;> simp [leg, hlegs, ha.role]
    have hnew : ∀ l ∈ fails, l.role ≠ .sellerReturn := hfails.role_ne (by decide)
    rw [if_neg (by simp [hzero]), hleg, returnApplied_eq hheld] at hplan
    obtain ⟨w₁, h₁, hplan⟩ := bind_eq_ok hplan
    rcases hlegs with hlegs | ⟨-, y, hlegs, hy⟩
    · obtain ⟨y, hy, hw₁, hopen, hlegy⟩ := transferLeg_new h₁
        (by rw [hlegs]; exact forall_mem_cons.2 ⟨by simp [ha.role], hnew⟩) hheld
      rw [hlegy, if_neg (by simp [hopen])] at hplan
      cases hplan
      subst hw₁
      exact hmk rfl rfl (.returning (.inl ⟨hs, hlive⟩) (by simp [hlegs]) ha hfails hy)
    · obtain rfl := transferLeg_old h₁ ⟨y, by simp [hlegs], hy.role⟩
      have hfind : fails.find? (fun l => l.role = .sellerReturn) = none := by simpa using hnew
      have hlegy : leg d.w .sellerReturn = some y := by
        simp [leg, hlegs, ha.role, hfind, hy.role]
      rw [hlegy] at hplan
      split at hplan
      · split at hplan
        next happlied =>
          cases hplan
          exact hmk rfl rfl
            (.returned (.inl ⟨rfl, rfl⟩) hlegs ha hfails hy (by simpa using happlied))
        · cases hplan
          exact hmk rfl rfl (.returning .manual hlegs ha hfails hy)
      · cases hplan
        exact hmk rfl rfl hlife
  · cases hplan
    exact hmk rfl rfl hlife

/-- The rest of what happens to assets for money. -/
theorem move_keeps {e : Event} {id : CommerceId} {d d' : Draft} (h : AssetListing d)
    (hmove : RmbMove e id d d') : AssetListing d' := by
  have hstages := h.life.stage_mem
  have hlife := h.life
  have hchar : d.row.isCharacter = false := by
    obtain ⟨t, hterms, hzero⟩ := h.terms
    rw [isCharacter_row hterms]
    simp [hzero]
  obtain ⟨hkind, -, hterms⟩ := hmove.keeps
  refine ⟨hkind.trans h.kind, hterms (· = 0) h.terms, ?_⟩
  cases hmove with
  | cancelled he hguard heq =>
    subst heq
    exact hlife.cancel ⟨hguard.1, hguard.2.1⟩
  | frozen hs heq => simp [hs] at hstages
  | roleReturned hs heq =>
    rcases hs with hs | ⟨-, hs⟩
    · simp [hs] at hstages
    · simp [hchar] at hs
  | roleTransferred hs hc heq => simp [hchar] at hc
  | registering hs heq =>
    subst heq
    obtain ⟨hlive, a, hlegs, ha, hheld⟩ := hlife.by_stage.held (.inl hs)
    exact .held (.inl ⟨rfl, hlive⟩) (.tail _ (.head _)) hlegs ha hheld
  | listed hs heq =>
    subst heq
    obtain ⟨-, a, hlegs, ha, hheld⟩ := hlife.by_stage.held (.inr (.inl hs))
    exact .held (.inl ⟨rfl, rfl⟩) (.tail _ (.tail _ (.head _))) hlegs ha hheld
  | unlisted hs heq =>
    subst heq
    obtain ⟨-, a, hlegs, ha, hheld⟩ := hlife.by_stage.held (hs.imp_right .inr)
    exact .refunding (.inl ⟨rfl, rfl⟩) (.inr rfl) hlegs ha hheld (.inl rfl)
  | refundDecided hs heq =>
    subst heq
    obtain ⟨-, a, hlegs, ha, hheld⟩ := hlife.by_stage.held (.inr (.inr hs))
    exact .refunding (.inl ⟨rfl, rfl⟩) (.inl rfl) hlegs ha hheld (.inl rfl)
  | deliveryStarted hs heq =>
    subst heq
    obtain ⟨-, a, hlegs, ha, hheld⟩ := hlife.by_stage.held (.inr (.inr hs))
    exact .held (.inl ⟨rfl, rfl⟩) (.tail _ (.tail _ (.tail _ (.head _)))) hlegs ha hheld
  | returned he hs heq =>
    subst heq
    rcases hs with hs | hs
    · obtain ⟨-, a, hlegs, ha, hheld⟩ := hlife.by_stage.held (.inr (.inr hs))
      exact .refunding (.inl ⟨rfl, rfl⟩) (.inr rfl) hlegs ha hheld (.inl rfl)
    · obtain ⟨-, a, fails, ha, hheld, hfails, hlegs | ⟨hs', -⟩⟩ :=
        hlife.by_stage.refunding (.inl hs)
      · exact .refunding (.inl ⟨rfl, rfl⟩) (.inr rfl) hlegs ha hheld hfails
      · simp [hs] at hs'
  | saved heq =>
    subst heq
    exact hlife

theorem closed : Closed AssetListing .rmbConsignment
    [.rmbEscrow, .rmbReady, .rmbRegistering, .rmbListed, .rmbDelivery, .rmbDelivered, .rmbRefund,
      .rmbReturn, .rmbReturned, .manual] where
  kind_eq h := h.kind
  stage_mem h := h.life.stage_mem
  later h hl := ⟨h.kind, h.terms, h.life.drift ⟨_, _, _, _, _, rfl⟩ hl id id id⟩
  manual h := ⟨h.kind, h.terms, h.life.drift ⟨_, _, _, _, _, rfl⟩ (later_refl _)
    (fun _ => .manual) (fun _ => .manual) fun _ => .manual⟩
  bump h := ⟨h.kind, h.terms, h.life.drift ⟨_, _, _, _, _, rfl⟩ (later_refl _) id id id⟩
  plan h hplan := by
    rw [plan, if_pos h.kind] at hplan
    exact h.planRmb_keeps hplan
  rmb _ _ _ _ _ h hmove := h.move_keeps hmove

end AssetListing

/-! ## Characters -/

def characterStages : List Stage :=
  [.rmbFreezing, .rmbReady, .rmbRegistering, .rmbListed, .rmbDelivery, .rmbRefund, .rmbReturn]

inductive CharacterLife (d : Draft) : Prop where
  | live {stage : Stage} (hat : Standing d stage Status.live) (hstage : stage ∈ characterStages)
  | delivered (hat : Standing d .rmbDelivered (· = .settled))
  | returned (hat : Standing d .rmbReturned (· = .cancelled))

structure CharacterListing (d : Draft) : Prop where
  kind : d.r.kind = .rmbConsignment
  terms : ∃ t, d.w.rmb = some t ∧ t.characterPlayerId ≠ 0
  legs : d.w.legs = []
  life : CharacterLife d

theorem CharacterLife.stage_mem (h : CharacterLife d) :
    d.w.stage ∈ .manual :: .rmbDelivered :: .rmbReturned :: characterStages := by
  cases h with
  | live hat hstage =>
    rcases hat with ⟨hs, -⟩ | ⟨hs, -⟩
    · rw [hs]
      exact .tail _ (.tail _ (.tail _ hstage))
    · simp [hs]
  | delivered hat | returned hat => rcases hat with ⟨hs, -⟩ | ⟨hs, -⟩ <;> simp [hs]

theorem CharacterLife.of_stage (h : CharacterLife d)
    (hs : d.w.stage ∈ characterStages) : d.r.status.live := by
  have hne : d.w.stage ≠ .manual := by
    rintro heq
    simp [heq, characterStages] at hs
  cases h with
  | live hat => exact (hat.stage_eq rfl hne).2
  | delivered hat | returned hat =>
    rw [(hat.stage_eq rfl hne).1] at hs
    simp [characterStages] at hs

namespace CharacterListing

variable {d : Draft}

theorem move_keeps {e : Event} {id : CommerceId} (h : CharacterListing d)
    (hmove : RmbMove e id d d') : CharacterListing d' := by
  have hlife := h.life
  obtain ⟨hkind, hlegs, hterms⟩ := hmove.keeps
  refine ⟨hkind.trans h.kind, hterms (· ≠ 0) h.terms, hlegs.trans h.legs, ?_⟩
  cases hmove with
  | cancelled he hguard heq =>
    subst heq
    cases hlife with
    | live hat hstage => exact .live hat.cancel hstage
    | delivered hat => exact .delivered (hat.cancel_closed hguard.1 _)
    | returned hat => exact .returned (hat.cancel_closed hguard.2.1 _)
  | frozen hs heq | registering hs heq =>
    subst heq
    have hlive := hlife.of_stage (by simp [hs, characterStages])
    exact .live (.inl ⟨rfl, hlive⟩) (by simp [Draft.enter, characterStages])
  | roleReturned hs heq =>
    subst heq
    exact .returned (.inl ⟨rfl, rfl⟩)
  | roleTransferred hs hc heq =>
    subst heq
    exact .delivered (.inl ⟨rfl, rfl⟩)
  | listed hs heq | unlisted hs heq | refundDecided hs heq | deliveryStarted hs heq
  | returned he hs heq =>
    subst heq
    refine .live (.inl ⟨rfl, rfl⟩) ?_
    simp [Draft.decideRefund, Draft.startDelivery, Draft.move, characterStages]
  | saved heq =>
    subst heq
    exact hlife

theorem bump (h : CharacterListing d) : CharacterListing d.bump := by
  refine ⟨h.kind, h.terms, h.legs, ?_⟩
  cases h.life with
  | live hat hstage => exact .live hat hstage
  | delivered hat => exact .delivered hat
  | returned hat => exact .returned hat

variable {cfg : Config} {t : Contracts} {e : Event} {id : CommerceId}

/-- Every step of a character for money keeps it in its phases. -/
theorem step_keeps (h : CharacterListing d) (hstep : DraftStep cfg t e id d d') :
    CharacterListing d' := by
  have hstages := h.life.stage_mem
  cases hstep with
  | common hstep =>
    cases hstep with
    | confirmed hconfirm =>
      have hkind := (mutateConfirm_guard hconfirm).1
      simp [h.kind] at hkind
    | bought hbuy =>
      obtain ⟨hkind, -⟩ := mutateBuy_ok hbuy
      simp [h.kind] at hkind
    | cancelled hcancel =>
      obtain ⟨-, ⟨hkind, -⟩ | ⟨-, hs | hs | ⟨hs, -⟩⟩, -⟩ := mutateCancel_ok hcancel
      · simp [h.kind] at hkind
      all_goals simp [hs, characterStages] at hstages
    | advanced hchar hinput hadvance =>
      obtain ⟨terms, hterms, hne⟩ := h.terms
      rw [isCharacter_row hterms] at hchar
      simp [hne] at hchar
    | quarantined he hdue heq =>
      subst heq
      exact ⟨h.kind, h.terms, h.legs, .live .manual (.head _)⟩
  | rmb hkind hmove => exact h.move_keeps hmove
  | filled he hkind => simp [h.kind] at hkind
  | bidRefunded he hstage => rcases hstage with hs | hs <;> simp [hs, characterStages] at hstages
  | bidTaken he hstage | bidSettled hstage => simp [hstage, characterStages] at hstages
  | lotTook he heligible => simp [(eligible_iff.1 heligible).1, characterStages] at hstages

end CharacterListing

end Mmorpg.Commerce
