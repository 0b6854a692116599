import Mmorpg.Commerce.Rows

/-!
# What a transaction does to a contract

The transactions on one row in terms of the draft, with the guards under which they change it
(`DraftStep`). Reads that only let a transaction fail are left out. An invariant of drafts that new
rows have and steps keep holds in the whole table (`step_rows`).
-/

namespace Mmorpg.Commerce

open Blocks (bind_eq_ok)

abbrev Draft.row (d : Draft) : Contract := ⟨d.r, some d.w⟩

/-- What players ask for, the background advance and the quarantine; `t` is the table and `id` the
key of the row. -/
inductive CommonStep (cfg : Config) (t : Contracts) (e : Event) (id : CommerceId) (d d' : Draft) :
    Prop where
  | confirmed {me : PlayerId} {now : Nat} (h : mutateConfirm me now d = .ok d')
  | bought {dir : Directory} {me : PlayerId} {now : Nat} {requestId : String}
      (h : mutateBuy dir me now requestId d = .ok (some d'))
  | cancelled {me : PlayerId} (h : mutateCancel me d = .ok (some d'))
  | advanced {i : AdvanceInput} (hchar : d.row.isCharacter = false)
      (hinput : d.r.kind = .rmbConsignment ∨
        (i.unfinished = unfinishedMatches t id ∧ i.bad = badMatches t id ∧
          ∃ dir seen, e = .advance id dir seen i.results i.now i.opIds))
      (h : advanceDraft cfg.policy i d = .ok d')
  | quarantined (he : e = .quarantine id ∨ d.r.kind = .marketMatch)
      (hdue : d.r.status.isDue = true) (h : d' = d.move .manual .manual)

/-- The seller's account asks to cancel, and the directory lets the roles be locked. -/
def Draft.SellerCancels (d : Draft) (id : CommerceId) (e : Event) : Prop :=
  ∃ dir terms, d.w.rmb = some terms ∧ e = .rmbCancel id dir terms.sellerAccount ∧
    lockRoles dir none id [d.r.sellerPlayerId, d.r.buyerPlayerId] = .ok ()

/-- What else happens to a consignment for money. -/
inductive RmbMove (e : Event) (id : CommerceId) (d d' : Draft) : Prop where
  | cancelled (he : d.SellerCancels id e)
      (hguard : d.r.status ≠ .settled ∧ d.r.status ≠ .cancelled ∧ d.w.stage ≠ .rmbDelivery)
      (h : d' = ⟨{ d.r with status := .cancelPending }, { d.w with cancelRequested := true }⟩)
  | frozen (hstage : d.w.stage = .rmbFreezing)
      (h : d' = (d.setTerms fun t => { t with freezeReceipt := true }).enter .rmbReady)
  | roleReturned
      (hstage : d.w.stage = .rmbFreezing ∨ (d.w.stage = .rmbReturn ∧ d.row.isCharacter = true))
      (h : d' = d.move .rmbReturned .cancelled)
  | roleTransferred (hstage : d.w.stage = .rmbDelivery) (hchar : d.row.isCharacter = true)
      (h : d' = d.move .rmbDelivered .settled)
  | registering {proof reference : String} (hstage : d.w.stage = .rmbReady)
      (h : d' = (d.setTerms fun t => { t with
        escrowProof := proof, escrowReference := reference }).enter .rmbRegistering)
  | listed (hstage : d.w.stage = .rmbRegistering) (h : d' = d.move .rmbListed .waiting)
  | unlisted (hstage : d.w.stage = .rmbReady ∨ d.w.stage = .rmbListed)
      (h : d' = d.move .rmbReturn .cancelPending)
  | refundDecided {o : RmbDelivery} (hstage : d.w.stage = .rmbListed) (h : d' = d.decideRefund o)
  | deliveryStarted {o : RmbDelivery} {ownerRevision transferTxId : Nat}
      (hstage : d.w.stage = .rmbListed) (h : d' = d.startDelivery o ownerRevision transferTxId)
  | returned (he : ∃ dir o, e = .returned id dir o)
      (hstage : d.w.stage = .rmbListed ∨ d.w.stage = .rmbRefund)
      (h : d' = Draft.move ⟨d.r, { d.w with cancelRequested := true }⟩ .rmbReturn .cancelPending)
  | saved (h : d' = d)

inductive DraftStep (cfg : Config) (t : Contracts) (e : Event) (id : CommerceId) (d d' : Draft) :
    Prop where
  | common (h : CommonStep cfg t e id d d')
  | rmb (hkind : d.r.kind = .rmbConsignment) (h : RmbMove e id d d')
  | filled {qty : Nat} (he : e.isMatch = true) (hkind : d.r.kind = .marketMatch)
      (hside : d.r.side ≠ 0) (hopen : notOpen d = false)
      (hqty : qty ≤ sub32 d.r.quantity d.r.filledQuantity) (h : d' = fill qty d)
  | bidRefunded (he : e.isAccept = true)
      (hstage : d.w.stage = .bidReady ∨ d.w.stage = .bidHeld) (h : d' = d.refundBid)
  | bidTaken (he : e.isAccept = true) (hstage : d.w.stage = .bidReady) (h : d' = d.enter .bidHeld)
  | lotTook {bid : Draft} {now : Nat} {bidId : CommerceId} (he : e.isAccept = true)
      (heligible : eligible now d bid.r = true)
      (h : d' = takeBid bidId bid d)
  | bidSettled {parent : Contract} (hstage : d.w.stage = .bidHeld) (h : d' = d.move .done .settled)
      (hparent : t.get d.r.parentId = some parent) (hsettled : parent.status = .settled)

variable {cfg : Config} {t : Contracts} {e : Event} {id : CommerceId} {d : Draft} {c' : Contract}

/-- The row stays, or its draft makes a step and is saved. -/
def Stepped (cfg : Config) (t : Contracts) (e : Event) (id : CommerceId) (d : Draft)
    (c' : Contract) : Prop :=
  c' = d.row ∨ ∃ d', DraftStep cfg t e id d d' ∧ c' = d'.save

/-! ## One transaction after the other -/

variable {dir : Directory}

theorem mutate_stepped {actor : Option Actor} {me : PlayerId}
    {seen : PlayerId × PlayerId} {now : Nat} {action : Action}
    (h : mutate dir actor me seen now action d.row = .ok c') : Stepped cfg t e id d c' := by
  unfold mutate at h
  obtain ⟨-, -, h⟩ := bind_eq_ok h
  dsimp only [Draft.row] at h
  split at h
  · cases h
  obtain ⟨-, -, h⟩ := bind_eq_ok h
  obtain ⟨r, hr, h⟩ := bind_eq_ok h
  split at h
  · cases h
    exact .inl rfl
  rename_i d'
  cases h
  refine .inr ⟨d', ?_, rfl⟩
  cases action with
  | confirm =>
    obtain ⟨d₁, hd₁, heq⟩ : ∃ d₁, mutateConfirm me now d = .ok d₁ ∧ some d₁ = some d' := by
      unfold mutateDraft at hr
      revert hr
      cases mutateConfirm me now d with
      | error e => exact fun hr => nomatch hr
      | ok d₁ => exact fun hr => ⟨d₁, rfl, Except.ok.inj hr⟩
    cases heq
    exact .common (.confirmed hd₁)
  | buy requestId => exact .common (.bought hr)
  | cancel => exact .common (.cancelled hr)

theorem advance_ok {p : Policy} {seen : PlayerId × PlayerId × PlayerId}
    {i : AdvanceInput} (h : advance p dir seen i d.row = .ok c') :
    ∃ d', advanceDraft p i d = .ok d' ∧ c' = d'.save := by
  unfold advance at h
  obtain ⟨-, -, h⟩ := bind_eq_ok h
  dsimp only [Draft.row] at h
  split at h
  · cases h
  obtain ⟨-, -, h⟩ := bind_eq_ok h
  obtain ⟨d', hd', h⟩ := bind_eq_ok h
  cases h
  exact ⟨d', hd', rfl⟩

variable {k : CommerceId} {body : Draft → Except Err Draft} {i : RmbInput} {I : Draft → Prop}

theorem rmbSave_ok (h : rmbSave dir k body d.row = .ok c') :
    lockRoles dir none k [d.r.sellerPlayerId, d.r.buyerPlayerId] = .ok () ∧
      ∃ d', body d = .ok d' ∧ c' = d'.save := by
  unfold rmbSave at h
  obtain ⟨⟨⟩, hlock, h⟩ := bind_eq_ok h
  dsimp only [Draft.row] at h
  split at h
  · cases h
  obtain ⟨d', hd', h⟩ := bind_eq_ok h
  cases h
  exact ⟨hlock, d', hd', rfl⟩

/-- A body that either leaves the draft or makes a step. -/
theorem rmbSave_stepped (hbody : ∀ d', body d = .ok d' → DraftStep cfg t e id d d')
    (h : rmbSave dir k body d.row = .ok c') : Stepped cfg t e id d c' := by
  obtain ⟨-, d', hd', rfl⟩ := rmbSave_ok h
  exact .inr ⟨d', hbody d' hd', rfl⟩

theorem rmbCancel_stepped {account : String}
    (he : e = .rmbCancel id dir account) (h : rmbCancel dir id account d.row = .ok c') :
    Stepped cfg t e id d c' := by
  unfold rmbCancel at h
  dsimp only [Draft.row] at h
  split at h
  · cases h
  rename_i terms hterms
  split at h
  · cases h
  rename_i hmine
  simp only [not_or, not_not] at hmine
  split at h
  · cases h
  rename_i hguard
  simp only [not_or] at hguard
  split at h
  · cases h
    exact .inl rfl
  rename_i hopen
  refine rmbSave_stepped (fun d' hd' => ?_) h
  split at hd'
  · cases hd'
  · cases hd'
    exact .rmb hmine.1 (.cancelled ⟨dir, terms, hterms, hmine.2 ▸ he, (rmbSave_ok h).1⟩
      ⟨hguard.1, hopen, hguard.2⟩ rfl)

theorem isCharacter_row {w : Workflow} {r : Record} {terms : RmbTerms} (h : w.rmb = some terms) :
    Contract.isCharacter ⟨r, some w⟩ = decide (terms.characterPlayerId ≠ 0) := by
  simp [Contract.isCharacter, h]

theorem cancelRole_stepped (hkind : d.r.kind = .rmbConsignment)
    (hstage : d.w.stage = .rmbFreezing ∨ (d.w.stage = .rmbReturn ∧ d.row.isCharacter = true))
    (h : cancelRole i id d.row = .ok c') : Stepped cfg t e id d c' := by
  unfold cancelRole at h
  split at h
  · cases h
  split at h
  · cases h
  refine rmbSave_stepped (fun d' hd' => ?_) h
  split at hd'
  · cases hd'
  · cases hd'
    exact .rmb hkind (.roleReturned hstage rfl)

theorem rmbStep_stepped (hkind : d.r.kind = .rmbConsignment)
    (h : rmbStep cfg.policy i id d.row = .ok c') : Stepped cfg t e id d c' := by
  -- A row that is only deferred stays as it is.
  have hsame : ∀ {c : Contract}, (Except.ok d.row : Except Err Contract) = .ok c →
      Stepped cfg t e id d c := fun hc => .inl (Except.ok.inj hc).symm
  unfold rmbStep at h
  dsimp only [Draft.row] at h
  split at h
  · cases h
  rename_i terms hterms
  have hchar : d.row.isCharacter = decide (terms.characterPlayerId ≠ 0) := isCharacter_row hterms
  -- The stages of assets: the common rules, or the role directory for a character.
  have hassets : ∀ (hst : d.w.stage = .rmbEscrow ∨ d.w.stage = .rmbDelivery ∨
        d.w.stage = .rmbReturn) (stage : Stage), d.w.stage = stage →
      (if terms.characterPlayerId = 0 then do
          checkAssetIdentity i.lookup d.r terms stage
          advance cfg.policy i.dir i.seen i.input d.row
        else if stage = .rmbReturn then cancelRole i id d.row
        else if stage = .rmbDelivery then transferRole i id terms d.row
        else .error .corrupt) = .ok c' → Stepped cfg t e id d c' := by
    intro hst stage hs hrun
    split at hrun
    next hzero =>
      obtain ⟨-, -, hrun⟩ := bind_eq_ok hrun
      obtain ⟨d', hd', rfl⟩ := advance_ok hrun
      exact .inr ⟨d', .common (.advanced (by rw [hchar]; simp [hzero]) (.inl hkind) hd'), rfl⟩
    rename_i hrole
    have hrole' : d.row.isCharacter = true := by rw [hchar]; simpa using hrole
    split at hrun
    · exact cancelRole_stepped hkind (.inr ⟨hs.trans ‹_›, hrole'⟩) hrun
    split at hrun
    · unfold transferRole at hrun
      split at hrun
      · cases hrun
      split at hrun
      · cases hrun
      refine rmbSave_stepped (fun d' hd' => ?_) hrun
      split at hd'
      · cases hd'
      · cases hd'
        exact .rmb hkind (.roleTransferred (hs.trans ‹_›) hrole' rfl)
    · cases hrun
  split at h
  · exact hassets (.inl ‹_›) _ rfl h
  · exact hassets (.inr (.inl ‹_›)) _ rfl h
  · exact hassets (.inr (.inr ‹_›)) _ rfl h
  next hstage =>
    split at h
    · exact cancelRole_stepped hkind (.inl hstage) h
    unfold freezeRole at h
    split at h
    · cases h
    split at h
    · exact cancelRole_stepped hkind (.inl hstage) h
    split at h
    · cases h
    split at h
    · cases h
    split at h
    · cases h
    split at h
    · cases h
    refine rmbSave_stepped (fun d' hd' => ?_) h
    rw [if_neg (by simpa using hstage)] at hd'
    cases hd'
    exact .rmb hkind (.frozen hstage rfl)
  next hstage =>
    refine rmbSave_stepped (fun d' hd' => ?_) h
    rw [if_neg (by simpa using hstage)] at hd'
    split at hd'
    · cases hd'
      exact .rmb hkind (.unlisted (.inl hstage) rfl)
    split at hd'
    · cases hd'
    · cases hd'
      exact .rmb hkind (.registering hstage rfl)
  next hstage =>
    split at h
    · cases h
    refine rmbSave_stepped (fun d' hd' => ?_) h
    rw [if_neg (by simpa using hstage)] at hd'
    cases hd'
    exact .rmb hkind (.listed hstage rfl)
  next hstage =>
    split at h
    · exact hsame h
    split at h
    · cases h
    split at h
    · cases h
    refine rmbSave_stepped (fun d' hd' => ?_) h
    rw [if_pos hstage] at hd'
    cases hd'
    exact .rmb hkind (.unlisted (.inr hstage) rfl)
  · exact hsame h
  · exact hsame h
  · exact hsame h
  · exact hsame h
  · cases h

theorem deliver_stepped {i : DeliverInput} {o : RmbDelivery} {receipt : Option ReceiptState}
    (h : deliver i o d.row = .ok (c', receipt)) : Stepped cfg t e id d c' := by
  unfold deliver at h
  dsimp only [Draft.row] at h
  split at h
  · cases h
  rename_i terms hterms
  split at h
  · cases h
  split at h
  · cases h
  rename_i hmatch
  simp only [not_or, not_not] at hmatch
  have hkind : d.r.kind = .rmbConsignment := hmatch.1
  split at h
  · split at h
    · cases h
    · cases h
      exact .inl rfl
  rename_i hdigest
  obtain ⟨owned, -, h⟩ := bind_eq_ok h
  split at h
  · obtain ⟨c₁, hsave, h⟩ := bind_eq_ok h
    cases h
    refine rmbSave_stepped (fun d' hd' => ?_) hsave
    unfold refundBody at hd'
    rw [hterms] at hd'
    dsimp only at hd'
    rw [if_neg hdigest] at hd'
    split at hd'
    · cases hd'
    · cases hd'
      exact .rmb hkind (.refundDecided (by simpa using ‹¬ d.w.stage ≠ _›) rfl)
  · obtain ⟨-, -, h⟩ := bind_eq_ok h
    obtain ⟨r, hr, h⟩ := bind_eq_ok h
    split at h
    · cases h
      exact .inl rfl
    rename_i d'
    cases h
    refine .inr ⟨d', ?_, rfl⟩
    unfold deliveryBody at hr
    rw [hterms] at hr
    dsimp only at hr
    rw [if_neg hdigest] at hr
    split at hr
    · cases hr
    rename_i hlisted
    simp only [not_or, ne_eq, not_not] at hlisted
    obtain ⟨owned', -, hr⟩ := bind_eq_ok hr
    split at hr
    · cases hr
    · cases hr
      exact .rmb hkind (.deliveryStarted hlisted.1 rfl)

theorem returned_stepped {o : RmbReturn} (he : e = .returned id dir o)
    (h : returned dir id o d.row = .ok c') : Stepped cfg t e id d c' := by
  unfold returned at h
  dsimp only [Draft.row] at h
  split at h
  · cases h
  split at h
  · cases h
  rename_i hmatch
  simp only [not_or, not_not] at hmatch
  split at h
  · cases h
    exact .inl rfl
  split at h
  · cases h
  refine rmbSave_stepped (fun d' hd' => ?_) h
  split at hd'
  · cases hd'
    exact .rmb hmatch.1 (.returned ⟨dir, o, he⟩ ‹_› rfl)
  · cases hd'
    exact .rmb hmatch.1 (.saved rfl)

theorem draft_of_row {d₁ : Draft} (h : d.row = (⟨d₁.r, some d₁.w⟩ : Contract)) : d = d₁ := by
  have hr : d.r = d₁.r := congrArg Contract.toRecord h
  have hw : some d.w = some d₁.w := congrArg Contract.workflow h
  cases d
  cases d₁
  cases hr
  cases hw
  rfl

/-- Every transaction on a decodable row is a step of its draft. -/
theorem RowStep.stepped (h : RowStep cfg t e id d.row c') : Stepped cfg t e id d c' := by
  cases h with
  | mutated h => exact mutate_stepped h
  | advanced he hchar h =>
    obtain ⟨d', hd', rfl⟩ := advance_ok h
    exact .inr ⟨d', .common (.advanced hchar (.inr ⟨rfl, rfl, _, _, he⟩) hd'), rfl⟩
  | quarantined he hdue h => exact .inr ⟨_, .common (.quarantined he hdue rfl), h⟩
  | rmbCancelled he h => exact rmbCancel_stepped he h
  | rmbStepped hkind h => exact rmbStep_stepped hkind h
  | delivered h => exact deliver_stepped h
  | returned he h => exact returned_stepped he h
  | filled he hc hkind hside hopen hqty h =>
    cases draft_of_row hc
    exact .inr ⟨_, .filled he hkind hside hopen hqty rfl, h⟩
  | bidRefunded he hc hstage h =>
    cases draft_of_row hc
    exact .inr ⟨_, .bidRefunded he hstage rfl, h⟩
  | bidTaken he hc hstage h =>
    cases draft_of_row hc
    exact .inr ⟨_, .bidTaken he hstage rfl, h⟩
  | lotTook he hc heligible h =>
    cases draft_of_row hc
    exact .inr ⟨_, .lotTook he heligible rfl, h⟩
  | bidSettled hc hstage h hparent hsettled =>
    cases draft_of_row hc
    exact .inr ⟨_, .bidSettled hstage rfl hparent hsettled, h⟩

/-! ## Whole tables -/

def Rows (I : Draft → Prop) (t : Contracts) : Prop :=
  ∀ id c, t.get id = some c → ∃ d : Draft, c = d.row ∧ I d

theorem Rows.get (h : Rows I t) (hget : t.get id = some d.row) : I d := by
  obtain ⟨d₁, hd, hI⟩ := h id _ hget
  cases draft_of_row hd
  exact hI

theorem draft_eq_of_get {d' : Draft}
    (hget : t.get id = some d.row) (hget' : t.get id = some d'.row) : d = d' :=
  draft_of_row (Option.some.inj (hget.symm.trans hget'))

theorem Rows.empty (I : Draft → Prop) : Rows I World.empty.contracts :=
  fun id c h => by simp [World.empty] at h

def Draft.bump (d : Draft) : Draft := ⟨{ d.r with version := d.r.version + 1 }, d.w⟩

theorem Draft.save_eq (d : Draft) : d.save = d.bump.row := rfl

/-- A row after an event is as before, or saved by a step, or new. -/
theorem step_draft {s : World} (hrows : Rows I s.contracts)
    (h : (step cfg s e).contracts.get id = some c') :
    s.contracts.get id = some c' ∨
      (∃ d d' : Draft, s.contracts.get id = some d.row ∧ I d ∧ DraftStep cfg s.contracts e id d d' ∧
        c' = d'.bump.row) ∨
      (s.contracts.get id = none ∧ Created cfg s.contracts e id c') := by
  cases (step_row e id : RowChange cfg s.contracts e _ id) with
  | same hsame => exact .inl (hsame ▸ h)
  | stepped hget hget' hstep =>
    rw [hget'] at h
    cases h
    obtain ⟨d, rfl, hd⟩ := hrows id _ hget
    rcases hstep.stepped with rfl | ⟨d', hd', rfl⟩
    · exact .inl hget
    · exact .inr (.inl ⟨d, d', hget, hd, hd', d'.save_eq⟩)
  | created hget hget' hnew =>
    rw [hget'] at h
    cases h
    exact .inr (.inr ⟨hget, hnew⟩)

/-- What new rows have, and what steps and saves keep, all rows have after an event. -/
theorem step_rows {s : World} (hrows : Rows I s.contracts)
    (hnew : ∀ id c, Created cfg s.contracts e id c → ∃ d : Draft, c = d.row ∧ I d)
    (hbump : ∀ d, I d → I d.bump)
    (hstep : ∀ id d d', s.contracts.get id = some d.row → I d →
      DraftStep cfg s.contracts e id d d' → I d') :
    Rows I (step cfg s e).contracts := by
  intro id c hc
  rcases step_draft hrows hc with hget | ⟨d, d', hget, hd, hd', rfl⟩ | ⟨-, hc'⟩
  · exact hrows id c hget
  · exact ⟨d'.bump, rfl, hbump d' (hstep id d d' hget hd hd')⟩
  · exact hnew id c hc'

end Mmorpg.Commerce
