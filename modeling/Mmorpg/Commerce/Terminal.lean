import Mmorpg.Commerce.Lifecycle
import Mmorpg.Commerce.Columns

/-!
# Closed contracts

A contract that is Settled, Cancelled or Manual stays so, and gets no further leg, as long as no
consignment for money that is Manual is cancelled by its seller: `RmbConsignments.Cancel` looks at
Settled and Cancelled only.

A closed contract is in a stage in which nothing is planned, and one that is not Manual has no
outcome to wait for (`Life.final`). An order additionally depends on its matches: once it is done,
all of them are closed (`Quiet`).
-/

namespace Mmorpg.Commerce

open List Machine

open Blocks (bind_eq_ok)

/-! ## Final stages -/

def finalStages : List Stage := [.done, .manual, .rmbDelivered, .rmbReturned]

structure Final (d : Draft) : Prop where
  stage : d.w.stage ∈ finalStages
  legs : d.r.status ≠ .manual → ∀ l ∈ d.w.legs, isDone l = true

variable {d : Draft} {stage : Stage}

theorem At.final (h : At d stage) (ht : d.r.status.terminal = true) :
    Final d := by
  rcases h with ⟨-, hopen⟩ | ⟨hs, hstatus⟩
  · rw [ht] at hopen
    cases hopen
  · exact ⟨by simp [hs, finalStages], fun hne => absurd hstatus hne⟩

theorem Standing.final (h : Standing d stage Status.live)
    (ht : d.r.status.terminal = true) : Final d := by
  rcases h with ⟨-, hopen⟩ | ⟨hs, hstatus | hstatus⟩
  · rw [Status.live, ht] at hopen
    cases hopen
  · exact ⟨by simp [hs, finalStages], fun hne => absurd hstatus hne⟩
  · rw [hstatus] at ht
    cases ht

theorem Standing.final_closed {closed : Status}
    (h : Standing d stage (· = closed)) (hstage : stage ∈ finalStages)
    (hlegs : ∀ l ∈ d.w.legs, isDone l = true) : Final d := by
  rcases h with ⟨hs, -⟩ | ⟨hs, -⟩
  · exact ⟨hs ▸ hstage, fun _ => hlegs⟩
  · exact ⟨by simp [hs, finalStages], fun _ => hlegs⟩

/-- A contract that paid out has nothing to wait for if its debits are final. -/
theorem Paying.final {status closed : Status}
    (h : Paying d stage status closed) (hstatus : status.terminal = false)
    (ht : d.r.status.terminal = true)
    (hdebits : ∀ l ∈ d.w.legs, l.stream ≠ .tradeCredit → isDone l = true) : Final d := by
  rcases h with ⟨-, h⟩ | ⟨hs, h⟩ | ⟨hs, -, happlied⟩
  · rw [h, hstatus] at ht
    cases ht
  · exact ⟨by rcases hs with hs | hs <;> simp [hs, finalStages], fun hne => absurd h hne⟩
  · refine ⟨by simp [hs, finalStages], fun _ l hl => ?_⟩
    by_cases hstream : l.stream = .tradeCredit
    · exact isDone_of_isApplied (happlied l hl hstream)
    · exact hdebits l hl hstream

theorem PlayerTrade.final (h : PlayerTrade d) (ht : d.r.status.terminal = true) :
    Final d := by
  cases h.life with
  | offered hat | collecting hat | collected hat | agreed hat => exact hat.final ht
  | held hat => exact hat.elim (·.final ht) (·.final ht)
  | crossing hpaying hlegs ha hb hx hy | returningBoth hpaying hlegs ha hb hx hy =>
    exact hpaying.final rfl ht
      (by simp [hlegs, isDone_of_isApplied hx.held, isDone_of_isApplied hy.held, hx.stream,
        hy.stream])
  | refused hpaying hlegs ha hdone hrefused =>
    exact hpaying.final rfl ht (by simp [hlegs, hdone])
  | returning hpaying hlegs ha hx =>
    exact hpaying.final rfl ht (by simp [hlegs, isDone_of_isApplied hx.held, hx.stream])
  | returningRefused hpaying hlegs ha hb hdone hrefused hx =>
    exact hpaying.final rfl ht (by simp [hlegs, hdone, isDone_of_isApplied hx.held, hx.stream])

theorem Consignment.final (h : Consignment d) (ht : d.r.status.terminal = true) :
    Final d := by
  cases h.life with
  | escrowing hat | opened hat | paying hat => exact hat.final ht
  | delivering hpaying hlegs ha hn hfails hb hx hy =>
    refine hpaying.final rfl ht fun l hl hstream => ?_
    simp only [hlegs, mem_cons, mem_append, not_mem_nil, or_false] at hl
    rcases hl with rfl | hl | rfl | rfl | rfl
    · exact isDone_of_isApplied hx.held
    · exact (hfails.each l hl).done
    · exact isDone_of_isApplied hy.held
    · exact absurd hx.stream hstream
    · exact absurd hy.stream hstream
  | refused hpaying hlegs ha hdone hrefused =>
    exact hpaying.final rfl ht (by simp [hlegs, hdone])
  | returning hpaying hlegs ha hfails hx =>
    refine hpaying.final rfl ht fun l hl hstream => ?_
    simp only [hlegs, mem_cons, mem_append, not_mem_nil, or_false] at hl
    rcases hl with rfl | hl | rfl
    · exact isDone_of_isApplied hx.held
    · exact (hfails.each l hl).done
    · exact absurd hx.stream hstream

theorem AssetListing.final (h : AssetListing d) (ht : d.r.status.terminal = true) :
    Final d := by
  cases h.life with
  | escrowing hat | held hat | delivering hat | refunding hat | returning hat => exact hat.final ht
  | refused hat hlegs ha hdone hrefused =>
    exact hat.final_closed (by decide) (by simp [hlegs, hdone])
  | delivered hat hlegs ha hx happlied =>
    exact hat.final_closed (by decide)
      (by simp [hlegs, isDone_of_isApplied hx.held, isDone_of_isApplied happlied])
  | returned hat hlegs ha hfails hy happlied =>
    refine hat.final_closed (by decide) fun l hl => ?_
    simp only [hlegs, mem_cons, mem_append, not_mem_nil, or_false] at hl
    rcases hl with rfl | hl | rfl
    · exact isDone_of_isApplied hy.held
    · rcases hfails with rfl | ⟨x, rfl, -, hdone, -⟩
      · cases hl
      · rw [mem_singleton.1 hl]
        exact hdone
    · exact isDone_of_isApplied happlied

theorem MarketOrder.final (h : MarketOrder d) (ht : d.r.status.terminal = true) :
    Final d := by
  cases h.life with
  | escrowing hat | opened hat => exact hat.final ht
  | closing hclosing hlegs ha hdone hcredits =>
    rcases hclosing with ⟨-, hs⟩ | ⟨-, hs, -⟩ | ⟨hs, -, hall⟩ | ⟨hs, hstatus⟩
    · rw [hs] at ht
      cases ht
    · rw [hs] at ht
      cases ht
    · exact ⟨by simp [hs, finalStages], fun _ => hall⟩
    · exact ⟨by simp [hs, finalStages], fun hne => absurd hstatus hne⟩

theorem AuctionLot.final (h : AuctionLot d) (ht : d.r.status.terminal = true) :
    Final d := by
  cases h.life with
  | escrowing hat | opened hat => exact hat.final ht
  | @delivering a x y hpaying hlegs ha hbidder hx hy =>
    have hstream : y.stream = .tradeCredit := congrArg Purpose.stream hy
    exact hpaying.final rfl ht
      (by simp [hlegs, isDone_of_isApplied hx.held, hx.stream, hstream])
  | refused hpaying hlegs ha hdone hrefused =>
    exact hpaying.final rfl ht (by simp [hlegs, hdone])
  | returning hpaying hlegs ha hx =>
    exact hpaying.final rfl ht (by simp [hlegs, isDone_of_isApplied hx.held, hx.stream])

theorem AuctionBid.final (h : AuctionBid d) (ht : d.r.status.terminal = true) :
    Final d := by
  cases h.life with
  | freezing hat | frozen hat => exact hat.final ht
  | refused hpaying hlegs hb hdone hrefused =>
    exact hpaying.final rfl ht (by simp [hlegs, hdone])
  | settled hat hlegs hb hheld =>
    have hall : ∀ l ∈ d.w.legs, isDone l = true := by simp [hlegs, isDone_of_isApplied hheld]
    rcases hat with ⟨hs, -⟩ | ⟨hs, -⟩ <;> exact ⟨by simp [hs, finalStages], fun _ => hall⟩
  | returning hpaying hlegs hb hx =>
    exact hpaying.final rfl ht (by simp [hlegs, isDone_of_isApplied hx.held, hx.stream])

/-- A closed contract is in a final stage, and if it is not Manual its legs are final. -/
theorem Life.final (h : Life d) (ht : d.r.status.terminal = true) : Final d := by
  cases h with
  | official h =>
    rcases h.life with hat | ⟨⟨-, hopen⟩ | ⟨hs, -⟩, hall⟩
    · exact hat.final ht
    · rw [ht] at hopen
      cases hopen
    · exact ⟨by simp [hs, finalStages], fun _ => hall⟩
  | playerTrade h | consignment h | order h | lot h | bid h | assets h => exact h.final ht
  | fill h => exact h.paying.final rfl ht fun l hl hs => absurd (h.credits l hl) hs
  | character h =>
    have hnone : ∀ l ∈ d.w.legs, isDone l = true := by simp [h.legs]
    cases h.life with
    | live hat => exact hat.final ht
    | delivered hat | returned hat => exact hat.final_closed (by decide) hnone

/-! ## Steps of closed contracts -/

variable {d' : Draft}

theorem plan_final {p : Policy} {now : Nat} (hs : d.w.stage ∈ finalStages)
    (h : plan p now d = .ok d') : d' = d := by
  unfold plan at h
  split at h
  · unfold planRmb at h
    split at h
    · cases h
    split at h
    next heq =>
      simp [heq, finalStages] at hs
    next heq =>
      simp [heq, finalStages] at hs
    next heq =>
      simp [heq, finalStages] at hs
    · cases h
      rfl
  split at h
  next heq =>
    simp [heq, finalStages] at hs
  have hskip : Blocks.runBlocks (planBlocks p now) d = .ok d := by
    rw [planBlocks_eq]
    refine runBlocks_skip (List.Subset.refl _) ?_
    simp only [finalStages, mem_cons, not_mem_nil, or_false] at hs
    rcases hs with hs | hs | hs | hs <;> simp [guardedBlocks, hs]
  rw [hskip] at h
  cases h
  rfl

theorem Life.marketOrder (h : Life d) (hkind : d.r.kind = .marketMatch)
    (hside : d.r.side ≠ 0) : MarketOrder d := by
  cases h with
  | order h => exact h
  | fill h => exact absurd h.side hside
  | official h | playerTrade h | consignment h | lot h | bid h | assets h | character h =>
    simp [h.kind] at hkind

/-- The status is as before, and there are the same legs. -/
structure Frozen (d d' : Draft) : Prop where
  status : d'.r.status = d.r.status
  legs : d'.w.legs.map Leg.purpose = d.w.legs.map Leg.purpose

/-- The barrier lets the draft be: no match of a closed order is open. -/
def Undisturbed (t : Contracts) (id : CommerceId) (d : Draft) : Prop :=
  d.r.kind = .marketMatch → d.r.side ≠ 0 → d.w.stage = .done → unfinishedMatches t id = 0

theorem badMatches_le (t : Contracts) (id : CommerceId) :
    badMatches t id ≤ unfinishedMatches t id := by
  unfold badMatches unfinishedMatches
  refine List.Sublist.length_le (monotone_filter_right _ fun x => ?_)
  simp only [Bool.and_eq_true, decide_eq_true_eq]
  rintro ⟨hmatch, hstatus⟩
  exact ⟨hmatch, by simp [hstatus], by simp [hstatus]⟩

variable {cfg : Config} {t : Contracts} {e : Event} {id : CommerceId}

theorem advance_frozen {i : AdvanceInput} (h : Final d)
    (hmarket : d.r.kind = .marketMatch → d.r.side ≠ 0 →
      (d.w.stage = .manual ∧ d.r.status = .manual) ∨
        (d.w.stage = .done ∧ i.unfinished = 0 ∧ i.bad = 0))
    (hadvance : advanceDraft cfg.policy i d = .ok d') : Frozen d d' := by
  obtain ⟨legs, partly, hrecord, hrest⟩ := advanceDraft_ok hadvance
  have hpurpose := map_purpose_later (recordOutcomes_later hrecord)
  rcases hrest with ⟨rfl, rfl⟩ | ⟨-, d₁, legs', hplan, hlegs', rfl⟩
  · refine ⟨?_, hpurpose⟩
    by_contra hne
    rw [recordOutcomes_done (h.legs fun hs => hne hs.symm)] at hrecord
    cases hrecord
  · obtain rfl := plan_final (d := d.setLegs legs) h.stage hplan
    have hbarrier : Frozen (d.setLegs legs)
        (marketBarrier i.unfinished i.bad (d.setLegs legs)) := by
      by_cases horder : d.r.kind = .marketMatch ∧ d.r.side ≠ 0
      · have hm := hmarket horder.1 horder.2
        cases MarketOrder.marketBarrier_effect (d := d.setLegs legs) horder.1 horder.2 i.unfinished
            i.bad with
        | manual hbad heq =>
          rw [heq]
          rcases hm with ⟨-, hs⟩ | ⟨-, -, hzero⟩
          · exact ⟨hs.symm, rfl⟩
          · omega
        | waits hbad hs hopen heq =>
          rcases hm with ⟨hs', -⟩ | ⟨-, hzero, -⟩
          · cases hs.symm.trans hs'
          · omega
        | cancelled hbad hs hclosed heq =>
          rcases hm with ⟨hs', -⟩ | ⟨hs', -⟩ <;> exact absurd (hs.symm.trans hs') (by decide)
        | settled hbad hs hfilled hclosed heq =>
          rcases hm with ⟨hs', -⟩ | ⟨hs', -⟩ <;> exact absurd (hs.symm.trans hs') (by decide)
        | same hbad hdone heq =>
          rw [heq]
          exact ⟨rfl, rfl⟩
      · rw [marketBarrier, if_pos]
        · exact ⟨rfl, rfl⟩
        · rw [← not_and_or.trans (or_congr Iff.rfl not_not)]
          exact horder
    exact ⟨hbarrier.status, (map_purpose_later hlegs').trans (hbarrier.legs.trans hpurpose)⟩

/-- The seller's request to cancel the consignment `id` for money when it is Manual. -/
def CancelsManual (id : CommerceId) (s : World) (e : Event) : Prop :=
  ∃ d : Draft, s.contracts.get id = some d.row ∧ d.SellerCancels id e ∧
    d.r.kind = .rmbConsignment ∧ d.r.status = .manual

variable {s : World}

/-- A transaction leaves a closed contract as it is. -/
theorem DraftStep.frozen (hlife : Life d)
    (ht : d.r.status.terminal = true) (hget : s.contracts.get id = some d.row)
    (hok : ¬ CancelsManual id s e) (hquiet : Undisturbed s.contracts id d)
    (hstep : DraftStep cfg s.contracts e id d d') : Frozen d d' := by
  have hfinal := hlife.final ht
  -- A transaction that acts in another stage does not apply.
  have habsurd : ∀ {stage : Stage}, d.w.stage = stage → stage ∉ finalStages → Frozen d d' :=
    fun hs hne => absurd (hs ▸ hfinal.stage) hne
  cases hstep with
  | common hstep =>
    cases hstep with
    | confirmed hconfirm => exact habsurd (mutateConfirm_guard hconfirm).2 (by decide)
    | bought hbuy => exact habsurd (mutateBuy_ok hbuy).2.1 (by decide)
    | cancelled hcancel =>
      obtain ⟨-, ⟨-, hs | hs | hs⟩ | ⟨-, hs | hs | ⟨hs, -⟩⟩, -⟩ := mutateCancel_ok hcancel <;>
        exact habsurd hs (by decide)
    | advanced hchar hinput hadvance =>
      refine advance_frozen hfinal (fun hkind hside => ?_) hadvance
      have horder := hlife.marketOrder hkind hside
      have hs := horder.life.stage_mem
      have hs' := hfinal.stage
      obtain ⟨hunfinished, hbad, -⟩ := hinput.resolve_left (by simp [hkind])
      simp only [finalStages, mem_cons, not_mem_nil, or_false] at hs hs'
      rcases hs' with hs' | hs' | hs' | hs'
      · have hzero := hquiet hkind hside hs'
        have hle := badMatches_le s.contracts id
        exact .inr ⟨hs', by omega, by omega⟩
      · exact .inl ⟨hs', horder.life.by_stage.manual hs'⟩
      · simp [hs'] at hs
      · simp [hs'] at hs
    | quarantined he hdue heq =>
      cases hs : d.r.status <;> simp [hs, Status.isDue, Status.terminal] at hdue ht
  | rmb hkind hmove =>
    cases hmove with
    | cancelled he hguard heq =>
      refine absurd ⟨d, hget, he, hkind, ?_⟩ hok
      cases hs : d.r.status <;> simp_all [Status.terminal]
    | frozen hs heq | registering hs heq | listed hs heq | refundDecided hs heq
    | deliveryStarted hs heq | roleTransferred hs hchar heq => exact habsurd hs (by decide)
    | roleReturned hs heq =>
      rcases hs with hs | ⟨hs, -⟩ <;> exact habsurd hs (by decide)
    | unlisted hs heq | returned he hs heq =>
      rcases hs with hs | hs <;> exact habsurd hs (by decide)
    | saved heq =>
      subst heq
      exact ⟨rfl, rfl⟩
  | filled he hkind hside hopen hqty heq => exact habsurd (notOpen_iff.1 hopen).1 (by decide)
  | bidRefunded he hs heq => rcases hs with hs | hs <;> exact habsurd hs (by decide)
  | bidTaken he hs heq | bidSettled hs heq => exact habsurd hs (by decide)
  | lotTook he heligible heq => exact habsurd (eligible_iff.1 heligible).1 (by decide)

/-! ## Orders and their matches -/

theorem unfinishedMatches_eq_zero : unfinishedMatches t id = 0 ↔
    ∀ k c, t.get k = some c → isMatchOf id c.toRecord = true →
      c.status = .cancelled ∨ c.status = .settled := by
  unfold unfinishedMatches
  rw [length_eq_zero_iff, filter_eq_nil_iff]
  constructor
  · intro h k c hget hmatch
    have hk := h (k, c) (Table.mem_rows.2 hget)
    by_contra hne
    rw [not_or] at hne
    exact hk (by simp [hmatch, hne.1, hne.2])
  · rintro h ⟨k, c⟩ hmem hcond
    simp only [Bool.and_eq_true, decide_eq_true_eq, ne_eq] at hcond
    rcases h k c (Table.mem_rows.1 hmem) hcond.1 with hs | hs
    · exact hcond.2.1 hs
    · exact hcond.2.2 hs

theorem DraftStep.isMatchOf_eq (h : DraftStep cfg t e id d d')
    (order : CommerceId) : isMatchOf order d'.r = isMatchOf order d.r := by
  rcases h.row with ⟨status, buyer, hr⟩ | ⟨qty, -, -, -, -, -, rfl⟩
  · rw [hr]
    rfl
  · rfl

variable {c : Contract}

/-- A new row of the market is an order that is not open yet, or a match of open orders. -/
theorem Created.market (h : Created cfg t e id c) (hkind : c.kind = .marketMatch) :
    (∃ d : Draft, c = d.row ∧ NewOrder d) ∨
      ∃ (now price : Nat) (buy sell : Locked), e.isMatch = true ∧ Crossing t buy sell ∧
        (price = buy.d.r.unitPrice ∨ price = sell.d.r.unitPrice) ∧
        c = (newMatch now price (matchQuantity buy.d sell.d) buy sell).insert := by
  cases h with
  | matched he hcross hprice heq => exact .inr ⟨_, _, _, _, he, hcross, hprice, heq⟩
  | accepted haccept =>
    obtain ⟨d, rfl, hofficial⟩ := accept_ok haccept
    cases hofficial.kind.symm.trans hkind
  | requested he hdraft hcreate =>
    rename_i dir actor now me request d
    obtain ⟨seller, buyer, rfl⟩ := create_ok hcreate
    have hrequest : request.kind = .marketMatch := (draftOf_kind hdraft).symm.trans hkind
    cases request <;> cases hrequest
    obtain ⟨hterms, hstatus, hstage, hlegs, hfilled, hcancel⟩ := placeMarket_ok hdraft
    exact .inl ⟨_, rfl, hterms.congr rfl rfl rfl rfl rfl rfl rfl, hstatus, hstage, hlegs, hfilled,
      hcancel⟩

/-- The last step of an order is an advance that sees no open match. -/
theorem MarketOrder.done_step (h : MarketOrder d) (hstep : DraftStep cfg t e id d d')
    (hdone : d'.w.stage = .done) :
    (∃ dir seen results now opIds, e = .advance id dir seen results now opIds) ∧
      unfinishedMatches t id = 0 := by
  cases h.marketStep hstep with
  | cancelled hs heq =>
    subst heq
    change d.w.stage = .done at hdone
    simp [hdone] at hs
  | advanced hunfinished hbad he hadvance =>
    obtain ⟨dir, seen, he⟩ := he
    refine ⟨⟨dir, seen, _, _, _, he⟩, ?_⟩
    rw [← hunfinished]
    obtain ⟨legs, partly, hrecord, ⟨-, rfl⟩ | ⟨-, d₁, legs', hplan, -, rfl⟩⟩ :=
      advanceDraft_ok hadvance
    · cases hdone
    · have h₁ : MarketOrder d₁ := MarketOrder.plan_keeps
        (MarketOrder.closed.later h (recordOutcomes_later hrecord)) hplan
      have hside₁ : d₁.r.side ≠ 0 := by rcases h₁.terms.side with h | h <;> omega
      cases MarketOrder.marketBarrier_effect h₁.terms.kind hside₁ _ _ with
      | manual hbad heq | waits hbad hs hopen heq => rw [heq] at hdone; cases hdone
      | cancelled hbad hs hclosed heq | settled hbad hs hfilled hclosed heq => exact hclosed
      | same hbad hsame heq => rw [heq] at hdone; exact hsame hdone
  | quarantined heq =>
    subst heq
    cases hdone
  | filled hside hopen hqty heq =>
    subst heq
    cases (notOpen_iff.1 hopen).1.symm.trans hdone

/-- A draft that becomes an order's was one. -/
theorem Life.order_of (h : Life d) (hstep : DraftStep cfg t e id d d')
    (hkind : d'.r.kind = .marketMatch) (hside : d'.r.side ≠ 0) : MarketOrder d := by
  obtain ⟨hkind, hside⟩ : d.r.kind = .marketMatch ∧ d.r.side ≠ 0 := by
    rcases hstep.row with ⟨status, buyer, hr⟩ | ⟨qty, -, -, -, -, -, rfl⟩
    · rw [hr] at hkind hside
      exact ⟨hkind, hside⟩
    · exact ⟨hkind, hside⟩
  exact h.marketOrder hkind hside

theorem advance_get_of_ne {dir : Directory} {seen : PlayerId × PlayerId × PlayerId}
    {results : OpId → Option LegOutcome} {now : Nat} {opIds : Role → OpId} {k : CommerceId}
    (hne : k ≠ id) :
    (step cfg s (.advance id dir seen results now opIds)).contracts.get k =
      s.contracts.get k := by
  change Table.get (s.update id _).contracts k = s.contracts.get k
  unfold World.update
  split
  · rfl
  split
  · rfl
  · exact Table.get_put_of_ne hne

/-- All matches of an order that is done are closed. -/
def Quiet (t : Contracts) : Prop :=
  ∀ id d, t.get id = some (Draft.row d) → Undisturbed t id d

theorem isMatchOf_iff {order : CommerceId} {r : Record} : isMatchOf order r = true ↔
    r.kind = .marketMatch ∧ r.side = 0 ∧ (r.parentId = order ∨ r.counterpartyId = order) := by
  simp [isMatchOf, and_assoc]

/-- A new match belongs to orders that are open. -/
theorem Created.isMatchOf {k : CommerceId} (h : Created cfg t e k c)
    (hmatch : isMatchOf id c.toRecord = true) (hget : t.get id = some d.row) :
    d.w.stage = .marketOpen := by
  obtain ⟨hkind, hside, hparent⟩ := isMatchOf_iff.1 hmatch
  rcases h.market hkind with ⟨d', rfl, hnew⟩ | ⟨now, price, buy, sell, -, hcross, -, rfl⟩
  · rcases hnew.terms.side with h | h <;> exact absurd (h.symm.trans hside) (by decide)
  rcases hparent with hid | hid
  · have hrow : some buy.d.row = some d.row := by rw [← hget, ← hid]; exact hcross.buyRow.symm
    cases draft_of_row (Option.some.inj hrow)
    exact (notOpen_iff.1 hcross.buyOpen).1
  · have hrow : some sell.d.row = some d.row := by rw [← hget, ← hid]; exact hcross.sellRow.symm
    cases draft_of_row (Option.some.inj hrow)
    exact (notOpen_iff.1 hcross.sellOpen).1

theorem step_quiet (hlife : Rows Life s.contracts) (hquiet : Quiet s.contracts) :
    Quiet (step cfg s e).contracts := by
  intro id d hget' hkind hside hdone
  rw [unfinishedMatches_eq_zero]
  intro k c hc hmatch
  rcases step_draft hlife hget' with hget | ⟨d₀, d', hget, hd₀, hstep, heq⟩ | ⟨-, hnew⟩
  · -- The order is as it was: none of its matches was open, and none is new.
    have hclosed := unfinishedMatches_eq_zero.1 (hquiet id d hget hkind hside hdone)
    rcases step_draft hlife hc with hk | ⟨f, f', hk, hf, hstep, rfl⟩ | ⟨-, hnew⟩
    · exact hclosed k c hk hmatch
    · have hmatch : isMatchOf id f.r = true := (hstep.isMatchOf_eq id).symm.trans hmatch
      have hs := hclosed k _ hk hmatch
      have hterminal : f.r.status.terminal = true := by
        rcases hs with hs | hs <;> (change f.r.status = _ at hs; rw [hs]; rfl)
      have hok : ¬ CancelsManual k s e := by
        rintro ⟨g, hg, -, hkind, -⟩
        cases draft_of_row (Option.some_inj.1 (hk.symm.trans hg))
        cases (isMatchOf_iff.1 hmatch).1.symm.trans hkind
      have hfrozen := hstep.frozen hf hterminal hk hok (hquiet k f hk)
      rcases hs with hs | hs
      · exact .inl (hfrozen.status.trans hs)
      · exact .inr (hfrozen.status.trans hs)
    · cases (hnew.isMatchOf hmatch hget).symm.trans hdone
  · -- The order came to its end just now, in an advance that changed no other row.
    cases draft_of_row heq
    have horder : MarketOrder d₀ := hd₀.order_of hstep hkind hside
    obtain ⟨⟨dir, seen, results, now, opIds, rfl⟩, hzero⟩ := horder.done_step hstep hdone
    by_cases hk : k = id
    · subst hk
      rw [hget'] at hc
      cases hc
      exact absurd (isMatchOf_iff.1 hmatch).2.1 hside
    · rw [advance_get_of_ne hk] at hc
      exact unfinishedMatches_eq_zero.1 hzero k c hc hmatch
  · rcases hnew.market hkind with ⟨d', heq, hnew⟩ | ⟨now, price, buy, sell, -, -, -, heq⟩
    · cases draft_of_row heq
      cases hnew.stage.symm.trans hdone
    · exact absurd (congrArg (fun c => c.side) heq) hside

theorem run_quiet (es : List Event) : Quiet (run (step cfg) World.empty es).contracts := by
  have h : Rows Life (run (step cfg) World.empty es).contracts ∧
      Quiet (run (step cfg) World.empty es).contracts :=
    run_invariant (I := fun s : World => Rows Life s.contracts ∧ Quiet s.contracts)
      (fun _ _ hs => ⟨step_life hs.1, step_quiet hs.1 hs.2⟩)
      ⟨Rows.empty Life, fun id d h => by simp [World.empty] at h⟩ es
  exact h.2

/-! ## Closed contracts -/

def Contract.purposes (c : Contract) : List Purpose :=
  match c.workflow with
  | none => []
  | some w => w.legs.map Leg.purpose

def Stays (id : CommerceId) (c : Contract) (t : Contracts) : Prop :=
  ∃ c', t.get id = some c' ∧ c'.status = c.status ∧ c'.purposes = c.purposes

theorem step_stays (hlife : Rows Life s.contracts)
    (hquiet : Quiet s.contracts) (ht : c.status.terminal = true) (hok : ¬ CancelsManual id s e)
    (h : Stays id c s.contracts) : Stays id c (step cfg s e).contracts := by
  obtain ⟨c₀, hget, hstatus, hpurposes⟩ := h
  cases (step_row e id : RowChange cfg s.contracts e _ id) with
  | same hsame => exact ⟨c₀, hsame.trans hget, hstatus, hpurposes⟩
  | created hnone => cases hget.symm.trans hnone
  | stepped hget₁ hget' hstep =>
    cases hget.symm.trans hget₁
    obtain ⟨d, rfl, hd⟩ := hlife id _ hget
    rcases hstep.stepped with rfl | ⟨d', hd', rfl⟩
    · exact ⟨_, hget', hstatus, hpurposes⟩
    · have hfrozen := hd'.frozen hd (hstatus ▸ ht) hget hok (hquiet id d hget)
      exact ⟨_, hget', hfrozen.status.trans hstatus, hfrozen.legs.trans hpurposes⟩

/-- A contract that is Settled, Cancelled or Manual keeps its status and gets no further leg,
unless it is a consignment for money that is Manual and its seller cancels it. -/
theorem terminal_stays (cfg : Config) (es es' : List Event) (id : CommerceId) (c : Contract)
    (hget : (Machine.run (step cfg) World.empty es).contracts.get id = some c)
    (ht : c.status.terminal = true)
    (hok : Machine.Admits (step cfg) (fun s e => ¬ CancelsManual id s e)
      (Machine.run (step cfg) World.empty es) es') :
    ∃ c', (Machine.run (step cfg) World.empty (es ++ es')).contracts.get id = some c' ∧
      c'.status = c.status ∧ c'.purposes = c.purposes := by
  rw [Machine.run_append]
  refine (Machine.run_invariant_of_admits
    (I := fun s : World => Rows Life s.contracts ∧ Quiet s.contracts ∧ Stays id c s.contracts)
    (fun s e hs hok => ⟨step_life hs.1, step_quiet hs.1 hs.2.1, ?_⟩) ?_ hok).2.2
  · exact step_stays hs.1 hs.2.1 ht hok hs.2.2
  · exact ⟨run_life es, run_quiet es, c, hget, rfl, rfl⟩

def lateRequests : List Event :=
  [.mutate 7 sampleDirectory none 1 (1, 2) 9 .cancel, .rmbCancel 7 sampleDirectory "a",
    sampleAdvance, .quarantine 7]

theorem terminal_stays_trade :
    ∃ c', (Machine.run (step sampleConfig) World.empty
        (sampleTrade ++ lateRequests)).contracts.get 7 = some c' ∧
      c'.status = .settled ∧ c'.purposes.length = 4 := by
  have hok : Machine.Admits (step sampleConfig) (fun s e => ¬ CancelsManual 7 s e)
      (Machine.run (step sampleConfig) World.empty sampleTrade) lateRequests := by
    refine ⟨?_, ?_, ?_, ?_, trivial⟩ <;> rintro ⟨d, hget, ⟨_, _, _, he, -⟩, hkind, -⟩
    · cases he
    · have hkinds := congrArg (Option.map (·.kind)) hget
      exact absurd (hkinds.trans (congrArg some hkind)) (by decide)
    · cases he
    · cases he
  obtain ⟨c', hget, hstatus, hpurposes⟩ :=
    terminal_stays sampleConfig sampleTrade lateRequests 7 _ rfl rfl hok
  exact ⟨c', hget, hstatus, congrArg List.length hpurposes⟩

/-- The seller of a consignment that is Manual cancels it: its status changes. -/
def manualCancelled : List Event :=
  [.create 7 sampleDirectory none 0 1 (.rmb ⟨"a", 1, 0, { items := [(1, 2)] }, 100⟩),
    .quarantine 7, .rmbCancel 7 sampleDirectory "a"]

theorem manual_not_kept : ¬ ∀ (cfg : Config) (es es' : List Event) (id : CommerceId) (c : Contract),
    (Machine.run (step cfg) World.empty es).contracts.get id = some c →
    c.status.terminal = true →
    ∃ c', (Machine.run (step cfg) World.empty (es ++ es')).contracts.get id = some c' ∧
      c'.status = c.status ∧ c'.purposes = c.purposes := by
  intro h
  obtain ⟨c', hget, hstatus, -⟩ := h sampleConfig (manualCancelled.take 2) (manualCancelled.drop 2)
    7 _ rfl rfl
  cases hget
  cases hstatus

end Mmorpg.Commerce
