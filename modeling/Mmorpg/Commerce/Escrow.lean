import Mmorpg.Commerce.Lifecycle

/-!
# Escrow is conserved

Of player trades, consignments and assets for money: every credit pays out one applied debit of
the same contract, no debit is paid out twice, a settled contract has delivered every applied debit
to the other party, and a cancelled one has given it back (`Conserved`).
-/

namespace Mmorpg.Commerce

open List

def isFailed (l : Leg) : Bool := isDone l && !isApplied l

/-- Whoever is to receive what the leg has taken. -/
def Draft.counterparty (d : Draft) (a : Leg) : PlayerId :=
  if a.role = .sellerDebit then d.r.buyerPlayerId else d.r.sellerPlayerId

/-- The credits of a contract account for its debits; `source c` is the debit that `c` pays out. -/
structure Accounts (d : Draft) (source : Leg → Leg) : Prop where
  distinct : (d.w.legs.map (·.role)).Nodup
  pays : ∀ c ∈ d.w.legs, c.stream = .tradeCredit →
    source c ∈ d.w.legs ∧ (source c).stream = .tradeDebit ∧ isApplied (source c) = true ∧
      transfer (source c).bundle (source c).snapshot = some c.bundle
  once : ∀ c ∈ d.w.legs, ∀ c' ∈ d.w.legs, c.stream = .tradeCredit → c'.stream = .tradeCredit →
    isFailed c = false → isFailed c' = false → source c = source c' → c = c'
  settled : d.r.status = .settled → ∀ a ∈ d.w.legs, a.stream = .tradeDebit → isApplied a = true →
    ∃ c ∈ d.w.legs, c.stream = .tradeCredit ∧ isApplied c = true ∧ source c = a ∧
      c.playerId = d.counterparty a
  cancelled : d.r.status = .cancelled → ∀ a ∈ d.w.legs, a.stream = .tradeDebit →
    isApplied a = true → ∃ c ∈ d.w.legs, c.stream = .tradeCredit ∧ isApplied c = true ∧
      source c = a ∧ c.playerId = a.playerId

def Conserved (d : Draft) : Prop := ∃ source, Accounts d source

def Status.closed (s : Status) : Prop := s = .settled ∨ s = .cancelled

/-- Whoever is to receive what the leg has taken when the contract is closed. -/
def Draft.payee (d : Draft) (a : Leg) : PlayerId :=
  if d.r.status = .settled then d.counterparty a else a.playerId

variable {d : Draft} {stage : Stage}

theorem At.not_closed (h : At d stage) : ¬ d.r.status.closed := by
  rintro (hs | hs) <;> rcases h with ⟨-, hstatus⟩ | ⟨-, hstatus⟩ <;>
    simp [hs, Status.terminal] at hstatus

theorem Standing.not_closed (h : Standing d stage Status.live) :
    ¬ d.r.status.closed := by
  rintro (hs | hs) <;> rcases h with ⟨-, hstatus⟩ | ⟨-, hstatus | hstatus⟩ <;>
    simp [hs, Status.live, Status.terminal] at hstatus

/-! ## Shapes of the legs -/

variable {player : PlayerId} {v : TradeAssetSelection}

section Shapes

variable {d : Draft} {a b x y : Leg} (source : Leg → Leg)

/-- A closed contract has paid out every applied debit. -/
theorem conserved_paid (hdistinct : (d.w.legs.map (·.role)).Nodup)
    (hpays : ∀ c ∈ d.w.legs, c.stream = .tradeCredit →
      source c ∈ d.w.legs ∧ (source c).stream = .tradeDebit ∧ isApplied (source c) = true ∧
      transfer (source c).bundle (source c).snapshot = some c.bundle)
    (honce : ∀ c ∈ d.w.legs, ∀ c' ∈ d.w.legs, c.stream = .tradeCredit →
      c'.stream = .tradeCredit → isFailed c = false → isFailed c' = false →
      source c = source c' → c = c')
    (hpaid : d.r.status.closed → ∀ l ∈ d.w.legs, l.stream = .tradeDebit → isApplied l = true →
      ∃ c ∈ d.w.legs, c.stream = .tradeCredit ∧ isApplied c = true ∧ source c = l ∧
        c.playerId = d.payee l) : Conserved d := by
  refine ⟨source, hdistinct, hpays, honce, fun hs l hl hstream happlied => ?_,
    fun hs l hl hstream happlied => ?_⟩
  · have hpayee : d.payee l = d.counterparty l := if_pos hs
    exact hpayee ▸ hpaid (.inl hs) l hl hstream happlied
  · have hpayee : d.payee l = l.playerId := if_neg (by simp [hs])
    exact hpayee ▸ hpaid (.inr hs) l hl hstream happlied

/-- No credit is under way or applied, and no closed contract has taken anything. -/
theorem conserved_open (hdistinct : (d.w.legs.map (·.role)).Nodup)
    (hcredits : ∀ c ∈ d.w.legs, c.stream = .tradeCredit → isFailed c = true ∧
      source c ∈ d.w.legs ∧ (source c).stream = .tradeDebit ∧ isApplied (source c) = true ∧
      transfer (source c).bundle (source c).snapshot = some c.bundle)
    (hclosed : d.r.status.closed → ∀ l ∈ d.w.legs, isApplied l = false) : Conserved d := by
  refine conserved_paid source hdistinct (fun c hc hs => (hcredits c hc hs).2) ?_ ?_
  · intro c hc c' _ hs _ hnot
    rw [(hcredits c hc hs).1] at hnot
    cases hnot
  · intro hstatus l hl _ happlied
    rw [hclosed hstatus l hl] at happlied
    cases happlied

theorem conserved_debits (hdistinct : (d.w.legs.map (·.role)).Nodup)
    (hdebits : ∀ l ∈ d.w.legs, l.stream = .tradeDebit)
    (hclosed : d.r.status.closed → ∀ l ∈ d.w.legs, isApplied l = false) : Conserved d := by
  refine conserved_open id hdistinct (fun c hc hs => ?_) hclosed
  rw [hdebits c hc] at hs
  cases hs

theorem conserved_collecting {role : Role}
    (hlegs : d.w.legs = [] ∨ ∃ a : Leg, d.w.legs = [a] ∧ a.Debit role player v)
    (hopen : ¬ d.r.status.closed) : Conserved d := by
  rcases hlegs with hlegs | ⟨a, hlegs, ha⟩
  · exact conserved_debits (by simp [hlegs]) (by simp [hlegs]) fun h => absurd h hopen
  · exact conserved_debits (by simp [hlegs]) (by simp [hlegs, ha.stream]) fun h => absurd h hopen

/-- One debit was applied, and one credit pays it out. -/
theorem conserved_single (others : List Leg) {role : Role}
    (hmem : ∀ l, l ∈ d.w.legs ↔ l = a ∨ l ∈ others ∨ l = x)
    (hdistinct : (d.w.legs.map (·.role)).Nodup) (ha : a.stream = .tradeDebit)
    (hx : x.Pays role player a)
    (hothers : ∀ l ∈ others, isFailed l = true ∧
      (l.stream = .tradeCredit → transfer a.bundle a.snapshot = some l.bundle))
    (hclosed : d.r.status.closed → isApplied x = true ∧ player = d.payee a) :
    Conserved d := by
  refine conserved_paid (fun _ => a) hdistinct ?_ ?_ ?_
  · intro c hc hs
    refine ⟨(hmem a).2 (.inl rfl), ha, hx.held, ?_⟩
    rcases (hmem c).1 hc with rfl | hc | rfl
    · rw [ha] at hs
      cases hs
    · exact (hothers c hc).2 hs
    · exact hx.source
  · have hlive : ∀ c ∈ d.w.legs, c.stream = .tradeCredit → isFailed c = false → c = x := by
      intro c hc hs hnot
      rcases (hmem c).1 hc with rfl | hc | rfl
      · rw [ha] at hs
        cases hs
      · rw [(hothers c hc).1] at hnot
        cases hnot
      · rfl
    intro c hc c' hc' hs hs' hnot hnot' _
    rw [hlive c hc hs hnot, hlive c' hc' hs' hnot']
  · intro hstatus l hl hs happlied
    obtain ⟨happlied', hplayer⟩ := hclosed hstatus
    -- An applied debit can only be the first leg.
    rcases (hmem l).1 hl with rfl | hl | rfl
    · exact ⟨x, (hmem x).2 (.inr (.inr rfl)), hx.stream, happlied', rfl, hx.player.trans hplayer⟩
    · have hfailed := (hothers l hl).1
      simp [isFailed, happlied] at hfailed
    · rw [hx.stream] at hs
      cases hs

/-- Two debits were applied, and two credits pay them out. -/
theorem conserved_pair (others : List Leg) {rx ry : Role} {px py : PlayerId}
    (hmem : ∀ l, l ∈ d.w.legs ↔ l = a ∨ l = b ∨ l ∈ others ∨ l = x ∨ l = y)
    (hdistinct : (d.w.legs.map (·.role)).Nodup)
    (ha : a.stream = .tradeDebit) (hb : b.stream = .tradeDebit)
    (hothers : ∀ l ∈ others, isApplied l = false ∧ l.stream = .tradeDebit)
    (hx : x.Pays rx px a) (hy : y.Pays ry py b) (hne : rx ≠ ry) (hab : a ≠ b)
    (hclosed : d.r.status.closed → isApplied x = true ∧ isApplied y = true ∧
      px = d.payee a ∧ py = d.payee b) : Conserved d := by
  have hcredit : ∀ c ∈ d.w.legs, c.stream = .tradeCredit → c = x ∨ c = y := by
    intro c hc hs
    rcases (hmem c).1 hc with rfl | rfl | hc | hc
    · simp [ha] at hs
    · simp [hb] at hs
    · simp [(hothers c hc).2] at hs
    · exact hc
  have hsx : (if x.role = rx then a else b) = a := if_pos hx.role
  have hsy : (if y.role = rx then a else b) = b := if_neg (by rw [hy.role]; exact hne.symm)
  refine conserved_paid (fun c => if c.role = rx then a else b) hdistinct ?_ ?_ ?_
  · intro c hc hs
    rcases hcredit c hc hs with rfl | rfl
    · rw [hsx]
      exact ⟨(hmem a).2 (.inl rfl), ha, hx.held, hx.source⟩
    · rw [hsy]
      exact ⟨(hmem b).2 (.inr (.inl rfl)), hb, hy.held, hy.source⟩
  · intro c hc c' hc' hs hs' _ _ heq
    rcases hcredit c hc hs with rfl | rfl <;> rcases hcredit c' hc' hs' with rfl | rfl
    · rfl
    · rw [hsx, hsy] at heq
      exact absurd heq hab
    · rw [hsx, hsy] at heq
      exact absurd heq.symm hab
    · rfl
  · intro hstatus l hl hs happlied
    obtain ⟨hxa, hya, hpx, hpy⟩ := hclosed hstatus
    rcases (hmem l).1 hl with rfl | rfl | hl | rfl | rfl
    · exact ⟨x, (hmem x).2 (by simp), hx.stream, hxa, hsx, hx.player.trans hpx⟩
    · exact ⟨y, (hmem y).2 (by simp), hy.stream, hya, hsy, hy.player.trans hpy⟩
    · simp [(hothers l hl).1] at happlied
    · simp [hx.stream] at hs
    · simp [hy.stream] at hs

end Shapes

/-! ## The kinds of contracts -/

/-- A contract that pays out is closed in one way only, and then all its credits are applied. -/
theorem Paying.closed {status closed : Status}
    (h : Paying d stage status closed) (hstatus : status.terminal = false)
    (hclosed : d.r.status.closed) :
    d.r.status = closed ∧ ∀ l ∈ d.w.legs, l.stream = .tradeCredit → isApplied l = true := by
  rcases h with ⟨-, h⟩ | ⟨-, h⟩ | ⟨-, h, happlied⟩
  · rw [← h] at hstatus
    rcases hclosed with hs | hs <;> rw [hs] at hstatus <;> cases hstatus
  · rcases hclosed with hs | hs <;> rw [hs] at h <;> cases h
  · exact ⟨h, happlied⟩

/-- A cancelled contract has given back what it held. -/
theorem Paying.returned {status : Status} {a x : Leg} {role role' : Role}
    (h : Paying d stage status .cancelled) (hstatus : status.terminal = false) (hmem : x ∈ d.w.legs)
    (ha : a.Debit role player v) (hx : x.Pays role' player a) (hclosed : d.r.status.closed) :
    isApplied x = true ∧ player = d.payee a := by
  obtain ⟨hs, happlied⟩ := h.closed hstatus hclosed
  exact ⟨happlied x hmem hx.stream, by simp [Draft.payee, hs, ha.player]⟩

theorem PlayerTrade.conserved (h : PlayerTrade d) : Conserved d := by
  cases h.life with
  | offered hat hconfirmed hlegs =>
    exact conserved_collecting hlegs hat.not_closed
  | held hat hconfirmed hlegs ha hheld =>
    refine conserved_debits (by simp [hlegs]) (by simp [hlegs, ha.stream])
      fun hclosed => absurd hclosed ?_
    rcases hat with hat | hat <;> exact hat.not_closed
  | collecting hat hconfirmed hlegs ha hheld hb
  | collected hat hconfirmed hlegs ha hheld hb hdone hrefused
  | agreed hat hlegs ha hheld hb hpaid =>
    exact conserved_debits (by simp [hlegs, ha.role, hb.role])
      (by simp [hlegs, ha.stream, hb.stream]) fun hclosed => absurd hclosed hat.not_closed
  | @crossing a b x y hpaying hlegs ha hb hx hy =>
    refine conserved_pair [] (by simp [hlegs, or_left_comm])
      (by simp [hlegs, ha.role, hb.role, hx.role, hy.role]) hb.stream ha.stream (by simp) hx hy
      (by decide) ?_ fun hclosed => ?_
    · rintro rfl
      cases ha.role.symm.trans hb.role
    · obtain ⟨hs, happlied⟩ := hpaying.closed rfl hclosed
      exact ⟨happlied x (by simp [hlegs]) hx.stream, happlied y (by simp [hlegs]) hy.stream,
        by simp [Draft.payee, hs, Draft.counterparty, hb.role],
        by simp [Draft.payee, hs, Draft.counterparty, ha.role]⟩
  | refused hpaying hlegs ha hdone hrefused =>
    exact conserved_debits (by simp [hlegs]) (by simp [hlegs, ha.stream])
      fun _ => by simp [hlegs, hrefused]
  | @returning a x hpaying hlegs ha hx =>
    exact conserved_single [] (by simp [hlegs]) (by simp [hlegs, ha.role, hx.role])
      ha.stream hx (by simp) (hpaying.returned rfl (by simp [hlegs]) ha hx)
  | @returningRefused a b x hpaying hlegs ha hb hdone hrefused hx =>
    exact conserved_single [b] (by simp [hlegs])
      (by simp [hlegs, ha.role, hb.role, hx.role]) ha.stream hx
      (by simp [isFailed, hdone, hrefused, hb.stream])
      (hpaying.returned rfl (by simp [hlegs]) ha hx)
  | @returningBoth a b x y hpaying hlegs ha hb hx hy =>
    refine conserved_pair [] (by simp [hlegs])
      (by simp [hlegs, ha.role, hb.role, hx.role, hy.role]) ha.stream hb.stream (by simp) hx hy
      (by decide) ?_ fun hclosed => ?_
    · rintro rfl
      cases ha.role.symm.trans hb.role
    · obtain ⟨hxa, hpx⟩ := hpaying.returned rfl (by simp [hlegs]) ha hx hclosed
      obtain ⟨hya, hpy⟩ := hpaying.returned rfl (by simp [hlegs]) hb hy hclosed
      exact ⟨hxa, hya, hpx, hpy⟩

/-- The roles of the debits of the buyers and of the other legs are distinct. -/
theorem FailedPays.distinct_cons {n : Nat} {fails rest : List Leg} {a : Leg}
    (h : FailedPays n fails) (ha : a.role = .sellerDebit)
    (hrest : (rest.map (·.role)).Nodup)
    (hnew : ∀ l ∈ rest, l.role ≠ .sellerDebit ∧ ∀ m key, m ≤ n → l.role ≠ .buyerPay m (some key)) :
    ((a :: (fails ++ rest)).map (·.role)).Nodup := by
  rw [map_cons, map_append, nodup_cons, nodup_append]
  refine ⟨?_, h.distinct, hrest, ?_⟩
  · simp only [mem_append, mem_map, not_or, not_exists, not_and]
    refine ⟨fun l hl heq => ?_, fun l hl heq => (hnew l hl).1 (heq.trans ha)⟩
    obtain ⟨m, key, -, hrole⟩ := (h.each l hl).role
    rw [hrole, ha] at heq
    cases heq
  · simp only [mem_map]
    rintro _ ⟨l, hl, rfl⟩ _ ⟨l', hl', rfl⟩ heq
    obtain ⟨m, key, hm, hrole⟩ := (h.each l hl).role
    exact (hnew l' hl').2 m key hm (heq.symm.trans hrole)

theorem Consignment.conserved (h : Consignment d) : Conserved d := by
  cases h.life with
  | escrowing hat hlegs =>
    exact conserved_collecting hlegs hat.not_closed
  | @opened a fails hat hlegs ha hheld hfails =>
    refine conserved_debits ?_ ?_ fun hclosed => absurd hclosed hat.not_closed
    · have hroles : ((a :: (fails ++ [])).map (·.role)).Nodup :=
        hfails.distinct_cons ha.role (by simp) (by simp)
      rwa [hlegs, ← append_nil fails]
    · rw [hlegs]
      exact forall_mem_cons.2 ⟨ha.stream, fun l hl => (hfails.each l hl).stream⟩
  | paying hat hlegs ha hheld hn hfails hb =>
    obtain ⟨key, hrole⟩ := hb.role
    refine conserved_debits ?_ ?_ fun hclosed => absurd hclosed hat.not_closed
    · rw [hlegs]
      refine hfails.distinct_cons ha.role (by simp) fun l hl => ?_
      rw [mem_singleton.1 hl, hrole, hn]
      refine ⟨by simp, fun m k hm heq => ?_⟩
      injection heq with hmn
      omega
    · rw [hlegs]
      refine forall_mem_cons.2 ⟨ha.stream, forall_mem_append.2 ⟨fun l hl => ?_, ?_⟩⟩
      · exact (hfails.each l hl).stream
      · exact forall_mem_singleton.2 hb.stream
  | @delivering a b x y n fails hpaying hlegs ha hn hfails hb hx hy =>
    obtain ⟨key, hrole⟩ := hb.role
    have hdistinct : (d.w.legs.map (·.role)).Nodup := by
      rw [hlegs]
      refine hfails.distinct_cons ha.role (by simp [hrole, hx.role, hy.role]) ?_
      simp only [mem_cons, not_mem_nil, or_false, forall_eq_or_imp, forall_eq, hrole,
        hx.role, hy.role, hn]
      refine ⟨⟨by simp, fun m k hm heq => ?_⟩, by simp, by simp⟩
      injection heq with hmn
      omega
    refine conserved_pair fails (by simp [hlegs, or_left_comm]) hdistinct ha.stream
      hb.stream (fun l hl => ⟨(hfails.each l hl).refused, (hfails.each l hl).stream⟩) hx hy
      (by decide) ?_ fun hclosed => ?_
    · rintro rfl
      rw [ha.role] at hrole
      cases hrole
    · obtain ⟨hs, happlied⟩ := hpaying.closed rfl hclosed
      exact ⟨happlied x (by simp [hlegs]) hx.stream, happlied y (by simp [hlegs]) hy.stream,
        by simp [Draft.payee, hs, Draft.counterparty, ha.role],
        by simp [Draft.payee, hs, Draft.counterparty, hrole]⟩
  | refused hpaying hlegs ha hdone hrefused =>
    exact conserved_debits (by simp [hlegs]) (by simp [hlegs, ha.stream])
      fun _ => by simp [hlegs, hrefused]
  | @returning a x fails hpaying hlegs ha hfails hx =>
    have hdistinct : (d.w.legs.map (·.role)).Nodup := by
      rw [hlegs]
      exact hfails.distinct_cons ha.role (by simp) (by simp [hx.role])
    have hothers : ∀ l ∈ fails, isFailed l = true ∧
        (l.stream = .tradeCredit → transfer a.bundle a.snapshot = some l.bundle) := by
      intro l hl
      have hfail := hfails.each l hl
      refine ⟨by simp [isFailed, hfail.done, hfail.refused], fun hs => ?_⟩
      simp [hfail.stream] at hs
    exact conserved_single fails (by simp [hlegs]) hdistinct ha.stream hx hothers
      (hpaying.returned rfl (by simp [hlegs]) ha hx)

theorem AssetListing.conserved (h : AssetListing d) : Conserved d := by
  -- A consignment that stands in a closed stage has its status.
  have hstatus : ∀ {stage : Stage} {closed : Status}, Standing d stage (· = closed) →
      d.r.status.closed → d.r.status = closed := by
    rintro stage closed (⟨-, h⟩ | ⟨-, h | h⟩) hclosed
    · exact h
    · rcases hclosed with hs | hs <;> rw [hs] at h <;> cases h
    · rcases hclosed with hs | hs <;> rw [hs] at h <;> cases h
  have hfailed : ∀ {a : Leg} {fails : List Leg}, FailedCredit d.r.buyerPlayerId a fails →
      ∀ l ∈ fails, l.role = .rmbBuyerCredit ∧ isFailed l = true ∧
        transfer a.bundle a.snapshot = some l.bundle := by
    intro a fails hfails l hl
    rcases hfails with rfl | ⟨x, rfl, hx, hdone, hrefused⟩
    · cases hl
    · obtain rfl := mem_singleton.1 hl
      exact ⟨hx.role, by simp [isFailed, hdone, hrefused], hx.source⟩
  have hroles : ∀ {a : Leg} {fails : List Leg}, FailedCredit d.r.buyerPlayerId a fails →
      fails.map (·.role) = [] ∨ fails.map (·.role) = [.rmbBuyerCredit] := by
    rintro a fails (rfl | ⟨x, rfl, hx, -⟩)
    · exact .inl rfl
    · exact .inr (by simp [hx.role])
  cases h.life with
  | escrowing hat hlegs =>
    exact conserved_collecting hlegs hat.not_closed
  | refused hat hlegs ha hdone hrefused =>
    exact conserved_debits (by simp [hlegs]) (by simp [hlegs, ha.stream])
      fun _ => by simp [hlegs, hrefused]
  | held hat hstage hlegs ha hheld =>
    exact conserved_debits (by simp [hlegs]) (by simp [hlegs, ha.stream])
      fun hclosed => absurd hclosed hat.not_closed
  | delivering hat hlegs ha hx =>
    exact conserved_single [] (by simp [hlegs]) (by simp [hlegs, ha.role, hx.role])
      ha.stream hx (by simp) fun hclosed => absurd hclosed hat.not_closed
  | delivered hat hlegs ha hx happlied =>
    refine conserved_single [] (by simp [hlegs]) (by simp [hlegs, ha.role, hx.role])
      ha.stream hx (by simp) fun hclosed => ⟨happlied, ?_⟩
    simp [Draft.payee, hstatus hat hclosed, Draft.counterparty, ha.role]
  | @refunding a fails stage hat hstage hlegs ha hheld hfails =>
    refine conserved_open (fun _ => a) ?_ (fun c hc hs => ?_)
      fun hclosed => absurd hclosed hat.not_closed
    · rw [hlegs, map_cons, ha.role]
      rcases hroles hfails with h | h <;> simp [h]
    · rw [hlegs, mem_cons] at hc
      rcases hc with rfl | hc
      · simp [ha.stream] at hs
      · obtain ⟨-, hfail, hsource⟩ := hfailed hfails c hc
        exact ⟨hfail, by simp [hlegs], ha.stream, hheld, hsource⟩
  | returning hat hlegs ha hfails hy =>
    refine conserved_single _ (by simp [hlegs]) ?_ ha.stream hy
      (fun l hl => ⟨(hfailed hfails l hl).2.1, fun _ => (hfailed hfails l hl).2.2⟩)
      fun hclosed => absurd hclosed hat.not_closed
    rw [hlegs, map_cons, map_append, ha.role]
    rcases hroles hfails with h | h <;> simp [h, hy.role]
  | returned hat hlegs ha hfails hy happlied =>
    refine conserved_single _ (by simp [hlegs]) ?_ ha.stream hy
      (fun l hl => ⟨(hfailed hfails l hl).2.1, fun _ => (hfailed hfails l hl).2.2⟩)
      fun hclosed => ⟨happlied, by simp [Draft.payee, hstatus hat hclosed, ha.player]⟩
    rw [hlegs, map_cons, map_append, ha.role]
    rcases hroles hfails with h | h <;> simp [h, hy.role]

/-! ## All runs -/

/-- Contracts whose escrow stays within one row. -/
def Contract.isExchange (c : Contract) : Bool :=
  c.kind = .playerTrade || c.kind = .consignment || (c.kind = .rmbConsignment && !c.isCharacter)

/-- **In every reachable table, player trades, consignments and assets for money conserve what they
escrow.** -/
theorem escrow_conserved (cfg : Config) (es : List Event) (id : CommerceId) (c : Contract)
    (hget : (Machine.run (step cfg) World.empty es).contracts.get id = some c)
    (hkind : c.isExchange = true) : ∃ d : Draft, c = d.row ∧ Conserved d := by
  obtain ⟨d, rfl, hlife⟩ := run_life es id c hget
  refine ⟨d, rfl, ?_⟩
  have hwrong : ∀ {k : Kind}, d.r.kind = k → k ≠ .playerTrade → k ≠ .consignment →
      k ≠ .rmbConsignment → Conserved d := by
    intro k hk h₁ h₂ h₃
    simp [Contract.isExchange, hk, h₁, h₂, h₃] at hkind
  cases hlife with
  | official h | fill h | lot h | bid h => exact hwrong h.kind (by decide) (by decide) (by decide)
  | playerTrade h | consignment h | assets h => exact h.conserved
  | order h => exact hwrong h.terms.kind (by decide) (by decide) (by decide)
  | character h =>
    obtain ⟨terms, hterms, hchar⟩ := h.terms
    simp [Contract.isExchange, h.kind, isCharacter_row hterms, hchar] at hkind

theorem escrow_conserved_trade :
    ∃ c, (Machine.run (step sampleConfig) World.empty sampleTrade).contracts.get 7 = some c ∧
      c.status = .settled ∧ ∃ d : Draft, c = d.row ∧ Conserved d :=
  ⟨_, rfl, rfl, escrow_conserved sampleConfig sampleTrade 7 _ rfl rfl⟩

end Mmorpg.Commerce
