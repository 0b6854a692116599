import Mmorpg.Commerce.Life

/-!
# The life of a consignment

The legs of a consignment for a currency (kind 3) in every phase. The debit of the seller comes
first, then the debits of the buyers, of which all but the last one were refused, then the credits.
-/

namespace Mmorpg.Commerce

open List

open Blocks (bind_eq_ok Keeps Skips Flow runBlocks_keeps)

structure Leg.FailedPay (l : Leg) (n : Nat) : Prop where
  role : ∃ m key, m ≤ n ∧ l.role = .buyerPay m (some key)
  stream : l.stream = .tradeDebit
  done : isDone l = true
  refused : isApplied l = false

/-- The refused debits of the purchases up to the `n`-th. -/
structure FailedPays (n : Nat) (fails : List Leg) : Prop where
  each : ∀ l ∈ fails, l.FailedPay n
  distinct : (fails.map (·.role)).Nodup

structure Leg.PayDebit (l : Leg) (n : Nat) (player : PlayerId) : Prop where
  role : ∃ key, l.role = .buyerPay n (some key)
  player : l.playerId = player
  stream : l.stream = .tradeDebit

abbrev Draft.PayDebit (d : Draft) (b : Leg) : Prop :=
  b.PayDebit d.w.quantityReserved d.r.buyerPlayerId

inductive SaleLife (d : Draft) : Prop where
  | escrowing (hat : At d .escrow) (hlegs : d.w.legs = [] ∨ ∃ a, d.w.legs = [a] ∧ d.SellerDebit a)
  | opened {a : Leg} {fails : List Leg} (hat : At d .opened) (hlegs : d.w.legs = a :: fails)
      (ha : d.SellerDebit a) (hheld : isApplied a = true)
      (hfails : FailedPays d.w.quantityReserved fails)
  | paying {a b : Leg} {n : Nat} {fails : List Leg} (hat : At d .pay)
      (hlegs : d.w.legs = a :: (fails ++ [b])) (ha : d.SellerDebit a) (hheld : isApplied a = true)
      (hn : d.w.quantityReserved = n + 1) (hfails : FailedPays n fails) (hb : d.PayDebit b)
  | delivering {a b x y : Leg} {n : Nat} {fails : List Leg}
      (hpaying : Paying d .deliver .delivering .settled)
      (hlegs : d.w.legs = a :: (fails ++ [b, x, y])) (ha : d.SellerDebit a)
      (hn : d.w.quantityReserved = n + 1) (hfails : FailedPays n fails) (hb : d.PayDebit b)
      (hx : x.Pays .buyerReceive d.r.buyerPlayerId a)
      (hy : y.Pays .sellerReceive d.r.sellerPlayerId b)
  | refused {a : Leg} (hpaying : Paying d .giveBack .cancelPending .cancelled)
      (hlegs : d.w.legs = [a]) (ha : d.SellerDebit a) (hdone : isDone a = true)
      (hrefused : isApplied a = false)
  | returning {a x : Leg} {fails : List Leg}
      (hpaying : Paying d .giveBack .cancelPending .cancelled)
      (hlegs : d.w.legs = a :: (fails ++ [x])) (ha : d.SellerDebit a)
      (hfails : FailedPays d.w.quantityReserved fails)
      (hx : x.Pays .sellerReturn d.r.sellerPlayerId a)

variable {n : Nat}

theorem Leg.FailedPay.later {l l' : Leg} (h : l.FailedPay n) (hl : Later l l') :
    l'.FailedPay n := by
  obtain ⟨m, key, hm, hrole⟩ := h.role
  exact ⟨⟨m, key, hm, hl.role.trans hrole⟩, hl.stream.trans h.stream, hl.isDone h.done,
    by rw [hl.isApplied_eq h.done, h.refused]⟩

theorem FailedPays.later {fails fails' : List Leg} (h : FailedPays n fails)
    (hl : List.Forall₂ Later fails fails') : FailedPays n fails' := by
  refine ⟨fun l' hl' => ?_, by rw [map_role_later hl]; exact h.distinct⟩
  obtain ⟨l, hmem, hlater⟩ := exists_of_forall₂ hl hl'
  exact (h.each l hmem).later hlater

variable {player : PlayerId}

theorem FailedPays.snoc {fails : List Leg} {b : Leg} (h : FailedPays n fails)
    (hb : b.PayDebit (n + 1) player) (hdone : isDone b = true) (hrefused : isApplied b = false) :
    FailedPays (n + 1) (fails ++ [b]) := by
  obtain ⟨key, hrole⟩ := hb.role
  refine ⟨forall_mem_append.2 ⟨fun l hl => ?_, forall_mem_singleton.2 ?_⟩, ?_⟩
  · have hl := h.each l hl
    obtain ⟨m, k, hm, hr⟩ := hl.role
    exact ⟨⟨m, k, by omega, hr⟩, hl.stream, hl.done, hl.refused⟩
  · exact ⟨⟨n + 1, key, le_rfl, hrole⟩, hb.stream, hdone, hrefused⟩
  · rw [map_append, nodup_append]
    refine ⟨h.distinct, nodup_singleton _, ?_⟩
    simp only [mem_map, map_cons, map_nil, mem_singleton]
    rintro _ ⟨l, hl, rfl⟩ _ rfl heq
    obtain ⟨m, k, hm, hr⟩ := (h.each l hl).role
    rw [hr, hrole] at heq
    injection heq with hmn
    omega

theorem Leg.PayDebit.later {b b' : Leg} (h : b.PayDebit n player) (hl : Later b b') :
    b'.PayDebit n player := by
  obtain ⟨key, hrole⟩ := h.role
  exact ⟨⟨key, hl.role.trans hrole⟩, hl.player.trans h.player, hl.stream.trans h.stream⟩

variable {d' : Draft}

namespace SaleLife

variable {d : Draft}

theorem drift (h : SaleLife d) (hd : Drift d d') : SaleLife d' := by
  obtain ⟨⟨status, version, stage, legs, rfl⟩, hl, hstays, hdelivers, hreturns, -⟩ := hd
  dsimp only at hl
  cases h with
  | escrowing hat hlegs =>
    exact .escrowing (hstays hat (by decide)) (collecting_later hlegs hl)
  | opened hat hlegs ha hheld hfails =>
    rw [hlegs] at hl
    rcases hl with _ | ⟨la, lfails⟩
    exact .opened (hstays hat (by decide)) rfl (ha.later la) (la.isApplied hheld)
      (hfails.later lfails)
  | paying hat hlegs ha hheld hn hfails hb =>
    rw [hlegs] at hl
    rcases hl with _ | ⟨la, lrest⟩
    obtain ⟨fails', _, rfl, lfails, _ | ⟨lb, _ | _⟩⟩ := later_append lrest
    exact .paying (hstays hat (by decide)) rfl (ha.later la) (la.isApplied hheld) hn
      (hfails.later lfails) (hb.later lb)
  | delivering hpaying hlegs ha hn hfails hb hx hy =>
    rw [hlegs] at hl
    rcases hl with _ | ⟨la, lrest⟩
    obtain ⟨fails', _, rfl, lfails, _ | ⟨lb, _ | ⟨lx, _ | ⟨ly, _ | _⟩⟩⟩⟩ := later_append lrest
    exact .delivering (hdelivers hpaying) rfl (ha.later la) hn (hfails.later lfails)
      (hb.later lb) (hx.later lx la) (hy.later ly lb)
  | refused hpaying hlegs ha hdone hrefused =>
    rw [hlegs] at hl
    rcases hl with _ | ⟨la, _ | _⟩
    exact .refused (hreturns hpaying) rfl (ha.later la) (la.isDone hdone)
      (by rw [la.isApplied_eq hdone, hrefused])
  | returning hpaying hlegs ha hfails hx =>
    rw [hlegs] at hl
    rcases hl with _ | ⟨la, lrest⟩
    obtain ⟨fails', _, rfl, lfails, _ | ⟨lx, _ | _⟩⟩ := later_append lrest
    exact .returning (hreturns hpaying) rfl (ha.later la) (hfails.later lfails) (hx.later lx la)

theorem stage_mem (h : SaleLife d) :
    d.w.stage ∈ [.escrow, .opened, .pay, .deliver, .giveBack, .done, .manual] := by
  cases h with
  | escrowing hat | opened hat | paying hat =>
    rcases hat with ⟨hs, -⟩ | ⟨hs, -⟩ <;> simp [hs]
  | delivering hp | refused hp | returning hp =>
    rcases hp with ⟨hs, -⟩ | ⟨hs | hs, -⟩ | ⟨hs, -⟩ <;> simp [hs]

/-! ## The phases by stage -/

structure ByStage (d : Draft) : Prop where
  escrow : d.w.stage = .escrow →
    d.r.status.terminal = false ∧ (d.w.legs = [] ∨ ∃ a, d.w.legs = [a] ∧ d.SellerDebit a)
  opened : d.w.stage = .opened → d.r.status.terminal = false ∧ ∃ a fails, d.w.legs = a :: fails ∧
    d.SellerDebit a ∧ isApplied a = true ∧ FailedPays d.w.quantityReserved fails
  pay : d.w.stage = .pay → d.r.status.terminal = false ∧ ∃ a b n fails,
    d.w.legs = a :: (fails ++ [b]) ∧ d.SellerDebit a ∧ isApplied a = true ∧
      d.w.quantityReserved = n + 1 ∧ FailedPays n fails ∧ d.PayDebit b

theorem by_stage (h : SaleLife d) : ByStage d := by
  cases h with
  | escrowing hat hlegs =>
    rcases hat with ⟨hs, hopen⟩ | ⟨hs, -⟩ <;> constructor <;> intro hs' <;>
      first | exact ⟨hopen, hlegs⟩ | cases hs.symm.trans hs'
  | opened hat hlegs ha hheld hfails =>
    rcases hat with ⟨hs, hopen⟩ | ⟨hs, -⟩ <;> constructor <;> intro hs' <;>
      first | exact ⟨hopen, _, _, hlegs, ha, hheld, hfails⟩ | cases hs.symm.trans hs'
  | paying hat hlegs ha hheld hn hfails hb =>
    rcases hat with ⟨hs, hopen⟩ | ⟨hs, -⟩ <;> constructor <;> intro hs' <;>
      first | exact ⟨hopen, _, _, _, _, hlegs, ha, hheld, hn, hfails, hb⟩ | cases hs.symm.trans hs'
  | delivering hp | refused hp | returning hp =>
    rcases hp with ⟨hs, -⟩ | ⟨hs | hs, -⟩ | ⟨hs, -⟩ <;> constructor <;> intro hs' <;>
      cases hs.symm.trans hs'

end SaleLife

structure Consignment (d : Draft) : Prop where
  kind : d.r.kind = .consignment
  assets : d.w.sellerAssets.NonEmpty
  life : SaleLife d

theorem Consignment.drift {d d' : Draft} (h : Consignment d) (hd : Drift d d') :
    Consignment d' := by
  have hlife := h.life.drift hd
  obtain ⟨_, _, _, _, rfl⟩ := hd.shape
  exact ⟨h.kind, h.assets, hlife⟩

namespace Consignment

variable {p : Policy} {now : Nat}

/-! ## The blocks of the plan -/

theorem keeps_planEscrow : KeepsAt Consignment [.escrow] (planEscrow p) := by
  intro d f ⟨hkind, hassets, hlife⟩ hs hf
  rw [mem_singleton] at hs
  obtain ⟨hopen, hlegs⟩ := hlife.by_stage.escrow hs
  have hopened : d.r.kind.openStage = .opened := by rw [hkind]; rfl
  obtain ⟨a, ha, h | ⟨hdone, hrefused, h⟩ | ⟨x, hx, h⟩ | ⟨hheld, h⟩⟩ :=
    planEscrow_single (by simp [hkind]) hs hlegs hf
  · rw [h]
    exact ⟨hkind, hassets, .escrowing (.inl ⟨hs, hopen⟩) (.inr ⟨a, rfl, ha⟩)⟩
  · rw [h]
    exact ⟨hkind, hassets, .refused (.inl ⟨rfl, rfl⟩) rfl ha hdone hrefused⟩
  · rw [h]
    have hlegs' : [a, x] = a :: ([] ++ [x]) := rfl
    exact ⟨hkind, hassets, .returning (.inl ⟨rfl, rfl⟩) hlegs' ha ⟨by simp, by simp⟩ hx⟩
  · rw [h, hopened]
    exact ⟨hkind, hassets, .opened (.inl ⟨rfl, hopen⟩) rfl ha hheld ⟨by simp, by simp⟩⟩

/-- The debit of the purchase is the one that `plan` looks for. -/
theorem payLeg_eq {w : Workflow} {a b : Leg} {n : Nat} {fails : List Leg}
    (hlegs : w.legs = a :: (fails ++ [b])) (ha : a.role = .sellerDebit)
    (hn : w.quantityReserved = n + 1) (hfails : FailedPays n fails)
    (hb : b.PayDebit w.quantityReserved player) : payLeg w = some b := by
  have hnone : fails.find? (fun l => l.role.isKeyedPay w.quantityReserved) = none := by
    refine List.find?_eq_none.2 fun l hl => ?_
    obtain ⟨m, key, hm, hrole⟩ := (hfails.each l hl).role
    have hne : m ≠ w.quantityReserved := by omega
    simp [hrole, Role.isKeyedPay, hne]
  have ha' : a.role.isKeyedPay w.quantityReserved = false := by rw [ha]; rfl
  have hb' : b.role.isKeyedPay w.quantityReserved = true := by
    obtain ⟨key, hrole⟩ := hb.role
    simp [hrole, Role.isKeyedPay]
  simp [payLeg, hlegs, ha', hnone, hb']

theorem keeps_planPay : KeepsAt Consignment [.pay] planPay := by
  intro d f ⟨hkind, hassets, hlife⟩ hs hf
  rw [mem_singleton] at hs
  obtain ⟨hopen, a, b, n, fails, hlegs, ha, hheld, hn, hfails, hb⟩ := hlife.by_stage.pay hs
  have hpay : payLeg d.w = some b := payLeg_eq hlegs ha.role hn hfails hb
  have hroles : ∀ l ∈ fails, ∃ m key, l.role = .buyerPay m (some key) := by
    intro l hl
    obtain ⟨m, key, -, hrole⟩ := (hfails.each l hl).role
    exact ⟨m, key, hrole⟩
  obtain ⟨key, hrole⟩ := hb.role
  unfold planPay at hf
  rw [if_pos hs] at hf
  simp only [hpay, reduceCtorEq, if_false, done_some, applied_some] at hf
  split at hf
  · cases hf
    exact ⟨hkind, hassets, hlife⟩
  rename_i hdone
  rw [not_not] at hdone
  split at hf
  next hrefused =>
    cases hf
    have hfails' : FailedPays d.w.quantityReserved (fails ++ [b]) := by
      have hb' : b.PayDebit (n + 1) d.r.buyerPlayerId := by rwa [← hn]
      rw [hn]
      exact hfails.snoc hb' hdone (eq_false_of_ne_true hrefused)
    exact ⟨hkind, hassets, .opened (.inl ⟨rfl, hopen⟩) hlegs ha hheld hfails'⟩
  next hpaid =>
    rw [not_not] at hpaid
    obtain ⟨w₁, h₁, hf⟩ := bind_eq_ok hf
    obtain ⟨w₂, h₂, hf⟩ := bind_eq_ok hf
    cases hf
    have hleg : leg (Draft.move ⟨d.r, d.w⟩ .deliver .delivering).w .sellerDebit = some a := by
      simp [leg, Draft.move, hlegs, ha.role]
    rw [hleg] at h₁
    have hnew : ∀ role : Role, (∀ m key, role ≠ .buyerPay m key) → role ≠ .sellerDebit →
        ∀ l ∈ d.w.legs, l.role ≠ role := by
      intro role hne hne' l hl heq
      rw [hlegs, mem_cons, mem_append, mem_singleton] at hl
      rcases hl with rfl | hl | rfl
      · exact hne' (heq.symm.trans ha.role)
      · obtain ⟨m, k, hr⟩ := hroles l hl
        exact hne m (some k) (heq.symm.trans hr)
      · exact hne _ _ (heq.symm.trans hrole)
    obtain ⟨x, hx, rfl⟩ := transferLeg_pays h₁ (hnew _ (by simp) (by simp)) hheld
    obtain ⟨y, hy, rfl⟩ := transferLeg_pays h₂
      (forall_mem_append.2 ⟨hnew _ (by simp) (by simp), by simp [hx.role]⟩) hpaid
    exact ⟨hkind, hassets, .delivering (.inl ⟨rfl, rfl⟩) (by simp [Draft.move, Flow.state, hlegs])
      ha hn hfails hb hx hy⟩

theorem keeps_planExpire : KeepsAt Consignment [.opened, .lotOpen] (planExpire now) := by
  intro d f ⟨hkind, hassets, hlife⟩ hs hf
  have hs : d.w.stage = .opened := stage_eq_of hlife.stage_mem hs (by decide)
  unfold planExpire at hf
  split at hf
  · cases hf
    obtain ⟨hopen, a, fails, hlegs, ha, hheld, hfails⟩ := hlife.by_stage.opened hs
    exact ⟨hkind, hassets, .opened (.inl ⟨hs, hopen⟩) hlegs ha hheld hfails⟩
  · cases hf
    exact ⟨hkind, hassets, hlife⟩

theorem keeps_planCancel : KeepsAt Consignment [.opened, .lotOpen, .marketOpen] planCancel := by
  intro d f ⟨hkind, hassets, hlife⟩ hs hf
  have hs : d.w.stage = .opened := stage_eq_of hlife.stage_mem hs (by decide)
  obtain ⟨hopen, a, fails, hlegs, ha, hheld, hfails⟩ := hlife.by_stage.opened hs
  have hnew : ∀ l ∈ d.w.legs, l.role ≠ .sellerReturn := by
    rw [hlegs]
    refine forall_mem_cons.2 ⟨by simp [ha.role], fun l hl => ?_⟩
    obtain ⟨m, k, -, hr⟩ := (hfails.each l hl).role
    simp [hr]
  rcases planCancel_return (by simp [hkind]) hassets ha hheld (by simp [leg, hlegs, ha.role])
    hnew hf with h | ⟨x, hx, -, h⟩
  · rw [h]
    exact ⟨hkind, hassets, hlife⟩
  · rw [h]
    exact ⟨hkind, hassets, .returning (.inl ⟨rfl, rfl⟩)
      (by simp [Draft.move, Draft.setLegs, hlegs]) ha hfails hx⟩

variable {d : Draft}

theorem plan_keeps (h : Consignment d) (hplan : plan p now d = .ok d') : Consignment d' := by
  have hfinish : KeepsAt Consignment [.deliver, .giveBack] planFinish := fun _ _ h _ hf =>
    h.drift (.planFinish hf)
  exact plan_keeps_of (fun hd => by simp [hd.kind]) (by decide) (fun hd => hd.life.stage_mem)
    (by simpa [guardedBlocks] using
      ⟨keeps_planEscrow, keeps_planPay, keeps_planExpire, keeps_planCancel, hfinish⟩) h hplan

/-! ## The steps of a consignment -/

theorem mutateBuy_keeps {dir : Directory} {me : PlayerId} {requestId : String} (h : Consignment d)
    (hbuy : mutateBuy dir me now requestId d = .ok (some d')) :
    Consignment d' := by
  obtain ⟨-, hs, -, -, identity, rfl⟩ := mutateBuy_ok hbuy
  obtain ⟨-, a, fails, hlegs, ha, hheld, hfails⟩ := h.life.by_stage.opened hs
  have hnew : ∀ l ∈ d.w.legs,
      l.role ≠ .buyerPay (d.w.quantityReserved + 1) (some ⟨me, requestId⟩) := by
    rw [hlegs]
    refine forall_mem_cons.2 ⟨by simp [ha.role], fun l hl heq => ?_⟩
    obtain ⟨m, k, hm, hr⟩ := (hfails.each l hl).role
    rw [hr] at heq
    injection heq with hmn
    omega
  dsimp only
  rw [addLeg_of_not_mem]
  · have hlegs' : ∀ b : Leg, d.w.legs ++ [b] = a :: (fails ++ [b]) := by simp [hlegs]
    exact ⟨h.kind, h.assets, .paying (.inl ⟨rfl, rfl⟩) (hlegs' _) ha hheld rfl hfails
      ⟨⟨_, rfl⟩, rfl, rfl⟩⟩
  · exact hnew

theorem cancel_keeps (h : Consignment d) (hs : d.w.stage = .opened) :
    Consignment d.cancelPending := by
  obtain ⟨-, a, fails, hlegs, ha, hheld, hfails⟩ := h.life.by_stage.opened hs
  exact ⟨h.kind, h.assets, .opened (.inl ⟨hs, rfl⟩) hlegs ha hheld hfails⟩

theorem closed : Closed Consignment .consignment
    [.escrow, .opened, .pay, .deliver, .giveBack, .done, .manual] where
  kind_eq h := h.kind
  stage_mem h := h.life.stage_mem
  later h hl := h.drift (.setLegs hl)
  manual h := h.drift .manual
  bump h := h.drift .bump
  plan h hplan := h.plan_keeps hplan
  buy _ _ _ _ _ _ _ h hbuy := h.mutateBuy_keeps hbuy
  cancelOpened _ _ h hs := h.cancel_keeps hs

end Consignment

end Mmorpg.Commerce
