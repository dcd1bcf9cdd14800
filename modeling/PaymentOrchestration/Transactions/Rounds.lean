import PaymentOrchestration.Transactions.Route

/-!
This module is about how far a payment can go: where its row can stand while `create` works on it,
and how many transitions it can make in all.
-/

namespace PaymentOrchestration

open StateMachine

/--
Where the row of a payment can stand when its call is at this stage. Workers may have moved it on.
-/
def Stage.admits (stage : Stage) (state : TransactionState) : Prop :=
  match stage with
  | .ready => True
  | .routed => state ∈ [.ROUTED, .PROCESSING, .SUCCESS, .RECONCILED]
  | _ => state ∈ [.PROCESSING, .SUCCESS, .RECONCILED]

-- Only `create` sends a payment on to the next gateway or gives it up.
theorem Stage.admits_closed {stage : Stage} {fromState toState : TransactionState}
    (h : stage.admits fromState) (hvalid : toState ∈ VALID_TRANSITIONS fromState)
    (hretry : toState ≠ .RETRY_PENDING) (hfail : toState ≠ .FAILED) : stage.admits toState := by
  cases stage with
  | ready => trivial
  | _ =>
    simp only [Stage.admits] at h ⊢
    cases fromState <;> simp_all [VALID_TRANSITIONS]

/--
How many transitions lead to the state since the payment was last sent on to a gateway.
-/
def TransactionState.depth (state : TransactionState) : Nat :=
  match state with
  | .INITIATED | .RETRY_PENDING => 0
  | .ROUTED => 1
  | .PROCESSING => 2
  | .SUCCESS | .FAILED => 3
  | .RECONCILED => 4

-- How many attempts have been made since then.
def TransactionState.tries (state : TransactionState) : Nat :=
  match state with
  | .INITIATED | .RETRY_PENDING | .ROUTED => 0
  | _ => 1

/--
Every transition leads one step on, unless it sends the payment on.
-/
theorem counts_of_valid {a b : TransactionState} (hvalid : b ∈ VALID_TRANSITIONS a)
    (hfailed : b = .FAILED → a = .PROCESSING)
    : a.depth + 1 = (if decide (b = .RETRY_PENDING) then 3 else 0) + b.depth ∧
        a.tries + (if decide (b = .PROCESSING) then 1 else 0) =
          (if decide (b = .RETRY_PENDING) then 1 else 0) + b.tries := by
  cases a with
  | PROCESSING =>
    simp only [VALID_TRANSITIONS, List.mem_cons, List.not_mem_nil, or_false] at hvalid
    rcases hvalid with hb | hb | hb
    all_goals
      subst hb
      exact ⟨rfl, rfl⟩
  | RETRY_PENDING =>
    simp only [VALID_TRANSITIONS, List.mem_cons, List.not_mem_nil, or_false] at hvalid
    rcases hvalid with hb | hb
    . subst hb
      exact ⟨rfl, rfl⟩
    . cases hfailed hb
  | FAILED => cases hvalid
  | RECONCILED => cases hvalid
  | _ =>
    simp only [VALID_TRANSITIONS, List.mem_cons, List.not_mem_nil, or_false] at hvalid
    subst hvalid
    exact ⟨rfl, rfl⟩

-- How often the payment was sent on to the next gateway.
def retriesIn (id : String) (auditLog : List AuditLog) : Nat :=
  (transitionsOf id auditLog).countP (·.toState = .RETRY_PENDING)

theorem sum_map_ite {α : Type} (p : α → Bool) (k : Nat) (l : List α)
    : (l.map (fun x => if p x then k else 0)).sum = k * l.countP p := by
  induction l with
  | nil => rfl
  | cons x l ih =>
    rw [List.map_cons, List.sum_cons, ih, List.countP_cons]
    split
    . rw [Nat.mul_add, Nat.mul_one, Nat.add_comm]
    . rw [Nat.zero_add, Nat.add_zero]

theorem countP_edges {rows : List AuditLog} (hrows : ∀ row ∈ rows, row.fromState.isSome)
    (state : TransactionState)
    : (rows.filterMap AuditLog.edge?).countP (·.2 = state) = rows.countP (·.toState = state) := by
  rw [List.countP_eq_length_filter, List.countP_eq_length_filter, length_filter_edges hrows]

/--
The transitions of a payment, none of which gives it up between two gateways.
-/
structure Replays.Counted (rows : List AuditLog) (t : Transaction) : Prop where
  length : rows.length = 3 * rows.countP (·.toState = .RETRY_PENDING) + t.currentState.depth
  attempts : t.attemptCount = rows.countP (·.toState = .RETRY_PENDING) + t.currentState.tries

theorem Replays.counted {primary : GatewayProvider} {rows : List AuditLog} {t : Transaction}
    (h : Replays primary rows t) (hrows : ∀ row ∈ rows, row.fromState.isSome)
    (hfailed : ∀ row ∈ rows, row.toState = .FAILED → row.fromState = some .PROCESSING)
    : Replays.Counted rows t := by
  have hedge : ∀ e ∈ rows.filterMap AuditLog.edge?, e.2 = .FAILED → e.1 = .PROCESSING := by
    intro e he hto
    rw [List.mem_filterMap] at he
    rcases he with ⟨row, hrow, hedge⟩
    simp only [AuditLog.edge?, Option.map_eq_some_iff] at hedge
    rcases hedge with ⟨fromState, hfrom, hedge⟩
    subst hedge
    have := hfailed row hrow hto
    rw [hfrom] at this
    injection this
  have hcounts := fun e he => counts_of_valid (h.path.rel_of_mem he) (hedge e he)
  refine ⟨?_, ?_⟩
  . have hlength := h.path.sum_eq (f := TransactionState.depth) (fun e he => (hcounts e he).left)
    rw [sum_map_ite, countP_edges hrows] at hlength
    have hedges : ((rows.filterMap AuditLog.edge?).map fun _ => 1).sum = rows.length := by
      rw [List.map_const', List.sum_replicate_nat, Nat.mul_one, List.filterMap_length_eq_length]
      intro row hrow
      rw [AuditLog.edge?, Option.isSome_map]
      exact hrows row hrow
    rw [hedges] at hlength
    simpa [TransactionState.depth] using hlength
  . have htries := h.path.sum_eq (f := TransactionState.tries) (fun e he => (hcounts e he).right)
    rw [sum_map_ite, sum_map_ite, countP_edges hrows, countP_edges hrows] at htries
    rw [h.attempts, ← List.countP_eq_length_filter]
    simpa [TransactionState.tries] using htries

theorem Permit.of_worker {D : Deployment} {phase : WorkerPhase} {step : TransitionStep}
    (h : Permit D (.working phase) step)
    : step.toState ≠ .RETRY_PENDING ∧ step.toState ≠ .FAILED := by
  cases h <;> simp

namespace Books

variable {D : Deployment} {tasks : Pid → Task} {b b' : Books} {i j : Pid}

/--
The row that a call of `create` works on stands where the call expects it or further on.
-/
def Placed (b : Books) : Prop :=
  ∀ i dto row g fb stage, b.role i = .creating dto (.looping row g fb stage) →
    ∀ t ∈ b.transactions, t.id = row.id → stage.admits t.currentState

theorem Placed.frame (h : b.Placed) (htransactions : b'.transactions = b.transactions)
    (hrole : ∀ i dto row g fb stage, b'.role i = .creating dto (.looping row g fb stage) →
      ∃ stage', b.role i = .creating dto (.looping row g fb stage') ∧
        ∀ state, stage'.admits state → stage.admits state)
    : b'.Placed := by
  intro i dto row g fb stage hlooping t ht hid
  rw [htransactions] at ht
  rcases hrole i dto row g fb stage hlooping with ⟨stage', hlooping', hadmits⟩
  exact hadmits _ (h i dto row g fb stage' hlooping' t ht hid)

-- The call of process `i` has not moved on to another stage, or to one that expects no more.
theorem Placed.of_setRole (h : b.Placed) {role : Role}
    (hrole : ∀ dto row g fb stage, role = .creating dto (.looping row g fb stage) →
      ∃ stage', b.role i = .creating dto (.looping row g fb stage') ∧
        ∀ state, stage'.admits state → stage.admits state)
    (htransactions : b'.transactions = b.transactions)
    (hb' : b'.role = Function.update b.role i role) : b'.Placed := by
  apply h.frame htransactions
  intro j dto row g fb stage hlooping
  rw [hb'] at hlooping
  by_cases hj : j = i
  . subst hj
    rw [Function.update_self] at hlooping
    exact hrole dto row g fb stage hlooping
  . rw [Function.update_of_ne hj] at hlooping
    exact ⟨stage, hlooping, fun _ h => h⟩

theorem Reachable.inserted_of_looping (h : b.Reachable D tasks) {dto : CreateTransactionDto}
    {row : Transaction} {g : GatewayProvider} {fb : List GatewayProvider} {stage : Stage}
    (hrole : b.role i = .creating dto (.looping row g fb stage)) : .inserted i row ∈ b.history := by
  have hinv := h.traced.trail_inv i
  rw [trail_eq hrole] at hinv
  apply mem_history_of_inserts
  rw [hinv.left.inserts]
  exact List.mem_singleton_self row

theorem Reachable.pid_eq_of_looping (h : b.Reachable D tasks) {dto dto' : CreateTransactionDto}
    {row row' : Transaction} {g g' : GatewayProvider} {fb fb' : List GatewayProvider}
    {stage stage' : Stage} (hi : b.role i = .creating dto (.looping row g fb stage))
    (hj : b.role j = .creating dto' (.looping row' g' fb' stage')) (hid : row.id = row'.id)
    : i = j := by
  have hrow := h.inserted_of_looping hi
  have hrow' := h.inserted_of_looping hj
  have hkey := h.inv.key_eq_of_id (h.told.known hrow) (h.told.known hrow') hid
  exact (h.told.inserted_inj h.inv hrow hrow' hkey).left

-- A transition of the row that another call works on is one of a worker.
theorem Reachable.worker_of_commit (h : b.Reachable D tasks) {step : TransitionStep}
    (hpermit : Permit D (b.role i) step) (hne : j ≠ i) {dto : CreateTransactionDto}
    {row : Transaction} {g : GatewayProvider} {fb : List GatewayProvider} {stage : Stage}
    (hrole : b.role j = .creating dto (.looping row g fb stage)) (hid : step.row.id = row.id)
    : step.toState ≠ .RETRY_PENDING ∧ step.toState ≠ .FAILED := by
  cases hi : b.role i with
  | creating dto' phase =>
    rw [hi] at hpermit
    have htarget := hpermit.target
    cases phase with
    | looping row' g' fb' stage' =>
      injection htarget with htarget
      exact absurd (h.pid_eq_of_looping hrole hi (hid.symm.trans htarget.symm)) hne
    | _ => cases htarget
  | working phase =>
    rw [hi] at hpermit
    exact hpermit.of_worker
  | ingesting =>
    rw [hi] at hpermit
    cases hpermit

theorem Reachable.placed_commit (h : b.Reachable D tasks) (hplaced : b.Placed)
    {step : TransitionStep} {createdAt : Nat} {role : Role} (hpermit : Permit D (b.role i) step)
    (hrow : step.row ∈ b.transactions)
    (hrole : role = (b.role i).advance step.result ∨ role = (b.role i).abort)
    : ((b.commit i step createdAt).setRole i role).Placed := by
  intro j dto row g fb stage hlooping t ht hid
  have hstate : t.id = step.row.id → t.currentState = step.toState := by
    intro hid
    rcases mem_writeRow ht with ht | ⟨_, hne⟩
    . rw [ht]
      rfl
    . exact absurd hid hne
  by_cases hj : j = i
  . subst hj
    rw [setRole_role_self] at hlooping
    subst hlooping
    rcases hrole with hrole | hrole
    . generalize hb : b.role j = before at hpermit hrole
      cases hpermit with
      | route dto' row' g' fb' st metadata now hst =>
        cases hrole
        rw [hstate (hid.trans hst.symm)]
        simp [Stage.admits]
      | process dto' row' g' fb' st metadata now hst =>
        cases hrole
        rw [hstate (hid.trans hst.symm)]
        simp [Stage.admits]
      | retry dto' row' g' g'' fb' r st metadata now hst =>
        cases hrole
        trivial
      | _ => cases hrole
    . generalize b.role j = before at hrole
      cases before <;> cases hrole
  . rw [setRole_role_of_ne hj] at hlooping
    have hlooping : b.role j = .creating dto (.looping row g fb stage) := hlooping
    rcases mem_writeRow ht with heq | ⟨hmem, hne⟩
    . subst heq
      rw [TransitionStep.result_id] at hid
      rcases h.worker_of_commit hpermit hj hlooping hid with ⟨hretry, hfail⟩
      have hbefore := hplaced j dto row g fb stage hlooping step.row hrow hid
      exact Stage.admits_closed hbefore hpermit.valid hretry hfail
    . exact hplaced j dto row g fb stage hlooping t hmem hid

theorem Reachable.placed_step (h : b.Reachable D tasks) (hplaced : b.Placed) (hstep : b.Step D b')
    : b'.Placed := by
  cases hstep with
  | hit i dto key t hrole =>
    refine hplaced.of_setRole ?_ rfl rfl
    intro dto' row g fb stage heq
    cases heq
  | find i conditions row hfind =>
    refine hplaced.of_setRole ?_ rfl rfl
    rcases hfind with ⟨dto, hrole, _⟩ | ⟨event, x, hrole, _⟩
    all_goals
      rw [hrole]
      intro dto' row' g fb stage heq
      cases row <;> cases heq
  | insert i dto g fb row role hrole hnodup hrow hfresh =>
    intro j dto' row' g' fb' stage hlooping t ht hid
    by_cases hj : j = i
    . subst hj
      rw [setRole_role_self] at hlooping
      subst hlooping
      rename_i hrole'
      rcases hrole' with hrole' | hrole'
      . cases hrole'
        trivial
      . cases hrole'
    . rw [setRole_role_of_ne hj] at hlooping
      simp only [setRole, Books.insert, List.mem_append, List.mem_singleton] at ht
      rcases ht with ht | ht
      . exact hplaced j dto' row' g' fb' stage hlooping t ht hid
      . have hsound := h.inv.role j
        rw [show b.role j = .creating dto' (.looping row' g' fb' stage) from hlooping] at hsound
        rcases hsound.left.exists_row with ⟨u, hu, hidentity⟩
        simp only [Transaction.identity, Prod.mk.injEq] at hidentity
        subst ht
        exact absurd (List.mem_map.mpr ⟨u, hu, hidentity.left.trans hid.symm⟩) hfresh
  | commit i step createdAt role hpermit hrow hrole =>
    exact h.placed_commit hplaced hpermit hrow hrole
  | load i event hrole =>
    refine hplaced.of_setRole ?_ rfl rfl
    intro dto row g fb stage heq
    cases heq
  | charge i dto row g fb hrole =>
    refine hplaced.of_setRole ?_ rfl rfl
    intro dto' row' g' fb' stage heq
    cases heq
    exact ⟨_, hrole, fun _ h => h⟩
  | answer i dto row g fb n charge response hrole =>
    refine hplaced.of_setRole ?_ rfl rfl
    rw [hrole]
    intro dto' row' g' fb' stage heq
    simp only [Role.raced] at heq
    split at heq
    all_goals
      cases heq
      exact ⟨_, rfl, fun _ h => h⟩
  | threw i dto row g fb n charge message captured hrole
  | timeout i dto row g fb n charge captured hrole =>
    refine hplaced.of_setRole ?_ rfl rfl
    intro dto' row' g' fb' stage heq
    cases heq
    exact ⟨_, hrole, fun _ h => h⟩
  | abort i =>
    refine hplaced.of_setRole ?_ rfl rfl
    intro dto row g fb stage heq
    cases hi : b.role i <;> rw [hi] at heq <;> cases heq
  | _ => exact hplaced.frame rfl (fun i dto row g fb stage hrole => ⟨stage, hrole, fun _ h => h⟩)

theorem Reachable.placed (h : b.Reachable D tasks) : b.Placed := by
  rcases h with ⟨b₀, hstart, hrun⟩
  induction hrun with
  | refl =>
    intro i dto row g fb stage hrole
    rw [hstart.role] at hrole
    cases htask : tasks i <;> rw [htask] at hrole <;> cases hrole
  | tail hrun hstep ih => exact Reachable.placed_step ⟨b₀, hstart, hrun⟩ ih hstep

/--
A payment is given up out of an attempt, never between two gateways.
-/
theorem Reachable.failed_from (h : b.Reachable D tasks) {audit : AuditLog}
    (haudit : audit ∈ b.auditLog) (hfailed : audit.toState = .FAILED)
    : audit.fromState = some .PROCESSING := by
  rcases h with ⟨b₀, hstart, hrun⟩
  induction hrun with
  | refl =>
    rw [hstart.auditLog] at haudit
    cases haudit
  | tail hrun hstep ih =>
    have hplaced := Reachable.placed ⟨b₀, hstart, hrun⟩
    cases hstep with
    | announce i dto row g fb createdAt hrole =>
      simp only [List.mem_append, List.mem_singleton] at haudit
      rcases haudit with haudit | haudit
      . exact ih haudit
      . rw [haudit] at hfailed
        cases hfailed
    | commit i step createdAt role hpermit hrow =>
      simp only [setRole, Books.commit, List.mem_append, List.mem_singleton] at haudit
      rcases haudit with haudit | haudit
      . exact ih haudit
      . subst haudit
        have hto : step.toState = .FAILED := hfailed
        have hvalid := hpermit.valid
        rename_i b₁ _
        generalize hi : b₁.role i = before at hpermit
        cases hpermit with
        | fail dto row g r st metadata now hst =>
          have hat := hplaced i dto row g [] .failed hi st hrow hst
          change some st.currentState = _
          simp only [Stage.admits, List.mem_cons, List.not_mem_nil, or_false] at hat
          rcases hat with hat | hat | hat
          . rw [hat]
          . rw [hat] at hvalid
            simp [VALID_TRANSITIONS] at hvalid
          . rw [hat] at hvalid
            cases hvalid
        | _ => cases hto
    | _ => exact ih haudit

theorem Reachable.retriesIn_eq (h : b.Reachable D tasks) {row : Transaction}
    (hrow : .inserted i row ∈ b.history)
    : retriesIn row.id b.auditLog = retriesOf (b.trail i).events := by
  have htransitions : transitionsOf row.id b.auditLog =
      (commitsOf b.history).filter (·.transactionId = row.id) := by
    rw [h.told.committed, List.filter_filter]
    apply List.filter_congr
    intro audit _
    simp
  unfold retriesIn retriesOf
  rw [htransitions, List.countP_filter]
  unfold commitsOf Books.trail
  rw [List.countP_filterMap, List.countP_filterMap, List.countP_filter]
  apply List.countP_congr
  intro event hevent
  cases event with
  | committed j audit =>
    simp only [Event.committed?, Option.map_some, Option.getD_some, Bool.and_eq_true,
      decide_eq_true_eq, Event.pid]
    refine and_congr_right fun hretry => ?_
    rcases h.owner_of_commit hevent (.inl hretry) with ⟨row', hrow', hid⟩
    rw [hid]
    constructor
    . intro heq
      have hkey := h.inv.key_eq_of_id (h.told.known hrow') (h.told.known hrow) heq
      exact decide_eq_true (h.told.inserted_inj h.inv hrow' hrow hkey).left
    . intro hj
      have hj := of_decide_eq_true hj
      subst hj
      rw [h.traced.inserted_unique hrow' hrow]
  | _ => simp [Event.committed?]

end Books

namespace System

variable {D : Deployment} {tasks : Pid → Task} {c : System D}

/--
`create` gives a payment up out of an attempt that has failed, and nobody else gives one up. The
transition from RETRY_PENDING to FAILED is never made.
-/
theorem failed_after_attempt (h : c.Reachable D tasks) {audit : AuditLog}
    (haudit : audit ∈ c.world.ledger.auditLog) (hfailed : audit.toState = .FAILED)
    : audit.fromState = some .PROCESSING := by
  rcases h.exists_books with ⟨b, hb, hdescribed⟩
  rw [← hdescribed.auditLog] at haudit
  exact hb.failed_from haudit hfailed

open Scenario in
theorem failed_after_attempt_declined
    : ∃ (c : System deployment) (audit : AuditLog), audit ∈ c.world.ledger.auditLog ∧
        audit.toState = .FAILED ∧ audit.fromState = some .PROCESSING := by
  rcases exists_declined with ⟨c, hc, _, audit, haudit, hfailed⟩
  exact ⟨c, audit, haudit, hfailed, failed_after_attempt hc haudit hfailed⟩

end System

/--
How many transitions and attempts a payment has made, from the state it is in and the number of times
it was sent on.
-/
structure Counted (w : World) (t : Transaction) : Prop where
  retries : retriesIn t.id w.ledger.auditLog ≤ t.fallbackGateways.length
  transitions : (transitionsOf t.id w.ledger.auditLog).length =
    3 * retriesIn t.id w.ledger.auditLog + t.currentState.depth
  attempts : t.attemptCount = retriesIn t.id w.ledger.auditLog + t.currentState.tries
  exhausted : t.currentState = .FAILED →
    retriesIn t.id w.ledger.auditLog = t.fallbackGateways.length

namespace System

variable {D : Deployment} {tasks : Pid → Task} {c : System D}

theorem transitions_counted (h : c.Reachable D tasks) {t : Transaction}
    (ht : t ∈ c.world.ledger.transactions) : Counted c.world t := by
  rcases h.exists_books with ⟨b, hb, hdescribed⟩
  rw [← hdescribed.transactions] at ht
  rcases hb.audited.replays t ht with ⟨i, row, primary, hrow, hid, hprimary, hreplays⟩
  have hcounted := hreplays.counted isSome_of_mem_transitionsOf (by
    intro audit haudit hto
    exact hb.failed_from (List.mem_of_mem_filter haudit) hto)
  have hretries : retriesIn t.id c.world.ledger.auditLog = retriesOf (b.trail i).events := by
    rw [← hdescribed.auditLog, ← hid]
    exact hb.retriesIn_eq hrow
  have hroute : row.route.length = t.fallbackGateways.length + 1 := by
    rw [hb.fallbackGateways_eq hrow ht hid.symm]
    simp [Transaction.route, hprimary]
  rw [hdescribed.auditLog] at hcounted
  refine ⟨?_, hcounted.length, hcounted.attempts, ?_⟩
  . have := (hb.offRoute hrow).retries
    omega
  . intro hfailed
    rcases hb.exhausted ht hfailed with ⟨j, row', hrow', hid', _, hgiven⟩
    have hkey := hb.inv.key_eq_of_id (hb.told.known hrow') (hb.told.known hrow)
      (hid'.trans hid.symm)
    rcases hb.told.inserted_inj hb.inv hrow' hrow hkey with ⟨hj, _⟩
    subst hj
    have := ((hb.offRoute hrow).exhausted hgiven).right
    omega

open Scenario in
theorem transitions_counted_declined
    : ∃ (c : System deployment) (t : Transaction), t.currentState = .FAILED ∧
        Counted c.world t := by
  rcases exists_declined with ⟨c, hc, ⟨t, ht, hfailed⟩, _⟩
  exact ⟨c, t, hfailed, transitions_counted hc ht⟩

end System

end PaymentOrchestration
