import PaymentOrchestration.Books.Lookups
import PaymentOrchestration.Books.Refinement
import PaymentOrchestration.Books.Settlement
import PaymentOrchestration.Scenario

/-!
This module is about the gateway a captured payment is attributed to. The worker confirms a payment
in the name of the gateway that the event is from, and its lookup does not mention the gateway.
-/

namespace PaymentOrchestration

open StateMachine

/--
A call of `create` has taken a payment to SUCCESS, and this is the audit row of it.
-/
def CapturedBy (tasks : Pid → Task) (history : List Event) (audit : AuditLog) : Prop :=
  ∃ i dto, tasks i = .create dto ∧ .committed i audit ∈ history ∧ audit.toState = .SUCCESS

/--
A worker that finds a captured payment works on an event of the gateway that has captured it.
-/
def FindsOwn (tasks : Pid → Task) (history : List Event) (i : Pid) (_ : List TxnWhere)
    (t : Transaction) : Prop :=
  ∀ event audit, .loaded i event ∈ history → CapturedBy tasks history audit →
    audit.transactionId = t.id → t.currentState = .SUCCESS → t.selectedGateway = some event.gateway

theorem CapturedBy.mono {tasks : Pid → Task} {history history' : List Event} {audit : AuditLog}
    (h : CapturedBy tasks history audit)
    (hsub : ∀ i, .committed i audit ∈ history → .committed i audit ∈ history')
    : CapturedBy tasks history' audit := by
  rcases h with ⟨i, dto, htask, haudit, hto⟩
  exact ⟨i, dto, htask, hsub i haudit, hto⟩

namespace Permit

variable {D : Deployment} {role : Role} {step : TransitionStep}

-- Only a worker that has seen the payment in SUCCESS confirms it, and it writes its own gateway.
theorem of_reconciled (h : Permit D role step) (hto : step.toState = .RECONCILED)
    : ∃ event txn, role = .working (.driving event txn .SUCCESS) ∧ step.row.id = txn.id ∧
        ∀ createdAt, (step.entry createdAt).gateway = some event.gateway := by
  cases h with
  | workerReconcile event txn st metadata now hid hvalid hmeta =>
    subst hmeta
    exact ⟨event, txn, rfl, hid, fun _ => rfl⟩
  | _ => cases hto

-- A worker goes on with what its own transition has made of the payment.
theorem of_advance_success (h : Permit D role step) {event : WebhookEvent} {txn : Transaction}
    (hrole : role.advance step.result = .working (.driving event txn .SUCCESS))
    : step.toState = .SUCCESS ∧ step.row.id = txn.id ∧ role.dto = none := by
  cases h with
  | workerRoute _ _ _ _ _ _ _ hid
  | workerProcess _ _ _ _ _ hid
  | workerSucceed _ _ _ _ _ _ hid
  | workerReconcile _ _ _ _ _ hid =>
    injection hrole with hrole
    injection hrole with _ htxn hstate
    subst htxn
    exact ⟨hstate, hid, rfl⟩
  | _ => cases hrole

end Permit

theorem Role.abort_ne_driving (role : Role) (event : WebhookEvent) (txn : Transaction)
    (state : TransactionState) : role.abort ≠ .working (.driving event txn state) := by
  cases role <;> simp [abort]

namespace Books

variable {D : Deployment} {tasks : Pid → Task} {b b' : Books} {i : Pid}

-- A payment that has been captured or confirmed is not taken to SUCCESS again.
theorem Audited.not_valid_success (h : b.Audited) {t : Transaction} (ht : t ∈ b.transactions)
    {row : AuditLog} (hrow : row ∈ transitionsOf t.id b.auditLog) (hto : Settled row.toState)
    : .SUCCESS ∉ VALID_TRANSITIONS t.currentState := by
  rcases h.replays t ht with ⟨_, _, _, _, _, _, hreplays⟩
  have hfrom := isSome_of_mem_transitionsOf row hrow
  rcases List.mem_iff_append.mp hrow with ⟨r₁, r₂, hsplit⟩
  rw [hsplit] at hreplays
  rcases (hreplays.mem_of_closed settled_closed hfrom hto).left with hstate | hstate
  . simp [hstate, VALID_TRANSITIONS]
  . simp [hstate, VALID_TRANSITIONS]

theorem Reachable.mem_of_capturedBy (h : b.Reachable D tasks) {audit : AuditLog}
    (haudit : CapturedBy tasks b.history audit)
    : audit ∈ transitionsOf audit.transactionId b.auditLog := by
  rcases haudit with ⟨i, _, _, haudit, _⟩
  exact h.told.mem_transitionsOf haudit

/--
What is known of the gateways of captured payments, and of the workers that are about to confirm
one.
-/
structure Attributed (tasks : Pid → Task) (b : Books) : Prop where
  reached : ∀ i event txn, b.role i = .working (.driving event txn .SUCCESS) →
    ∃ row ∈ transitionsOf txn.id b.auditLog, row.toState = .SUCCESS
  driving : ∀ i event txn audit, b.role i = .working (.driving event txn .SUCCESS) →
    CapturedBy tasks b.history audit → audit.transactionId = txn.id →
    audit.gateway = some event.gateway
  reconciled : ∀ audit row, CapturedBy tasks b.history audit →
    row ∈ transitionsOf audit.transactionId b.auditLog → row.toState = .RECONCILED →
    row.gateway = audit.gateway

/--
The row of a captured payment names the gateway that has captured it.
-/
theorem Attributed.selectedGateway (hreachable : b.Reachable D tasks) (h : b.Attributed tasks)
    {audit : AuditLog} (haudit : CapturedBy tasks b.history audit) {t : Transaction}
    (ht : t ∈ b.transactions) (hid : t.id = audit.transactionId)
    : t.selectedGateway = audit.gateway := by
  have hto : audit.toState = .SUCCESS := by
    rcases haudit with ⟨_, _, _, _, hto⟩
    exact hto
  have hmem := hreachable.mem_of_capturedBy haudit
  have hreconciled := h.reconciled audit
  rcases hreachable.audited.replays t ht with ⟨_, _, _, _, _, _, hreplays⟩
  have hfrom : ∀ row ∈ transitionsOf t.id b.auditLog, row.fromState.isSome :=
    isSome_of_mem_transitionsOf
  rw [← hid] at hmem hreconciled
  rcases List.mem_iff_append.mp hmem with ⟨r₁, r₂, hsplit⟩
  rw [hsplit] at hreplays hfrom hreconciled
  rcases List.eq_nil_or_concat r₂ with hnil | ⟨r₃, last, hconcat⟩
  . rw [hreplays.gateway, hnil]
    simp
  . rw [hconcat, List.concat_eq_append] at hreplays hfrom hreconciled
    have hlast : t.selectedGateway = last.gateway := by
      have hrows : r₁ ++ audit :: (r₃ ++ [last]) = (r₁ ++ audit :: r₃) ++ [last] := by simp
      rw [hreplays.gateway, hrows, List.getLast?_concat]
      rfl
    have hsettled := (hreplays.mem_of_closed settled_closed (hfrom audit (by simp))
      (.inl hto)).right last (by simp) (hfrom last (by simp))
    rcases hsettled with hsuccess | hconfirmed
    . -- There is only one transition to SUCCESS.
      have hone := hreplays.length_success_le hfrom
      simp [List.filter_append, hto, hsuccess] at hone
      omega
    . rw [hlast]
      exact hreconciled last haudit (by simp) hconfirmed

-- A step that commits nothing and takes no worker to a captured payment.
theorem Attributed.frame (h : b.Attributed tasks)
    (hrole : ∀ i event txn, b'.role i = .working (.driving event txn .SUCCESS) →
      b.role i = .working (.driving event txn .SUCCESS))
    (hcommitted : ∀ i audit, .committed i audit ∈ b'.history → .committed i audit ∈ b.history)
    (hauditLog : ∀ id, transitionsOf id b'.auditLog = transitionsOf id b.auditLog)
    : b'.Attributed tasks := by
  refine ⟨?_, ?_, ?_⟩
  . intro i event txn hdriving
    rw [hauditLog]
    exact h.reached i event txn (hrole i event txn hdriving)
  . intro i event txn audit hdriving haudit
    have haudit' := haudit.mono fun i => hcommitted i audit
    exact h.driving i event txn audit (hrole i event txn hdriving) haudit'
  . intro audit row haudit
    rw [hauditLog]
    exact h.reconciled audit row (haudit.mono fun i => hcommitted i audit)

-- The one process that takes part in a step is at no payment that was captured.
theorem Attributed.of_setRole (h : b.Attributed tasks) {role : Role}
    (hrole : b'.role = Function.update b.role i role)
    (hnot : ∀ event txn, role ≠ .working (.driving event txn .SUCCESS))
    (hcommitted : ∀ i audit, .committed i audit ∈ b'.history → .committed i audit ∈ b.history)
    (hauditLog : ∀ id, transitionsOf id b'.auditLog = transitionsOf id b.auditLog)
    : b'.Attributed tasks := by
  apply h.frame _ hcommitted hauditLog
  intro j event txn hdriving
  rw [hrole] at hdriving
  by_cases hj : j = i
  . subst hj
    rw [Function.update_self] at hdriving
    exact absurd hdriving (hnot event txn)
  . rwa [Function.update_of_ne hj] at hdriving

/--
A worker looks up a payment. Here the event meets the payment.
-/
theorem Attributed.find (hreachable : b.Reachable D tasks) (h : b.Attributed tasks)
    {conditions : List TxnWhere} {row : Option Transaction}
    (hfind : (b.role i).mayFind conditions) (hmem : ∀ t, row = some t → t ∈ b.transactions)
    (hown : ∀ t, row = some t → FindsOwn tasks b.history i conditions t)
    : Attributed tasks
        { b.setRole i ((b.role i).read row) with
          history := b.history ++ [.read i conditions row] } := by
  have hcommitted : ∀ (j : Pid) (audit : AuditLog),
      .committed j audit ∈ b.history ++ [.read i conditions row] →
      .committed j audit ∈ b.history := by
    intro j audit haudit
    simpa using haudit
  rcases hfind with ⟨dto, hrole, _⟩ | ⟨event, x, hrole, _⟩
  . refine @Attributed.of_setRole _ b _ i h ((b.role i).read row) rfl ?_ hcommitted (fun _ => rfl)
    intro event txn
    rw [hrole]
    cases row <;> simp [Role.read]
  . cases row with
    | none =>
      refine @Attributed.of_setRole _ b _ i h ((b.role i).read none) rfl ?_ hcommitted
        (fun _ => rfl)
      intro event txn
      simp [hrole, Role.read]
    | some t =>
      have ht := hmem t rfl
      have hloaded : .loaded i event ∈ b.history := by
        have hwork := hreachable.traced.trail_workInv i
        rw [trail_eq hrole] at hwork
        exact List.mem_of_mem_filter hwork.left
      -- What is true of a worker that is at a captured payment now.
      have hcases : ∀ j event' txn,
          Function.update b.role i ((b.role i).read (some t)) j =
            .working (.driving event' txn .SUCCESS) →
          b.role j = .working (.driving event' txn .SUCCESS) ∨
            event' = event ∧ txn = t ∧ t.currentState = .SUCCESS := by
        intro j event' txn hdriving
        by_cases hj : j = i
        . subst hj
          rw [Function.update_self, hrole] at hdriving
          injection hdriving with hdriving
          injection hdriving with hevent htxn hstate
          exact .inr ⟨hevent.symm, htxn.symm, hstate⟩
        . rw [Function.update_of_ne hj] at hdriving
          exact .inl hdriving
      refine ⟨?_, ?_, ?_⟩
      . intro j event' txn hdriving
        rcases hcases j event' txn hdriving with hold | ⟨_, htxn, hstate⟩
        . exact h.reached j event' txn hold
        . subst htxn
          rcases hreachable.audited.replays _ ht with ⟨_, _, _, _, _, _, hreplays⟩
          rcases hreplays.exists_of_state (by simp [hstate]) with ⟨row, hrow, hto⟩
          exact ⟨row, hrow, hto.trans hstate⟩
      . intro j event' txn audit hdriving haudit hid
        have haudit' := haudit.mono fun i => hcommitted i audit
        rcases hcases j event' txn hdriving with hold | ⟨hevent, htxn, hstate⟩
        . exact h.driving j event' txn audit hold haudit' hid
        . subst hevent htxn
          rw [← h.selectedGateway hreachable haudit' ht hid.symm]
          exact hown txn rfl event' audit hloaded haudit' hid hstate
      . intro audit row haudit
        exact h.reconciled audit row (haudit.mono fun i => hcommitted i audit)

/--
A transition. A payment that it captures has been at no worker before.
-/
theorem Attributed.commit (hreachable : b.Reachable D tasks) (h : b.Attributed tasks)
    {step : TransitionStep} {createdAt : Nat} {role : Role} (hpermit : Permit D (b.role i) step)
    (hrow : step.row ∈ b.transactions)
    (hrole : role = (b.role i).advance step.result ∨ role = (b.role i).abort)
    : ((b.commit i step createdAt).setRole i role).Attributed tasks := by
  have hlog : ∀ row id, row ∈ transitionsOf id (b.auditLog ++ [step.entry createdAt]) →
      row ∈ transitionsOf id b.auditLog ∨ row = step.entry createdAt ∧ id = step.row.id := by
    intro row id hmem
    simp only [transitionsOf, List.filter_append, List.mem_append, List.mem_filter,
      List.mem_singleton, decide_eq_true_eq] at hmem ⊢
    rcases hmem with hmem | ⟨heq, hid, _⟩
    . exact .inl hmem
    . subst heq
      exact .inr ⟨rfl, hid.symm⟩
  have hmono : ∀ row id, row ∈ transitionsOf id b.auditLog →
      row ∈ transitionsOf id (b.auditLog ++ [step.entry createdAt]) := by
    intro row id hmem
    simp only [transitionsOf, List.filter_append, List.mem_append] at hmem ⊢
    exact .inl hmem
  have hnew : ∀ audit, CapturedBy tasks (b.history ++ [.committed i (step.entry createdAt)]) audit →
      CapturedBy tasks b.history audit ∨
        audit = step.entry createdAt ∧ step.toState = .SUCCESS ∧ (b.role i).dto ≠ none := by
    intro audit haudit
    rcases haudit with ⟨j, dto, htask, haudit, hto⟩
    rw [List.mem_append, List.mem_singleton] at haudit
    rcases haudit with haudit | haudit
    . exact .inl ⟨j, dto, htask, haudit, hto⟩
    . injection haudit with hj haudit
      subst hj haudit
      refine .inr ⟨rfl, hto, ?_⟩
      rw [hreachable.traced.dto, htask]
      simp [Task.dto]
  have hdriving : ∀ j event txn,
      Function.update b.role i role j = .working (.driving event txn .SUCCESS) →
      b.role j = .working (.driving event txn .SUCCESS) ∨
        step.toState = .SUCCESS ∧ step.row.id = txn.id ∧ (b.role i).dto = none := by
    intro j event txn hdriving
    by_cases hj : j = i
    . subst hj
      rw [Function.update_self] at hdriving
      rcases hrole with hrole | hrole
      . rw [hrole] at hdriving
        exact .inr (hpermit.of_advance_success hdriving)
      . rw [hrole] at hdriving
        exact absurd hdriving ((b.role j).abort_ne_driving event txn .SUCCESS)
    . rw [Function.update_of_ne hj] at hdriving
      exact .inl hdriving
  have hunsettled : step.toState = .SUCCESS → ∀ row ∈ transitionsOf step.row.id b.auditLog,
      ¬Settled row.toState := by
    intro hto row hmem hsettled
    have hvalid := hpermit.valid
    rw [hto] at hvalid
    exact hreachable.audited.not_valid_success hrow hmem hsettled hvalid
  refine ⟨?_, ?_, ?_⟩
  . intro j event txn hat
    rcases hdriving j event txn hat with hold | ⟨hto, hid, _⟩
    . rcases h.reached j event txn hold with ⟨row, hmem, hsuccess⟩
      exact ⟨row, hmono row txn.id hmem, hsuccess⟩
    . refine ⟨step.entry createdAt, ?_, hto⟩
      rw [← hid]
      change _ ∈ transitionsOf step.row.id (b.auditLog ++ [step.entry createdAt])
      rw [transitionsOf_append_entry]
      simp
  . intro j event txn audit hat haudit hid
    rcases hdriving j event txn hat with hold | ⟨hto, hrowid, hdto⟩
    . rcases hnew audit haudit with haudit | ⟨heq, hto, _⟩
      . exact h.driving j event txn audit hold haudit hid
      . subst heq
        rcases h.reached j event txn hold with ⟨row, hmem, hsuccess⟩
        rw [← hid] at hmem
        exact absurd (.inl hsuccess) (hunsettled hto row hmem)
    . rcases hnew audit haudit with haudit | ⟨_, _, hcreating⟩
      . have hmem := hreachable.mem_of_capturedBy haudit
        rw [hid, ← hrowid] at hmem
        rcases haudit with ⟨_, _, _, _, hsuccess⟩
        exact absurd (.inl hsuccess) (hunsettled hto audit hmem)
      . exact absurd hdto hcreating
  . intro audit row haudit hmem hto
    rcases hnew audit haudit with haudit | ⟨heq, hsuccess, _⟩
    . rcases hlog row audit.transactionId hmem with hmem | ⟨heq, hid⟩
      . exact h.reconciled audit row haudit hmem hto
      . subst heq
        rcases hpermit.of_reconciled hto with ⟨event, txn, hat, hrowid, hgateway⟩
        rw [hgateway, h.driving i event txn audit hat haudit (hid.trans hrowid)]
    . subst heq
      rcases hlog row _ hmem with hmem | ⟨heq, _⟩
      . exact absurd (.inr hto) (hunsettled hsuccess row hmem)
      . subst heq
        exact absurd (hsuccess.symm.trans hto) (by simp)

theorem Step.attributed (hreachable : b.Reachable D tasks) (hstep : b.Step D b')
    (hfinds : Finds (FindsOwn tasks) b'.history) (h : b.Attributed tasks)
    : b'.Attributed tasks := by
  cases hstep with
  | commit i step createdAt role hpermit hrow hrole => exact h.commit hreachable hpermit hrow hrole
  | find i conditions row hfind hsome =>
    apply h.find hreachable hfind (fun t ht => (hsome t ht).left)
    intro t ht
    subst ht
    exact hfinds b.history [] i conditions t rfl
  | announce i dto row g fb createdAt =>
    refine h.frame (fun _ _ _ h => h) (fun _ _ h => h) ?_
    intro id
    exact transitionsOf_append_of_ne (.inr rfl)
  | insert i dto g fb row role hrole hnodup hrow hid hkey hrole' =>
    refine @Attributed.of_setRole _ b _ i h role rfl ?_ ?_ (fun _ => rfl)
    . intro event txn
      rcases hrole' with hrole' | hrole' <;> simp [hrole']
    . intro j audit haudit
      simpa [setRole, Books.insert] using haudit
  | load i event hrole =>
    refine @Attributed.of_setRole _ b _ i h (.working (.loaded event)) rfl (by simp) ?_
      (fun _ => rfl)
    intro j audit haudit
    simpa using haudit
  | charge i dto row g fb hrole =>
    refine h.of_setRole (i := i) rfl ?_ ?_ (fun _ => rfl)
    . intro event txn
      simp
    . intro j audit haudit
      simpa using haudit
  | answer i dto row g fb n charge response hrole =>
    refine h.of_setRole (i := i) rfl ?_ (fun _ _ h => h) (fun _ => rfl)
    intro event txn
    rw [hrole]
    cases hsuccess : response.success <;> simp [Role.raced, hsuccess]
  | hit i dto key t | threw i dto row g fb n charge message captured
  | timeout i dto row g fb n charge captured =>
    refine h.of_setRole (i := i) rfl ?_ (fun _ _ h => h) (fun _ => rfl)
    intro event txn
    simp
  | abort i =>
    refine h.of_setRole (i := i) rfl ?_ (fun _ _ h => h) (fun _ => rfl)
    intro event txn
    exact (b.role i).abort_ne_driving event txn .SUCCESS
  | _ => exact h.frame (fun _ _ _ h => h) (fun _ _ h => h) (fun _ => rfl)

theorem Start.attributed (h : b.Start tasks) : b.Attributed tasks := by
  refine ⟨?_, ?_, ?_⟩
  . intro i event txn hdriving
    rw [h.role] at hdriving
    cases htask : tasks i <;> simp [htask, Task.party] at hdriving
  . intro i event txn audit hdriving
    rw [h.role] at hdriving
    cases htask : tasks i <;> simp [htask, Task.party] at hdriving
  . intro audit row haudit
    rcases haudit with ⟨_, _, _, haudit, _⟩
    rw [h.history] at haudit
    cases haudit

theorem Reachable.attributed (h : b.Reachable D tasks)
    (hfinds : Finds (FindsOwn tasks) b.history) : b.Attributed tasks := by
  rcases h with ⟨b₀, hstart, hrun⟩
  induction hrun with
  | refl => exact hstart.attributed
  | tail hrun hstep ih =>
    have hfinds' := hfinds
    rcases hstep.history_append with ⟨events, hevents⟩
    rw [hevents] at hfinds'
    exact hstep.attributed ⟨b₀, hstart, hrun⟩ hfinds (ih hfinds'.of_append)

end Books

namespace System

variable {D : Deployment} {tasks : Pid → Task}

/--
The payment that `audit` has taken to SUCCESS for process `i` stays attributed to the gateway that
was charged, under the id that it has answered, wherever the service gets to.
-/
def StaysAttributed (tasks : Pid → Task) (P : System D → (machine D).Act → Prop) (c : System D)
    (i : Pid) (dto : CreateTransactionDto) (audit : AuditLog) : Prop :=
  ∃ g response, audit.gateway = some g ∧ response.success = true ∧
    (∃ charge ∈ c.world.charges, charge.pid = i ∧ charge.gateway = g ∧
      charge.request = TransactionsService.chargeRequest dto audit.transactionId g ∧
      charge.status = .answered response) ∧
    ∀ c', (machine D).RunBy (fun i => (tasks i).program D) P c c' →
      ∀ t ∈ c'.world.ledger.transactions, t.id = audit.transactionId →
        t.selectedGateway = some g ∧ t.gatewayTxnId = response.gatewayTxnId.getD none

theorem stays_attributed {c : System D} (h : c.ReachableBy D tasks (Lookups (FindsOwn tasks)))
    {i : Pid} {dto : CreateTransactionDto} {audit : AuditLog} (htask : tasks i = .create dto)
    (haudit : .committed i audit ∈ c.world.history) (hto : audit.toState = .SUCCESS)
    : c.StaysAttributed tasks (Lookups (FindsOwn tasks)) i dto audit := by
  rcases h.reachable.exists_books with ⟨b, hb, hdescribed⟩
  have hworld : b = c.world.books b.role := hdescribed.books
  have haudit' : .committed i audit ∈ b.history := by
    rw [hworld]
    exact haudit
  rcases hb.granted htask haudit' hto with ⟨g, response, hgateway, hsuccess, hanswered, hrow⟩
  refine ⟨g, response, hgateway, hsuccess, ?_, ?_⟩
  . rw [hworld] at hanswered
    exact hanswered
  . intro c' hrun t ht hid
    rcases h.reachable.exists_books_run hrun.run with ⟨b₁, b₂, hb₁, hdescribed₁, hrun₁, hdescribed₂⟩
    have hb₂ : b₂.Reachable D tasks := by
      rcases hb₁ with ⟨b₀, hstart, hrun₀⟩
      exact ⟨b₀, hstart, hrun₀.trans hrun₁⟩
    have ht₂ : t ∈ b₂.transactions := by
      rw [hdescribed₂.books]
      exact ht
    have haudit₁ : .committed i audit ∈ b₁.history := by
      rw [hdescribed₁.books]
      exact haudit
    refine ⟨?_, ?_⟩
    . have hfinds := (h.trans hrun).finds
      have hhistory : c'.world.history = b₂.history := by
        rw [hdescribed₂.books]
        rfl
      rw [hhistory] at hfinds
      have hcaptured : CapturedBy tasks b₂.history audit :=
        ⟨i, dto, htask, hrun₁.mem_history haudit₁, hto⟩
      rw [← hgateway]
      exact (hb₂.attributed hfinds).selectedGateway hb₂ hcaptured ht₂ hid
    . rcases hb₁.exists_row_of_committed haudit₁ with ⟨u, hu, huid⟩
      have husame : u ∈ b.transactions := by
        rw [hdescribed₁.books] at hu
        rw [hworld]
        exact hu
      have heq := hrun₁.gatewayTxnId_eq hb₁.inv hb₁.audited hu ht₂ (hid.trans huid.symm)
        ⟨audit, by rw [huid]; exact hb₁.told.mem_transitionsOf haudit₁, hto⟩
      rw [heq]
      exact hrow u husame huid

end System

namespace Scenario

-- Razorpay reports a payment of its own, with the key of a payment that another gateway has taken.
def foreignCapture : IncomingWebhook where
  gateway := .RAZORPAY
  eventId := "evt_1"
  eventType := "payment.captured"
  payload := .obj [("event", .str "payment.captured"), ("idempotencyKey", .str "order-7"),
    ("payload", .obj [("payment", .obj [("entity", .obj [("id", .str "pay_1")])])])]
  signatureVerified := true

def ownCapture : IncomingWebhook :=
  webhook "payment.captured" [("event", .str "payment.captured"), ("upi_txn_id", .str "upi_1")]

-- Every event that was loaded is of the gateway of the payment.
def loadedFrom (history : List Event) (t : Transaction) : Bool :=
  history.all fun event =>
    match event with
    | .loaded _ event => t.selectedGateway = some event.gateway
    | _ => true

-- The call is paid by UPI before the webhook arrives and the worker takes it up.
def paidThenConfirmed : List Act :=
  upToCharge ⟨0, 0⟩ "txn-1" ++ settle 0 (.answered (accepted "upi_1")) :: steps ⟨0, 0⟩ 12 ++
    deliver ++ .spawn ⟨0, 2⟩ :: steps ⟨0, 2⟩ 12

-- What the call has committed and what the row says now.
def attributedTo (charged selected : GatewayProvider) (w : World) : Bool :=
  (w.history.all fun event =>
    match event with
    | .committed i audit =>
      i = ⟨0, 0⟩ → audit.transactionId = "txn-1" ∧ audit.gateway = some charged
    | _ => true) &&
  w.ledger.transactions.any fun t => t.id = "txn-1" ∧ t.selectedGateway = some selected

theorem of_attributedTo {charged selected : GatewayProvider} {w : World}
    (h : attributedTo charged selected w = true)
    : (∀ audit, .committed ⟨0, 0⟩ audit ∈ w.history →
          audit.transactionId = "txn-1" ∧ audit.gateway = some charged) ∧
        ∃ t ∈ w.ledger.transactions, t.id = "txn-1" ∧ t.selectedGateway = some selected := by
  unfold attributedTo at h
  rw [Bool.and_eq_true, List.all_eq_true, List.any_eq_true] at h
  rcases h with ⟨hhistory, t, ht, hselected⟩
  refine ⟨?_, t, ht, of_decide_eq_true hselected⟩
  intro audit haudit
  exact of_decide_eq_true (hhistory _ haudit) rfl

end Scenario

namespace System

/--
The webhook of the gateway that was charged confirms the payment.
-/
theorem stays_attributed_confirmed
    : ∃ (c : System Scenario.deployment) (audit : AuditLog),
        Scenario.commits ⟨0, 2⟩ .RECONCILED c.world = true ∧
        .committed ⟨0, 0⟩ audit ∈ c.world.history ∧
        c.StaysAttributed (Scenario.tasks Scenario.ownCapture)
          (Lookups (FindsOwn (Scenario.tasks Scenario.ownCapture))) ⟨0, 0⟩ Scenario.order audit := by
  have hcheck : ∀ (history : List Event) (i : Pid) (conditions : List TxnWhere) (t : Transaction),
      Scenario.loadedFrom history t = true →
      FindsOwn (Scenario.tasks Scenario.ownCapture) history i conditions t := by
    intro history i conditions t h event audit hloaded _ _ _
    rw [Scenario.loadedFrom, List.all_eq_true] at h
    exact of_decide_eq_true (h _ hloaded)
  have hrun : (Scenario.outcomeIf (lookups fun history _ _ t => Scenario.loadedFrom history t)
      (Scenario.tasks Scenario.ownCapture) Scenario.paidThenConfirmed).any
      (fun c => Scenario.commits ⟨0, 2⟩ .RECONCILED c.world &&
        Scenario.commits ⟨0, 0⟩ .SUCCESS c.world) = true := by
    decide +kernel
  rcases Scenario.exists_reachableBy (lookups_of_check hcheck) hrun with ⟨c, hreachable, h⟩
  rw [Bool.and_eq_true] at h
  rcases Scenario.exists_committed h.right with ⟨audit, haudit, hto⟩
  exact ⟨c, audit, h.left, haudit, stays_attributed hreachable rfl haudit hto⟩

/--
A webhook of another gateway confirms the payment, and the row names that gateway from then on.
-/
theorem attribution_overwritten
    : ∃ (c : System Scenario.deployment) (audit : AuditLog),
        c.Reachable Scenario.deployment (Scenario.tasks Scenario.foreignCapture) ∧
        Scenario.tasks Scenario.foreignCapture ⟨0, 0⟩ = .create Scenario.order ∧
        .committed ⟨0, 0⟩ audit ∈ c.world.history ∧ audit.toState = .SUCCESS ∧
        ¬c.StaysAttributed (Scenario.tasks Scenario.foreignCapture) (fun _ _ => True) ⟨0, 0⟩
          Scenario.order audit := by
  have hrun : (Scenario.outcome (Scenario.tasks Scenario.foreignCapture)
      Scenario.paidThenConfirmed).any
      (fun c => Scenario.commits ⟨0, 0⟩ .SUCCESS c.world &&
        Scenario.attributedTo .UPI .RAZORPAY c.world) = true := by
    decide +kernel
  rcases Scenario.exists_reachable hrun with ⟨c, hreachable, h⟩
  rw [Bool.and_eq_true] at h
  rcases Scenario.exists_committed h.left with ⟨audit, haudit, hto⟩
  rcases Scenario.of_attributedTo h.right with ⟨hcommitted, t, ht, htid, hselected⟩
  rcases hcommitted audit haudit with ⟨hid, hgateway⟩
  refine ⟨c, audit, hreachable, rfl, haudit, hto, fun hstays => ?_⟩
  rcases hstays with ⟨g, response, hg, _, _, hrow⟩
  have hsame := (hrow c .refl t ht (htid.trans hid.symm)).left
  rw [hselected] at hsame
  rw [hgateway, ← hsame] at hg
  cases hg

end System

end PaymentOrchestration
