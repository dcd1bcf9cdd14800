import PaymentOrchestration.Books.History
import PaymentOrchestration.Concurrency.EdgePath

/-!
This module shows that the audit log replays every row of `transactions`.
-/

namespace PaymentOrchestration

open StateMachine

def Valid (fromState toState : TransactionState) : Prop :=
  toState ∈ VALID_TRANSITIONS fromState

def AuditLog.edge? (audit : AuditLog) : Option (TransactionState × TransactionState) :=
  audit.fromState.map (·, audit.toState)

-- The transitions of one payment, in the order they were committed in.
def transitionsOf (id : String) (auditLog : List AuditLog) : List AuditLog :=
  auditLog.filter (fun audit => audit.transactionId = id ∧ audit.fromState.isSome)

namespace Permit

variable {D : Deployment} {role : Role} {step : TransitionStep}

theorem metadata_gateway (h : Permit D role step)
    : ∃ g, step.metadata.gateway = some (some g) := by
  cases h with
  | _ =>
    subst_vars
    exact ⟨_, rfl⟩

theorem metadata_incrementAttempt (h : Permit D role step)
    : step.metadata.incrementAttempt = decide (step.toState = .PROCESSING) := by
  cases h with
  | _ =>
    subst_vars
    rfl

theorem metadata_gatewayTxnId (h : Permit D role step) (hne : step.toState ≠ .SUCCESS)
    : step.metadata.gatewayTxnId = none := by
  cases h with
  | succeed => exact absurd rfl hne
  | workerSucceed => exact absurd rfl hne
  | _ =>
    subst_vars
    rfl

end Permit

/--
The transitions `rows` make the row `t` out of a new one for the gateway `primary`.
-/
structure Replays (primary : GatewayProvider) (rows : List AuditLog) (t : Transaction) : Prop where
  path : EdgePath Valid .INITIATED (rows.filterMap AuditLog.edge?) t.currentState
  attempts : t.attemptCount = (rows.filter (·.toState = .PROCESSING)).length
  gateway : t.selectedGateway = (rows.getLast?.map AuditLog.gateway).getD (some primary)
  gatewayTxnId : (∀ row ∈ rows, row.toState ≠ .SUCCESS) → t.gatewayTxnId = none
  reconciledAt : t.finalReconciledAt.isSome ↔ t.currentState = .RECONCILED

theorem Replays.of_insert {dto : CreateTransactionDto} {g : GatewayProvider}
    {fb : List GatewayProvider} {t : Transaction}
    (ht : t = (TransactionsService.newTransaction dto g fb).row t.id) : Replays g [] t := by
  rw [ht]
  refine ⟨rfl, rfl, rfl, fun _ => rfl, ?_⟩
  simp [NewTransaction.row, TransactionsService.newTransaction]

theorem Replays.commit {D : Deployment} {primary : GatewayProvider} {rows : List AuditLog}
    {role : Role} {step : TransitionStep} {createdAt : Nat} (h : Replays primary rows step.row)
    (hpermit : Permit D role step)
    : Replays primary (rows ++ [step.entry createdAt]) step.result := by
  rcases hpermit.metadata_gateway with ⟨g, hg⟩
  refine ⟨?_, ?_, ?_, ?_, ?_⟩
  . rw [List.filterMap_append]
    exact h.path.snoc hpermit.valid
  . have hattempts : step.result.attemptCount =
        if step.metadata.incrementAttempt then step.row.attemptCount + 1
        else step.row.attemptCount := rfl
    have hto : (step.entry createdAt).toState = step.toState := rfl
    rw [hattempts, hpermit.metadata_incrementAttempt, h.attempts, List.filter_append,
      List.length_append, List.filter_singleton, hto]
    by_cases hprocessing : step.toState = .PROCESSING <;> simp [hprocessing]
  . simp [TransitionStep.result, TransitionStep.entry, TransitionStep.audit, mutate, auditRow, hg]
  . intro hsuccess
    have hto : step.toState ≠ .SUCCESS := hsuccess (step.entry createdAt) (by simp)
    have hid : step.result.gatewayTxnId =
        step.metadata.gatewayTxnId.getD step.row.gatewayTxnId := rfl
    rw [hid, hpermit.metadata_gatewayTxnId hto]
    apply h.gatewayTxnId
    intro row hrow
    exact hsuccess row (by simp [hrow])
  . have hfrom : step.row.currentState ≠ .RECONCILED := by
      intro hfrom
      have hvalid := hpermit.valid
      rw [hfrom] at hvalid
      cases hvalid
    have hnone : step.row.finalReconciledAt.isSome = false := by
      rw [Bool.eq_false_iff]
      exact fun hsome => hfrom (h.reconciledAt.mp hsome)
    simp only [TransitionStep.result, mutate]
    by_cases hto : step.toState = .RECONCILED <;> simp [hto, hnone]

theorem length_filter_edges {rows : List AuditLog} {x : TransactionState}
    (h : ∀ row ∈ rows, row.fromState.isSome)
    : (rows.filter (·.toState = x)).length =
        ((rows.filterMap AuditLog.edge?).filter (·.2 = x)).length := by
  induction rows with
  | nil => rfl
  | cons row rows ih =>
    have hrow := h row (by simp)
    have hrows := ih (fun row hrow => h row (by simp [hrow]))
    rcases Option.isSome_iff_exists.mp hrow with ⟨fromState, hfrom⟩
    have hedge : row.edge? = some (fromState, row.toState) := by
      simp [AuditLog.edge?, hfrom]
    rw [List.filterMap_cons_some hedge]
    by_cases hto : row.toState = x <;> simp [hto, hrows]

theorem mem_edges {rows : List AuditLog} {row : AuditLog} (hrow : row ∈ rows)
    (hfrom : row.fromState.isSome) : ∃ e ∈ rows.filterMap AuditLog.edge?, e.2 = row.toState := by
  rcases Option.isSome_iff_exists.mp hfrom with ⟨fromState, hfrom⟩
  refine ⟨(fromState, row.toState), ?_, rfl⟩
  rw [List.mem_filterMap]
  exact ⟨row, hrow, by simp [AuditLog.edge?, hfrom]⟩

-- After SUCCESS there is only RECONCILED, after FAILED there is nothing.
def Settled (state : TransactionState) : Prop :=
  state = .SUCCESS ∨ state = .RECONCILED

theorem settled_closed (a b : TransactionState) (ha : Settled a) (h : Valid a b) : Settled b := by
  unfold Valid at h
  rcases ha with ha | ha
  . subst ha
    rw [show VALID_TRANSITIONS .SUCCESS = [.RECONCILED] from rfl, List.mem_singleton] at h
    exact .inr h
  . subst ha
    cases h

theorem reconciled_closed (a b : TransactionState) (ha : a = .RECONCILED) (h : Valid a b)
    : b = .RECONCILED := by
  subst ha
  cases h

namespace Replays

variable {primary : GatewayProvider} {rows : List AuditLog} {t : Transaction}

theorem length_success_le (h : Replays primary rows t)
    (hrows : ∀ row ∈ rows, row.fromState.isSome)
    : (rows.filter (·.toState = .SUCCESS)).length ≤ 1 := by
  rw [length_filter_edges hrows]
  apply EdgePath.length_filter_le_one reconciled_closed _ _ h.path
  . intro b hb
    rcases settled_closed _ _ (.inl rfl) hb with hb' | hb'
    . subst hb'
      simp [Valid, VALID_TRANSITIONS] at hb
    . exact hb'
  . simp

theorem length_reconciled_le (h : Replays primary rows t)
    (hrows : ∀ row ∈ rows, row.fromState.isSome)
    : (rows.filter (·.toState = .RECONCILED)).length ≤ 1 := by
  rw [length_filter_edges hrows]
  apply EdgePath.length_filter_le_one (S := fun _ => False) _ _ _ h.path
  . exact fun _ _ ha _ => ha
  . intro b hb
    cases hb
  . exact id

/--
Once a payment has entered a closed set of states, its later transitions stay in it.
-/
theorem mem_of_closed {S : TransactionState → Prop}
    (hclosed : ∀ a b, S a → Valid a b → S b) {r₁ r₂ : List AuditLog} {row : AuditLog}
    (h : Replays primary (r₁ ++ row :: r₂) t) (hfrom : row.fromState.isSome)
    (hrow : S row.toState)
    : S t.currentState ∧ ∀ row' ∈ r₂, row'.fromState.isSome → S row'.toState := by
  rcases Option.isSome_iff_exists.mp hfrom with ⟨fromState, hfrom⟩
  have hedge : row.edge? = some (fromState, row.toState) := by
    simp [AuditLog.edge?, hfrom]
  have hpath := h.path
  rw [List.filterMap_append, List.filterMap_cons_some hedge] at hpath
  rcases hpath.after.mem_of_closed hclosed hrow with ⟨hstate, hedges⟩
  refine ⟨hstate, ?_⟩
  intro row' hrow' hfrom'
  rcases mem_edges hrow' hfrom' with ⟨e, he, heq⟩
  rw [← heq]
  exact hedges e he

-- The state of a payment is the one its last transition went to.
theorem exists_of_state (h : Replays primary rows t) (hne : t.currentState ≠ .INITIATED)
    : ∃ row ∈ rows, row.toState = t.currentState := by
  rcases h.path.eq_or_mem with heq | ⟨e, he, heq⟩
  . exact absurd heq hne
  . rw [List.mem_filterMap] at he
    rcases he with ⟨row, hrow, hedge⟩
    refine ⟨row, hrow, ?_⟩
    unfold AuditLog.edge? at hedge
    rw [Option.map_eq_some_iff] at hedge
    rcases hedge with ⟨fromState, _, hedge⟩
    rw [← heq, ← hedge]

theorem settled_of_success (h : Replays primary rows t)
    (hrows : ∀ row ∈ rows, row.fromState.isSome) (hsuccess : ∃ row ∈ rows, row.toState = .SUCCESS)
    : Settled t.currentState := by
  rcases hsuccess with ⟨row, hrow, hto⟩
  rcases List.mem_iff_append.mp hrow with ⟨r₁, r₂, heq⟩
  subst heq
  exact (h.mem_of_closed settled_closed (hrows row (by simp)) (.inl hto)).left

theorem not_success_and_failed (h : Replays primary rows t)
    (hrows : ∀ row ∈ rows, row.fromState.isSome)
    : ¬((∃ row ∈ rows, row.toState = .SUCCESS) ∧ ∃ row ∈ rows, row.toState = .FAILED) := by
  rintro ⟨hsuccess, row, hrow, hto⟩
  have hsettled := h.settled_of_success hrows hsuccess
  rcases List.mem_iff_append.mp hrow with ⟨r₁, r₂, heq⟩
  subst heq
  have hfailed : t.currentState = .FAILED := by
    apply (h.mem_of_closed (S := fun state => state = .FAILED) _ (hrows row (by simp)) hto).left
    intro a b ha hb
    subst ha
    cases hb
  rcases hsettled with hsettled | hsettled
  . rw [hfailed] at hsettled
    cases hsettled
  . rw [hfailed] at hsettled
    cases hsettled

end Replays

theorem isSome_of_mem_transitionsOf {id : String} {auditLog : List AuditLog}
    : ∀ row ∈ transitionsOf id auditLog, row.fromState.isSome := by
  intro row hrow
  simp only [transitionsOf, List.mem_filter, decide_eq_true_eq] at hrow
  exact hrow.right.right

namespace Books

variable {D : Deployment} {tasks : Pid → Task} {b b' : Books}

/--
Every row is replayed by its transitions, and the audit log has no rows about other payments.
-/
structure Audited (b : Books) : Prop where
  ids : ∀ audit ∈ b.auditLog, audit.transactionId ∈ b.transactions.map (·.id)
  replays : ∀ t ∈ b.transactions, ∃ i row primary, .inserted i row ∈ b.history ∧
    row.id = t.id ∧ row.selectedGateway = some primary ∧
    Replays primary (transitionsOf t.id b.auditLog) t

theorem Audited.of_eq (h : b.Audited) (htransactions : b'.transactions = b.transactions)
    (hauditLog : b'.auditLog = b.auditLog) (hhistory : ∀ event ∈ b.history, event ∈ b'.history)
    : b'.Audited := by
  refine ⟨?_, ?_⟩
  . rw [htransactions, hauditLog]
    exact h.ids
  . rw [htransactions, hauditLog]
    intro t ht
    rcases h.replays t ht with ⟨i, row, primary, hrow, h⟩
    exact ⟨i, row, primary, hhistory _ hrow, h⟩

theorem Audited.transitionsOf_eq_nil (h : b.Audited) {id : String}
    (hid : id ∉ b.transactions.map (·.id)) : transitionsOf id b.auditLog = [] := by
  unfold transitionsOf
  rw [List.filter_eq_nil_iff]
  intro audit haudit
  rw [decide_eq_true_eq]
  rintro ⟨htransaction, _⟩
  have := h.ids audit haudit
  rw [htransaction] at this
  exact hid this

theorem transitionsOf_append_of_ne {id : String} {auditLog : List AuditLog} {audit : AuditLog}
    (h : audit.transactionId ≠ id ∨ audit.fromState = none)
    : transitionsOf id (auditLog ++ [audit]) = transitionsOf id auditLog := by
  unfold transitionsOf
  rw [List.filter_append]
  rcases h with h | h <;> simp [h]

theorem transitionsOf_append_entry {step : TransitionStep} {auditLog : List AuditLog}
    {createdAt : Nat}
    : transitionsOf step.row.id (auditLog ++ [step.entry createdAt]) =
        transitionsOf step.row.id auditLog ++ [step.entry createdAt] := by
  unfold transitionsOf
  rw [List.filter_append]
  simp [TransitionStep.entry, TransitionStep.audit, auditRow]

theorem Audited.insert (h : b.Audited) {i : Pid} {dto : CreateTransactionDto}
    {g : GatewayProvider} {fb : List GatewayProvider} {row : Transaction} {role : Role}
    (hrow : row = (TransactionsService.newTransaction dto g fb).row row.id)
    (hid : row.id ∉ b.transactions.map (·.id)) : ((b.insert i row).setRole i role).Audited := by
  refine ⟨?_, ?_⟩
  . intro audit haudit
    simp only [setRole, Books.insert, List.map_append, List.mem_append]
    exact .inl (h.ids audit haudit)
  . intro t ht
    simp only [setRole, Books.insert, List.mem_append, List.mem_singleton] at ht ⊢
    rcases ht with ht | ht
    . rcases h.replays t ht with ⟨j, row', primary, hrow', h⟩
      exact ⟨j, row', primary, .inl hrow', h⟩
    . subst ht
      refine ⟨i, t, g, .inr rfl, rfl, by rw [hrow]; rfl, ?_⟩
      rw [h.transitionsOf_eq_nil hid]
      exact .of_insert hrow

theorem Audited.commit (h : b.Audited) {i : Pid} {step : TransitionStep}
    {createdAt : Nat} {role : Role} (hpermit : Permit D (b.role i) step)
    (hrow : step.row ∈ b.transactions) : ((b.commit i step createdAt).setRole i role).Audited := by
  have hids : (Ledger.writeRow step.result b.transactions).map (·.id) =
      b.transactions.map (·.id) := by
    apply map_writeRow
    intro old hold hid
    exact hid
  refine ⟨?_, ?_⟩
  . intro audit haudit
    simp only [setRole, Books.commit, List.mem_append, List.mem_singleton] at haudit ⊢
    rw [hids]
    rcases haudit with haudit | haudit
    . exact h.ids audit haudit
    . rw [haudit, List.mem_map]
      exact ⟨step.row, hrow, rfl⟩
  . intro t ht
    simp only [setRole, Books.commit] at ht ⊢
    rcases mem_writeRow ht with ht | ⟨ht, hid⟩
    . subst ht
      rcases h.replays _ hrow with ⟨j, row', primary, hrow', hid, hprimary, hreplays⟩
      refine ⟨j, row', primary, by simp [hrow'], hid, hprimary, ?_⟩
      rw [TransitionStep.result_id, transitionsOf_append_entry]
      exact hreplays.commit hpermit
    . rcases h.replays t ht with ⟨j, row', primary, hrow', hid', hprimary, hreplays⟩
      refine ⟨j, row', primary, by simp [hrow'], hid', hprimary, ?_⟩
      rw [transitionsOf_append_of_ne]
      . exact hreplays
      . exact .inl (Ne.symm hid)

theorem Step.audited (hinv : b.Inv) (hstep : b.Step D b') (h : b.Audited) : b'.Audited := by
  cases hstep with
  | insert i dto g fb row role hrole hnodup hrow hid => exact h.insert hrow hid
  | commit i step createdAt role hpermit hrow => exact h.commit hpermit hrow
  | announce i dto row g fb createdAt hrole =>
    refine ⟨?_, ?_⟩
    . intro audit haudit
      simp only [List.mem_append, List.mem_singleton] at haudit
      rcases haudit with haudit | haudit
      . exact h.ids audit haudit
      . have hsound := hinv.role i
        rw [hrole] at hsound
        rcases hsound.left.exists_row with ⟨row', hrow', hidentity⟩
        simp only [Transaction.identity, Prod.mk.injEq] at hidentity
        rw [haudit, List.mem_map]
        exact ⟨row', hrow', hidentity.left⟩
    . intro t ht
      rcases h.replays t ht with ⟨j, row', primary, hrow', hid', hprimary, hreplays⟩
      refine ⟨j, row', primary, hrow', hid', hprimary, ?_⟩
      rw [transitionsOf_append_of_ne (.inr rfl)]
      exact hreplays
  | find i conditions row => exact h.of_eq rfl rfl (fun _ h => List.mem_append_left _ h)
  | load i event => exact h.of_eq rfl rfl (fun _ h => List.mem_append_left _ h)
  | charge i dto row g fb => exact h.of_eq rfl rfl (fun _ h => List.mem_append_left _ h)
  | _ => exact h.of_eq rfl rfl (fun _ h => h)

theorem Start.audited (h : b.Start tasks) : b.Audited := by
  constructor <;> simp [h.transactions, h.auditLog]

theorem Run.audited (hinv : b.Inv) (hrun : b.Run D b') (h : b.Audited) : b'.Audited := by
  induction hrun with
  | refl => exact h
  | tail hrun hstep ih => exact hstep.audited (Run.inv hinv hrun) ih

theorem Reachable.audited (h : b.Reachable D tasks) : b.Audited := by
  rcases h with ⟨b₀, hstart, hrun⟩
  exact hrun.audited hstart.inv hstart.audited

/--
A payment is in the state that somebody has committed for it.
-/
theorem Reachable.exists_commit_of_state (h : b.Reachable D tasks) {t : Transaction}
    (ht : t ∈ b.transactions) (hne : t.currentState ≠ .INITIATED)
    : ∃ i audit, .committed i audit ∈ b.history ∧ audit.transactionId = t.id ∧
        audit.toState = t.currentState := by
  rcases h.audited.replays t ht with ⟨_, _, _, _, _, _, hreplays⟩
  rcases hreplays.exists_of_state hne with ⟨audit, haudit, hto⟩
  simp only [transitionsOf, List.mem_filter, decide_eq_true_eq] at haudit
  rcases haudit with ⟨haudit, hid, hfrom⟩
  have hcommits : audit ∈ commitsOf b.history := by
    rw [h.told.committed, List.mem_filter]
    exact ⟨haudit, hfrom⟩
  unfold commitsOf at hcommits
  rw [List.mem_filterMap] at hcommits
  rcases hcommits with ⟨event, hevent, hcommitted⟩
  cases event with
  | committed i audit' =>
    simp only [Event.committed?, Option.some.injEq] at hcommitted
    subst hcommitted
    exact ⟨i, audit', hevent, hid, hto⟩
  | _ => cases hcommitted

theorem Step.auditLog_append (hstep : b.Step D b')
    : ∃ audits, b'.auditLog = b.auditLog ++ audits := by
  cases hstep with
  | announce => exact ⟨_, rfl⟩
  | commit => exact ⟨_, rfl⟩
  | _ => exact ⟨[], by simp [setRole, Books.insert]⟩

/--
Nothing changes the id at the gateway once there is a transition to SUCCESS.
-/
theorem Step.gatewayTxnId_eq (hinv : b.Inv) (haudited : b.Audited) (hstep : b.Step D b')
    {t t' : Transaction} (ht : t ∈ b.transactions) (ht' : t' ∈ b'.transactions)
    (hid : t'.id = t.id)
    (hsuccess : ∃ row ∈ transitionsOf t.id b.auditLog, row.toState = .SUCCESS)
    : t'.gatewayTxnId = t.gatewayTxnId := by
  cases hstep with
  | insert i dto g fb row role hrole hnodup hrow hfresh =>
    simp only [setRole, Books.insert, List.mem_append, List.mem_singleton] at ht'
    rcases ht' with ht' | ht'
    . rw [hinv.eq_of_id ht' ht hid]
    . rw [← ht', hid] at hfresh
      exact absurd (List.mem_map_of_mem ht) hfresh
  | commit i step createdAt role hpermit hrow =>
    rcases mem_writeRow ht' with ht' | ⟨ht', _⟩
    . subst ht'
      have heq : t = step.row := hinv.eq_of_id ht hrow hid.symm
      subst heq
      rcases haudited.replays _ hrow with ⟨_, _, primary, _, _, _, hreplays⟩
      have hne : step.toState ≠ .SUCCESS := by
        intro hto
        have hvalid := hpermit.valid
        rw [hto] at hvalid
        rcases hreplays.settled_of_success isSome_of_mem_transitionsOf hsuccess with hs | hs
        . simp [hs, VALID_TRANSITIONS] at hvalid
        . simp [hs, VALID_TRANSITIONS] at hvalid
      simp [TransitionStep.result, mutate, hpermit.metadata_gatewayTxnId hne]
    . rw [hinv.eq_of_id ht' ht hid]
  | _ => rw [hinv.eq_of_id ht' ht hid]

theorem Run.gatewayTxnId_eq (hinv : b.Inv) (haudited : b.Audited) (hrun : b.Run D b')
    {t t' : Transaction} (ht : t ∈ b.transactions) (ht' : t' ∈ b'.transactions)
    (hid : t'.id = t.id)
    (hsuccess : ∃ row ∈ transitionsOf t.id b.auditLog, row.toState = .SUCCESS)
    : t'.gatewayTxnId = t.gatewayTxnId := by
  induction hrun using Relation.ReflTransGen.head_induction_on generalizing t with
  | refl => rw [hinv.eq_of_id ht' ht hid]
  | @head _ b₁ hstep hrest ih =>
    rcases (hstep.known_mono hinv (known_of_mem ht)).exists_row with ⟨u, hu, hidentity⟩
    simp only [Transaction.identity, Prod.mk.injEq] at hidentity
    have hsuccess' : ∃ row ∈ transitionsOf u.id b₁.auditLog, row.toState = .SUCCESS := by
      rcases hsuccess with ⟨row, hrow, hto⟩
      rcases hstep.auditLog_append with ⟨audits, haudits⟩
      refine ⟨row, ?_, hto⟩
      rw [hidentity.left, haudits]
      simp only [transitionsOf, List.filter_append, List.mem_append] at hrow ⊢
      exact .inl hrow
    rw [ih (hstep.inv hinv) (hstep.audited hinv haudited) hu (hid.trans hidentity.left.symm)
      hsuccess']
    exact hstep.gatewayTxnId_eq hinv haudited ht hu hidentity.left hsuccess

end Books

end PaymentOrchestration
