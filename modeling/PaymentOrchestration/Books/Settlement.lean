import PaymentOrchestration.Books.Replay
import PaymentOrchestration.Books.WorkerTrail

/-!
This module shows that `create` takes a payment to SUCCESS only on a gateway's word: it has asked the
gateway, the answer was a success and the id in it is the one that stays with the payment.
-/

namespace PaymentOrchestration

open StateMachine TransactionsService

namespace Books

variable {D : Deployment} {tasks : Pid → Task} {b b' : Books} {i : Pid}

/--
The call for `dto` at the gateway has been answered by `response`.
-/
def Answered (b : Books) (i : Pid) (dto : CreateTransactionDto) (id : String)
    (g : GatewayProvider) (response : GatewayChargeResponse) : Prop :=
  ∃ charge ∈ b.charges, charge.pid = i ∧ charge.gateway = g ∧
    charge.request = chargeRequest dto id g ∧ charge.status = .answered response

/--
What is known of a transition to SUCCESS by `create`.
-/
def Granted (b : Books) (i : Pid) (dto : CreateTransactionDto) (audit : AuditLog) : Prop :=
  ∃ g response, audit.gateway = some g ∧ response.success = true ∧
    b.Answered i dto audit.transactionId g response ∧
    ∀ t ∈ b.transactions, t.id = audit.transactionId →
      t.gatewayTxnId = response.gatewayTxnId.getD none

structure Backed (b : Books) (i : Pid) : Prop where
  charging : ∀ dto row g fb n, b.role i = .creating dto (.looping row g fb (.charging n)) →
    ∃ charge, b.charges[n]? = some charge ∧ charge.pid = i ∧ charge.gateway = g ∧
      charge.request = chargeRequest dto row.id g
  succeeded : ∀ dto row g fb response,
    b.role i = .creating dto (.looping row g fb (.succeeded response)) →
    response.success = true ∧ b.Answered i dto row.id g response
  granted : ∀ dto audit, (b.role i).dto = some dto → .committed i audit ∈ b.history →
    audit.toState = .SUCCESS → b.Granted i dto audit

-- A charge call keeps what it was made for, and its answer.
theorem Step.getElem?_charges (hstep : b.Step D b') {n : Nat} {charge : Charge}
    (hcharge : b.charges[n]? = some charge)
    : ∃ charge', b'.charges[n]? = some charge' ∧ charge'.pid = charge.pid ∧
        charge'.gateway = charge.gateway ∧ charge'.request = charge.request ∧
        ∀ response, charge.status = .answered response → charge' = charge := by
  have hset : ∀ {m : Nat} {old new : Charge} {captured : Bool}, b.charges[m]? = some old →
      old.status = .pending captured → new.pid = old.pid → new.gateway = old.gateway →
      new.request = old.request →
      ∃ charge', (b.charges.set m new)[n]? = some charge' ∧ charge'.pid = charge.pid ∧
        charge'.gateway = charge.gateway ∧ charge'.request = charge.request ∧
        ∀ response, charge.status = .answered response → charge' = charge := by
    intro m old new captured hold hstatus hpid hgateway hrequest
    by_cases hm : m = n
    . subst hm
      rw [hcharge] at hold
      injection hold with hold
      subst hold
      refine ⟨new, ?_, hpid, hgateway, hrequest, ?_⟩
      . rw [List.getElem?_set_self (List.getElem?_eq_some_iff.mp hcharge).fst]
      . intro response hanswered
        rw [hstatus] at hanswered
        cases hanswered
    . refine ⟨charge, ?_, rfl, rfl, rfl, fun _ _ => rfl⟩
      rw [List.getElem?_set_ne hm, hcharge]
  cases hstep with
  | charge j dto row g fb =>
    refine ⟨charge, ?_, rfl, rfl, rfl, fun _ _ => rfl⟩
    have hlt := (List.getElem?_eq_some_iff.mp hcharge).fst
    dsimp only
    rw [List.getElem?_append_left hlt, hcharge]
  | timeout j dto row g fb m old captured hrole hold hstatus =>
    exact hset hold hstatus rfl rfl rfl
  | settle m old captured status hold hstatus => exact hset hold hstatus rfl rfl rfl
  | _ => exact ⟨charge, hcharge, rfl, rfl, rfl, fun _ _ => rfl⟩

theorem Step.answered (hstep : b.Step D b') {dto : CreateTransactionDto} {id : String}
    {g : GatewayProvider} {response : GatewayChargeResponse} (h : b.Answered i dto id g response)
    : b'.Answered i dto id g response := by
  rcases h with ⟨charge, hmem, hpid, hgateway, hrequest, hstatus⟩
  rcases List.mem_iff_getElem?.mp hmem with ⟨n, hn⟩
  rcases hstep.getElem?_charges hn with ⟨charge', hn', _, _, _, hanswered⟩
  rw [hanswered response hstatus] at hn'
  exact ⟨charge, List.mem_of_getElem? hn', hpid, hgateway, hrequest, hstatus⟩

theorem Told.mem_transitionsOf (h : b.Told) {audit : AuditLog}
    (haudit : .committed i audit ∈ b.history)
    : audit ∈ transitionsOf audit.transactionId b.auditLog := by
  have hmem : audit ∈ commitsOf b.history := by
    unfold commitsOf
    rw [List.mem_filterMap]
    exact ⟨_, haudit, rfl⟩
  rw [h.committed, List.mem_filter] at hmem
  rw [transitionsOf, List.mem_filter, decide_eq_true_eq]
  exact ⟨hmem.left, rfl, hmem.right⟩

-- A row of the next state has been there before, if it is the row of a committed transition.
theorem Reachable.exists_row_of_committed (h : b.Reachable D tasks) {audit : AuditLog}
    (haudit : .committed i audit ∈ b.history)
    : ∃ t ∈ b.transactions, t.id = audit.transactionId := by
  have hmem := h.told.mem_transitionsOf haudit
  simp only [transitionsOf, List.mem_filter] at hmem
  exact List.mem_map.mp (h.audited.ids audit hmem.left)

theorem Step.granted (hreachable : b.Reachable D tasks) (hstep : b.Step D b')
    {dto : CreateTransactionDto} {audit : AuditLog} (haudit : .committed i audit ∈ b.history)
    (hto : audit.toState = .SUCCESS) (h : b.Granted i dto audit) : b'.Granted i dto audit := by
  rcases h with ⟨g, response, hgateway, hsuccess, hanswered, hrow⟩
  refine ⟨g, response, hgateway, hsuccess, hstep.answered hanswered, ?_⟩
  intro t ht hid
  rcases hreachable.exists_row_of_committed haudit with ⟨u, hu, huid⟩
  have heq := hstep.gatewayTxnId_eq hreachable.inv hreachable.audited hu ht (hid.trans huid.symm)
    ⟨audit, by rw [huid]; exact hreachable.told.mem_transitionsOf haudit, hto⟩
  rw [heq]
  exact hrow u hu huid

-- A row that is still being processed has no id at the gateway.
theorem Reachable.gatewayTxnId_of_processing (h : b.Reachable D tasks) {t : Transaction}
    (ht : t ∈ b.transactions) (hstate : t.currentState = .PROCESSING) : t.gatewayTxnId = none := by
  rcases h.audited.replays t ht with ⟨_, _, _, _, _, _, hreplays⟩
  apply hreplays.gatewayTxnId
  intro row hrow hto
  rcases hreplays.settled_of_success isSome_of_mem_transitionsOf ⟨row, hrow, hto⟩ with hs | hs
  all_goals
    rw [hstate] at hs
    cases hs

theorem processing_of_valid {state : TransactionState} (h : .SUCCESS ∈ VALID_TRANSITIONS state)
    : state = .PROCESSING := by
  revert h
  cases state <;> decide

/--
The transition itself.
-/
theorem Backed.commit (hreachable : b.Reachable D tasks) (h : b.Backed i)
    {step : TransitionStep} {createdAt : Nat} {role : Role} (hpermit : Permit D (b.role i) step)
    (hrow : step.row ∈ b.transactions) (hto : step.toState = .SUCCESS)
    {dto : CreateTransactionDto} (hdto : (b.role i).dto = some dto)
    : ((b.commit i step createdAt).setRole i role).Granted i dto (step.entry createdAt) := by
  generalize hrole : b.role i = r at hpermit hdto
  cases hpermit with
  | succeed dto' row g fb response st metadata now hid hvalid hmeta =>
    injection hdto with hdto
    subst hdto hmeta
    rcases h.succeeded _ _ _ _ _ hrole with ⟨hsuccess, hanswered⟩
    have hst : st.id = row.id := hid
    refine ⟨g, response, rfl, hsuccess, ?_, ?_⟩
    . rw [← hst] at hanswered
      exact hanswered
    . intro t ht htid
      rcases mem_writeRow ht with ht | ⟨_, hne⟩
      . rw [ht]
        have hnone := hreachable.gatewayTxnId_of_processing hrow (processing_of_valid hvalid)
        change response.gatewayTxnId.getD st.gatewayTxnId = _
        rw [show st.gatewayTxnId = none from hnone]
      . exact absurd htid hne
  | workerSucceed => cases hdto
  | _ => cases hto

theorem Backed.frame (hreachable : b.Reachable D tasks) (hstep : b.Step D b') (h : b.Backed i)
    (hdto : (b'.role i).dto = (b.role i).dto)
    (hrole : b'.role i = b.role i ∨
      (∀ dto row g fb n, b'.role i ≠ .creating dto (.looping row g fb (.charging n))) ∧
        ∀ dto row g fb response,
          b'.role i ≠ .creating dto (.looping row g fb (.succeeded response)))
    (hgranted : ∀ dto audit, (b.role i).dto = some dto → .committed i audit ∈ b'.history →
      audit.toState = .SUCCESS → .committed i audit ∈ b.history ∨ b'.Granted i dto audit)
    : b'.Backed i := by
  refine ⟨?_, ?_, ?_⟩
  . intro dto row g fb n hcharging
    rcases hrole with hrole | ⟨hnot, _⟩
    . rw [hrole] at hcharging
      rcases h.charging _ _ _ _ _ hcharging with ⟨charge, hn, hpid, hgateway, hrequest⟩
      rcases hstep.getElem?_charges hn with ⟨charge', hn', hpid', hgateway', hrequest', _⟩
      exact ⟨charge', hn', hpid'.trans hpid, hgateway'.trans hgateway, hrequest'.trans hrequest⟩
    . exact absurd hcharging (hnot _ _ _ _ _)
  . intro dto row g fb response hsucceeded
    rcases hrole with hrole | ⟨_, hnot⟩
    . rw [hrole] at hsucceeded
      rcases h.succeeded _ _ _ _ _ hsucceeded with ⟨hsuccess, hanswered⟩
      exact ⟨hsuccess, hstep.answered hanswered⟩
    . exact absurd hsucceeded (hnot _ _ _ _ _)
  . intro dto audit hdto' haudit hto
    rw [hdto] at hdto'
    rcases hgranted dto audit hdto' haudit hto with hold | hnew
    . exact hstep.granted hreachable hold hto (h.granted dto audit hdto' hold hto)
    . exact hnew

-- A step that takes no payment to SUCCESS and leaves the process where no answer is due.
theorem Backed.of_quiet (hreachable : b.Reachable D tasks) (hstep : b.Step D b') (h : b.Backed i)
    (hdto : (b'.role i).dto = (b.role i).dto)
    (hrole : b'.role i = b.role i ∨
      (∀ dto row g fb n, b'.role i ≠ .creating dto (.looping row g fb (.charging n))) ∧
        ∀ dto row g fb response,
          b'.role i ≠ .creating dto (.looping row g fb (.succeeded response)))
    (hhistory : ∀ audit, .committed i audit ∈ b'.history → .committed i audit ∈ b.history)
    : b'.Backed i := by
  apply h.frame hreachable hstep hdto hrole
  intro dto audit _ haudit _
  exact .inl (hhistory audit haudit)

theorem Backed.charge (hreachable : b.Reachable D tasks) (hstep : b.Step D b') (h : b.Backed i)
    {dto : CreateTransactionDto} {row : Transaction} {g : GatewayProvider}
    {fb : List GatewayProvider} (hrole : b.role i = .creating dto (.looping row g fb .processing))
    (hrole' : b'.role i = .creating dto (.looping row g fb (.charging b.charges.length)))
    (hcharges : b'.charges = b.charges ++ [⟨i, g, chargeRequest dto row.id g, .pending false, false⟩])
    (hhistory : ∀ audit, .committed i audit ∈ b'.history → .committed i audit ∈ b.history)
    : b'.Backed i := by
  refine ⟨?_, ?_, ?_⟩
  . intro dto' row' g' fb' n heq
    rw [hrole'] at heq
    injection heq with hdto heq
    injection heq with hrow hg hfb heq
    injection heq with hn
    subst hdto hrow hg hn
    exact ⟨⟨i, g, chargeRequest dto row.id g, .pending false, false⟩, by simp [hcharges], rfl, rfl, rfl⟩
  . intro dto' row' g' fb' response heq
    rw [hrole'] at heq
    cases heq
  . intro dto' audit hdto haudit hto
    rw [hrole'] at hdto
    have hold := hhistory audit haudit
    refine hstep.granted hreachable hold hto (h.granted dto' audit ?_ hold hto)
    rw [hrole]
    exact hdto

theorem Backed.answer (hreachable : b.Reachable D tasks) (hstep : b.Step D b') (h : b.Backed i)
    {dto : CreateTransactionDto} {row : Transaction} {g : GatewayProvider}
    {fb : List GatewayProvider} {n : Nat} {charge : Charge} {response : GatewayChargeResponse}
    (hrole : b.role i = .creating dto (.looping row g fb (.charging n)))
    (hcharge : b.charges[n]? = some charge) (hstatus : charge.status = .answered response)
    (hrole' : b'.role i = (b.role i).raced (.ok response)) (hhistory : b'.history = b.history)
    : b'.Backed i := by
  have hanswered : b.Answered i dto row.id g response := by
    rcases h.charging _ _ _ _ _ hrole with ⟨charge', hn, hpid, hgateway, hrequest⟩
    rw [hcharge] at hn
    injection hn with hn
    subst hn
    exact ⟨charge, List.mem_of_getElem? hcharge, hpid, hgateway, hrequest, hstatus⟩
  have hraced : b'.role i = .creating dto (.looping row g fb
      (if response.success then .succeeded response else .failed)) := by
    rw [hrole', hrole]
    cases hsuccess : response.success <;> simp [Role.raced, hsuccess]
  refine ⟨?_, ?_, ?_⟩
  . intro dto' row' g' fb' n' heq
    rw [hraced] at heq
    cases hsuccess : response.success <;> simp [hsuccess] at heq
  . intro dto' row' g' fb' response' heq
    rw [hraced] at heq
    cases hsuccess : response.success with
    | false => simp [hsuccess] at heq
    | true =>
      simp only [hsuccess, if_true] at heq
      injection heq with hdto heq
      injection heq with hrow hg hfb heq
      injection heq with heq
      subst hdto hrow hg heq
      exact ⟨hsuccess, hstep.answered hanswered⟩
  . intro dto' audit hdto haudit hto
    rw [hraced] at hdto
    rw [hhistory] at haudit
    refine hstep.granted hreachable haudit hto (h.granted dto' audit ?_ haudit hto)
    rw [hrole]
    exact hdto

theorem not_due_of_abort (role : Role)
    : (∀ dto row g fb n, role.abort ≠ .creating dto (.looping row g fb (.charging n))) ∧
        ∀ dto row g fb response,
          role.abort ≠ .creating dto (.looping row g fb (.succeeded response)) := by
  cases role <;> simp [Role.abort]

theorem not_due_of_advance {role : Role} {step : TransitionStep} (h : Permit D role step)
    : (∀ dto row g fb n,
          role.advance step.result ≠ .creating dto (.looping row g fb (.charging n))) ∧
        ∀ dto row g fb response,
          role.advance step.result ≠ .creating dto (.looping row g fb (.succeeded response)) := by
  cases h <;> simp [Role.advance]

theorem not_due_of_read {role : Role} {conditions : List TxnWhere}
    (h : role.mayFind conditions) (row : Option Transaction)
    : (∀ dto row' g fb n, role.read row ≠ .creating dto (.looping row' g fb (.charging n))) ∧
        ∀ dto row' g fb response,
          role.read row ≠ .creating dto (.looping row' g fb (.succeeded response)) := by
  rcases h with ⟨dto, hrole, _⟩ | ⟨event, x, hrole, _⟩
  all_goals
    subst hrole
    cases row <;> simp [Role.read]

theorem Step.backed (hreachable : b.Reachable D tasks) (hstep : b.Step D b') (h : b.Backed i)
    : b'.Backed i := by
  have hstep' := hstep
  cases hstep with
  | commit j step createdAt role hpermit hrow hrole' =>
    by_cases hi : i = j
    . subst hi
      have hself : ((b.commit i step createdAt).setRole i role).role i = role := setRole_role_self
      refine h.frame hreachable hstep' ?_ ?_ ?_
      . rw [hself]
        rcases hrole' with hrole' | hrole'
        . rw [hrole', Role.dto_advance]
        . rw [hrole', Role.dto_abort]
      . right
        rw [hself]
        rcases hrole' with hrole' | hrole'
        . rw [hrole']
          exact not_due_of_advance hpermit
        . rw [hrole']
          exact not_due_of_abort _
      . intro dto audit hdto haudit hto
        simp only [setRole, Books.commit, List.mem_append, List.mem_singleton] at haudit
        rcases haudit with haudit | haudit
        . exact .inl haudit
        . injection haudit with _ haudit
          subst haudit
          exact .inr (h.commit hreachable hpermit hrow hto hdto)
    . refine h.of_quiet hreachable hstep' ?_ (.inl (setRole_role_of_ne hi)) ?_
      . rw [setRole_role_of_ne hi]
        rfl
      . intro audit haudit
        simp only [setRole, Books.commit, List.mem_append, List.mem_singleton] at haudit
        rcases haudit with haudit | haudit
        . exact haudit
        . injection haudit with hj
          exact absurd hj hi
  | charge j dto row g fb hrole =>
    have hhistory : ∀ audit, .committed i audit ∈ b.history ++
        [.charged j g (chargeRequest dto row.id g)] → .committed i audit ∈ b.history := by
      intro audit haudit
      simpa using haudit
    by_cases hi : i = j
    . subst hi
      exact h.charge hreachable hstep' hrole setRole_role_self rfl hhistory
    . refine h.of_quiet hreachable hstep' ?_ (.inl (setRole_role_of_ne hi)) hhistory
      dsimp only
      rw [setRole_role_of_ne hi]
  | answer j dto row g fb n charge response hrole hcharge hstatus =>
    by_cases hi : i = j
    . subst hi
      exact h.answer hreachable hstep' hrole hcharge hstatus setRole_role_self rfl
    . refine h.of_quiet hreachable hstep' ?_ (.inl (setRole_role_of_ne hi)) (fun _ h => h)
      rw [setRole_role_of_ne hi]
  | hit j dto key t hrole =>
    by_cases hi : i = j
    . subst hi
      refine h.of_quiet hreachable hstep' ?_ (.inr ?_) (fun _ h => h)
      . rw [setRole_role_self, hrole]
        rfl
      . rw [setRole_role_self]
        simp
    . refine h.of_quiet hreachable hstep' ?_ (.inl (setRole_role_of_ne hi)) (fun _ h => h)
      rw [setRole_role_of_ne hi]
  | find j conditions row hfind =>
    have hhistory : ∀ audit, .committed i audit ∈ b.history ++ [.read j conditions row] →
        .committed i audit ∈ b.history := by
      intro audit haudit
      simpa using haudit
    by_cases hi : i = j
    . subst hi
      refine h.of_quiet hreachable hstep' ?_ (.inr ?_) hhistory
      . dsimp only
        rw [setRole_role_self, Role.dto_read]
      . dsimp only
        rw [setRole_role_self]
        exact not_due_of_read hfind row
    . refine h.of_quiet hreachable hstep' ?_ (.inl (setRole_role_of_ne hi)) hhistory
      dsimp only
      rw [setRole_role_of_ne hi]
  | insert j dto g fb row role hrole hnodup hrow hid hkey hrole' =>
    have hhistory : ∀ audit, .committed i audit ∈ b.history ++ [.inserted j row] →
        .committed i audit ∈ b.history := by
      intro audit haudit
      simpa using haudit
    by_cases hi : i = j
    . subst hi
      have hself : ((b.insert i row).setRole i role).role i = role := setRole_role_self
      refine h.of_quiet hreachable hstep' ?_ (.inr ?_) hhistory
      . rw [hself, hrole]
        rcases hrole' with hrole' | hrole' <;> rw [hrole'] <;> rfl
      . rw [hself]
        rcases hrole' with hrole' | hrole' <;> rw [hrole'] <;> simp
    . refine h.of_quiet hreachable hstep' ?_ (.inl (setRole_role_of_ne hi)) hhistory
      rw [setRole_role_of_ne hi]
      rfl
  | load j event hrole =>
    have hhistory : ∀ audit, .committed i audit ∈ b.history ++ [.loaded j event] →
        .committed i audit ∈ b.history := by
      intro audit haudit
      simpa using haudit
    by_cases hi : i = j
    . subst hi
      refine h.of_quiet hreachable hstep' ?_ (.inr ?_) hhistory
      . dsimp only
        rw [setRole_role_self, hrole]
        rfl
      . dsimp only
        rw [setRole_role_self]
        simp
    . refine h.of_quiet hreachable hstep' ?_ (.inl (setRole_role_of_ne hi)) hhistory
      dsimp only
      rw [setRole_role_of_ne hi]
  | threw j dto row g fb n charge message captured hrole
  | timeout j dto row g fb n charge captured hrole =>
    by_cases hi : i = j
    . subst hi
      refine h.of_quiet hreachable hstep' ?_ (.inr ?_) (fun _ h => h)
      . simp only [setRole_role_self, hrole]
        rfl
      . simp only [setRole_role_self]
        simp
    . refine h.of_quiet hreachable hstep' ?_ (.inl (setRole_role_of_ne hi)) (fun _ h => h)
      simp only [setRole_role_of_ne hi]
  | abort j =>
    by_cases hi : i = j
    . subst hi
      refine h.of_quiet hreachable hstep' ?_ (.inr ?_) (fun _ h => h)
      . rw [setRole_role_self, Role.dto_abort]
      . rw [setRole_role_self]
        exact not_due_of_abort _
    . refine h.of_quiet hreachable hstep' ?_ (.inl (setRole_role_of_ne hi)) (fun _ h => h)
      rw [setRole_role_of_ne hi]
  | _ => exact h.of_quiet hreachable hstep' rfl (.inl rfl) (fun _ h => h)

theorem Start.backed (h : b.Start tasks) : b.Backed i := by
  refine ⟨?_, ?_, ?_⟩
  . intro dto row g fb n hrole
    rw [h.role] at hrole
    cases htask : tasks i <;> simp [htask, Task.party] at hrole
  . intro dto row g fb response hrole
    rw [h.role] at hrole
    cases htask : tasks i <;> simp [htask, Task.party] at hrole
  . intro dto audit _ haudit
    rw [h.history] at haudit
    cases haudit

theorem Reachable.backed (h : b.Reachable D tasks) (i : Pid) : b.Backed i := by
  rcases h with ⟨b₀, hstart, hrun⟩
  induction hrun with
  | refl => exact hstart.backed
  | tail hrun hstep ih => exact hstep.backed ⟨b₀, hstart, hrun⟩ ih

/--
Behind every transition to SUCCESS by a call of `create` there is a charge call that was answered.
-/
theorem Reachable.granted (h : b.Reachable D tasks) {dto : CreateTransactionDto}
    {audit : AuditLog} (htask : tasks i = .create dto) (haudit : .committed i audit ∈ b.history)
    (hto : audit.toState = .SUCCESS) : b.Granted i dto audit := by
  apply (h.backed i).granted dto audit _ haudit hto
  rw [h.traced.dto i, htask]
  rfl

end Books

end PaymentOrchestration
