import PaymentOrchestration.Concurrency.Trace
import PaymentOrchestration.Gateways.Adapters

/-!
This module shows what the outcome of a charge depends on: with live credentials it is the last
answer of the gateway, unless the amount is one of the adapter's test amounts.
-/

namespace PaymentOrchestration

abbrev Exchange := HttpRequest × Except Err HttpResponse

abbrev AdapterLog := List ((cmd : AdapterCmd) × Except Err cmd.Resp)

/--
A party that remembers what it has sent and what it was answered.
-/
@[reducible]
def exchangeProtocol : Protocol AdapterCmd AdapterCmd.Resp Err where
  State := List Exchange
  allowed := fun _ _ => True
  answers := fun _ => AdapterCmd.Answers
  next := fun exchanges cmd answer =>
    match cmd, answer with
    | .fetch request, answer => exchanges ++ [(request, answer)]
    | _, _ => exchanges
  crash := id

def exchangesOf (log : AdapterLog) : List Exchange :=
  exchangeProtocol.after [] log

namespace GatewayAdapter

variable {α : Type} {exchanges : List Exchange}

@[simp]
theorem wp_now {Q : Except Err Nat → List Exchange → Prop}
    : exchangeProtocol.wp now Q exchanges ↔ ∀ t, Q (.ok t) exchanges := by
  rw [now, Protocol.wp_perform]
  constructor
  . intro h t
    exact h.right (.ok t) trivial
  . intro h
    refine ⟨trivial, fun r hr => ?_⟩
    cases r with
    | ok t => exact h t
    | error e => cases hr

@[simp]
theorem wp_sleep {ms : Nat} {Q : Except Err Unit → List Exchange → Prop}
    : exchangeProtocol.wp (sleep ms) Q exchanges ↔ Q (.ok ()) exchanges := by
  rw [sleep, Protocol.wp_perform]
  constructor
  . intro h
    exact h.right (.ok ()) trivial
  . intro h
    refine ⟨trivial, fun r hr => ?_⟩
    cases r with
    | ok t => exact h
    | error e => cases hr

@[simp]
theorem wp_uuid {Q : Except Err String → List Exchange → Prop}
    : exchangeProtocol.wp uuid Q exchanges ↔ ∀ id, Q (.ok id) exchanges := by
  rw [uuid, Protocol.wp_perform]
  constructor
  . intro h id
    exact h.right (.ok id) trivial
  . intro h
    refine ⟨trivial, fun r hr => ?_⟩
    cases r with
    | ok id => exact h id
    | error e => cases hr

@[simp]
theorem wp_fetch {request : HttpRequest} {Q : Except Err HttpResponse → List Exchange → Prop}
    : exchangeProtocol.wp (fetch request) Q exchanges ↔
        ∀ answer, Q answer (exchanges ++ [(request, answer)]) := by
  rw [fetch, Protocol.wp_perform]
  constructor
  . intro h answer
    exact h.right answer trivial
  . intro h
    exact ⟨trivial, fun answer _ => h answer⟩

@[simp]
theorem wp_readBody {body : Except Err α} {Q : Except Err α → List Exchange → Prop}
    : exchangeProtocol.wp (readBody body) Q exchanges ↔ Q body exchanges := by
  cases body <;> rfl

def endpoint (gateway : GatewayProvider) : String :=
  match gateway with
  | .STRIPE => "https://api.stripe.com/v1/charges"
  | .RAZORPAY => "https://api.razorpay.com/v1/orders"
  | .PAYU => "https://test.payu.in/_payment"
  | .UPI => "https://api.razorpay.com/v1/payment_links/"

-- A body that is `null` has no fields to read.
def isNull (data : Json) : Bool :=
  match data with
  | .null => true
  | _ => false

/--
An answer that the adapter takes for the acceptance of the payment. Behind an answer that is lost,
cannot be read or says anything else the gateway may have captured the payment all the same.
-/
def acceptingAnswer (gateway : GatewayProvider) (answer : Except Err HttpResponse) : Bool :=
  match answer with
  | .error _ => false
  | .ok response =>
    match gateway with
    | .STRIPE =>
      response.status = 200 &&
        response.json.toOption.any (fun data => StripeAdapter.isSucceeded (data.field "status"))
    | .RAZORPAY | .UPI =>
      (response.status = 200 || response.status = 201) &&
        response.json.toOption.any (fun data => !isNull data)
    | .PAYU => (response.status = 200 || response.status = 302) && response.text.toOption.isSome

-- The id that is stored for an accepted payment.
def acceptedId (D : Deployment) (gateway : GatewayProvider) (request : GatewayChargeRequest)
    (answer : Except Err HttpResponse) : Option (Option String) :=
  match gateway, answer with
  | .PAYU, _ => some (some request.transactionId)
  | _, .ok response => idOf D (response.json.toOption.bind (Json.field "id"))
  | _, .error _ => none

/--
The last answer of the gateway is the outcome.
-/
structure DecidedBy (D : Deployment) (gateway : GatewayProvider) (request : GatewayChargeRequest)
    (exchanges : List Exchange) (response : GatewayChargeResponse) : Prop where
  endpoint : ∀ exchange ∈ exchanges, exchange.1.url = endpoint gateway
  outcome : ∃ exchange, exchanges.getLast? = some exchange ∧
    response.success = acceptingAnswer gateway exchange.2 ∧
    (response.success = true → response.gatewayTxnId = acceptedId D gateway request exchange.2)

/--
The same before the network errors are caught: a live path that throws has got no accepting
answer.
-/
def Decides (D : Deployment) (gateway : GatewayProvider) (request : GatewayChargeRequest)
    (r : Except Err GatewayChargeResponse) (exchanges : List Exchange) : Prop :=
  match r with
  | .ok response => DecidedBy D gateway request exchanges response
  | .error _ =>
    (∀ exchange ∈ exchanges, exchange.1.url = endpoint gateway) ∧
      ∃ exchange, exchanges.getLast? = some exchange ∧ acceptingAnswer gateway exchange.2 = false

variable {D : Deployment} {R : Runtime} {gateway : GatewayProvider}
  {request : GatewayChargeRequest}

theorem decidedBy_refusal {error : String} {raw : Json} {latencyMs : Nat}
    (hendpoint : ∀ exchange ∈ exchanges, exchange.1.url = endpoint gateway)
    (hlast : ∃ exchange, exchanges.getLast? = some exchange ∧
      acceptingAnswer gateway exchange.2 = false)
    : DecidedBy D gateway request exchanges (refusal error raw latencyMs) := by
  rcases hlast with ⟨exchange, hlast, haccepting⟩
  refine ⟨hendpoint, exchange, hlast, haccepting.symm, fun hsuccess => ?_⟩
  cases hsuccess

-- What is caught was no accepting answer.
theorem wp_orNetworkError {fallback : String} {startTime : Nat}
    {live : AdapterProgram GatewayChargeResponse}
    (h : exchangeProtocol.wp live (Decides D gateway request) exchanges)
    : exchangeProtocol.wp (orNetworkError fallback startTime live) (Decides D gateway request)
        exchanges := by
  unfold orNetworkError
  rw [Prog.tryCatch_def, Protocol.wp_tryCatch]
  apply Protocol.wp_mono h
  intro r exchanges hr
  cases r with
  | ok response => exact hr
  | error err =>
    simp only [Prog.bind_def, Protocol.wp_bind, wp_now, Prog.pure_def, Protocol.wp_pure]
    intro endTime
    exact decidedBy_refusal hr.left hr.right

-- Nothing can be read from `null`, the access throws.
theorem wp_access {name : String} {data : Json}
    {Q : Except Err (Option Json) → List Exchange → Prop}
    (hnull : isNull data = true → ∀ e, Q (.error e) exchanges)
    (hfield : isNull data = false → Q (.ok (data.field name)) exchanges)
    : exchangeProtocol.wp (access name data) Q exchanges := by
  cases data with
  | null => exact hnull rfl _
  | _ => exact hfield rfl

/--
All requests have gone to the gateway, and its last answer is no acceptance.
-/
def Refused (gateway : GatewayProvider) (exchanges : List Exchange) : Prop :=
  (∀ exchange ∈ exchanges, exchange.1.url = endpoint gateway) ∧
    ∃ exchange, exchanges.getLast? = some exchange ∧ acceptingAnswer gateway exchange.2 = false

theorem Refused.of_snoc {httpRequest : HttpRequest} {answer : Except Err HttpResponse}
    (hendpoint : ∀ exchange ∈ exchanges ++ [(httpRequest, answer)],
      exchange.1.url = endpoint gateway)
    (haccepting : acceptingAnswer gateway answer = false)
    : Refused gateway (exchanges ++ [(httpRequest, answer)]) := by
  exact ⟨hendpoint, _, List.getLast?_concat, haccepting⟩

theorem Refused.decides (h : Refused gateway exchanges) (e : Err)
    : Decides D gateway request (.error e) exchanges := by
  exact h

theorem Refused.decides_refusal (h : Refused gateway exchanges) (error : String) (raw : Json)
    (latencyMs : Nat) : Decides D gateway request (.ok (refusal error raw latencyMs)) exchanges := by
  exact decidedBy_refusal h.left h.right

-- A path that reads the error out of the body and refuses.
theorem Refused.wp_access {name : String} {data : Json} {error : Option Json → String} {raw : Json}
    {latencyMs : Nat} (h : Refused gateway exchanges)
    : exchangeProtocol.wp
        ((access name data).bind (fun value => .pure (refusal (error value) raw latencyMs)))
        (Decides D gateway request) exchanges := by
  rw [Protocol.wp_bind]
  apply GatewayAdapter.wp_access
  . intro _ e
    exact h.decides e
  . intro _
    exact h.decides_refusal _ _ _

theorem stripe_live (startTime : Nat)
    : exchangeProtocol.wp (StripeAdapter.live D R request startTime)
        (Decides D .STRIPE request) [] := by
  apply wp_orNetworkError
  simp only [Prog.bind_def, Protocol.wp_bind, wp_fetch]
  intro answer
  have hendpoint : ∀ exchange ∈ [] ++ [(StripeAdapter.chargeRequest D R request, answer)],
      exchange.1.url = endpoint .STRIPE := by
    simp [StripeAdapter.chargeRequest, endpoint]
  cases answer with
  | error e => exact Refused.of_snoc hendpoint rfl
  | ok response =>
    dsimp only
    rw [wp_readBody]
    cases hjson : response.json with
    | error e => exact Refused.of_snoc hendpoint (by simp [acceptingAnswer, hjson, Except.toOption])
    | ok data =>
      dsimp only
      rw [wp_now]
      intro endTime
      dsimp only
      split
      . next hstatus =>
        rw [Protocol.wp_bind]
        apply wp_access
        . intro hnull e
          apply Refused.of_snoc hendpoint
          cases data <;> simp_all [isNull, acceptingAnswer, Json.field, StripeAdapter.isSucceeded, Except.toOption]
        . intro hnull
          dsimp only
          split
          . next hsucceeded =>
            rw [Protocol.wp_bind]
            apply wp_access
            . intro hnull'
              simp [hnull] at hnull'
            . intro _
              refine ⟨hendpoint, _, rfl, ?_, fun _ => ?_⟩
              . simp [acceptingAnswer, acceptance, hstatus, hjson, hsucceeded, Except.toOption]
              . simp [acceptedId, acceptance, hjson, Except.toOption]
          . next hsucceeded =>
            apply Refused.wp_access
            apply Refused.of_snoc hendpoint
            simp [acceptingAnswer, hjson, hsucceeded, Except.toOption]
      . next hstatus =>
        apply Refused.wp_access
        apply Refused.of_snoc hendpoint
        simp [acceptingAnswer, hstatus]

-- The two gateways behind the Razorpay API accept by the same answers.
theorem wp_outcome (hgateway : gateway = .RAZORPAY ∨ gateway = .UPI) {httpRequest : HttpRequest}
    {response : HttpResponse} {data : Json} {fallback : String} {latencyMs : Nat}
    (hendpoint : ∀ exchange ∈ exchanges ++ [(httpRequest, .ok response)],
      exchange.1.url = endpoint gateway)
    (hjson : response.json = .ok data)
    : exchangeProtocol.wp (RazorpayAdapter.outcome D R response.status data fallback latencyMs)
        (Decides D gateway request) (exchanges ++ [(httpRequest, .ok response)]) := by
  unfold RazorpayAdapter.outcome
  have haccepting : acceptingAnswer gateway (.ok response) =
      ((response.status = 200 ∨ response.status = 201) && !isNull data) := by
    rcases hgateway with hgateway | hgateway
    all_goals
      subst hgateway
      simp [acceptingAnswer, hjson, Except.toOption]
  split
  . next hstatus =>
    rw [Prog.bind_def, Protocol.wp_bind]
    apply wp_access
    . intro hnull e
      apply Refused.of_snoc hendpoint
      simp [haccepting, hnull]
    . intro hnull
      refine ⟨hendpoint, _, List.getLast?_concat, ?_, fun _ => ?_⟩
      . simp [haccepting, acceptance, hstatus, hnull]
      . rcases hgateway with hgateway | hgateway
        all_goals
          subst hgateway
          simp [acceptedId, acceptance, hjson, Except.toOption]
  . next hstatus =>
    apply Refused.wp_access
    apply Refused.of_snoc hendpoint
    simp [haccepting, hstatus]

theorem razorpay_live (startTime : Nat)
    : exchangeProtocol.wp (RazorpayAdapter.live D R request startTime)
        (Decides D .RAZORPAY request) [] := by
  apply wp_orNetworkError
  simp only [Prog.bind_def, Protocol.wp_bind, wp_fetch]
  intro answer
  have hendpoint : ∀ exchange ∈ [] ++ [(RazorpayAdapter.orderRequest D R request, answer)],
      exchange.1.url = endpoint .RAZORPAY := by
    simp [RazorpayAdapter.orderRequest, endpoint]
  cases answer with
  | error e => exact Refused.of_snoc hendpoint rfl
  | ok response =>
    dsimp only
    rw [wp_readBody]
    cases hjson : response.json with
    | error e => exact Refused.of_snoc hendpoint (by simp [acceptingAnswer, hjson, Except.toOption])
    | ok data =>
      dsimp only
      rw [wp_now]
      intro endTime
      exact wp_outcome (.inl rfl) hendpoint hjson

theorem payu_live (startTime : Nat)
    : exchangeProtocol.wp (PayUAdapter.live D R request startTime)
        (Decides D .PAYU request) [] := by
  apply wp_orNetworkError
  simp only [Prog.bind_def, Protocol.wp_bind, wp_fetch]
  intro answer
  have hendpoint : ∀ exchange ∈ [] ++ [(PayUAdapter.paymentRequest D R request, answer)],
      exchange.1.url = endpoint .PAYU := by
    simp [PayUAdapter.paymentRequest, endpoint]
  cases answer with
  | error e => exact Refused.of_snoc hendpoint rfl
  | ok response =>
    dsimp only
    rw [wp_now]
    intro endTime
    dsimp only
    rw [wp_readBody]
    cases htext : response.text with
    | error e => exact Refused.of_snoc hendpoint (by simp [acceptingAnswer, htext, Except.toOption])
    | ok text =>
      dsimp only
      split
      . next hstatus =>
        refine ⟨hendpoint, _, rfl, ?_, fun _ => rfl⟩
        simpa [acceptingAnswer, acceptance, htext, Except.toOption] using hstatus
      . next hstatus =>
        apply Refused.decides_refusal
        apply Refused.of_snoc hendpoint
        simpa [acceptingAnswer, htext, Except.toOption] using hstatus

-- Whether the second request is sent depends on the error in the body of the first answer.
theorem wp_isUnsupported {data : Json} {Q : Except Err Bool → List Exchange → Prop}
    (hok : ∀ retry, Q (.ok retry) exchanges) (herror : ∀ e, Q (.error e) exchanges)
    : exchangeProtocol.wp (UpiAdapter.isUnsupported data) Q exchanges := by
  unfold UpiAdapter.isUnsupported
  rw [Prog.bind_def, Protocol.wp_bind]
  apply wp_access
  . intro _ e
    exact herror e
  . intro _
    dsimp only
    split
    . exact hok _
    . exact hok _
    . exact hok _
    . exact hok _
    . exact herror _

-- One more request for the link, whatever has been answered before.
theorem upi_retry (fallback : String) (startTime : Nat)
    (hbefore : ∀ exchange ∈ exchanges, exchange.1.url = endpoint .UPI)
    : exchangeProtocol.wp
        ((fetch (UpiAdapter.linkRequest D R request false)).bind fun response =>
          (readBody response.json).bind fun data =>
            now.bind fun endTime =>
              RazorpayAdapter.outcome D R response.status data fallback (endTime - startTime))
        (Decides D .UPI request) exchanges := by
  simp only [Protocol.wp_bind, wp_fetch]
  intro answer
  have hendpoint : ∀ exchange ∈ exchanges ++ [(UpiAdapter.linkRequest D R request false, answer)],
      exchange.1.url = endpoint .UPI := by
    intro exchange hexchange
    rw [List.mem_append, List.mem_singleton] at hexchange
    rcases hexchange with hexchange | hexchange
    . exact hbefore exchange hexchange
    . rw [hexchange]
      rfl
  cases answer with
  | error e => exact Refused.of_snoc hendpoint rfl
  | ok response =>
    dsimp only
    rw [wp_readBody]
    cases hjson : response.json with
    | error e => exact Refused.of_snoc hendpoint (by simp [acceptingAnswer, hjson, Except.toOption])
    | ok data =>
      dsimp only
      rw [wp_now]
      intro endTime
      exact wp_outcome (.inr rfl) hendpoint hjson

theorem upi_live (startTime : Nat)
    : exchangeProtocol.wp (UpiAdapter.live D R request startTime)
        (Decides D .UPI request) [] := by
  apply wp_orNetworkError
  simp only [Prog.bind_def]
  rw [Protocol.wp_bind, wp_fetch]
  intro answer
  have hendpoint : ∀ exchange ∈ [] ++ [(UpiAdapter.linkRequest D R request true, answer)],
      exchange.1.url = endpoint .UPI := by
    intro exchange hexchange
    rw [List.nil_append, List.mem_singleton] at hexchange
    rw [hexchange]
    rfl
  cases answer with
  | error e => exact Refused.of_snoc hendpoint rfl
  | ok response =>
    dsimp only
    rw [Protocol.wp_bind, wp_readBody]
    cases hjson : response.json with
    | error e => exact Refused.of_snoc hendpoint (by simp [acceptingAnswer, hjson, Except.toOption])
    | ok data =>
      dsimp only
      split
      . rw [Protocol.wp_bind, Prog.pure_def, Protocol.wp_pure]
        dsimp only
        rw [if_neg (by simp), Protocol.wp_bind, wp_now]
        intro endTime
        exact wp_outcome (.inr rfl) hendpoint hjson
      . next hstatus =>
        rw [Protocol.wp_bind]
        apply wp_isUnsupported
        . intro retry
          dsimp only
          split
          . exact upi_retry _ startTime hendpoint
          . rw [Protocol.wp_bind, wp_now]
            intro endTime
            exact wp_outcome (.inr rfl) hendpoint hjson
        . intro e
          apply Refused.of_snoc hendpoint
          simp [acceptingAnswer, hstatus]

/--
What an adapter comes to for a test amount when it has not asked its gateway.
-/
def Simulated (gateway : GatewayProvider) (request : GatewayChargeRequest)
    (r : Except Err GatewayChargeResponse) (exchanges : List Exchange) : Prop :=
  exchanges = [] ∧ ∃ response, r = .ok response ∧
    (response.success = true → gateway = .RAZORPAY ∧
      ["99", "00"].any (endsWith (Binary64.numberText request.amount)) = true)

-- Unless it is Razorpay's, a simulation accepts none of its adapter's test amounts.
theorem wp_simulate {simulation : Simulation} {startTime : Nat}
    {accept : AdapterProgram (String × Json)}
    (haccept : (simulation.timeouts ++ simulation.failures).any
        (endsWith (Binary64.numberText request.amount)) = false →
      exchangeProtocol.wp accept (fun r exchanges => exchanges = [] ∧ ∃ a, r = .ok a) [] ∧
        gateway = .RAZORPAY ∧ ["99", "00"].any (endsWith (Binary64.numberText request.amount)) = true)
    : exchangeProtocol.wp (simulate simulation (Binary64.numberText request.amount) startTime accept)
        (Simulated gateway request) [] := by
  unfold simulate
  split
  . simp [Simulated, refusal]
  . next htimeouts =>
    split
    . simp [Simulated, refusal]
    . next hfailures =>
      rw [Bool.not_eq_true] at htimeouts hfailures
      have hnone : (simulation.timeouts ++ simulation.failures).any
          (endsWith (Binary64.numberText request.amount)) = false := by
        rw [List.any_append, htimeouts, hfailures]
        rfl
      rcases haccept hnone with ⟨hwp, hgateway⟩
      simp only [Prog.bind_def, Protocol.wp_bind, wp_sleep]
      apply Protocol.wp_mono hwp
      rintro r exchanges ⟨hexchanges, a, hr⟩
      subst hr hexchanges
      dsimp only
      rw [wp_now]
      intro endTime
      exact ⟨rfl, _, rfl, fun _ => hgateway⟩

-- The adapters that fail for all of their test amounts.
theorem wp_simulate_all {simulation : Simulation} {startTime : Nat}
    {accept : AdapterProgram (String × Json)}
    (h : (simulation.timeouts ++ simulation.failures).any
      (endsWith (Binary64.numberText request.amount)) = true)
    : exchangeProtocol.wp (simulate simulation (Binary64.numberText request.amount) startTime accept)
        (Simulated gateway request) [] := by
  apply wp_simulate
  intro hnone
  rw [h] at hnone
  cases hnone

theorem razorpay_mock (startTime : Nat)
    (h : isTestAmount .RAZORPAY request.amount = true)
    : exchangeProtocol.wp (RazorpayAdapter.mock request startTime)
        (Simulated .RAZORPAY request) [] := by
  apply wp_simulate
  intro hnone
  refine ⟨?_, rfl, ?_⟩
  . simp [shortId]
  . have hsplit : (["96", "01", "99", "00"].any (endsWith (Binary64.numberText request.amount))) =
        (["96", "01"].any (endsWith (Binary64.numberText request.amount)) ||
          ["99", "00"].any (endsWith (Binary64.numberText request.amount))) := by
      rw [← List.any_append]
      rfl
    have htest : ["96", "01", "99", "00"].any (endsWith (Binary64.numberText request.amount)) = true := h
    have hnone' : ["96", "01"].any (endsWith (Binary64.numberText request.amount)) = false := hnone
    rw [hsplit, hnone', Bool.false_or] at htest
    exact htest

theorem wp_chargeWith {suffixes : List String}
    {mock live : Nat → AdapterProgram GatewayChargeResponse}
    {Q : Except Err GatewayChargeResponse → List Exchange → Prop}
    (hmock : suffixes.any (endsWith (Binary64.numberText request.amount)) = true →
      ∀ startTime, exchangeProtocol.wp (mock startTime) Q exchanges)
    (hlive : suffixes.any (endsWith (Binary64.numberText request.amount)) = false →
      ∀ startTime, exchangeProtocol.wp (live startTime) Q exchanges)
    : exchangeProtocol.wp (chargeWith false suffixes request mock live) Q exchanges := by
  unfold chargeWith
  rw [Prog.bind_def, Protocol.wp_bind, wp_now]
  intro startTime
  dsimp only
  rw [Bool.false_or]
  split
  . next htest => exact hmock htest startTime
  . next htest => exact hlive (Bool.not_eq_true _ ▸ htest) startTime

/--
With live credentials an adapter asks its gateway about every amount that is no test amount.
-/
def LiveOutcome (D : Deployment) (gateway : GatewayProvider) (request : GatewayChargeRequest)
    (r : Except Err GatewayChargeResponse) (exchanges : List Exchange) : Prop :=
  if isTestAmount gateway request.amount then
    Simulated gateway request r exchanges
  else
    Decides D gateway request r exchanges

theorem LiveOutcome.of_test {r : Except Err GatewayChargeResponse}
    (htest : isTestAmount gateway request.amount = true)
    (h : Simulated gateway request r exchanges)
    : LiveOutcome D gateway request r exchanges := by
  rw [LiveOutcome, if_pos htest]
  exact h

theorem LiveOutcome.of_live {r : Except Err GatewayChargeResponse}
    (htest : isTestAmount gateway request.amount = false)
    (h : Decides D gateway request r exchanges)
    : LiveOutcome D gateway request r exchanges := by
  rw [LiveOutcome, htest, if_neg Bool.false_ne_true]
  exact h

theorem charge_live (hlive : isMockMode D gateway = false)
    : exchangeProtocol.wp (charge D R gateway request) (LiveOutcome D gateway request) [] := by
  cases gateway with
  | STRIPE =>
    unfold charge StripeAdapter.charge
    rw [show StripeAdapter.isMockMode D = false from hlive]
    apply wp_chargeWith
    . intro htest startTime
      exact Protocol.wp_mono (wp_simulate_all htest) (fun _ _ => .of_test htest)
    . intro htest startTime
      exact Protocol.wp_mono (stripe_live startTime) (fun _ _ => .of_live htest)
  | RAZORPAY =>
    unfold charge RazorpayAdapter.charge
    rw [show RazorpayAdapter.isMockMode D = false from hlive]
    apply wp_chargeWith
    . intro htest startTime
      exact Protocol.wp_mono (razorpay_mock startTime htest) (fun _ _ => .of_test htest)
    . intro htest startTime
      exact Protocol.wp_mono (razorpay_live startTime) (fun _ _ => .of_live htest)
  | PAYU =>
    unfold charge PayUAdapter.charge
    rw [show PayUAdapter.isMockMode D = false from hlive]
    apply wp_chargeWith
    . intro htest startTime
      exact Protocol.wp_mono (wp_simulate_all htest) (fun _ _ => .of_test htest)
    . intro htest startTime
      exact Protocol.wp_mono (payu_live startTime) (fun _ _ => .of_live htest)
  | UPI =>
    unfold charge UpiAdapter.charge
    rw [show UpiAdapter.isMockMode D = false from hlive]
    apply wp_chargeWith
    . intro htest startTime
      exact Protocol.wp_mono (wp_simulate_all htest) (fun _ _ => .of_test htest)
    . intro htest startTime
      exact Protocol.wp_mono (upi_live startTime) (fun _ _ => .of_live htest)

end GatewayAdapter

end PaymentOrchestration
