import PaymentOrchestration.Transactions.LiveSuccess
import PaymentOrchestration.Transactions.Route

/-!
This module shows what an adapter sends for one charge and what it makes of the answers: it never
throws, it asks a second time only after a refusal, and its response tells whether an accepting
answer has come. For a payment that has FAILED none has come as long as the service has waited.
-/

namespace PaymentOrchestration

/--
Either a payment or an error, never both.
-/
def GatewayChargeResponse.WellFormed (response : GatewayChargeResponse) : Prop :=
  if response.success then
    response.error = none
  else
    response.gatewayTxnId = some none ∧ response.error.isSome = true

namespace GatewayAdapter

variable {D : Deployment} {R : Runtime} {gateway : GatewayProvider}
  {request : GatewayChargeRequest} {exchanges : List Exchange}

-- The requests of an adapter, in the order in which it gets to them.
def attempts (D : Deployment) (R : Runtime) (gateway : GatewayProvider)
    (request : GatewayChargeRequest) : List HttpRequest :=
  match gateway with
  | .STRIPE => [StripeAdapter.chargeRequest D R request]
  | .RAZORPAY => [RazorpayAdapter.orderRequest D R request]
  | .PAYU => [PayUAdapter.paymentRequest D R request]
  | .UPI => [UpiAdapter.linkRequest D R request true, UpiAdapter.linkRequest D R request false]

/--
What a live path has sent: its requests in their order, and each but the last was answered with a
refusal.
-/
structure Sent (D : Deployment) (R : Runtime) (gateway : GatewayProvider)
    (request : GatewayChargeRequest) (exchanges : List Exchange) : Prop where
  requests : exchanges.map Prod.fst <+: attempts D R gateway request
  nonempty : exchanges ≠ []
  refused : ∀ exchange ∈ exchanges.dropLast,
    ∃ response, exchange.2 = .ok response ∧ acceptingAnswer gateway exchange.2 = false

theorem Sent.first {httpRequest : HttpRequest} {answer : Except Err HttpResponse}
    (hrequest : [httpRequest] <+: attempts D R gateway request)
    : Sent D R gateway request ([] ++ [(httpRequest, answer)]) where
  requests := hrequest
  nonempty := by simp
  refused := by simp

theorem Sent.second {response : HttpResponse} {answer : Except Err HttpResponse}
    (hstatus : ¬(response.status = 200 ∨ response.status = 201))
    : Sent D R .UPI request
        (([] ++ [(UpiAdapter.linkRequest D R request true, .ok response)]) ++
          [(UpiAdapter.linkRequest D R request false, answer)]) where
  requests := List.prefix_rfl
  nonempty := by simp
  refused := by
    intro exchange hexchange
    rw [List.dropLast_concat, List.nil_append, List.mem_singleton] at hexchange
    subst hexchange
    exact ⟨response, rfl, by simp [acceptingAnswer, hstatus]⟩

/--
The same before the network errors are caught.
-/
def Speaks (D : Deployment) (R : Runtime) (gateway : GatewayProvider)
    (request : GatewayChargeRequest) (r : Except Err GatewayChargeResponse)
    (exchanges : List Exchange) : Prop :=
  (∀ response, r = .ok response → response.WellFormed) ∧ Sent D R gateway request exchanges

theorem Sent.throws (h : Sent D R gateway request exchanges) (e : Err)
    : Speaks D R gateway request (.error e) exchanges := by
  refine ⟨fun response hr => ?_, h⟩
  cases hr

theorem Sent.refuses (h : Sent D R gateway request exchanges) (error : String) (raw : Json)
    (latencyMs : Nat)
    : Speaks D R gateway request (.ok (refusal error raw latencyMs)) exchanges := by
  refine ⟨fun response hr => ?_, h⟩
  injection hr with hr
  subst hr
  exact ⟨rfl, rfl⟩

theorem Sent.speaks_acceptance (h : Sent D R gateway request exchanges)
    (gatewayTxnId : Option (Option String)) (raw : Json) (latencyMs : Nat)
    : Speaks D R gateway request (.ok (acceptance gatewayTxnId raw latencyMs)) exchanges := by
  refine ⟨fun response hr => ?_, h⟩
  injection hr with hr
  subst hr
  exact rfl

-- A field is read and the path ends with it.
theorem Sent.wp_access {name : String} {data : Json}
    {f : Option Json → AdapterProgram GatewayChargeResponse}
    (h : Sent D R gateway request exchanges)
    (hf : ∀ value, exchangeProtocol.wp (f value) (Speaks D R gateway request) exchanges)
    : exchangeProtocol.wp ((access name data).bind f) (Speaks D R gateway request) exchanges := by
  rw [Protocol.wp_bind]
  apply GatewayAdapter.wp_access
  . intro _ e
    exact h.throws e
  . intro _
    exact hf _

theorem Sent.wp_outcome {status : Nat} {data : Json} {fallback : String} {latencyMs : Nat}
    (h : Sent D R gateway request exchanges)
    : exchangeProtocol.wp (RazorpayAdapter.outcome D R status data fallback latencyMs)
        (Speaks D R gateway request) exchanges := by
  unfold RazorpayAdapter.outcome
  split
  . apply h.wp_access
    intro id
    exact h.speaks_acceptance _ _ _
  . apply h.wp_access
    intro error
    exact h.refuses _ _ _

theorem Sent.wp_decline {data : Json} {latencyMs : Nat} (h : Sent D R gateway request exchanges)
    : exchangeProtocol.wp (StripeAdapter.decline R data latencyMs) (Speaks D R gateway request)
        exchanges := by
  unfold StripeAdapter.decline
  apply h.wp_access
  intro error
  exact h.refuses _ _ _

/--
A charge comes to a response, and what it has sent is known.
-/
def Concludes (D : Deployment) (R : Runtime) (gateway : GatewayProvider)
    (request : GatewayChargeRequest) (r : Except Err GatewayChargeResponse)
    (exchanges : List Exchange) : Prop :=
  (∃ response, r = .ok response ∧ response.WellFormed) ∧
    if (isMockMode D gateway || isTestAmount gateway request.amount) = true then
      exchanges = []
    else
      Sent D R gateway request exchanges

theorem Speaks.concludes {response : GatewayChargeResponse}
    (hlive : (isMockMode D gateway || isTestAmount gateway request.amount) = false)
    (h : Speaks D R gateway request (.ok response) exchanges)
    : Concludes D R gateway request (.ok response) exchanges := by
  refine ⟨⟨response, rfl, h.left response rfl⟩, ?_⟩
  rw [hlive, if_neg Bool.false_ne_true]
  exact h.right

theorem wp_orNetworkError_concludes {fallback : String} {startTime : Nat}
    {live : AdapterProgram GatewayChargeResponse}
    (hlive : (isMockMode D gateway || isTestAmount gateway request.amount) = false)
    (h : exchangeProtocol.wp live (Speaks D R gateway request) exchanges)
    : exchangeProtocol.wp (orNetworkError fallback startTime live) (Concludes D R gateway request)
        exchanges := by
  unfold orNetworkError
  rw [Prog.tryCatch_def, Protocol.wp_tryCatch]
  apply Protocol.wp_mono h
  intro r exchanges hr
  cases r with
  | ok response => exact hr.concludes hlive
  | error err =>
    simp only [Prog.bind_def, Protocol.wp_bind, wp_now, Prog.pure_def, Protocol.wp_pure]
    intro endTime
    exact (hr.right.refuses _ _ _).concludes hlive

theorem stripe_speaks (startTime : Nat)
    (hlive : (isMockMode D .STRIPE || isTestAmount .STRIPE request.amount) = false)
    : exchangeProtocol.wp (StripeAdapter.live D R request startTime)
        (Concludes D R .STRIPE request) [] := by
  apply wp_orNetworkError_concludes hlive
  simp only [Prog.bind_def, Protocol.wp_bind, wp_fetch]
  intro answer
  have hsent : Sent D R .STRIPE request
      ([] ++ [(StripeAdapter.chargeRequest D R request, answer)]) :=
    Sent.first List.prefix_rfl
  cases answer with
  | error e => exact hsent.throws e
  | ok response =>
    dsimp only
    rw [wp_readBody]
    cases response.json with
    | error e => exact hsent.throws e
    | ok data =>
      dsimp only
      rw [wp_now]
      intro endTime
      dsimp only
      split
      . apply hsent.wp_access
        intro status
        split
        . apply hsent.wp_access
          intro id
          exact hsent.speaks_acceptance _ _ _
        . exact hsent.wp_decline
      . exact hsent.wp_decline

theorem razorpay_speaks (startTime : Nat)
    (hlive : (isMockMode D .RAZORPAY || isTestAmount .RAZORPAY request.amount) = false)
    : exchangeProtocol.wp (RazorpayAdapter.live D R request startTime)
        (Concludes D R .RAZORPAY request) [] := by
  apply wp_orNetworkError_concludes hlive
  simp only [Prog.bind_def, Protocol.wp_bind, wp_fetch]
  intro answer
  have hsent : Sent D R .RAZORPAY request
      ([] ++ [(RazorpayAdapter.orderRequest D R request, answer)]) :=
    Sent.first List.prefix_rfl
  cases answer with
  | error e => exact hsent.throws e
  | ok response =>
    dsimp only
    rw [wp_readBody]
    cases response.json with
    | error e => exact hsent.throws e
    | ok data =>
      dsimp only
      rw [wp_now]
      intro endTime
      exact hsent.wp_outcome

theorem payu_speaks (startTime : Nat)
    (hlive : (isMockMode D .PAYU || isTestAmount .PAYU request.amount) = false)
    : exchangeProtocol.wp (PayUAdapter.live D R request startTime)
        (Concludes D R .PAYU request) [] := by
  apply wp_orNetworkError_concludes hlive
  simp only [Prog.bind_def, Protocol.wp_bind, wp_fetch]
  intro answer
  have hsent : Sent D R .PAYU request
      ([] ++ [(PayUAdapter.paymentRequest D R request, answer)]) :=
    Sent.first List.prefix_rfl
  cases answer with
  | error e => exact hsent.throws e
  | ok response =>
    dsimp only
    rw [wp_now]
    intro endTime
    dsimp only
    rw [wp_readBody]
    cases response.text with
    | error e => exact hsent.throws e
    | ok text =>
      dsimp only
      split
      . exact hsent.speaks_acceptance _ _ _
      . exact hsent.refuses _ _ _

-- Whatever the second request is answered.
theorem upi_retry_speaks {response : HttpResponse} (fallback : String) (startTime : Nat)
    (hstatus : ¬(response.status = 200 ∨ response.status = 201))
    : exchangeProtocol.wp
        ((fetch (UpiAdapter.linkRequest D R request false)).bind fun response =>
          (readBody response.json).bind fun data =>
            now.bind fun endTime =>
              RazorpayAdapter.outcome D R response.status data fallback (endTime - startTime))
        (Speaks D R .UPI request)
        ([] ++ [(UpiAdapter.linkRequest D R request true, .ok response)]) := by
  simp only [Protocol.wp_bind, wp_fetch]
  intro answer
  have hsent : Sent D R .UPI request
      (([] ++ [(UpiAdapter.linkRequest D R request true, .ok response)]) ++
        [(UpiAdapter.linkRequest D R request false, answer)]) :=
    Sent.second hstatus
  cases answer with
  | error e => exact hsent.throws e
  | ok response =>
    dsimp only
    rw [wp_readBody]
    cases response.json with
    | error e => exact hsent.throws e
    | ok data =>
      dsimp only
      rw [wp_now]
      intro endTime
      exact hsent.wp_outcome

theorem upi_speaks (startTime : Nat)
    (hlive : (isMockMode D .UPI || isTestAmount .UPI request.amount) = false)
    : exchangeProtocol.wp (UpiAdapter.live D R request startTime)
        (Concludes D R .UPI request) [] := by
  apply wp_orNetworkError_concludes hlive
  simp only [Prog.bind_def]
  rw [Protocol.wp_bind, wp_fetch]
  intro answer
  have hsent : Sent D R .UPI request
      ([] ++ [(UpiAdapter.linkRequest D R request true, answer)]) :=
    Sent.first ⟨[_], rfl⟩
  cases answer with
  | error e => exact hsent.throws e
  | ok response =>
    dsimp only
    rw [Protocol.wp_bind, wp_readBody]
    cases response.json with
    | error e => exact hsent.throws e
    | ok data =>
      dsimp only
      split
      . rw [Protocol.wp_bind, Prog.pure_def, Protocol.wp_pure]
        dsimp only
        rw [if_neg (by simp), Protocol.wp_bind, wp_now]
        intro endTime
        exact hsent.wp_outcome
      . next hstatus =>
        rw [Protocol.wp_bind]
        apply wp_isUnsupported
        . intro retry
          dsimp only
          split
          . exact upi_retry_speaks _ startTime hstatus
          . rw [Protocol.wp_bind, wp_now]
            intro endTime
            exact hsent.wp_outcome
        . intro e
          exact hsent.throws e

theorem Concludes.silent {response : GatewayChargeResponse}
    (hmock : (isMockMode D gateway || isTestAmount gateway request.amount) = true)
    (h : response.WellFormed) : Concludes D R gateway request (.ok response) [] := by
  refine ⟨⟨response, rfl, h⟩, ?_⟩
  rw [if_pos hmock]

-- A simulation answers by itself.
theorem wp_simulate_concludes {simulation : Simulation} {amountStr : String} {startTime : Nat}
    {accept : AdapterProgram (String × Json)}
    (hmock : (isMockMode D gateway || isTestAmount gateway request.amount) = true)
    (haccept : exchangeProtocol.wp accept (fun r exchanges => exchanges = [] ∧ ∃ a, r = .ok a) [])
    : exchangeProtocol.wp (simulate simulation amountStr startTime accept)
        (Concludes D R gateway request) [] := by
  have hrefusal : ∀ error raw latencyMs,
      Concludes D R gateway request (.ok (refusal error raw latencyMs)) [] := by
    intro error raw latencyMs
    exact Concludes.silent hmock ⟨rfl, rfl⟩
  unfold simulate
  simp only [Prog.bind_def]
  split
  . rw [Protocol.wp_bind, wp_sleep]
    dsimp only
    rw [Protocol.wp_bind, wp_now]
    intro endTime
    exact hrefusal _ _ _
  . split
    . rw [Protocol.wp_bind, wp_sleep]
      dsimp only
      rw [Protocol.wp_bind, wp_now]
      intro endTime
      exact hrefusal _ _ _
    . rw [Protocol.wp_bind, wp_sleep]
      dsimp only
      rw [Protocol.wp_bind]
      apply Protocol.wp_mono haccept
      rintro r exchanges ⟨hexchanges, a, hr⟩
      subst hr hexchanges
      dsimp only
      rw [Protocol.wp_bind, wp_now]
      intro endTime
      exact Concludes.silent hmock rfl

theorem wp_chargeWith_mode {mockMode : Bool} {suffixes : List String}
    {mock live : Nat → AdapterProgram GatewayChargeResponse}
    {Q : Except Err GatewayChargeResponse → List Exchange → Prop}
    (hmock : (mockMode || suffixes.any (endsWith (Binary64.numberText request.amount))) = true →
      ∀ startTime, exchangeProtocol.wp (mock startTime) Q exchanges)
    (hlive : (mockMode || suffixes.any (endsWith (Binary64.numberText request.amount))) = false →
      ∀ startTime, exchangeProtocol.wp (live startTime) Q exchanges)
    : exchangeProtocol.wp (chargeWith mockMode suffixes request mock live) Q exchanges := by
  unfold chargeWith
  rw [Prog.bind_def, Protocol.wp_bind, wp_now]
  intro startTime
  dsimp only
  split
  . next h => exact hmock h startTime
  . next h => exact hlive (Bool.not_eq_true _ ▸ h) startTime

theorem charge_concludes
    : exchangeProtocol.wp (charge D R gateway request) (Concludes D R gateway request) [] := by
  cases gateway with
  | STRIPE =>
    apply wp_chargeWith_mode
    . intro hmock startTime
      apply wp_simulate_concludes
      . exact hmock
      . simp [shortId]
    . intro hlive startTime
      exact stripe_speaks startTime hlive
  | RAZORPAY =>
    apply wp_chargeWith_mode
    . intro hmock startTime
      apply wp_simulate_concludes
      . exact hmock
      . simp [shortId]
    . intro hlive startTime
      exact razorpay_speaks startTime hlive
  | PAYU =>
    apply wp_chargeWith_mode
    . intro hmock startTime
      apply wp_simulate_concludes
      . exact hmock
      . simp
    . intro hlive startTime
      exact payu_speaks startTime hlive
  | UPI =>
    apply wp_chargeWith_mode
    . intro hmock startTime
      apply wp_simulate_concludes
      . exact hmock
      . simp
    . intro hlive startTime
      exact upi_speaks startTime hlive

/--
The response of a charge tells how many accepting answers have come to its requests.
-/
structure ChargedOnce (D : Deployment) (R : Runtime) (gateway : GatewayProvider)
    (request : GatewayChargeRequest) (response : GatewayChargeResponse)
    (exchanges : List Exchange) : Prop where
  wellFormed : response.WellFormed
  requests : exchanges.map Prod.fst <+: attempts D R gateway request
  refused : ∀ exchange ∈ exchanges.dropLast,
    ∃ response, exchange.2 = .ok response ∧ acceptingAnswer gateway exchange.2 = false
  counted : if (isMockMode D gateway || isTestAmount gateway request.amount) = true then
      exchanges = []
    else
      exchanges.countP (fun exchange => acceptingAnswer gateway exchange.2) = response.success.toNat

theorem Sent.countP_acceptingAnswer {response : GatewayChargeResponse}
    (h : Sent D R gateway request exchanges)
    (hdecided : DecidedBy D gateway request exchanges response)
    : exchanges.countP (fun exchange => GatewayAdapter.acceptingAnswer gateway exchange.2) =
        response.success.toNat := by
  rcases hdecided.outcome with ⟨exchange, hlast, hsuccess, _⟩
  have hsplit : exchanges = exchanges.dropLast ++ [exchange] := by
    exact (List.dropLast_append_getLast? exchange hlast).symm
  have hbefore : exchanges.dropLast.countP
      (fun exchange => GatewayAdapter.acceptingAnswer gateway exchange.2) = 0 := by
    rw [List.countP_eq_zero]
    intro exchange hexchange
    rcases h.refused exchange hexchange with ⟨_, _, haccepting⟩
    simp [haccepting]
  rw [hsplit, List.countP_append, hbefore, List.countP_singleton, hsuccess, Nat.zero_add]
  cases GatewayAdapter.acceptingAnswer gateway exchange.2 <;> rfl

theorem concludes_of_ends {log : AdapterLog} {r : Except Err GatewayChargeResponse}
    (h : (charge D R gateway request).Ends AdapterCmd.Answers log r)
    : Concludes D R gateway request r (exchangesOf log) := by
  exact Protocol.wp_ends (fun _ _ _ h => h) charge_concludes h

theorem counted_of_ends {log : AdapterLog} {response : GatewayChargeResponse}
    (h : (charge D R gateway request).Ends AdapterCmd.Answers log (.ok response))
    : if (isMockMode D gateway || isTestAmount gateway request.amount) = true then
        exchangesOf log = []
      else
        (exchangesOf log).countP (fun exchange => acceptingAnswer gateway exchange.2) =
          response.success.toNat := by
  have hsent := (concludes_of_ends h).right
  cases hmock : (isMockMode D gateway || isTestAmount gateway request.amount) with
  | true =>
    rw [if_pos hmock] at hsent
    rw [if_pos rfl]
    exact hsent
  | false =>
    rw [hmock, if_neg Bool.false_ne_true] at hsent
    rw [if_neg Bool.false_ne_true]
    rw [Bool.or_eq_false_iff] at hmock
    exact hsent.countP_acceptingAnswer (decides_of_ends hmock.left hmock.right h)

theorem Concludes.requests {r : Except Err GatewayChargeResponse}
    (h : Concludes D R gateway request r exchanges)
    : exchanges.map Prod.fst <+: attempts D R gateway request ∧
        ∀ exchange ∈ exchanges.dropLast,
          ∃ response, exchange.2 = .ok response ∧ acceptingAnswer gateway exchange.2 = false := by
  have hsent := h.right
  split at hsent
  . subst hsent
    exact ⟨List.nil_prefix, by simp⟩
  . exact ⟨hsent.requests, hsent.refused⟩

-- Behind a response without success no accepting answer has come.
theorem unconfirmed_of_ends {log : AdapterLog} {response : GatewayChargeResponse}
    (h : (charge D R gateway request).Ends AdapterCmd.Answers log (.ok response))
    (hsuccess : response.success = false)
    : ∀ exchange ∈ exchangesOf log, acceptingAnswer gateway exchange.2 = false := by
  have hcounted := counted_of_ends h
  split at hcounted
  . rw [hcounted]
    simp
  . rw [hsuccess, Bool.toNat_false, List.countP_eq_zero] at hcounted
    intro exchange hexchange
    exact Bool.not_eq_true _ ▸ hcounted exchange hexchange

/--
Whatever the network does, a charge comes to a response, and the response tells what the gateway
has said to the requests that were sent for it.
-/
theorem charge_once {log : AdapterLog} {r : Except Err GatewayChargeResponse}
    (h : (charge D R gateway request).Ends AdapterCmd.Answers log r)
    : ∃ response, r = .ok response ∧
        ChargedOnce D R gateway request response (exchangesOf log) := by
  have hconcludes := concludes_of_ends h
  rcases hconcludes.left with ⟨response, hr, hwellFormed⟩
  subst hr
  exact ⟨response, rfl, {
    wellFormed := hwellFormed
    requests := hconcludes.requests.left
    refused := hconcludes.requests.right
    counted := counted_of_ends h
  }⟩

end GatewayAdapter

namespace Scenario

open GatewayAdapter

-- The account may not create links for UPI only.
def linkError : Json :=
  .obj [("error", .obj [("description", .str UpiAdapter.unsupported)])]

def linkRefused : HttpResponse where
  status := 400
  json := .ok linkError
  text := .ok ""

def retriedLog : AdapterLog :=
  [⟨.now, .ok 0⟩,
    ⟨.fetch (UpiAdapter.linkRequest liveShop plainRuntime (liveRequest 1015) true),
      .ok linkRefused⟩,
    ⟨.fetch (UpiAdapter.linkRequest liveShop plainRuntime (liveRequest 1015) false),
      .ok orderCreated⟩,
    ⟨.now, .ok 251⟩]

theorem ends_retried
    : (GatewayAdapter.charge liveShop plainRuntime .UPI (liveRequest 1015)).Ends
        AdapterCmd.Answers retriedLog (.ok orderResponse) := by
  have htest : ¬(UpiAdapter.isMockMode liveShop ||
      UpiAdapter.testSuffixes.any (endsWith (toString (liveRequest 1015).amount))) = true := by
    decide +kernel
  have hunsupported : UpiAdapter.isUnsupported linkError = .pure true := by
    apply congrArg Prog.pure
    decide +kernel
  refine ⟨.ok 0, _, trivial, rfl, ?_⟩
  change (if (UpiAdapter.isMockMode liveShop ||
      UpiAdapter.testSuffixes.any (endsWith (toString (liveRequest 1015).amount))) = true then
    UpiAdapter.mock (liveRequest 1015) 0
      else UpiAdapter.live liveShop plainRuntime (liveRequest 1015) 0).Ends AdapterCmd.Answers _ _
  rw [if_neg htest]
  refine ⟨.ok linkRefused, _, trivial, rfl, ?_⟩
  dsimp only [linkRefused, readBody]
  simp only [Prog.bind_def, Prog.pure_def, Prog.bind]
  rw [if_neg (by decide), hunsupported]
  exact ⟨.ok orderCreated, _, trivial, rfl, .ok 251, _, trivial, rfl, rfl, rfl⟩

end Scenario

namespace GatewayAdapter

open Scenario in
/--
The first request for a link is refused and the second one accepted.
-/
theorem charge_once_retried
    : (exchangesOf retriedLog).length = 2 ∧
        ∃ response, (.ok orderResponse : Except Err GatewayChargeResponse) = .ok response ∧
          ChargedOnce liveShop plainRuntime .UPI (liveRequest 1015) response
            (exchangesOf retriedLog) := by
  exact ⟨rfl, charge_once ends_retried⟩

end GatewayAdapter

open GatewayAdapter

variable {D : Deployment} {R : Runtime} {tasks : Pid → Task}

/--
The status that a charge call gets to is one that its adapter gets to.
-/
def Charge.Gets (D : Deployment) (R : Runtime) (charge : Charge) (status : ChargeStatus) : Prop :=
  match status with
  | .pending _ => True
  | .answered response => ∃ log, charge.Comes D R log response
  | .threw message _ => ∃ log, (GatewayAdapter.charge D R charge.gateway charge.request).Ends
      AdapterCmd.Answers log (.error (.error message))

def Adapted (R : Runtime) (c : System D) (a : (machine D).Act) : Prop :=
  match a with
  | .env (.settle n status) =>
    ∀ charge, c.world.charges[n]? = some charge → charge.Gets D R status
  | _ => True

theorem Adapted.act {c c' : System D} {a : (machine D).Act} (h : Adapted R c a)
    (hact : (machine D).act (fun i => (tasks i).program D) a c = some c')
    (hcharges : ∀ charge ∈ c.world.charges, charge.Gets D R charge.status)
    : ∀ charge ∈ c'.world.charges, charge.Gets D R charge.status := by
  rcases Machine.act_world hact with hsame | ⟨i, o, cmd, k, r, _, _, hexec⟩ | ⟨e, ha, henv⟩ |
    ⟨inst, _, hcrash⟩
  . rw [hsame]
    exact hcharges
  . rcases exec_charges hexec with hsame | ⟨g, request, _, hnew⟩ |
      ⟨n, charge, captured, _, _, hstatus, hset⟩
    . rw [hsame]
      exact hcharges
    . rw [hnew]
      intro charge hmem
      rw [List.mem_append, List.mem_singleton] at hmem
      rcases hmem with hmem | hmem
      . exact hcharges charge hmem
      . subst hmem
        trivial
    . rw [hset]
      intro charge' hmem
      rcases List.mem_or_eq_of_mem_set hmem with hmem | hmem
      . exact hcharges charge' hmem
      . rw [hmem, hstatus]
        trivial
  . subst ha
    cases e with
    | settle n status =>
      simp only [envStep] at henv
      split at henv
      . next charge hcharge =>
        split at henv
        . injection henv with henv
          rw [← henv]
          intro charge' hmem
          rcases List.mem_or_eq_of_mem_set hmem with hmem | hmem
          . exact hcharges charge' hmem
          . rw [hmem]
            have hgets : charge.Gets D R status := h charge hcharge
            cases status <;> exact hgets
        . cases henv
      . cases henv
    | _ =>
      injection henv with henv
      rw [← henv]
      exact hcharges
  . rw [hcrash]
    exact hcharges

/--
The timer has ended the call, or it got a response with an error, and behind this response no
accepting answer of the gateway has come.
-/
def Charge.Unconfirmed (D : Deployment) (R : Runtime) (charge : Charge) : Prop :=
  charge.timedOut = true ∨ ∃ response, charge.status = .answered response ∧
    response.error.isSome = true ∧ (∃ log, charge.Comes D R log response) ∧
    ∀ log, charge.Comes D R log response →
      ∀ exchange ∈ exchangesOf log, acceptingAnswer charge.gateway exchange.2 = false

theorem Charge.Gets.unconfirmed {charge : Charge} (h : charge.Gets D R charge.status)
    (hlost : charge.Lost) : charge.Unconfirmed D R := by
  rcases hlost with htimedOut | ⟨message, captured, hthrew⟩ | ⟨response, hanswered, hsuccess⟩
  . exact .inl htimedOut
  . rw [hthrew] at h
    rcases h with ⟨log, hends⟩
    rcases (concludes_of_ends hends).left with ⟨_, hr, _⟩
    cases hr
  . rw [hanswered] at h
    rcases h with ⟨log, hcomes⟩
    rcases (concludes_of_ends hcomes).left with ⟨_, hr, hwellFormed⟩
    injection hr with hr
    subst hr
    rw [GatewayChargeResponse.WellFormed, hsuccess, if_neg Bool.false_ne_true] at hwellFormed
    refine .inr ⟨response, hanswered, hwellFormed.right, ⟨log, hcomes⟩, ?_⟩
    intro log' hcomes'
    exact unconfirmed_of_ends hcomes' hsuccess

namespace System

theorem gets {c : System D} (h : c.ReachableBy D tasks (Adapted R))
    : ∀ charge ∈ c.world.charges, charge.Gets D R charge.status := by
  apply h.induction
  . intro c hstart
    rcases hstart.world with ⟨gatewayStats, _, hworld⟩
    rw [hworld]
    intro charge hmem
    cases hmem
  . intro c c' a _ hcharges hadapted hact
    exact hadapted.act hact hcharges

/--
For a payment that is FAILED no accepting answer has come while the service has waited.
-/
theorem failed_unconfirmed {c : System D} (h : c.ReachableBy D tasks (Adapted R)) {t : Transaction}
    (ht : t ∈ c.world.ledger.transactions) (hfailed : t.currentState = .FAILED)
    : ∀ charge ∈ c.world.charges, charge.request.transactionId = t.id →
        charge.Unconfirmed D R := by
  rcases h.reachable.exists_books with ⟨b, hb, hdescribed⟩
  rw [← hdescribed.transactions] at ht
  intro charge hcharge htransaction
  apply (gets h charge hcharge).unconfirmed
  rw [← hdescribed.charges] at hcharge
  exact hb.lost_of_failed ht hfailed hcharge htransaction

/--
Of two charge calls for a payment there is one to which no accepting answer has come while the
service has waited for it.
-/
theorem confirmed_once {c : System D} (h : c.ReachableBy D tasks (Adapted R)) {n n' : Nat}
    {charge charge' : Charge} (hn : c.world.charges[n]? = some charge)
    (hn' : c.world.charges[n']? = some charge') (hne : n ≠ n')
    (hid : charge.request.transactionId = charge'.request.transactionId)
    : charge.Unconfirmed D R ∨ charge'.Unconfirmed D R := by
  have hgets := gets h charge (List.mem_of_getElem? hn)
  have hgets' := gets h charge' (List.mem_of_getElem? hn')
  rcases h.reachable.exists_books with ⟨b, hb, hdescribed⟩
  rw [← hdescribed.charges] at hn hn'
  rcases hb.lost_or_lost hn hn' hne hid with hlost | hlost
  . exact .inl (hgets.unconfirmed hlost)
  . exact .inr (hgets'.unconfirmed hlost)

end System

namespace Scenario

/--
A shop with an account at every gateway.
-/
def onlineShop : Deployment where
  env := fun name => List.lookup name [("STRIPE_SECRET_KEY", "sk_live_4eC3"),
    ("RAZORPAY_KEY_ID", "rzp_live_8mW2"), ("RAZORPAY_KEY_SECRET", "Tx7uQ9"),
    ("PAYU_MERCHANT_KEY", "gtKFFx"), ("PAYU_SALT", "eCwWELxi"),
    ("UPI_VPA", "shop@okhdfc")]
  score := RoutingEngine.exactScore
  bindText := fun _ => ""
  jsonb := fun _ => true

abbrev OnlineAct := (machine onlineShop).Act

def onlineStart : System onlineShop where
  world := World.start seedStats
  pool := fun _ => .idle

theorem onlineStart_start : onlineStart.Start := by
  refine ⟨fun _ => rfl, seedStats, ?_, rfl⟩
  decide

-- What every adapter answers when its gateway cannot be reached.
def unreachable : GatewayChargeResponse :=
  refusal "fetch failed" (.obj [("error", .str "fetch failed")]) 5

theorem ends_chargeWith {mockMode : Bool} {suffixes : List String} {request : GatewayChargeRequest}
    {mock live : Nat → AdapterProgram GatewayChargeResponse} {log : AdapterLog}
    {r : Except Err GatewayChargeResponse} (startTime : Nat)
    (hlive : (mockMode || suffixes.any (endsWith (Binary64.numberText request.amount))) = false)
    (h : (live startTime).Ends AdapterCmd.Answers log r)
    : (chargeWith mockMode suffixes request mock live).Ends AdapterCmd.Answers
        (⟨.now, .ok startTime⟩ :: log) r := by
  refine ⟨.ok startTime, log, trivial, rfl, ?_⟩
  change (if (mockMode || suffixes.any (endsWith (Binary64.numberText request.amount))) = true then
    mock startTime else live startTime).Ends AdapterCmd.Answers log r
  rw [hlive, if_neg Bool.false_ne_true]
  exact h

theorem exists_unreachable {g : GatewayProvider} {request : GatewayChargeRequest}
    (htest : isTestAmount g request.amount = false)
    : ∃ log, (GatewayAdapter.charge onlineShop plainRuntime g request).Ends AdapterCmd.Answers log
        (.ok unreachable) := by
  have hlive : (isMockMode onlineShop g || isTestAmount g request.amount) = false := by
    rw [htest, Bool.or_false]
    cases g <;> decide +kernel
  cases g
  all_goals
    exact ⟨_, ends_chargeWith 0 hlive
      ⟨.error (.error "fetch failed"), _, trivial, rfl, .ok 5, _, trivial, rfl, rfl, rfl⟩⟩

def onlineSteps (n : Nat) : List OnlineAct :=
  List.replicate n (.run ⟨0, 0⟩ {})

-- The call gets its response, and the loop goes on to the next charge or to the end.
def refuseThen (charge more : Nat) : List OnlineAct :=
  .env (.settle charge (.answered unreachable)) :: onlineSteps more

-- No gateway can be reached.
def offline : List OnlineAct :=
  .spawn ⟨0, 0⟩ :: onlineSteps 4 ++ [.run ⟨0, 0⟩ { id := "txn-1" }] ++ onlineSteps 15 ++
    refuseThen 0 24 ++ refuseThen 1 24 ++ refuseThen 2 24 ++ refuseThen 3 12

-- Only charges of no test amount are settled.
def settlesLive (c : System onlineShop) (a : OnlineAct) : Bool :=
  match a with
  | .env (.settle n _) =>
    c.world.charges[n]?.all fun charge => !isTestAmount charge.gateway charge.request.amount
  | _ => true

theorem adapted_of_settlesLive {c : System onlineShop} {a : OnlineAct} (ha : a ∈ offline)
    (h : settlesLive c a = true) : Adapted plainRuntime c a := by
  cases a with
  | env e =>
    cases e with
    | settle n status =>
      have hstatus : status = .answered unreachable := by
        have hcases : n = 0 ∧ status = .answered unreachable ∨
            n = 1 ∧ status = .answered unreachable ∨ n = 2 ∧ status = .answered unreachable ∨
            n = 3 ∧ status = .answered unreachable := by
          simpa [offline, refuseThen, onlineSteps] using ha
        rcases hcases with h | h | h | h
        all_goals exact h.right
      subst hstatus
      intro charge hcharge
      simp only [settlesLive, hcharge, Option.all_some, Bool.not_eq_true'] at h
      exact exists_unreachable h
    | _ => trivial
  | _ => trivial

theorem exists_offline
    : ∃ c : System onlineShop,
        c.ReachableBy onlineShop (fun _ => .create order) (Adapted plainRuntime) ∧
        (∃ t ∈ c.world.ledger.transactions, t.currentState = .FAILED) ∧
        c.world.charges.map Charge.gateway = [.UPI, .PAYU, .RAZORPAY, .STRIPE] := by
  let p (c : System onlineShop) : Bool :=
    c.world.ledger.transactions.any (fun t => t.currentState = .FAILED) &&
      decide (c.world.charges.map Charge.gateway = [.UPI, .PAYU, .RAZORPAY, .STRIPE])
  have hrun : ((machine onlineShop).runActsIf (fun _ => (Task.create order).program onlineShop)
      settlesLive offline onlineStart).any p = true := by
    decide +kernel
  rcases Machine.exists_runBy_of_runActsIf (fun c a ha => adapted_of_settlesLive ha) hrun with
    ⟨c, hc, hp⟩
  simp only [p, Bool.and_eq_true, List.any_eq_true, decide_eq_true_eq] at hp
  exact ⟨c, ⟨onlineStart, onlineStart_start, hc⟩, hp⟩

end Scenario

namespace System

open Scenario in
theorem failed_unconfirmed_offline
    : ∃ (c : System onlineShop) (t : Transaction), t ∈ c.world.ledger.transactions ∧
        t.currentState = .FAILED ∧ c.world.charges.length = 4 ∧
        ∀ charge ∈ c.world.charges, charge.request.transactionId = t.id →
          charge.Unconfirmed onlineShop plainRuntime := by
  rcases exists_offline with ⟨c, hc, ⟨t, ht, hfailed⟩, hgateways⟩
  refine ⟨c, t, ht, hfailed, ?_, failed_unconfirmed hc ht hfailed⟩
  rw [← List.length_map Charge.gateway, hgateways]
  rfl

end System

namespace Scenario

-- PayU answers with the page on which the payment goes on.
def payuPage : HttpResponse where
  status := 200
  json := .ok .null
  text := .ok "<html></html>"

def payuResponse : GatewayChargeResponse :=
  acceptance (some (some "txn-1")) (.obj [("status", .str "initiated"),
    ("htmlSnippet", .str "<html></html>"), ("statusCode", .num 200)]) 251

theorem exists_payuPage {request : GatewayChargeRequest} (hid : request.transactionId = "txn-1")
    (htest : isTestAmount .PAYU request.amount = false)
    : ∃ log, (GatewayAdapter.charge onlineShop plainRuntime .PAYU request).Ends AdapterCmd.Answers
        log (.ok payuResponse) := by
  have hlive : (isMockMode onlineShop .PAYU || isTestAmount .PAYU request.amount) = false := by
    rw [htest, Bool.or_false]
    decide +kernel
  have hresponse : payuResponse = { payuResponse with
      gatewayTxnId := some (some request.transactionId) } := by
    rw [hid]
    rfl
  rw [hresponse]
  exact ⟨_, ends_chargeWith 0 hlive
    ⟨.ok payuPage, _, trivial, rfl, .ok 251, _, trivial, rfl, rfl, rfl⟩⟩

-- UPI cannot be reached, PayU takes the payment.
def secondTakes : List OnlineAct :=
  .spawn ⟨0, 0⟩ :: onlineSteps 4 ++ [.run ⟨0, 0⟩ { id := "txn-1" }] ++ onlineSteps 15 ++
    refuseThen 0 24 ++ .env (.settle 1 (.answered payuResponse)) :: onlineSteps 12

def settlesInTurn (c : System onlineShop) (a : OnlineAct) : Bool :=
  match a with
  | .env (.settle n _) =>
    c.world.charges[n]?.all fun charge =>
      !isTestAmount charge.gateway charge.request.amount &&
        (n = 0 || charge.gateway = .PAYU && charge.request.transactionId = "txn-1")
  | _ => true

theorem adapted_of_settlesInTurn {c : System onlineShop} {a : OnlineAct} (ha : a ∈ secondTakes)
    (h : settlesInTurn c a = true) : Adapted plainRuntime c a := by
  cases a with
  | env e =>
    cases e with
    | settle n status =>
      have hcases : n = 0 ∧ status = .answered unreachable ∨
          n = 1 ∧ status = .answered payuResponse := by
        simpa [secondTakes, refuseThen, onlineSteps] using ha
      intro charge hcharge
      simp only [settlesInTurn, hcharge, Option.all_some, Bool.and_eq_true, Bool.not_eq_true',
        Bool.or_eq_true, decide_eq_true_eq] at h
      rcases h with ⟨htest, hturn⟩
      rcases hcases with ⟨hn, hstatus⟩ | ⟨hn, hstatus⟩
      . subst hstatus
        exact exists_unreachable htest
      . subst hn hstatus
        rcases hturn with hn | ⟨hgateway, hid⟩
        . cases hn
        . unfold Charge.Gets Charge.Comes
          rw [hgateway] at htest ⊢
          exact exists_payuPage hid htest
    | _ => trivial
  | _ => trivial

theorem exists_secondTakes
    : ∃ c : System onlineShop,
        c.ReachableBy onlineShop (fun _ => .create order) (Adapted plainRuntime) ∧
        c.world.ledger.transactions.map (·.currentState) = [.SUCCESS] ∧
        c.world.charges.map (fun charge => (charge.gateway, charge.request.transactionId)) =
          [(.UPI, "txn-1"), (.PAYU, "txn-1")] := by
  let p (c : System onlineShop) : Bool :=
    decide (c.world.ledger.transactions.map (·.currentState) = [.SUCCESS]) &&
      decide (c.world.charges.map (fun charge => (charge.gateway, charge.request.transactionId)) =
        [(.UPI, "txn-1"), (.PAYU, "txn-1")])
  have hrun : ((machine onlineShop).runActsIf (fun _ => (Task.create order).program onlineShop)
      settlesInTurn secondTakes onlineStart).any p = true := by
    decide +kernel
  rcases Machine.exists_runBy_of_runActsIf (fun c a ha => adapted_of_settlesInTurn ha) hrun with
    ⟨c, hc, hp⟩
  simp only [p, Bool.and_eq_true, decide_eq_true_eq] at hp
  exact ⟨c, ⟨onlineStart, onlineStart_start, hc⟩, hp⟩

end Scenario

namespace System

open Scenario in
theorem confirmed_once_second
    : ∃ (c : System onlineShop) (charge charge' : Charge),
        c.world.ledger.transactions.map (·.currentState) = [.SUCCESS] ∧
        c.world.charges = [charge, charge'] ∧
        (charge.Unconfirmed onlineShop plainRuntime ∨
          charge'.Unconfirmed onlineShop plainRuntime) := by
  rcases exists_secondTakes with ⟨c, hc, hstates, hcharges⟩
  rcases List.map_eq_cons_iff.mp hcharges with ⟨charge, rest, hsplit, hcharge, hrest⟩
  rcases List.map_eq_singleton_iff.mp hrest with ⟨charge', hrest, hcharge'⟩
  subst hrest
  rw [Prod.mk.injEq] at hcharge hcharge'
  have hn : c.world.charges[0]? = some charge := by rw [hsplit]; rfl
  have hn' : c.world.charges[1]? = some charge' := by rw [hsplit]; rfl
  refine ⟨c, charge, charge', hstates, hsplit, ?_⟩
  exact confirmed_once hc hn hn' (by simp) (hcharge.right.trans hcharge'.right.symm)

end System

end PaymentOrchestration
