import PaymentOrchestration.Books.Refinement
import PaymentOrchestration.Books.Settlement
import PaymentOrchestration.Gateways.LiveCharge
import PaymentOrchestration.Scenario

/-!
This module connects the charge calls of the service with the adapters of the gateways: what is
behind a payment that a gateway with live credentials has taken to SUCCESS.
-/

namespace PaymentOrchestration

open GatewayAdapter TransactionsService

variable {D : Deployment} {R : Runtime} {tasks : Pid → Task}

/--
The adapter that was called comes to `response` after what is in `log`.
-/
def Charge.Comes (D : Deployment) (R : Runtime) (charge : Charge) (log : AdapterLog)
    (response : GatewayChargeResponse) : Prop :=
  (GatewayAdapter.charge D R charge.gateway charge.request).Ends AdapterCmd.Answers log
    (.ok response)

def Charge.Genuine (D : Deployment) (R : Runtime) (charge : Charge) : Prop :=
  ∀ response, charge.status = .answered response → ∃ log, charge.Comes D R log response

/--
A charge call is answered by what its adapter comes to.
-/
def Genuine (R : Runtime) (c : System D) (a : (machine D).Act) : Prop :=
  match a with
  | .env (.settle n (.answered response)) =>
    ∀ charge, c.world.charges[n]? = some charge → ∃ log, charge.Comes D R log response
  | _ => True

theorem Charge.genuine_of_pending {charge : Charge} {captured : Bool}
    (h : charge.status = .pending captured) : charge.Genuine D R := by
  intro response hresponse
  rw [h] at hresponse
  cases hresponse

theorem Genuine.act {c c' : System D} {a : (machine D).Act} (h : Genuine R c a)
    (hact : (machine D).act (fun i => (tasks i).program D) a c = some c')
    (hcharges : ∀ charge ∈ c.world.charges, charge.Genuine D R)
    : ∀ charge ∈ c'.world.charges, charge.Genuine D R := by
  rcases Machine.act_world hact with hsame | ⟨i, o, cmd, k, r, _, _, hexec⟩ | ⟨e, ha, henv⟩ |
    ⟨inst, _, hcrash⟩
  . rw [hsame]
    exact hcharges
  . rcases exec_charges hexec with hsame | ⟨g, request, _, hnew⟩ |
      ⟨n, charge, captured, _, _, hstatus, hset⟩
    . rw [hsame]
      exact hcharges
    . rw [hnew]
      intro charge hmem
      rw [List.mem_append, List.mem_singleton] at hmem
      rcases hmem with hmem | hmem
      . exact hcharges charge hmem
      . rw [hmem]
        exact Charge.genuine_of_pending rfl
    . rw [hset]
      intro charge' hmem
      rcases List.mem_or_eq_of_mem_set hmem with hmem | hmem
      . exact hcharges charge' hmem
      . rw [hmem]
        exact Charge.genuine_of_pending hstatus
  . subst ha
    cases e with
    | settle n status =>
      simp only [envStep] at henv
      split at henv
      . next charge hcharge =>
        split at henv
        . injection henv with henv
          rw [← henv]
          intro charge' hmem
          rcases List.mem_or_eq_of_mem_set hmem with hmem | hmem
          . exact hcharges charge' hmem
          . rw [hmem]
            intro response hstatus
            change status = .answered response at hstatus
            subst hstatus
            exact h charge hcharge
        . cases henv
      . cases henv
    | _ =>
      injection henv with henv
      rw [← henv]
      exact hcharges
  . rw [hcrash]
    exact hcharges

theorem System.genuine {c : System D} (h : c.ReachableBy D tasks (Genuine R))
    : ∀ charge ∈ c.world.charges, charge.Genuine D R := by
  apply h.induction
  . intro c hstart
    rcases hstart.world with ⟨gatewayStats, _, hworld⟩
    rw [hworld]
    intro charge hmem
    cases hmem
  . intro c c' a _ hcharges hgenuine hact
    exact hgenuine.act hact hcharges

/--
Behind a payment in SUCCESS: a charge call of the process was answered with success, and the
adapter has come to the answer.
-/
structure Grants (D : Deployment) (R : Runtime) (i : Pid) (dto : CreateTransactionDto)
    (audit : AuditLog) (w : World) (charge : Charge) (response : GatewayChargeResponse)
    : Prop where
  mem : charge ∈ w.charges
  pid : charge.pid = i
  gateway : audit.gateway = some charge.gateway
  request : charge.request = chargeRequest dto audit.transactionId charge.gateway
  status : charge.status = .answered response
  success : response.success = true
  genuine : ∃ log, charge.Comes D R log response
  stored : ∀ t ∈ w.ledger.transactions, t.id = audit.transactionId →
    t.gatewayTxnId = response.gatewayTxnId.getD none

theorem System.exists_grants {c : System D} (h : c.ReachableBy D tasks (Genuine R)) {i : Pid}
    {dto : CreateTransactionDto} {audit : AuditLog} (htask : tasks i = .create dto)
    (haudit : .committed i audit ∈ c.world.history) (hto : audit.toState = .SUCCESS)
    : ∃ charge response, Grants D R i dto audit c.world charge response := by
  rcases h.reachable.exists_books with ⟨b, hb, hdescribed⟩
  have hbooks := hdescribed.books
  have hhistory : b.history = c.world.history := by rw [hbooks]; rfl
  rcases hb.granted htask (hhistory ▸ haudit) hto with
    ⟨g, response, hgateway, hsuccess, ⟨charge, hmem, hpid, hg, hrequest, hstatus⟩, hstored⟩
  subst hg
  rw [hbooks] at hmem hstored
  have hcharge : charge ∈ c.world.charges := hmem
  exact ⟨charge, response, hcharge, hpid, hgateway, hrequest, hstatus, hsuccess,
    genuine h charge hcharge response hstatus, hstored⟩

/--
A request was sent to the gateway, and an accepting answer has come.
-/
def Accepted (g : GatewayProvider) (log : AdapterLog) : Prop :=
  ∃ exchange ∈ exchangesOf log, exchange.1.url = endpoint g ∧ acceptingAnswer g exchange.2 = true

theorem liveOutcome_of_ends {g : GatewayProvider} {request : GatewayChargeRequest}
    {log : AdapterLog} {r : Except Err GatewayChargeResponse} (hlive : isMockMode D g = false)
    (h : (GatewayAdapter.charge D R g request).Ends AdapterCmd.Answers log r)
    : LiveOutcome D g request r (exchangesOf log) := by
  exact Protocol.wp_ends (fun _ _ _ h => h) (charge_live hlive) h

theorem decides_of_ends {g : GatewayProvider} {request : GatewayChargeRequest}
    {log : AdapterLog} {r : Except Err GatewayChargeResponse} (hlive : isMockMode D g = false)
    (htest : isTestAmount g request.amount = false)
    (h : (GatewayAdapter.charge D R g request).Ends AdapterCmd.Answers log r)
    : Decides D g request r (exchangesOf log) := by
  have houtcome := liveOutcome_of_ends hlive h
  rw [LiveOutcome, htest, if_neg Bool.false_ne_true] at houtcome
  exact houtcome

-- Razorpay's adapter accepts some test amounts by itself.
def simulatesSuccess (g : GatewayProvider) (amount : Nat) : Bool :=
  g = .RAZORPAY && ["99", "00"].any (endsWith (Binary64.numberText amount))

theorem Charge.Comes.accepted {charge : Charge} {log : AdapterLog}
    {response : GatewayChargeResponse} (hlive : isMockMode D charge.gateway = false)
    (hsimulates : simulatesSuccess charge.gateway charge.request.amount = false)
    (h : charge.Comes D R log response) (hsuccess : response.success = true)
    : Accepted charge.gateway log := by
  cases htest : isTestAmount charge.gateway charge.request.amount with
  | true =>
    have houtcome := liveOutcome_of_ends hlive h
    rw [LiveOutcome, if_pos htest] at houtcome
    rcases houtcome with ⟨_, response', hr, hsimulated⟩
    injection hr with hr
    subst hr
    rcases hsimulated hsuccess with ⟨hrazorpay, hsuffix⟩
    rw [simulatesSuccess, hsuffix, decide_eq_true hrazorpay] at hsimulates
    cases hsimulates
  | false =>
    have hdecided : DecidedBy D charge.gateway charge.request (exchangesOf log) response :=
      decides_of_ends hlive htest h
    rcases hdecided.outcome with ⟨exchange, hlast, haccepting, _⟩
    have hmem := List.mem_of_getLast? hlast
    exact ⟨exchange, hmem, hdecided.endpoint exchange hmem, haccepting.symm.trans hsuccess⟩

namespace System

/--
With live credentials the gateway decides about every amount that is none of the test amounts of its
adapter, and what it has not accepted gets to SUCCESS only for the amounts that the adapter of
Razorpay accepts by itself.
-/
theorem live_success {c : System D} (h : c.ReachableBy D tasks (Genuine R))
    {g : GatewayProvider} (hlive : isMockMode D g = false)
    : (∀ request log r, isTestAmount g request.amount = false →
        (GatewayAdapter.charge D R g request).Ends AdapterCmd.Answers log r →
        Decides D g request r (exchangesOf log)) ∧
      ∀ i dto audit, tasks i = .create dto → .committed i audit ∈ c.world.history →
        audit.toState = .SUCCESS → audit.gateway = some g → simulatesSuccess g dto.amount = false →
        ∃ charge response, Grants D R i dto audit c.world charge response ∧
          ∀ log, charge.Comes D R log response → Accepted g log := by
  refine ⟨fun request log r htest hends => decides_of_ends hlive htest hends, ?_⟩
  intro i dto audit htask haudit hto hgateway hsimulates
  rcases exists_grants h htask haudit hto with ⟨charge, response, hgrants⟩
  have hg : g = charge.gateway := by
    rw [hgrants.gateway] at hgateway
    injection hgateway with hgateway
    exact hgateway.symm
  subst hg
  refine ⟨charge, response, hgrants, fun log hcomes => ?_⟩
  apply hcomes.accepted hlive _ hgrants.success
  rw [hgrants.request]
  exact hsimulates

end System

namespace Scenario

/--
A shop with an account at Razorpay only.
-/
def liveShop : Deployment where
  env := fun name => List.lookup name [("RAZORPAY_KEY_ID", "rzp_live_8mW2"),
    ("RAZORPAY_KEY_SECRET", "Tx7uQ9")]
  score := RoutingEngine.exactScore
  bindText := fun _ => ""
  jsonb := fun _ => true

def plainRuntime : Runtime where
  base64 := id
  sha512 := id
  toLowerCase := id
  toText := fun _ => ""

abbrev LiveAct := (machine liveShop).Act

def liveStart : System liveShop where
  world := World.start seedStats
  pool := fun _ => .idle

theorem liveStart_start : liveStart.Start := by
  refine ⟨fun _ => rfl, seedStats, ?_, rfl⟩
  decide

def orderFor (amount : Nat) : CreateTransactionDto :=
  { order with amount := amount }

def liveTasks (amount : Nat) (_ : Pid) : Task :=
  .create (orderFor amount)

def liveRequest (amount : Nat) : GatewayChargeRequest :=
  chargeRequest (orderFor amount) "txn-1" .RAZORPAY

def liveSteps (n : Nat) : List LiveAct :=
  List.replicate n (.run ⟨0, 0⟩ {})

-- The charge is answered by `response`, and the answer is stored.
def capture (response : GatewayChargeResponse) : List LiveAct :=
  .spawn ⟨0, 0⟩ :: liveSteps 4 ++ [.run ⟨0, 0⟩ { id := "txn-1" }] ++ liveSteps 15 ++
    .env (.settle 0 (.answered response)) :: liveSteps 12

-- Only the charge call for `request` is answered.
def answersOnly (request : GatewayChargeRequest) (c : System liveShop) (a : LiveAct) : Bool :=
  match a with
  | .env (.settle n _) =>
    c.world.charges[n]?.all fun charge => charge.gateway = .RAZORPAY ∧ charge.request = request
  | _ => true

def captures (c : System liveShop) : Bool :=
  c.world.history.any fun event =>
    match event with
    | .committed i audit =>
      i = ⟨0, 0⟩ ∧ audit.toState = .SUCCESS ∧ audit.gateway = some .RAZORPAY
    | _ => false

theorem exists_captured {c : System liveShop} (h : captures c = true)
    : ∃ audit, .committed ⟨0, 0⟩ audit ∈ c.world.history ∧ audit.toState = .SUCCESS ∧
        audit.gateway = some .RAZORPAY := by
  simp only [captures, List.any_eq_true] at h
  rcases h with ⟨event, hevent, h⟩
  cases event with
  | committed i audit =>
    simp only [decide_eq_true_eq] at h
    rcases h with ⟨hi, h⟩
    subst hi
    exact ⟨audit, hevent, h⟩
  | _ => cases h

theorem genuine_of_answersOnly {amount : Nat} {response : GatewayChargeResponse}
    {log : AdapterLog} {c : System liveShop} {a : LiveAct} (ha : a ∈ capture response)
    (hends : (GatewayAdapter.charge liveShop plainRuntime .RAZORPAY (liveRequest amount)).Ends
      AdapterCmd.Answers log (.ok response))
    (h : answersOnly (liveRequest amount) c a = true) : Genuine plainRuntime c a := by
  cases a with
  | env e =>
    cases e with
    | settle n status =>
      cases status with
      | answered response' =>
        have hresponse : n = 0 ∧ response' = response := by
          simpa [capture, liveSteps, List.mem_replicate] using ha
        rcases hresponse with ⟨_, hresponse⟩
        subst hresponse
        intro charge hcharge
        simp only [answersOnly, hcharge, Option.all_some, decide_eq_true_eq] at h
        refine ⟨log, ?_⟩
        unfold Charge.Comes
        rw [h.left, h.right]
        exact hends
      | _ => trivial
    | _ => trivial
  | _ => trivial

theorem exists_capture {amount : Nat} {response : GatewayChargeResponse} {log : AdapterLog}
    (hends : (GatewayAdapter.charge liveShop plainRuntime .RAZORPAY (liveRequest amount)).Ends
      AdapterCmd.Answers log (.ok response)) {p : System liveShop → Bool}
    (h : ((machine liveShop).runActsIf (fun i => (liveTasks amount i).program liveShop)
      (answersOnly (liveRequest amount)) (capture response) liveStart).any p = true)
    : ∃ c : System liveShop, c.ReachableBy liveShop (liveTasks amount) (Genuine plainRuntime) ∧
        p c = true := by
  have hcheck : ∀ c, ∀ a ∈ capture response, answersOnly (liveRequest amount) c a = true →
      Genuine plainRuntime c a := by
    intro c a ha
    exact genuine_of_answersOnly ha hends
  rcases Machine.exists_runBy_of_runActsIf hcheck h with ⟨c, hrun, hp⟩
  exact ⟨c, ⟨liveStart, liveStart_start, hrun⟩, hp⟩

-- Razorpay has created an order.
def orderCreated : HttpResponse where
  status := 200
  json := .ok (.obj [("id", .str "order_1"), ("status", .str "created")])
  text := .ok ""

def orderResponse : GatewayChargeResponse :=
  acceptance (some (some "order_1")) (.obj [("id", .str "order_1"), ("status", .str "created")]) 251

theorem ends_orderResponse
    : (GatewayAdapter.charge liveShop plainRuntime .RAZORPAY (liveRequest 1015)).Ends
        AdapterCmd.Answers
        [⟨.now, .ok 0⟩,
          ⟨.fetch (RazorpayAdapter.orderRequest liveShop plainRuntime (liveRequest 1015)),
            .ok orderCreated⟩,
          ⟨.now, .ok 251⟩]
        (.ok orderResponse) := by
  have htest : ¬(RazorpayAdapter.isMockMode liveShop ||
      RazorpayAdapter.testSuffixes.any (endsWith (toString (liveRequest 1015).amount))) = true := by
    decide +kernel
  refine ⟨.ok 0, _, trivial, rfl, ?_⟩
  change (if (RazorpayAdapter.isMockMode liveShop ||
      RazorpayAdapter.testSuffixes.any (endsWith (toString (liveRequest 1015).amount))) = true then
    RazorpayAdapter.mock (liveRequest 1015) 0
      else RazorpayAdapter.live liveShop plainRuntime (liveRequest 1015) 0).Ends AdapterCmd.Answers _ _
  rw [if_neg htest]
  exact ⟨.ok orderCreated, _, trivial, rfl, .ok 251, _, trivial, rfl, rfl, rfl⟩

-- What the adapter makes up for a round amount.
def madeUp : GatewayChargeResponse :=
  acceptance (some (some "pay_rzp_0f8fad5bd9cb469f"))
    (.obj [("status", .str "captured"), ("id", .str "pay_rzp_txn-1"),
      ("amount", .num (liveRequest 1000).amount)]) 251

def madeUpLog : AdapterLog :=
  [⟨.now, .ok 0⟩, ⟨.sleep 250, .ok ()⟩, ⟨.uuid, .ok "0f8fad5b-d9cb-469f-a165-70867728950e"⟩,
    ⟨.now, .ok 251⟩]

theorem ends_madeUp
    : (GatewayAdapter.charge liveShop plainRuntime .RAZORPAY (liveRequest 1000)).Ends
        AdapterCmd.Answers madeUpLog (.ok madeUp) := by
  have htest : (RazorpayAdapter.isMockMode liveShop ||
      RazorpayAdapter.testSuffixes.any (endsWith (toString (liveRequest 1000).amount))) = true := by
    decide +kernel
  refine ⟨.ok 0, _, trivial, rfl, ?_⟩
  change (if (RazorpayAdapter.isMockMode liveShop ||
      RazorpayAdapter.testSuffixes.any (endsWith (toString (liveRequest 1000).amount))) = true then
    RazorpayAdapter.mock (liveRequest 1000) 0
      else RazorpayAdapter.live liveShop plainRuntime (liveRequest 1000) 0).Ends AdapterCmd.Answers _ _
  rw [if_pos htest]
  unfold RazorpayAdapter.mock simulate
  rw [if_neg (by decide +kernel), if_neg (by decide +kernel)]
  exact ⟨.ok (), _, trivial, rfl, .ok "0f8fad5b-d9cb-469f-a165-70867728950e", _, trivial, rfl,
    .ok 251, _, trivial, rfl, rfl, rfl⟩

theorem live_liveShop : isMockMode liveShop .RAZORPAY = false := by
  decide +kernel

end Scenario

namespace System

open Scenario

theorem live_success_order
    : ∃ (c : System liveShop) (audit : AuditLog), .committed ⟨0, 0⟩ audit ∈ c.world.history ∧
        audit.gateway = some .RAZORPAY ∧
        ∃ charge response,
          Grants liveShop plainRuntime ⟨0, 0⟩ (orderFor 1015) audit c.world charge response ∧
          ∀ log, charge.Comes liveShop plainRuntime log response → Accepted .RAZORPAY log := by
  rcases exists_capture ends_orderResponse (p := captures) (by decide +kernel) with ⟨c, hc, hp⟩
  rcases exists_captured hp with ⟨audit, haudit, hto, hgateway⟩
  refine ⟨c, audit, haudit, hgateway, ?_⟩
  exact (live_success hc live_liveShop).right ⟨0, 0⟩ (orderFor 1015) audit rfl haudit hto hgateway
    (by decide +kernel)

/--
A payment of a round amount gets to SUCCESS through the live Razorpay account of the shop, and no
request is sent.
-/
theorem round_amount_unasked
    : isMockMode liveShop .RAZORPAY = false ∧
        (GatewayAdapter.charge liveShop plainRuntime .RAZORPAY (liveRequest 1000)).Ends
          AdapterCmd.Answers madeUpLog (.ok madeUp) ∧
        ¬Decides liveShop .RAZORPAY (liveRequest 1000) (.ok madeUp) (exchangesOf madeUpLog) ∧
        ∃ c : System liveShop, c.ReachableBy liveShop (liveTasks 1000) (Genuine plainRuntime) ∧
          ∃ audit, .committed ⟨0, 0⟩ audit ∈ c.world.history ∧ audit.toState = .SUCCESS ∧
            audit.gateway = some .RAZORPAY ∧
            ∃ charge response,
              Grants liveShop plainRuntime ⟨0, 0⟩ (orderFor 1000) audit c.world charge response ∧
              ∀ log, charge.Comes liveShop plainRuntime log response → exchangesOf log = [] := by
  refine ⟨live_liveShop, ends_madeUp, ?_, ?_⟩
  . intro hdecided
    rcases hdecided.outcome with ⟨exchange, hlast, _⟩
    cases hlast
  . rcases exists_capture ends_madeUp (p := captures) (by decide +kernel) with ⟨c, hc, hp⟩
    rcases exists_captured hp with ⟨audit, haudit, hto, hgateway⟩
    have hgranted : ∃ charge response, Grants liveShop plainRuntime ⟨0, 0⟩ (orderFor 1000) audit
        c.world charge response := exists_grants hc rfl haudit hto
    rcases hgranted with ⟨charge, response, hgrants⟩
    refine ⟨c, hc, audit, haudit, hto, hgateway, charge, response, hgrants, fun log hcomes => ?_⟩
    have hrazorpay : charge.gateway = .RAZORPAY := by
      rw [hgrants.gateway] at hgateway
      injection hgateway
    have htest : isTestAmount charge.gateway charge.request.amount = true := by
      rw [hgrants.request, hrazorpay]
      change isTestAmount .RAZORPAY 1000 = true
      decide +kernel
    have houtcome := liveOutcome_of_ends (hrazorpay ▸ live_liveShop) hcomes
    rw [LiveOutcome, if_pos htest] at houtcome
    exact houtcome.left

end System

end PaymentOrchestration
