import PaymentOrchestration.Transactions.LiveSuccess
import PaymentOrchestration.Webhooks.NamedPayment

/-!
This module compares the id that a payment is stored with and the id that the worker takes from an
event. An event may carry the id of the order next to the one of the payment, and the worker looks
for the latter first.
-/

namespace PaymentOrchestration

open GatewayAdapter ReconciliationWorker

-- `payload.payload?.payment?.entity`
def paymentEntity (payload : Json) : Option Json :=
  Json.field? "entity" (Json.field? "payment" (payload.field "payload"))

/--
The field of an event in which the gateway refers to what its adapter has asked for.
-/
def orderField (gateway : GatewayProvider) (payload : Json) : Option Json :=
  match gateway with
  | .RAZORPAY => Json.field? "order_id" (paymentEntity payload)
  | .PAYU => payload.field "txnid"
  | _ => none

/--
The field in which the gateway puts its own id of the payment.
-/
def ownField (gateway : GatewayProvider) (payload : Json) : Option Json :=
  match gateway with
  | .RAZORPAY => Json.field? "id" (paymentEntity payload)
  | .PAYU => payload.field "mihpayid"
  | _ => none

/--
The event names the order.
-/
def NamesOrder (D : Deployment) (gateway : GatewayProvider) (payload : Json) (id : String) : Prop :=
  ∃ value, orderField gateway payload = some value ∧ value.truthy = true ∧ D.bind value = id

-- What an event about the order is looked up by.
def lookupId (D : Deployment) (gateway : GatewayProvider) (payload : Json) (id : String) : String :=
  ((Json.orNull (ownField gateway payload)).map D.bind).getD id

/--
Whichever of the matching rows the database returns, the lookup of `processEvent` finds the payment.
-/
def LookupFinds (D : Deployment) (w : World) (gateway : GatewayProvider) (payload : Json)
    (t : Transaction) : Prop :=
  ∃ x, extractGatewayTxnId gateway payload = some x ∧
    ∀ pid o r w', o.fault = .none →
      exec D pid (.findTransaction (lookupConditions x payload)) o w = some (r, w') →
      r = .ok (some t)

def LookedUp (D : Deployment) (gateway : GatewayProvider) (payload : Json) (id : String)
    (t : Transaction) : Prop :=
  t.gatewayTxnId = some (lookupId D gateway payload id) ∨
    t.idempotencyKey = D.bind (payloadKey payload)

/--
The event leads to the payment and to no other.
-/
structure LeadsTo (D : Deployment) (rows : List Transaction) (gateway : GatewayProvider)
    (payload : Json) (id : String) (t : Transaction) : Prop where
  found : lookupId D gateway payload id = id ∨ t.idempotencyKey = D.bind (payloadKey payload)
  alone : ∀ u ∈ rows, LookedUp D gateway payload id u → u = t

variable {D : Deployment} {R : Runtime} {tasks : Pid → Task} {gateway : GatewayProvider}
  {payload : Json} {id : String}

theorem truthy_of_field {name : String} {value : Json} (h : payload.field name = some value)
    : payload.truthy = true := by
  cases payload with
  | obj fields => rfl
  | _ => cases h

theorem field_of_field? {name : String} {object : Option Json} {value : Json}
    (h : Json.field? name object = some value)
    : ∃ object', object = some object' ∧ object'.field name = some value := by
  cases object with
  | none => cases h
  | some object' => exact ⟨object', rfl, h⟩

theorem or_of_truthy {a b : Option Json} {value : Json} (hb : b = some value)
    (htruthy : value.truthy = true) (c : Option Json)
    : Json.orNull (Json.or a (Json.or b c)) = some ((Json.orNull a).getD value) := by
  subst hb
  rw [Json.or_some_of_truthy c htruthy]
  cases a with
  | none => simp [Json.orNull, htruthy]
  | some own =>
    cases hown : own.truthy with
    | true => simp [Json.or_some_of_truthy, Json.orNull, Option.filter, hown]
    | false => simp [Json.or_some_of_not_truthy, Json.orNull, Option.filter, hown, htruthy]

theorem NamesOrder.extract (h : NamesOrder D gateway payload id)
    : ∃ x, extractGatewayTxnId gateway payload = some x ∧
        D.bind x = lookupId D gateway payload id := by
  rcases h with ⟨value, hvalue, htruthy, hid⟩
  have hbind : ∀ own : Option Json, D.bind ((Json.orNull own).getD value) =
      ((Json.orNull own).map D.bind).getD id := by
    intro own
    cases Json.orNull own with
    | none => exact hid
    | some own => rfl
  cases gateway with
  | RAZORPAY =>
    have hpayload : payload.truthy = true := by
      rcases field_of_field? hvalue with ⟨entity, hentity, _⟩
      rcases field_of_field? hentity with ⟨payment, hpayment, _⟩
      rcases field_of_field? hpayment with ⟨inner, hinner, _⟩
      exact truthy_of_field hinner
    refine ⟨(Json.orNull (ownField .RAZORPAY payload)).getD value, ?_, hbind _⟩
    unfold extractGatewayTxnId
    rw [hpayload, Bool.not_true, if_neg Bool.false_ne_true]
    exact or_of_truthy hvalue htruthy _
  | PAYU =>
    refine ⟨(Json.orNull (ownField .PAYU payload)).getD value, ?_, hbind _⟩
    unfold extractGatewayTxnId
    rw [truthy_of_field hvalue, Bool.not_true, if_neg Bool.false_ne_true]
    exact or_of_truthy hvalue htruthy _
  | _ => cases hvalue

namespace Exec

variable {w : World} {conditions : List TxnWhere} {t : Transaction}

/--
A lookup always finds the same row exactly if this row matches and no other does.
-/
theorem finds_always_iff (ht : t ∈ w.ledger.transactions)
    : (∀ pid o r w', o.fault = .none → exec D pid (.findTransaction conditions) o w = some (r, w') →
        r = .ok (some t)) ↔
      (∃ condition ∈ conditions, condition.holds D t = true) ∧
        ∀ u ∈ w.ledger.transactions, (∃ condition ∈ conditions, condition.holds D u = true) →
          u = t := by
  constructor
  . intro h
    have hmatch : ∀ u, u ∈ matching D conditions w.ledger.transactions → u = t := by
      intro u hu
      rcases List.mem_iff_getElem?.mp hu with ⟨n, hn⟩
      have hexec : exec D ⟨0, 0⟩ (.findTransaction conditions) { pick := n } w =
          some (.ok (some u),
            { w with history := w.history ++ [.read ⟨0, 0⟩ conditions (some u)] }) := by
        simp [exec, findTransaction, hn]
      have hr := h _ _ _ _ rfl hexec
      injection hr with hr
      injection hr
    have hne : matching D conditions w.ledger.transactions ≠ [] := by
      intro hnil
      have hexec : exec D ⟨0, 0⟩ (.findTransaction conditions) {} w =
          some (.ok none, { w with history := w.history ++ [.read ⟨0, 0⟩ conditions none] }) := by
        simp [exec, findTransaction, hnil]
      have hr := h _ _ _ _ rfl hexec
      injection hr with hr
      cases hr
    rcases List.exists_mem_of_ne_nil _ hne with ⟨u, hu⟩
    constructor
    . rw [← hmatch u hu]
      exact (mem_matching.mp hu).right
    . intro u hu hholds
      exact hmatch u (mem_matching.mpr ⟨hu, hholds⟩)
  . rintro ⟨hholds, halone⟩ pid o r w' hfault hexec
    rcases findTransaction_cases hexec with ⟨hr, _⟩ | ⟨row, hr, _, hrow, hempty⟩
    . rw [hr] at hexec
      simp [exec, findTransaction, hfault] at hexec
    . cases row with
      | none =>
        have hmem := mem_matching.mpr ⟨ht, hholds⟩
        rw [hempty rfl] at hmem
        cases hmem
      | some u =>
        have hu := mem_matching.mp (List.mem_of_getElem? hrow.symm)
        rw [hr, halone u hu.left hu.right]

end Exec

theorem lookedUp_iff {x : Json} {t : Transaction} (hx : D.bind x = lookupId D gateway payload id)
    : (∃ condition ∈ lookupConditions x payload, condition.holds D t = true) ↔
        LookedUp D gateway payload id t := by
  rw [lookup_holds_iff, hx]
  rfl

theorem NamesOrder.lookupFinds_iff {w : World} {t : Transaction}
    (h : NamesOrder D gateway payload id) (ht : t ∈ w.ledger.transactions)
    (hid : t.gatewayTxnId = some id)
    : LookupFinds D w gateway payload t ↔
        LeadsTo D w.ledger.transactions gateway payload id t := by
  rcases h.extract with ⟨x, hx, hbind⟩
  have hfound : LookedUp D gateway payload id t ↔
      (lookupId D gateway payload id = id ∨ t.idempotencyKey = D.bind (payloadKey payload)) := by
    rw [LookedUp, hid, Option.some.injEq, eq_comm]
  constructor
  . rintro ⟨x', hx', hfinds⟩
    rw [hx] at hx'
    injection hx' with hx'
    subst hx'
    rw [Exec.finds_always_iff ht] at hfinds
    refine ⟨hfound.mp ((lookedUp_iff hbind).mp hfinds.left), fun u hu hlookedUp => ?_⟩
    exact hfinds.right u hu ((lookedUp_iff hbind).mpr hlookedUp)
  . intro hleads
    refine ⟨x, hx, (Exec.finds_always_iff ht).mpr ⟨?_, ?_⟩⟩
    . exact (lookedUp_iff hbind).mpr (hfound.mpr hleads.found)
    . intro u hu hholds
      exact hleads.alone u hu ((lookedUp_iff hbind).mp hholds)

/--
The gateway has accepted the charge, and this is the id of what it has accepted.
-/
def OrderId (D : Deployment) (R : Runtime) (charge : Charge) (response : GatewayChargeResponse)
    (id : String) : Prop :=
  ∃ log exchange, charge.Comes D R log response ∧ (exchangesOf log).getLast? = some exchange ∧
    acceptingAnswer charge.gateway exchange.2 = true ∧
    acceptedId D charge.gateway charge.request exchange.2 = some (some id)

namespace Grants

variable {i : Pid} {dto : CreateTransactionDto} {audit : AuditLog} {w : World} {charge : Charge}
  {response : GatewayChargeResponse} {log : AdapterLog}

theorem decidedBy (h : Grants D R i dto audit w charge response)
    (hlive : isMockMode D charge.gateway = false)
    (htest : isTestAmount charge.gateway dto.amount = false) (hcomes : charge.Comes D R log response)
    : DecidedBy D charge.gateway charge.request (exchangesOf log) response := by
  apply decides_of_ends hlive _ hcomes
  rw [h.request]
  exact htest

-- The id of the order is what is stored.
theorem gatewayTxnId_of_orderId (h : Grants D R i dto audit w charge response)
    (hlive : isMockMode D charge.gateway = false)
    (htest : isTestAmount charge.gateway dto.amount = false) {t : Transaction}
    (ht : t ∈ w.ledger.transactions) (htid : t.id = audit.transactionId)
    (hid : OrderId D R charge response id) : t.gatewayTxnId = some id := by
  rcases hid with ⟨log, exchange, hcomes, hlast, _, hacceptedId⟩
  rcases (h.decidedBy hlive htest hcomes).outcome with ⟨exchange', hlast', _, hstored⟩
  rw [hlast] at hlast'
  injection hlast' with hexchange
  subst hexchange
  rw [h.stored t ht htid, hstored h.success, hacceptedId]
  rfl

-- What is stored is the id of an order.
theorem orderId_of_gatewayTxnId (h : Grants D R i dto audit w charge response)
    (hlive : isMockMode D charge.gateway = false)
    (htest : isTestAmount charge.gateway dto.amount = false) {t : Transaction}
    (ht : t ∈ w.ledger.transactions) (htid : t.id = audit.transactionId)
    (hid : t.gatewayTxnId = some id) : OrderId D R charge response id := by
  rcases h.genuine with ⟨log, hcomes⟩
  rcases (h.decidedBy hlive htest hcomes).outcome with ⟨exchange, hlast, haccepting, hstored⟩
  refine ⟨log, exchange, hcomes, hlast, haccepting.symm.trans h.success, ?_⟩
  rw [h.stored t ht htid] at hid
  rw [← hstored h.success]
  cases hresponse : response.gatewayTxnId with
  | none =>
    rw [hresponse] at hid
    cases hid
  | some stored =>
    rw [hresponse] at hid
    rw [← hid]
    rfl

end Grants

namespace System

/--
An event that names the order leads to the payment exactly if it has no id of its own that hides the
order, or the key of the payment, and nothing else in it is found.
-/
theorem order_finds_iff {c : System D} (h : c.ReachableBy D tasks (Genuine R)) {i : Pid}
    {dto : CreateTransactionDto} {audit : AuditLog} (htask : tasks i = .create dto)
    (haudit : .committed i audit ∈ c.world.history) (hto : audit.toState = .SUCCESS)
    (hgateway : audit.gateway = some gateway) (hlive : isMockMode D gateway = false)
    (htest : isTestAmount gateway dto.amount = false) {t : Transaction}
    (ht : t ∈ c.world.ledger.transactions) (htid : t.id = audit.transactionId)
    : ∃ charge response, Grants D R i dto audit c.world charge response ∧
        ∀ id, OrderId D R charge response id → t.gatewayTxnId = some id ∧
          ∀ payload, NamesOrder D gateway payload id →
            (LookupFinds D c.world gateway payload t ↔
              LeadsTo D c.world.ledger.transactions gateway payload id t) := by
  rcases exists_grants h htask haudit hto with ⟨charge, response, hgrants⟩
  have hg : charge.gateway = gateway := by
    rw [hgrants.gateway] at hgateway
    injection hgateway
  subst hg
  refine ⟨charge, response, hgrants, fun id hid => ?_⟩
  have hstored := hgrants.gatewayTxnId_of_orderId hlive htest ht htid hid
  exact ⟨hstored, fun payload hnames => hnames.lookupFinds_iff ht hstored⟩

end System

namespace Scenario

-- What Razorpay sends about a captured payment.
def capturedEvent (entity : List (String × Json)) : Json :=
  .obj [("event", .str "payment.captured"),
    ("payload", .obj [("payment", .obj [("entity", .obj entity)])])]

def storesOrder (c : System liveShop) : Bool :=
  captures c &&
    match c.world.ledger.transactions with
    | [t] => t.gatewayTxnId = some "order_1" ∧ t.idempotencyKey = "order-7"
    | _ => false

/--
The one payment of the shop has been captured, and it is stored with the id of its order.
-/
structure Stores (c : System liveShop) (audit : AuditLog) (t : Transaction) : Prop where
  reachable : c.ReachableBy liveShop (liveTasks 1015) (Genuine plainRuntime)
  committed : .committed ⟨0, 0⟩ audit ∈ c.world.history
  toState : audit.toState = .SUCCESS
  gateway : audit.gateway = some .RAZORPAY
  transactionId : t.id = audit.transactionId
  transactions : c.world.ledger.transactions = [t]
  gatewayTxnId : t.gatewayTxnId = some "order_1"
  idempotencyKey : t.idempotencyKey = "order-7"

theorem exists_stores : ∃ c audit t, Stores c audit t := by
  rcases exists_capture ends_orderResponse (p := storesOrder) (by decide +kernel) with ⟨c, hc, hp⟩
  rw [storesOrder, Bool.and_eq_true] at hp
  rcases hp with ⟨hcaptures, hrows⟩
  rcases exists_captured hcaptures with ⟨audit, haudit, hto, hgateway⟩
  rcases hc.reachable.exists_books with ⟨b, hb, hdescribed⟩
  have hhistory : b.history = c.world.history := by rw [hdescribed.books]; rfl
  rcases hb.exists_row_of_committed (hhistory ▸ haudit) with ⟨t, ht, hid⟩
  rw [hdescribed.books] at ht
  have hmem : t ∈ c.world.ledger.transactions := ht
  split at hrows
  . next t' htransactions =>
    rw [htransactions, List.mem_singleton] at hmem
    subst hmem
    rw [decide_eq_true_eq] at hrows
    exact ⟨c, audit, t, hc, haudit, hto, hgateway, hid, htransactions, hrows.left, hrows.right⟩
  . cases hrows

theorem Stores.mem {c : System liveShop} {audit : AuditLog} {t : Transaction}
    (h : Stores c audit t) : t ∈ c.world.ledger.transactions := by
  rw [h.transactions]
  exact List.mem_singleton_self t

theorem not_test_1015 : isTestAmount .RAZORPAY (orderFor 1015).amount = false := by
  decide +kernel

end Scenario

namespace System

open Scenario

/--
The event carries the id of the order only.
-/
theorem order_finds_order
    : ∃ c audit t, Stores c audit t ∧
        LookupFinds liveShop c.world .RAZORPAY (capturedEvent [("order_id", .str "order_1")]) t := by
  rcases exists_stores with ⟨c, audit, t, h⟩
  refine ⟨c, audit, t, h, ?_⟩
  rcases order_finds_iff h.reachable rfl h.committed h.toState h.gateway live_liveShop not_test_1015
    h.mem h.transactionId with ⟨charge, response, hgrants, hiff⟩
  have hrazorpay : charge.gateway = .RAZORPAY := by
    have hgateway := h.gateway
    rw [hgrants.gateway] at hgateway
    injection hgateway
  have hid := hgrants.orderId_of_gatewayTxnId (hrazorpay ▸ live_liveShop)
    (hrazorpay ▸ not_test_1015) h.mem h.transactionId h.gatewayTxnId
  refine ((hiff "order_1" hid).right _ ⟨.str "order_1", rfl, rfl, rfl⟩).mpr ⟨.inl rfl, ?_⟩
  intro u hu _
  rw [h.transactions, List.mem_singleton] at hu
  exact hu

/--
An event as Razorpay sends it carries the id of the payment next to that of the order, and the
payment is not found.
-/
theorem order_hidden
    : ∃ c audit t, Stores c audit t ∧
        isMockMode liveShop .RAZORPAY = false ∧
        isTestAmount .RAZORPAY (orderFor 1015).amount = false ∧
        (∃ charge response,
          Grants liveShop plainRuntime ⟨0, 0⟩ (orderFor 1015) audit c.world charge response ∧
            OrderId liveShop plainRuntime charge response "order_1") ∧
        NamesOrder liveShop .RAZORPAY
          (capturedEvent [("id", .str "pay_1"), ("order_id", .str "order_1")]) "order_1" ∧
        ¬LookupFinds liveShop c.world .RAZORPAY
          (capturedEvent [("id", .str "pay_1"), ("order_id", .str "order_1")]) t := by
  rcases exists_stores with ⟨c, audit, t, h⟩
  have hnames : NamesOrder liveShop .RAZORPAY
      (capturedEvent [("id", .str "pay_1"), ("order_id", .str "order_1")]) "order_1" :=
    ⟨.str "order_1", rfl, rfl, rfl⟩
  have hgranted : ∃ charge response, Grants liveShop plainRuntime ⟨0, 0⟩ (orderFor 1015) audit
      c.world charge response := exists_grants h.reachable rfl h.committed h.toState
  rcases hgranted with ⟨charge, response, hgrants⟩
  have hrazorpay : charge.gateway = .RAZORPAY := by
    have hgateway := h.gateway
    rw [hgrants.gateway] at hgateway
    injection hgateway
  refine ⟨c, audit, t, h, live_liveShop, not_test_1015, ⟨charge, response, hgrants, ?_⟩, hnames, ?_⟩
  . exact hgrants.orderId_of_gatewayTxnId (hrazorpay ▸ live_liveShop) (hrazorpay ▸ not_test_1015)
      h.mem h.transactionId h.gatewayTxnId
  . rw [hnames.lookupFinds_iff h.mem h.gatewayTxnId]
    intro hleads
    rcases hleads.found with hfound | hfound
    . revert hfound
      decide
    . rw [h.idempotencyKey] at hfound
      revert hfound
      decide

end System

end PaymentOrchestration
