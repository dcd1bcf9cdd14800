import PaymentOrchestration.Transactions.LiveSuccess
import PaymentOrchestration.Webhooks.Attribution
import PaymentOrchestration.Webhooks.LiveSignature
import PaymentOrchestration.Webhooks.MailbagRefinement

/-!
This module follows a payment that was moved by a webhook back to the request at the endpoint: the
request has passed the check of its signature, and its body names the payment.
-/

namespace PaymentOrchestration

open ReconciliationWorker

/--
The record is what some delivery has handed over.
-/
def Delivered (tasks : Pid → Task) (record : WebhookEvent) : Prop :=
  ∃ i event, tasks i = .ingest event ∧ record.content = (event.row record.id).content

namespace Mailbag

/--
Whatever is in the mailbag was delivered.
-/
structure Origin (tasks : Pid → Task) (b : Mailbag) : Prop where
  delivering : ∀ i event, b.hand i = .delivering event → tasks i = .ingest event
  records : ∀ record ∈ b.records, Delivered tasks record
  event : ∀ i event, (b.hand i).event = some event → Delivered tasks event

variable {tasks : Pid → Task} {b b' : Mailbag}

theorem Start.origin (h : b.Start tasks) : b.Origin tasks := by
  refine ⟨?_, ?_, ?_⟩
  . intro i event hhand
    rw [h.hand] at hhand
    cases htask : tasks i with
    | ingest event' =>
      rw [htask] at hhand
      injection hhand with hevent
      rw [hevent]
    | create dto =>
      rw [htask] at hhand
      cases hhand
    | pollQueue =>
      rw [htask] at hhand
      cases hhand
  . intro record hrecord
    rw [h.records] at hrecord
    cases hrecord
  . intro i event hevent
    rw [h.hand] at hevent
    cases htask : tasks i <;> rw [htask] at hevent <;> cases hevent

-- The hand of one process changes.
theorem Origin.frame (h : b.Origin tasks) {i : Pid} {hand : Hand}
    (hhand : b'.hand = (b.setHand i hand).hand)
    (hrecords : ∀ record ∈ b'.records, Delivered tasks record)
    (hdelivering : ∀ event, hand = .delivering event → tasks i = .ingest event)
    (hevent : ∀ event, hand.event = some event → Delivered tasks event) : b'.Origin tasks := by
  refine ⟨?_, hrecords, ?_⟩
  . intro j event hj
    rw [hhand] at hj
    by_cases hji : j = i
    . subst hji
      rw [setHand_self] at hj
      exact hdelivering event hj
    . rw [setHand_of_ne hji] at hj
      exact h.delivering j event hj
  . intro j event hj
    rw [hhand] at hj
    by_cases hji : j = i
    . subst hji
      rw [setHand_self] at hj
      exact hevent event hj
    . rw [setHand_of_ne hji] at hj
      exact h.event j event hj

theorem Origin.step (h : b.Origin tasks) (hstep : b.Step b') : b'.Origin tasks := by
  cases hstep with
  | forget memory hmemory => exact ⟨h.delivering, h.records, h.event⟩
  | insert i event record hhand hrecord hid hpair hand hhand' =>
    have htask := h.delivering i event hhand
    refine h.frame rfl ?_ ?_ ?_
    . intro record' hmem
      rw [List.mem_append, List.mem_singleton] at hmem
      rcases hmem with hmem | hmem
      . exact h.records record' hmem
      . subst hmem
        exact ⟨i, event, htask, by rw [← hrecord]⟩
    . intro event' heq
      rcases hhand' with hhand' | hhand'
      . rw [hhand'] at heq
        cases heq
      . rw [hhand'] at heq
        injection heq with heq
        rw [← heq]
        exact htask
    . intro event' heq
      rcases hhand' with hhand' | hhand' <;> rw [hhand'] at heq <;> cases heq
  | repel i event hhand hpair =>
    exact h.frame rfl h.records (fun _ heq => by cases heq) (fun _ heq => by cases heq)
  | pushServer i record hhand | pushMemory i record hhand | pushLost i record hhand =>
    exact h.frame rfl h.records (fun _ heq => by cases heq) (fun _ heq => by cases heq)
  | popServer i id hhand hlast | popMemory i id hhand hmemory =>
    exact h.frame rfl h.records (fun _ heq => by cases heq) (fun _ heq => by cases heq)
  | popLost => exact ⟨h.delivering, h.records, h.event⟩
  | load i event hhand hevent =>
    refine h.frame rfl h.records (fun _ heq => by cases heq) ?_
    intro event' heq
    injection heq with heq
    rw [← heq]
    exact h.records event hevent
  | find i conditions row hhand => exact ⟨h.delivering, h.records, h.event⟩
  | drive i conditions row event hhand =>
    refine h.frame rfl h.records (fun _ heq => by cases heq) ?_
    intro event' heq
    apply h.event i event'
    rw [hhand]
    exact heq
  | mark i event now hhand =>
    refine ⟨h.delivering, ?_, h.event⟩
    intro record hmem
    simp only [mark, List.mem_map] at hmem
    rcases hmem with ⟨old, hold, hrecord⟩
    split at hrecord
    . rw [← hrecord]
      exact h.event i event hhand
    . rw [← hrecord]
      exact h.records old hold

theorem Origin.run (h : b.Origin tasks) (hrun : b.Run b') : b'.Origin tasks := by
  induction hrun with
  | refl => exact h
  | tail _ hstep ih => exact ih.step hstep

end Mailbag

variable {D : Deployment} {tasks : Pid → Task}

theorem Couriers.conforms_origin
    : Machine.Conforms (M := (machine D).observed queueEvents) (P := custodyProtocol)
        (fun i => (tasks i).program D) (fun i => (tasks i).hand) (fun i => (tasks i).handover)
        (fun d => Mailbag.Origin tasks (mailbag d)) := by
  refine ⟨fun i => (tasks i).custody, fun _ => rfl, fun _ _ _ h => h, ?_, ?_⟩
  . intro d i cmd o r w _ _ hexec
    rw [Machine.observed_exec] at hexec
    exact answers hexec.left
  . intro d d' horigin hstep
    exact horigin.run (run_of_step hstep)

namespace Watched

theorem Reachable.delivered {c : WatchedQueue D} (h : c.Reachable tasks)
    : ∀ record ∈ c.world.1.webhookEvents, Delivered tasks record := by
  rcases h with ⟨c₀, hstart, hrun⟩
  have horigin : (couriers (D := D) tasks c₀.world).mailbag.Origin tasks := hstart.mailbag.origin
  have hsim : Machine.Simulates (P := custodyProtocol) (fun i => (tasks i).hand)
      (fun i => (tasks i).handover) c₀ (couriers tasks c₀.world) := by
    refine ⟨rfl, fun i => ?_⟩
    rw [show c₀.pool i = .idle from hstart.system.idle i]
    rfl
  rcases hsim.run Couriers.conforms_origin horigin hrun with ⟨d, hd, hsim'⟩
  rw [hsim'.world]
  exact (Couriers.conforms_origin.invariant horigin hd).records

end Watched

theorem System.Reachable.delivered {c : System D} (h : c.Reachable D tasks)
    : ∀ record ∈ c.world.webhookEvents, Delivered tasks record := by
  have hwatched : ∃ c' : WatchedQueue D, c'.system = c ∧ c'.Reachable tasks :=
    Watched.exists_reachable h
  rcases hwatched with ⟨c', hc', hreachable⟩
  rw [← hc']
  exact hreachable.delivered

namespace Books

variable {b b' : Books}

theorem Step.committed_or (hstep : b.Step D b') {i : Pid} {audit : AuditLog}
    (haudit : .committed i audit ∈ b'.history)
    : .committed i audit ∈ b.history ∨
        ∃ step createdAt, Permit D (b.role i) step ∧ audit = step.entry createdAt := by
  cases hstep with
  | commit j step createdAt role hpermit hrow hrole' =>
    have hmem : .committed i audit ∈ b.history ++ [.committed j (step.entry createdAt)] := haudit
    rw [List.mem_append, List.mem_singleton] at hmem
    rcases hmem with hmem | hmem
    . exact .inl hmem
    . injection hmem with hj haudit
      rw [← hj] at hpermit
      exact .inr ⟨step, createdAt, hpermit, haudit⟩
  | find | insert | load | charge =>
    rcases List.mem_append.mp haudit with hmem | hmem
    . exact .inl hmem
    . simp at hmem
  | _ => exact .inl haudit

/--
Only rounds of the worker reconcile payments.
-/
theorem Reachable.dto_of_reconciled (h : b.Reachable D tasks) {i : Pid} {audit : AuditLog}
    (haudit : .committed i audit ∈ b.history) (hto : audit.toState = .RECONCILED)
    : (tasks i).dto = none := by
  rcases h with ⟨b₀, hstart, hrun⟩
  induction hrun with
  | refl =>
    rw [hstart.history] at haudit
    cases haudit
  | @tail b₁ b₂ hrun hstep ih =>
    have hreachable : b₁.Reachable D tasks := ⟨b₀, hstart, hrun⟩
    rcases hstep.committed_or haudit with haudit | ⟨step, createdAt, hpermit, heq⟩
    . exact ih haudit
    . rw [heq] at hto
      rcases hpermit.of_reconciled hto with ⟨event, txn, hrole, _⟩
      rw [← hreachable.traced.dto i, hrole]
      rfl

end Books

open WebhooksController

/--
The webhooks that are handed over are those that the endpoints of the gateways take.
-/
def Posted (D : Deployment) (R : Signing) (tasks : Pid → Task) : Prop :=
  ∀ i event, tasks i = .ingest event →
    ∃ gateway request, Ingests (receive D R gateway request) event

namespace WebhooksController

variable {R : Signing} {gateway : GatewayProvider} {request : WebhookRequest}

theorem eventOf_of_ingests {event : IncomingWebhook}
    (h : Ingests (receive D R gateway request) event)
    : verified D R gateway request = true ∧ event = eventOf D gateway request.body true := by
  unfold Ingests receive at h
  cases hverified : verified D R gateway request with
  | false =>
    rw [hverified] at h
    cases h
  | true =>
    rw [hverified] at h
    injection h with hcmd
    injection hcmd with hevent
    exact ⟨rfl, hevent.symm⟩

theorem secretOf_of_not_skips (h : skipsCheck D gateway = false)
    : ∃ secret, secretOf D gateway = some secret ∧ secret ≠ "" := by
  cases gateway
  all_goals
    rcases isPlaceholder_eq_false.mp h with ⟨secret, hsecret, hne, _⟩
    exact ⟨secret, hsecret, hne⟩

theorem verifies_of_verified (hskips : skipsCheck D gateway = false)
    (h : verified D R gateway request = true) : Verifies D R gateway request := by
  rcases secretOf_of_not_skips hskips with ⟨secret, hsecret, hne⟩
  rw [verified, if_neg (by simp [hskips]), hsecret] at h
  exact ⟨secret, hsecret, hne, h⟩

end WebhooksController

/--
A request at the endpoint of a gateway has moved the payment: it has passed the check, and process
`i` has found the payment by the body.
-/
structure MovedBy (D : Deployment) (R : Signing) (tasks : Pid → Task) (w : World) (i : Pid)
    (id : String) (gateway : GatewayProvider) (request : WebhookRequest) : Prop where
  delivered : ∃ j event, tasks j = .ingest event ∧ event.gateway = gateway ∧
    event.payload = request.body
  verified : WebhooksController.verified D R gateway request = true
  signed : skipsCheck D gateway = false → Verifies D R gateway request
  found : ∃ x t, extractGatewayTxnId gateway request.body = some x ∧
    .read i (lookupConditions x request.body) (some t) ∈ w.history ∧ t.id = id ∧
    ∃ c ∈ lookupConditions x request.body, c.holds D t = true

/--
Whatever is done to a payment by anything but the call that has inserted it, and every
reconciliation, is due to such a request.
-/
structure ActsOnSigned (D : Deployment) (R : Signing) (tasks : Pid → Task) (w : World) : Prop where
  own : ∀ i dto audit, (tasks i).dto = some dto → .committed i audit ∈ w.history →
    ∃ row, .inserted i row ∈ w.history ∧ audit.transactionId = row.id
  moved : ∀ i audit, (tasks i).dto = none → .committed i audit ∈ w.history →
    ∃ gateway request, MovedBy D R tasks w i audit.transactionId gateway request
  reconciled : ∀ t ∈ w.ledger.transactions, t.currentState = .RECONCILED →
    ∃ i gateway request, MovedBy D R tasks w i t.id gateway request

namespace System

variable {R : Signing} {c : System D}

theorem Reachable.movedBy (h : c.Reachable D tasks) (hposted : Posted D R tasks) {i : Pid}
    {audit : AuditLog} (hdto : (tasks i).dto = none) (haudit : .committed i audit ∈ c.world.history)
    : ∃ gateway request, MovedBy D R tasks c.world i audit.transactionId gateway request := by
  rcases h.exists_books with ⟨b, hb, hdescribed⟩
  rw [← hdescribed.history] at haudit
  rcases hb.traced.committer haudit with ⟨dto, _, htask, _⟩ | ⟨record, txn, hdriving, hid, _⟩
  . rw [hdto] at htask
    cases htask
  . rcases hdriving.found with ⟨x, e₁, e₂, hx, hsplit, hbefore, hholds⟩
    rcases Books.exists_split hsplit with ⟨h₁, h₂, hsplit', hbefore'⟩
    have hloaded : .loaded i record ∈ b.history := by
      rw [hsplit']
      exact List.mem_append_left _ (hbefore' _ hbefore)
    -- The worker has loaded what is stored, and what is stored was delivered.
    have hrecorded := hb.traced.recorded hloaded
    unfold Books.Recorded at hrecorded
    rw [List.mem_map, show b.webhookEvents = c.world.webhookEvents by rw [hdescribed.books]; rfl]
      at hrecorded
    rcases hrecorded with ⟨stored, hstored, hcontent⟩
    rcases h.delivered stored hstored with ⟨j, event, htask, hevent⟩
    rcases hposted j event htask with ⟨gateway, request, hingests⟩
    rcases eventOf_of_ingests hingests with ⟨hverified, heq⟩
    rw [hcontent] at hevent
    simp only [WebhookEvent.content, IncomingWebhook.row, Prod.mk.injEq] at hevent
    have hgateway : event.gateway = gateway := by
      rw [heq]
      cases gateway <;> rfl
    have hpayload : event.payload = request.body := by
      rw [heq]
      cases gateway <;> rfl
    rw [hevent.right.left, hevent.right.right.right.right, hgateway, hpayload] at hx
    rw [hevent.right.right.right.right, hpayload] at hsplit' hholds
    refine ⟨gateway, request, ⟨j, event, htask, hgateway, hpayload⟩, hverified,
      fun hskips => verifies_of_verified hskips hverified, x, txn, hx, ?_, hid.symm, hholds⟩
    rw [← hdescribed.history, hsplit']
    simp

-- A call of `create` commits to no other payment.
theorem Reachable.own_row (h : c.Reachable D tasks) {i : Pid} {dto : CreateTransactionDto}
    (hdto : (tasks i).dto = some dto) {audit : AuditLog}
    (haudit : .committed i audit ∈ c.world.history)
    : ∃ row, .inserted i row ∈ c.world.history ∧ audit.transactionId = row.id := by
  rcases h.exists_books with ⟨b, hb, hdescribed⟩
  rw [← hdescribed.history] at haudit ⊢
  rcases hb.traced.committer haudit with ⟨_, row, _, howning, hrow⟩ | ⟨_, _, _, _, hnone, _⟩
  . refine ⟨row, ?_, hrow⟩
    apply Books.mem_history_of_inserts
    simp [howning.inserts]
  . rw [hdto] at hnone
    cases hnone

/--
If all webhooks come through the endpoints, a payment is moved and reconciled only on the word of a
request that has passed the check of its signature.
-/
theorem acts_on_signed (h : c.Reachable D tasks) (hposted : Posted D R tasks)
    : ActsOnSigned D R tasks c.world := by
  refine ⟨fun i dto audit hdto haudit => h.own_row hdto haudit,
    fun i audit hdto haudit => h.movedBy hposted hdto haudit, ?_⟩
  intro t ht hstate
  rcases h.exists_books with ⟨b, hb, hdescribed⟩
  rw [← hdescribed.transactions] at ht
  rcases hb.exists_commit_of_state ht (by simp [hstate]) with ⟨i, audit, haudit, hid, hto⟩
  have hdto := hb.dto_of_reconciled haudit (hto.trans hstate)
  rw [hdescribed.history] at haudit
  rw [← hid]
  exact ⟨i, h.movedBy hposted hdto haudit⟩

end System

namespace Scenario

-- The signature of `captureText` under the secret of the shop.
def captureSignature : String :=
  "5acc534f87c07864c338c274540db87228659282c3b61c9c6d2f08494ca52152"

def captureText : String :=
  "\x7b\"event\":\"payment.captured\",\"payload\":\x7b\"payment\":\x7b\"entity\":\x7b\"id\":\"order_1\"\x7d\x7d\x7d\x7d"

def captureBody : Json :=
  .obj [("event", .str "payment.captured"),
    ("payload", .obj [("payment", .obj [("entity", .obj [("id", .str "order_1")])])])]

-- Nothing else is signed.
def captureSigning : Signing :=
  { plainRuntime with
    hmacSha256 := fun secret text =>
      if secret = "Tx7uQ9" ∧ text = captureText then captureSignature else "" }

def signedCapture : WebhookRequest where
  body := captureBody
  rawBody := some captureText
  header := fun name => if name = "x-razorpay-signature" then some captureSignature else none

def signedTasks (i : Pid) : Task :=
  match i.num with
  | 0 => .create (orderFor 1015)
  | 1 => .ingest (eventOf liveShop .RAZORPAY captureBody true)
  | _ => .pollQueue

theorem verified_signedCapture : verified liveShop captureSigning .RAZORPAY signedCapture = true := by
  decide +kernel

theorem posted_signedTasks : Posted liveShop captureSigning signedTasks := by
  intro i event htask
  refine ⟨.RAZORPAY, signedCapture, ?_⟩
  unfold signedTasks at htask
  split at htask
  . cases htask
  . injection htask with hevent
    unfold Ingests receive
    rw [verified_signedCapture, ← hevent]
    rfl
  . cases htask

def liveStepsOf (i : Pid) (n : Nat) : List LiveAct :=
  List.replicate n (.run i {})

-- Razorpay has created the order, its webhook is delivered and taken from the queue.
def capturedThenSigned : List LiveAct :=
  capture orderResponse ++ .spawn ⟨0, 1⟩ :: .run ⟨0, 1⟩ { id := "record-1" } ::
    liveStepsOf ⟨0, 1⟩ 2 ++ .spawn ⟨0, 2⟩ :: liveStepsOf ⟨0, 2⟩ 12

theorem exists_signed
    : ∃ c : System liveShop, c.Reachable liveShop signedTasks ∧
        ∃ t ∈ c.world.ledger.transactions, t.currentState = .RECONCILED := by
  have hrun : ((machine liveShop).runActs (fun i => (signedTasks i).program liveShop)
      capturedThenSigned liveStart).any
      (fun c => c.world.ledger.transactions.any (·.currentState = .RECONCILED)) = true := by
    decide +kernel
  rcases Machine.exists_run_of_runActs hrun with ⟨c, hc, hp⟩
  simp only [List.any_eq_true, decide_eq_true_eq] at hp
  exact ⟨c, ⟨liveStart, liveStart_start, hc⟩, hp⟩

end Scenario

namespace System

open Scenario in
/--
The webhook of Razorpay is signed with the secret of the shop and reconciles the payment.
-/
theorem acts_on_signed_capture
    : skipsCheck liveShop .RAZORPAY = false ∧
        ∃ c : System liveShop, (∃ t ∈ c.world.ledger.transactions, t.currentState = .RECONCILED) ∧
          ActsOnSigned liveShop captureSigning signedTasks c.world := by
  refine ⟨by decide +kernel, ?_⟩
  rcases exists_signed with ⟨c, hc, hreconciled⟩
  exact ⟨c, hreconciled, acts_on_signed hc posted_signedTasks⟩

end System

end PaymentOrchestration
