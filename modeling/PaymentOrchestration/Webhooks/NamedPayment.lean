import PaymentOrchestration.Books.Lookups
import PaymentOrchestration.Books.Refinement
import PaymentOrchestration.Books.WorkerTrail
import PaymentOrchestration.Scenario

/-!
This module is about which payment a webhook acts on. A payload without a key is looked up with the
text `___none___` for it, which a client may have chosen as the key of a payment.
-/

namespace PaymentOrchestration

open ReconciliationWorker

/--
The payload names the payment: by the id at the gateway or by the key.
-/
def Names (D : Deployment) (gatewayTxnId : Json) (payload : Json) (t : Transaction) : Prop :=
  t.gatewayTxnId = some (D.bind gatewayTxnId) ∨
    ∃ key, Json.orNull (payload.field "idempotencyKey") = some key ∧ t.idempotencyKey = D.bind key

/--
No lookup with a payload that has no key finds a payment with the key `___none___`, unless by the id
at the gateway.
-/
def FindsNamed (D : Deployment) (history : List Event) (i : Pid) (_ : List TxnWhere)
    (t : Transaction) : Prop :=
  ∀ event x, .loaded i event ∈ history →
    extractGatewayTxnId event.gateway event.payload = some x →
    Json.orNull (event.payload.field "idempotencyKey") = none →
    t.idempotencyKey = "___none___" → t.gatewayTxnId = some (D.bind x)

variable {D : Deployment} {tasks : Pid → Task}

theorem lookup_holds_iff {x payload : Json} {t : Transaction}
    : (∃ c ∈ lookupConditions x payload, c.holds D t = true) ↔
        t.gatewayTxnId = some (D.bind x) ∨ t.idempotencyKey = D.bind (payloadKey payload) := by
  simp [lookupConditions, TxnWhere.holds]

/--
What the lookup finds is named, up to the text that stands for a missing key.
-/
theorem names_iff {x payload : Json} {t : Transaction}
    (h : ∃ c ∈ lookupConditions x payload, c.holds D t = true)
    : Names D x payload t ↔
        (Json.orNull (payload.field "idempotencyKey") = none → t.idempotencyKey = "___none___" →
          t.gatewayTxnId = some (D.bind x)) := by
  rw [lookup_holds_iff] at h
  unfold payloadKey at h
  unfold Names
  cases hkey : Json.orNull (payload.field "idempotencyKey") with
  | none =>
    rw [hkey] at h
    rcases h with h | h
    . simp [h]
    . have : t.idempotencyKey = "___none___" := h
      simp [this]
  | some key =>
    rw [hkey] at h
    simpa using h

/--
A round of the worker moves one payment only, and one that its stored event names.
-/
structure MovesNamed (D : Deployment) (tasks : Pid → Task) (w : World) : Prop where
  one : ∀ (i : Pid) (audit audit' : AuditLog), tasks i = .pollQueue →
    .committed i audit ∈ w.history → .committed i audit' ∈ w.history →
    audit.transactionId = audit'.transactionId
  named : ∀ (i : Pid) (audit : AuditLog), tasks i = .pollQueue → .committed i audit ∈ w.history →
    ∃ event x t, .loaded i event ∈ w.history ∧
      event.content ∈ w.webhookEvents.map WebhookEvent.content ∧
      extractGatewayTxnId event.gateway event.payload = some x ∧
      .read i (lookupConditions x event.payload) (some t) ∈ w.history ∧
      t.id = audit.transactionId ∧ Names D x event.payload t

theorem Books.Traced.movesNamed {b : Books} {w : World} (h : b.Traced D tasks)
    (hw : b = w.books b.role) (hfinds : Finds (FindsNamed D) b.history)
    : MovesNamed D tasks w := by
  have hhistory : w.history = b.history := by rw [hw]; rfl
  have hevents : w.webhookEvents = b.webhookEvents := by rw [hw]; rfl
  have hdriving : ∀ {i : Pid} {audit : AuditLog}, tasks i = .pollQueue →
      .committed i audit ∈ b.history →
      ∃ event txn, Driving D i event txn (b.trail i).events := by
    intro i audit htask haudit
    rcases h.committer haudit with ⟨dto, row, hdto, _⟩ | ⟨event, txn, hdriving, _⟩
    . rw [htask] at hdto
      cases hdto
    . exact ⟨event, txn, hdriving⟩
  have hmem : ∀ {i : Pid} {audit : AuditLog}, .committed i audit ∈ b.history →
      audit ∈ commitsOf (b.trail i).events := by
    intro i audit haudit
    unfold commitsOf
    rw [List.mem_filterMap]
    exact ⟨_, mem_trail haudit rfl, rfl⟩
  refine ⟨?_, ?_⟩
  . rw [hhistory]
    intro i audit audit' htask haudit haudit'
    rcases hdriving htask haudit with ⟨event, txn, hdriving⟩
    rw [(hdriving.commits audit (hmem haudit)).left,
      (hdriving.commits audit' (hmem haudit')).left]
  . rw [hhistory, hevents]
    intro i audit htask haudit
    rcases hdriving htask haudit with ⟨event, txn, hdriving⟩
    rcases hdriving.found with ⟨x, e₁, e₂, hx, hsplit, hbefore, hholds⟩
    rcases exists_split hsplit with ⟨h₁, h₂, hsplit', hbefore'⟩
    have hloaded : .loaded i event ∈ b.history := by
      rw [hsplit']
      exact List.mem_append_left _ (hbefore' _ hbefore)
    refine ⟨event, x, txn, hloaded, h.recorded hloaded, hx, by simp [hsplit'],
      (hdriving.commits audit (hmem haudit)).left.symm, ?_⟩
    rw [names_iff hholds]
    exact hfinds h₁ h₂ i _ txn hsplit' event x (hbefore' _ hbefore) hx

namespace System

theorem moves_named {c₀ c : System D} (h : c₀.Resting)
    (hrun : (machine D).RunBy (fun i => (tasks i).program D) (Lookups (FindsNamed D)) c₀ c)
    : MovesNamed D tasks c.world := by
  rcases h.exists_books hrun.run with ⟨b, hb, hdescribed⟩
  have hfinds := finds_of_run h.history hrun
  apply hb.movesNamed hdescribed.books
  rw [hdescribed.books]
  exact hfinds

end System

namespace Scenario

def paymentSucceeded : IncomingWebhook :=
  webhook "payment.captured" [("event", .str "payment.captured"), ("upi_txn_id", .str "upi_1")]

-- A client has chosen an unlucky key.
def sentinelOrder : CreateTransactionDto :=
  { order with idempotencyKey := "___none___" }

def sentinelTasks (i : Pid) : Task :=
  match i.num with
  | 0 => .create sentinelOrder
  | num => Scenario.tasks paymentSucceeded ⟨i.inst, num⟩

-- No event that was loaded has a key and no payment that was found has an id at the gateway.
def unnamed (w : World) : Bool :=
  w.history.all fun event =>
    match event with
    | .loaded _ event => (Json.orNull (event.payload.field "idempotencyKey")).isNone
    | .read _ _ (some t) => t.gatewayTxnId.isNone
    | _ => true

theorem payload_of_unnamed {i : Pid} {event : WebhookEvent} {w : World} (h : unnamed w = true)
    (hloaded : .loaded i event ∈ w.history)
    : Json.orNull (event.payload.field "idempotencyKey") = none := by
  unfold unnamed at h
  rw [List.all_eq_true] at h
  simpa using h _ hloaded

theorem gatewayTxnId_of_unnamed {i : Pid} {conditions : List TxnWhere} {t : Transaction}
    {w : World} (h : unnamed w = true) (hread : .read i conditions (some t) ∈ w.history)
    : t.gatewayTxnId = none := by
  unfold unnamed at h
  rw [List.all_eq_true] at h
  simpa using h _ hread

end Scenario

namespace System

/--
A payment that the webhook names by its id at the gateway.
-/
theorem moves_named_by_id
    : ∃ c : System Scenario.deployment,
        Scenario.commits ⟨0, 2⟩ .RECONCILED c.world = true ∧
        MovesNamed Scenario.deployment (Scenario.tasks Scenario.paymentSucceeded) c.world := by
  have hcheck : ∀ (history : List Event) (i : Pid) (conditions : List TxnWhere) (t : Transaction),
      decide (t.idempotencyKey ≠ "___none___") = true →
      FindsNamed Scenario.deployment history i conditions t := by
    intro history i conditions t ht event x _ _ _ hkey
    exact absurd hkey (of_decide_eq_true ht)
  have hrun : (Scenario.outcomeIf (lookups (fun _ _ _ t => t.idempotencyKey ≠ "___none___"))
      (Scenario.tasks Scenario.paymentSucceeded)
      (Scenario.upToCharge ⟨0, 0⟩ "txn-1" ++
        Scenario.settle 0 (.answered (Scenario.accepted "upi_1")) ::
          Scenario.steps ⟨0, 0⟩ 12 ++
        Scenario.deliver ++ .spawn ⟨0, 2⟩ :: Scenario.steps ⟨0, 2⟩ 12)).any
      (fun c => Scenario.commits ⟨0, 2⟩ .RECONCILED c.world) = true := by
    decide +kernel
  rcases Scenario.exists_reachableBy (lookups_of_check hcheck) hrun with ⟨c, hreachable, hcommits⟩
  rcases hreachable with ⟨c₀, hstart, hrun⟩
  exact ⟨c, hcommits, moves_named hstart.resting hrun⟩

/--
The webhook has no key and the id of some other payment, and still it settles the payment of a
client that has chosen `___none___` for a key.
-/
theorem unnamed_moved
    : ∃ c : System Scenario.deployment,
        c.Reachable Scenario.deployment Scenario.sentinelTasks ∧
        ¬MovesNamed Scenario.deployment Scenario.sentinelTasks c.world := by
  have hrun : (Scenario.outcome Scenario.sentinelTasks
      (Scenario.upToCharge ⟨0, 0⟩ "txn-1" ++
        Scenario.deliver ++ .spawn ⟨0, 2⟩ :: Scenario.steps ⟨0, 2⟩ 17)).any
      (fun c => Scenario.commits ⟨0, 2⟩ .RECONCILED c.world && Scenario.unnamed c.world) = true := by
    decide +kernel
  rcases Scenario.exists_reachable hrun with ⟨c, hreachable, h⟩
  rw [Bool.and_eq_true] at h
  rcases Scenario.exists_committed h.left with ⟨audit, haudit, _⟩
  refine ⟨c, hreachable, fun hnamed => ?_⟩
  rcases hnamed.named ⟨0, 2⟩ audit rfl haudit with ⟨event, x, t, hloaded, _, _, hread, _, hnames⟩
  rcases hnames with hid | ⟨key, hkey, _⟩
  . have := Scenario.gatewayTxnId_of_unnamed h.right hread
    rw [this] at hid
    cases hid
  . have := Scenario.payload_of_unnamed h.right hloaded
    rw [this] at hkey
    cases hkey

end System

end PaymentOrchestration
