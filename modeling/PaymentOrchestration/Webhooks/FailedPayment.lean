import PaymentOrchestration.Books.Lookups
import PaymentOrchestration.Books.Refinement
import PaymentOrchestration.Books.WorkerTrail
import PaymentOrchestration.Scenario

/-!
This module is about webhooks that report a failed payment. The worker does not look at the type of
an event, so only the state of the payment can keep it from settling one.
-/

namespace PaymentOrchestration

/--
No round of the worker on one of the `failing` events has settled a payment.
-/
def FailuresUnsettled (failing : WebhookEvent → Prop) (w : World) : Prop :=
  ∀ (i : Pid) (event : WebhookEvent) (audit : AuditLog), .loaded i event ∈ w.history →
    failing event → .committed i audit ∈ w.history →
    audit.toState ≠ .SUCCESS ∧ audit.toState ≠ .RECONCILED

/--
The worker finds for a failing event only payments that are in a terminal state.
-/
def FindsTerminal (failing : WebhookEvent → Prop) (history : List Event) (i : Pid)
    (_ : List TxnWhere) (t : Transaction) : Prop :=
  ∀ event, .loaded i event ∈ history → failing event →
    t.currentState = .FAILED ∨ t.currentState = .RECONCILED

namespace Books

variable {D : Deployment} {tasks : Pid → Task} {b : Books}

-- A round that finds a payment in a terminal state leaves it there.
theorem Reachable.not_committed (h : b.Reachable D tasks) {failing : WebhookEvent → Prop}
    (hfinds : Finds (FindsTerminal failing) b.history) {i : Pid} {event : WebhookEvent}
    (hloaded : .loaded i event ∈ b.history) (hfailing : failing event) (audit : AuditLog)
    : .committed i audit ∉ b.history := by
  intro haudit
  rcases h.traced.committer haudit with ⟨dto, row, hdto, _⟩ | ⟨event', txn, hdriving, _⟩
  . exact h.traced.not_loaded hdto event hloaded
  . have hevent := hdriving.unique event (mem_trail hloaded rfl)
    subst hevent
    rcases hdriving.found with ⟨x, e₁, e₂, _, hevents, hbefore, _⟩
    rcases exists_split hevents with ⟨h₁, h₂, hhistory, hmem⟩
    have hterminal := hfinds h₁ h₂ i _ txn hhistory event (hmem _ hbefore) hfailing
    have hcommits : commitsOf (b.trail i).events ≠ [] := by
      apply List.ne_nil_of_mem (a := audit)
      unfold commitsOf
      rw [List.mem_filterMap]
      exact ⟨_, mem_trail haudit rfl, rfl⟩
    rcases hdriving.moved hcommits with ⟨hfailed, hreconciled⟩
    rcases hterminal with hterminal | hterminal
    . exact hfailed hterminal
    . exact hreconciled hterminal

end Books

namespace System

variable {D : Deployment} {tasks : Pid → Task}

theorem failures_unsettled {failing : WebhookEvent → Prop} {c : System D}
    (h : c.ReachableBy D tasks (Lookups (FindsTerminal failing)))
    : FailuresUnsettled failing c.world := by
  intro i event audit hloaded hfailing haudit
  rcases h.reachable.exists_books with ⟨b, hb, hdescribed⟩
  have hhistory : b.history = c.world.history := by rw [hdescribed.books]; rfl
  have hfinds := h.finds
  rw [← hhistory] at hloaded haudit hfinds
  exact absurd haudit (hb.not_committed hfinds hloaded hfailing audit)

end System

namespace Scenario

def paymentFailed : IncomingWebhook :=
  webhook "payment.failed" [("event", .str "payment.failed"), ("upi_txn_id", .str "upi_1"),
    ("idempotencyKey", .str "order-7")]

-- The gateway declines, and the call goes on to the next charge.
def decline (n : Nat) : List Act :=
  settle n (.answered (declined "insufficient funds")) :: steps ⟨0, 0⟩ 24

end Scenario

namespace System

/--
All gateways decline the payment before the webhook arrives.
-/
theorem failures_unsettled_declined
    : ∃ c : System Scenario.deployment,
        Scenario.loads ⟨0, 2⟩ "payment.failed" c.world = true ∧
        FailuresUnsettled (fun event => event.eventType = "payment.failed") c.world := by
  have hcheck : ∀ (history : List Event) (i : Pid) (conditions : List TxnWhere) (t : Transaction),
      decide (t.currentState = .FAILED ∨ t.currentState = .RECONCILED) = true →
      FindsTerminal (fun event => event.eventType = "payment.failed") history i conditions t := by
    intro history i conditions t ht _ _ _
    exact of_decide_eq_true ht
  have hrun : (Scenario.outcomeIf
      (lookups (fun _ _ _ t => t.currentState = .FAILED ∨ t.currentState = .RECONCILED))
      (Scenario.tasks Scenario.paymentFailed)
      (Scenario.upToCharge ⟨0, 0⟩ "txn-1" ++ Scenario.decline 0 ++ Scenario.decline 1 ++
        Scenario.decline 2 ++
        Scenario.settle 3 (.answered (Scenario.declined "insufficient funds")) ::
          Scenario.steps ⟨0, 0⟩ 12 ++
        Scenario.deliver ++ .spawn ⟨0, 2⟩ :: Scenario.steps ⟨0, 2⟩ 6)).any
      (fun c => Scenario.loads ⟨0, 2⟩ "payment.failed" c.world) = true := by
    decide +kernel
  rcases Scenario.exists_reachableBy (lookups_of_check hcheck) hrun with ⟨c, hreachable, hloads⟩
  exact ⟨c, hloads, failures_unsettled hreachable⟩

/--
A webhook that reports a failed payment makes the worker confirm it.
-/
theorem failure_settled
    : ∃ c : System Scenario.deployment,
        c.Reachable Scenario.deployment (Scenario.tasks Scenario.paymentFailed) ∧
        ¬FailuresUnsettled (fun event => event.eventType = "payment.failed") c.world := by
  have hrun : (Scenario.outcome (Scenario.tasks Scenario.paymentFailed)
      (Scenario.upToCharge ⟨0, 0⟩ "txn-1" ++
        Scenario.settle 0 (.answered (Scenario.accepted "upi_1")) ::
          Scenario.steps ⟨0, 0⟩ 12 ++
        Scenario.deliver ++ .spawn ⟨0, 2⟩ :: Scenario.steps ⟨0, 2⟩ 12)).any
      (fun c => Scenario.loads ⟨0, 2⟩ "payment.failed" c.world &&
        Scenario.commits ⟨0, 2⟩ .RECONCILED c.world) = true := by
    decide +kernel
  rcases Scenario.exists_reachable hrun with ⟨c, hreachable, h⟩
  rw [Bool.and_eq_true] at h
  rcases Scenario.exists_loaded h.left with ⟨event, hloaded, htype⟩
  rcases Scenario.exists_committed h.right with ⟨audit, haudit, hto⟩
  refine ⟨c, hreachable, fun hunsettled => ?_⟩
  exact (hunsettled _ event audit hloaded htype haudit).right hto

end System

end PaymentOrchestration
