import PaymentOrchestration.Books.Refinement
import PaymentOrchestration.Books.Replay
import PaymentOrchestration.Scenario

/-!
This module shows that the tables of the service agree in every state it can reach: the audit log
replays each payment.
-/

namespace PaymentOrchestration

/--
The audit log replays the row `t`.
-/
structure Replayed (w : World) (t : Transaction) : Prop where
  replays : ∃ i row primary, .inserted i row ∈ w.history ∧ row.id = t.id ∧
    row.selectedGateway = some primary ∧
    Replays primary (transitionsOf t.id w.ledger.auditLog) t
  success_once :
    ((transitionsOf t.id w.ledger.auditLog).filter (·.toState = .SUCCESS)).length ≤ 1
  reconciled_once :
    ((transitionsOf t.id w.ledger.auditLog).filter (·.toState = .RECONCILED)).length ≤ 1
  not_both : ¬((∃ row ∈ transitionsOf t.id w.ledger.auditLog, row.toState = .SUCCESS) ∧
    ∃ row ∈ transitionsOf t.id w.ledger.auditLog, row.toState = .FAILED)

theorem Books.Audited.replayed {b : Books} {w : World} (h : b.Audited)
    (hw : b = w.books b.role) {t : Transaction} (ht : t ∈ w.ledger.transactions)
    : Replayed w t := by
  rw [hw] at h
  rcases h.replays t ht with ⟨i, row, primary, hrow, hid, hprimary, hreplays⟩
  have hrows : ∀ row ∈ transitionsOf t.id w.ledger.auditLog, row.fromState.isSome :=
    isSome_of_mem_transitionsOf
  exact ⟨⟨i, row, primary, hrow, hid, hprimary, hreplays⟩, hreplays.length_success_le hrows,
    hreplays.length_reconciled_le hrows, hreplays.not_success_and_failed hrows⟩

namespace System

variable {D : Deployment} {tasks : Pid → Task}

theorem audit_replays {c : System D} (h : c.Reachable D tasks)
    : (∀ t ∈ c.world.ledger.transactions, Replayed c.world t) ∧
        ∀ c', (machine D).Run (fun i => (tasks i).program D) c c' →
          ∀ t ∈ c.world.ledger.transactions, ∀ t' ∈ c'.world.ledger.transactions, t'.id = t.id →
            (∃ row ∈ transitionsOf t.id c.world.ledger.auditLog, row.toState = .SUCCESS) →
            t'.gatewayTxnId = t.gatewayTxnId := by
  refine ⟨?_, ?_⟩
  . intro t ht
    rcases h.exists_books with ⟨b, hb, hdescribed⟩
    exact hb.audited.replayed hdescribed.books ht
  . intro c' hrun t ht t' ht' hid hsuccess
    rcases h.exists_books_run hrun with ⟨b, b', hb, hdescribed, hrun, hdescribed'⟩
    have hinv := hb.inv
    have haudited := hb.audited
    rw [hdescribed.books] at hrun hinv haudited
    rw [hdescribed'.books] at hrun
    exact hrun.gatewayTxnId_eq hinv haudited ht ht' hid hsuccess

/--
A payment that was captured and then confirmed by its webhook.
-/
theorem audit_replays_reconciled
    : ∃ c : System Scenario.deployment,
        c.world.ledger.transactions.map (·.currentState) = [.RECONCILED] ∧
        ∀ t ∈ c.world.ledger.transactions, Replayed c.world t := by
  have hrun : (Scenario.outcome
      (Scenario.tasks (Scenario.webhook "PAYMENT_SUCCESS" [("upi_txn_id", .str "upi_1")]))
      (Scenario.upToCharge ⟨0, 0⟩ "txn-1" ++
        [Scenario.settle 0 (.answered (Scenario.accepted "upi_1"))] ++
        Scenario.steps ⟨0, 0⟩ 12 ++ Scenario.deliver ++
        .spawn ⟨0, 2⟩ :: Scenario.steps ⟨0, 2⟩ 12)).any
      (fun c => c.world.ledger.transactions.map (·.currentState) = [.RECONCILED]) = true := by
    decide +kernel
  rcases Scenario.exists_reachable hrun with ⟨c, hreachable, hstate⟩
  exact ⟨c, of_decide_eq_true hstate, (audit_replays hreachable).left⟩

end System

end PaymentOrchestration
