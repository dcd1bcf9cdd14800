import PaymentOrchestration.Breaker.Statistics
import PaymentOrchestration.Transactions.Snapshots

/-!
This module shows that the service keeps its records: whatever happens, rows are added and go on, and
none is removed or taken back.
-/

namespace PaymentOrchestration

open StateMachine

/--
The charge call is the same, and if its race has come out, so is the result.
-/
structure Charge.Kept (charge charge' : Charge) : Prop where
  pid : charge'.pid = charge.pid
  gateway : charge'.gateway = charge.gateway
  request : charge'.request = charge.request
  verdict : ∀ success, charge.verdict = some success → charge'.verdict = some success

theorem Charge.Kept.refl (charge : Charge) : charge.Kept charge := by
  exact ⟨rfl, rfl, rfl, fun _ h => h⟩

theorem Charge.Kept.trans {charge₁ charge₂ charge₃ : Charge} (h : charge₁.Kept charge₂)
    (h' : charge₂.Kept charge₃) : charge₁.Kept charge₃ := by
  refine ⟨h'.pid.trans h.pid, h'.gateway.trans h.gateway, h'.request.trans h.request, ?_⟩
  intro success hverdict
  exact h'.verdict success (h.verdict success hverdict)

-- A pending call whose timer has not gone off has not come out yet.
theorem Charge.verdict_of_pending {charge : Charge} {captured success : Bool}
    (hstatus : charge.status = .pending captured) (h : charge.verdict = some success)
    : charge.timedOut = true ∧ success = false := by
  unfold verdict at h
  split at h
  . next htimer =>
    injection h with h
    exact ⟨htimer, h.symm⟩
  . rw [hstatus] at h
    cases h

namespace Books

variable {D : Deployment} {tasks : Pid → Task} {b b' : Books}

theorem Step.charge_kept (hstep : b.Step D b') {n : Nat} {charge : Charge}
    (hcharge : b.charges[n]? = some charge)
    : ∃ charge', b'.charges[n]? = some charge' ∧ charge.Kept charge' := by
  have hset : ∀ {m : Nat} {old new : Charge}, b.charges[m]? = some old → old.Kept new →
      ∃ charge', (b.charges.set m new)[n]? = some charge' ∧ charge.Kept charge' := by
    intro m old new hold hkept
    by_cases hm : m = n
    . subst hm
      rw [hcharge] at hold
      injection hold with hold
      subst hold
      refine ⟨new, ?_, hkept⟩
      rw [List.getElem?_set_self (List.getElem?_eq_some_iff.mp hcharge).fst]
    . refine ⟨charge, ?_, .refl charge⟩
      rw [List.getElem?_set_ne hm, hcharge]
  cases hstep with
  | charge j dto row g fb =>
    refine ⟨charge, ?_, .refl charge⟩
    have hlt := (List.getElem?_eq_some_iff.mp hcharge).fst
    dsimp only
    rw [List.getElem?_append_left hlt, hcharge]
  | timeout j dto row g fb m old captured hrole hold hstatus =>
    refine hset hold ⟨rfl, rfl, rfl, ?_⟩
    intro success hverdict
    rw [(Charge.verdict_of_pending hstatus hverdict).right]
    rfl
  | settle m old captured status hold hstatus =>
    refine hset hold ⟨rfl, rfl, rfl, ?_⟩
    intro success hverdict
    rcases Charge.verdict_of_pending hstatus hverdict with ⟨htimer, hsuccess⟩
    simp [Charge.verdict, htimer, hsuccess]
  | _ => exact ⟨charge, hcharge, .refl charge⟩

theorem Step.event_kept (hinv : b.Inv) (hstep : b.Step D b') {event : WebhookEvent}
    (hevent : event ∈ b.webhookEvents)
    : ∃ event' ∈ b'.webhookEvents, event'.content = event.content ∧
        (event.processed = true → event'.processed = true) := by
  cases hstep with
  | ingest new => exact ⟨event, List.mem_append_left _ hevent, rfl, id⟩
  | mark i seen now hseen =>
    by_cases hid : event.id = seen.id
    . -- The worker writes back what it has loaded, and nothing of that has changed.
      rcases List.mem_map.mp ((hinv.role i).of_event hseen) with ⟨row, hrow, hcontent⟩
      have hsame : event = row := by
        apply List.inj_on_of_nodup_map hinv.events hevent hrow
        simp only [WebhookEvent.content, Prod.mk.injEq] at hcontent
        rw [hid, hcontent.left]
      refine ⟨{ seen with processed := true, processedAt := some now }, ?_, ?_, fun _ => rfl⟩
      . exact List.mem_map.mpr ⟨event, hevent, if_pos hid⟩
      . rw [hsame]
        exact hcontent.symm
    . exact ⟨event, List.mem_map.mpr ⟨event, hevent, if_neg hid⟩, rfl, id⟩
  | _ => exact ⟨event, hevent, rfl, id⟩

theorem Reachable.run (h : b.Reachable D tasks) (hrun : b.Run D b') : b'.Reachable D tasks := by
  rcases h with ⟨b₀, hstart, hrun₀⟩
  exact ⟨b₀, hstart, Relation.ReflTransGen.trans hrun₀ hrun⟩

/--
What `b` has on record is on record in `b'`.
-/
structure Keeps (b b' : Books) : Prop where
  auditLog : b.auditLog <+: b'.auditLog
  history : b.history <+: b'.history
  had : ∀ t, b.Had t → b'.Had t
  charges : ∀ (n : Nat) (charge : Charge), b.charges[n]? = some charge →
    ∃ charge', b'.charges[n]? = some charge' ∧ charge.Kept charge'
  webhookEvents : ∀ event ∈ b.webhookEvents, ∃ event' ∈ b'.webhookEvents,
    event'.content = event.content ∧ (event.processed = true → event'.processed = true)

theorem Step.keeps (hinv : b.Inv) (haudited : b.Audited) (hstep : b.Step D b') : b.Keeps b' := by
  refine ⟨?_, ?_, fun t => .step hinv haudited hstep, fun n charge => hstep.charge_kept,
    fun event => hstep.event_kept hinv⟩
  . rcases hstep.auditLog_append with ⟨audits, haudits⟩
    exact ⟨audits, haudits.symm⟩
  . rcases hstep.history_append with ⟨events, hhistory⟩
    exact ⟨events, hhistory.symm⟩

theorem Keeps.trans {b₁ b₂ b₃ : Books} (h : b₁.Keeps b₂) (h' : b₂.Keeps b₃) : b₁.Keeps b₃ := by
  refine ⟨h.auditLog.trans h'.auditLog, h.history.trans h'.history,
    fun t ht => h'.had t (h.had t ht), ?_, ?_⟩
  . intro n charge hcharge
    rcases h.charges n charge hcharge with ⟨charge', hcharge', hkept⟩
    rcases h'.charges n charge' hcharge' with ⟨charge'', hcharge'', hkept'⟩
    exact ⟨charge'', hcharge'', hkept.trans hkept'⟩
  . intro event hevent
    rcases h.webhookEvents event hevent with ⟨event', hevent', hcontent, hprocessed⟩
    rcases h'.webhookEvents event' hevent' with ⟨event'', hevent'', hcontent', hprocessed'⟩
    exact ⟨event'', hevent'', hcontent'.trans hcontent, fun hp => hprocessed' (hprocessed hp)⟩

theorem Reachable.keeps (h : b.Reachable D tasks) (hrun : b.Run D b') : b.Keeps b' := by
  induction hrun with
  | refl =>
    exact ⟨List.prefix_refl _, List.prefix_refl _, fun _ ht => ht,
      fun _ charge hcharge => ⟨charge, hcharge, .refl charge⟩,
      fun event hevent => ⟨event, hevent, rfl, id⟩⟩
  | tail hrun hstep ih =>
    have hinv := Run.inv h.inv hrun
    have haudited := Run.audited h.inv hrun h.audited
    exact ih.trans (hstep.keeps hinv haudited)

end Books

/--
What `w` has on record is on record in `w'`. Audit rows stay as they are, charge calls keep what is
known of their outcome, webhook events keep their content and stay processed, and payments go on
along the transitions that are logged for them.
-/
structure RecordsKept (w w' : World) : Prop where
  auditLog : w.ledger.auditLog <+: w'.ledger.auditLog
  transactions : ∀ t ∈ w.ledger.transactions, ∃ now ∈ w'.ledger.transactions,
    Earlier w'.ledger.auditLog t now
  charges : ∀ (n : Nat) (charge : Charge), w.charges[n]? = some charge →
    ∃ charge', w'.charges[n]? = some charge' ∧ charge.Kept charge'
  webhookEvents : ∀ event ∈ w.webhookEvents, ∃ event' ∈ w'.webhookEvents,
    event'.content = event.content ∧ (event.processed = true → event'.processed = true)

namespace System

variable {D : Deployment} {tasks : Pid → Task}

theorem records_kept {c c' : System D} (h : c.Reachable D tasks)
    (hrun : (machine D).Run (fun i => (tasks i).program D) c c') : RecordsKept c.world c'.world := by
  rcases h.exists_books_run hrun with ⟨b, b', hb, hdescribed, hbooks, hdescribed'⟩
  have hkeeps := hb.keeps hbooks
  have hhad : ∀ t ∈ b.transactions, b'.Had t := by
    intro t ht
    exact hkeeps.had t (.of_mem hb.inv hb.audited ht)
  have hnow : ∀ t ∈ b.transactions, ∃ now ∈ b'.transactions, Earlier b'.auditLog t now := by
    intro t ht
    exact (hb.run hbooks).exists_now (hhad t ht)
  have hauditLog := hkeeps.auditLog
  have hcharges := hkeeps.charges
  have hevents := hkeeps.webhookEvents
  rw [hdescribed.books, hdescribed'.books] at hauditLog hcharges hevents hnow
  exact ⟨hauditLog, hnow, hcharges, hevents⟩

open Scenario in
/--
The payment is reconciled and its webhook is processed in the second part of the run.
-/
theorem records_kept_reconciled
    : ∃ c c' : System deployment,
        c.world.ledger.transactions.map (·.currentState) = [.SUCCESS] ∧
        c'.world.ledger.transactions.map (·.currentState) = [.RECONCILED] ∧
        RecordsKept c.world c'.world := by
  have hrun : (outcome
      (Scenario.tasks (webhook "PAYMENT_SUCCESS" [("upi_txn_id", .str "upi_1")]))
      (upToCharge ⟨0, 0⟩ "txn-1" ++ settle 0 (.answered (accepted "upi_1")) ::
        steps ⟨0, 0⟩ 12 ++ deliver)).any
      (fun c => decide (c.world.ledger.transactions.map (·.currentState) = [.SUCCESS]) &&
        ((machine deployment).runActs
          (fun i => (Scenario.tasks (webhook "PAYMENT_SUCCESS" [("upi_txn_id", .str "upi_1")])
            i).program deployment)
          (.spawn ⟨0, 2⟩ :: steps ⟨0, 2⟩ 12) c).any
        (fun c => c.world.ledger.transactions.map (·.currentState) = [.RECONCILED])) = true := by
    decide +kernel
  rcases exists_reachable hrun with ⟨c, hreachable, hc⟩
  rw [Bool.and_eq_true, decide_eq_true_eq] at hc
  rcases Machine.exists_run_of_runActs hc.right with ⟨c', hrun', hc'⟩
  exact ⟨c, c', hc.left, of_decide_eq_true hc', records_kept hreachable hrun'⟩

end System

end PaymentOrchestration
