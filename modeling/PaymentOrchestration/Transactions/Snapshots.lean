import PaymentOrchestration.Books.Replay
import PaymentOrchestration.Books.Refinement
import PaymentOrchestration.Scenario

/-!
This module is about the rows that `create` hands out and caches. They are copies, the row in the
table goes on to change, and the audit log tells how far it has got since.
-/

namespace PaymentOrchestration

open StateMachine

/--
The row `now` once was `t`: its first transitions make `t`, all of them make `now`.
-/
structure Earlier (auditLog : List AuditLog) (t now : Transaction) : Prop where
  identity : now.identity = t.identity
  replays : ∃ primary past later, transitionsOf t.id auditLog = past ++ later ∧
    Replays primary past t ∧ Replays primary (past ++ later) now
  gatewayTxnId : Settled t.currentState → now.gatewayTxnId = t.gatewayTxnId

namespace Replays

variable {primary : GatewayProvider} {past later : List AuditLog} {t now : Transaction}

theorem later_path (h : Replays primary past t) (hnow : Replays primary (past ++ later) now)
    : EdgePath Valid t.currentState (later.filterMap AuditLog.edge?) now.currentState := by
  have hpath := hnow.path
  rw [List.filterMap_append] at hpath
  exact hpath.rest h.path

theorem exists_success (h : Replays primary past t) (hsettled : Settled t.currentState)
    : ∃ row ∈ past, row.toState = .SUCCESS := by
  -- Only SUCCESS leads to RECONCILED.
  have hclosed : ∀ a b, ¬Settled a → Valid a b ∧ b ≠ .SUCCESS → ¬Settled b := by
    intro a b ha hb
    rintro (hb' | hb')
    . exact hb.right hb'
    . subst hb'
      have hvalid := hb.left
      cases a <;> simp [Valid, VALID_TRANSITIONS] at hvalid
      exact ha (.inl rfl)
  by_contra hno
  have hedges : ∀ e ∈ past.filterMap AuditLog.edge?, e.2 ≠ .SUCCESS := by
    intro e he hsuccess
    rw [List.mem_filterMap] at he
    rcases he with ⟨row, hrow, hedge⟩
    unfold AuditLog.edge? at hedge
    rw [Option.map_eq_some_iff] at hedge
    rcases hedge with ⟨fromState, _, hedge⟩
    rw [← hedge] at hsuccess
    exact hno ⟨row, hrow, hsuccess⟩
  have hstart : ¬Settled .INITIATED := by
    rintro (h | h) <;> cases h
  have hpath : EdgePath (fun a b => Valid a b ∧ b ≠ .SUCCESS) .INITIATED
      (past.filterMap AuditLog.edge?) t.currentState := by
    exact h.path.and hedges
  exact (hpath.mem_of_closed hclosed hstart).left hsettled

end Replays

namespace Earlier

variable {auditLog : List AuditLog} {t now : Transaction}

theorem settled (h : Earlier auditLog t now) (ht : Settled t.currentState)
    : Settled now.currentState := by
  rcases h.replays with ⟨primary, past, later, _, hpast, hnow⟩
  exact ((hpast.later_path hnow).mem_of_closed settled_closed ht).left

-- A payment in a state without a way out has not changed since.
theorem eq_of_terminal (h : Earlier auditLog t now) (ht : VALID_TRANSITIONS t.currentState = [])
    : now.currentState = t.currentState ∧ now.attemptCount = t.attemptCount := by
  rcases h.replays with ⟨primary, past, later, hlog, hpast, hnow⟩
  have hpath := hpast.later_path hnow
  have hlater : later = [] := by
    rcases later with _ | ⟨row, later⟩
    . rfl
    . have hrow : row.fromState.isSome := by
        apply @isSome_of_mem_transitionsOf t.id auditLog
        simp [hlog]
      rcases Option.isSome_iff_exists.mp hrow with ⟨fromState, hfrom⟩
      rw [List.filterMap_cons_some (by simp [AuditLog.edge?, hfrom]; rfl)] at hpath
      have hvalid := hpath.right.left
      rw [hpath.left, Valid, ht] at hvalid
      cases hvalid
  subst hlater
  refine ⟨hpath.symm, ?_⟩
  rw [hnow.attempts, hpast.attempts, List.append_nil]

theorem attemptCount_le (h : Earlier auditLog t now) : t.attemptCount ≤ now.attemptCount := by
  rcases h.replays with ⟨primary, past, later, _, hpast, hnow⟩
  rw [hpast.attempts, hnow.attempts, List.filter_append, List.length_append]
  exact Nat.le_add_right _ _

end Earlier

/--
A call of `create` that is in this phase hands out the row `t`.
-/
def Role.HandsOut (role : Role) (t : Transaction) : Prop :=
  match role with
  | .creating _ (.found u) | .creating _ (.cached u) | .creating _ (.settled _ u) => t = u
  | _ => False

theorem Role.not_handsOut_abort (role : Role) (t : Transaction) : ¬role.abort.HandsOut t := by
  cases role <;> exact id

theorem Role.HandsOut.of_mayWrite {role : Role} {key : String} {t : Transaction}
    (h : role.mayWrite key (.completed t)) : role.HandsOut t := by
  unfold Role.mayWrite at h
  dsimp only at h
  split at h
  . exact h.left.symm
  . exact h.left.symm
  . exact h.elim

theorem Permit.handsOut_advance {D : Deployment} {role : Role} {step : TransitionStep}
    {t : Transaction} (h : Permit D role step) (ht : (role.advance step.result).HandsOut t)
    : t = step.result := by
  cases h with
  | succeed | fail => exact ht
  | _ => exact ht.elim

namespace Books

variable {D : Deployment} {tasks : Pid → Task} {b b' : Books}

/--
The table has or had `t` as a row.
-/
structure Had (b : Books) (t : Transaction) : Prop where
  replays : ∃ i row primary past, .inserted i row ∈ b.history ∧ row.id = t.id ∧
    row.selectedGateway = some primary ∧ past <+: transitionsOf t.id b.auditLog ∧
    Replays primary past t
  known : b.Known t
  gatewayTxnId : Settled t.currentState →
    ∀ now ∈ b.transactions, now.id = t.id → now.gatewayTxnId = t.gatewayTxnId

theorem Had.of_mem (hinv : b.Inv) (h : b.Audited) {t : Transaction} (ht : t ∈ b.transactions)
    : b.Had t := by
  rcases h.replays t ht with ⟨i, row, primary, hrow, hid, hprimary, hreplays⟩
  refine ⟨⟨i, row, primary, _, hrow, hid, hprimary, List.prefix_refl _, hreplays⟩,
    known_of_mem ht, ?_⟩
  intro _ now hnow hid'
  rw [hinv.eq_of_id hnow ht hid']

theorem Had.step (hinv : b.Inv) (haudited : b.Audited) (hstep : b.Step D b') {t : Transaction}
    (h : b.Had t) : b'.Had t := by
  rcases h.replays with ⟨i, row, primary, past, hrow, hid, hprimary, hpast, hreplays⟩
  rcases hstep.history_append with ⟨events, hhistory⟩
  rcases hstep.auditLog_append with ⟨audits, haudits⟩
  refine ⟨⟨i, row, primary, past, ?_, hid, hprimary, ?_, hreplays⟩,
    hstep.known_mono hinv h.known, ?_⟩
  . rw [hhistory]
    exact List.mem_append_left _ hrow
  . apply hpast.trans
    rw [haudits, transitionsOf, transitionsOf, List.filter_append]
    exact List.prefix_append _ _
  . intro hsettled now hnow hid'
    rcases h.known.exists_row with ⟨old, hold, hidentity⟩
    simp only [Transaction.identity, Prod.mk.injEq] at hidentity
    rcases hreplays.exists_success hsettled with ⟨audit, haudit, hsuccess⟩
    rw [hstep.gatewayTxnId_eq hinv haudited hold hnow (hid'.trans hidentity.left.symm)]
    . exact h.gatewayTxnId hsettled old hold hidentity.left
    . rw [hidentity.left]
      exact ⟨audit, hpast.subset haudit, hsuccess⟩

/--
What is cached as completed and what a call hands out was a row of the table.
-/
structure Copied (b : Books) : Prop where
  stored : ∀ key t, b.completed key t → b.Had t
  role : ∀ i t, (b.role i).HandsOut t → b.Had t

theorem Copied.of_setRole {i : Pid} {role : Role} (h : b.Copied)
    (hhad : ∀ t, b.Had t → b'.Had t) (hrole' : b'.role = Function.update b.role i role)
    (hstored : ∀ key t, b'.completed key t → b.completed key t)
    (hrole : ∀ t, role.HandsOut t → b'.Had t) : b'.Copied := by
  refine ⟨fun key t ht => hhad t (h.stored key t (hstored key t ht)), ?_⟩
  intro j t
  rw [hrole']
  by_cases hj : j = i
  . subst hj
    rw [Function.update_self]
    exact hrole t
  . rw [Function.update_of_ne hj]
    exact fun ht => hhad t (h.role j t ht)

theorem Step.copied (hinv : b.Inv) (haudited : b.Audited) (hstep : b.Step D b') (h : b.Copied)
    : b'.Copied := by
  have hhad : ∀ t, b.Had t → b'.Had t := fun t => .step hinv haudited hstep
  have hrows : ∀ t ∈ b'.transactions, b'.Had t := by
    intro t
    exact .of_mem (hstep.inv hinv) (hstep.audited hinv haudited)
  cases hstep with
  | forget completed hcompleted =>
    exact ⟨fun key t ht => hhad t (h.stored key t (hcompleted key t ht)),
      fun i t ht => hhad t (h.role i t ht)⟩
  | store i completed hcompleted =>
    refine ⟨?_, fun j t ht => hhad t (h.role j t ht)⟩
    intro key t ht
    rcases hcompleted key t ht with ht | hwrite
    . exact hhad t (h.stored key t ht)
    . exact hhad t (h.role i t (.of_mayWrite hwrite))
  | hit i dto key t hrole hkey hcompleted =>
    refine h.of_setRole hhad rfl (fun _ _ ht => ht) ?_
    intro t' ht'
    rw [show t' = t from ht']
    exact hhad t (h.stored key t hcompleted)
  | find i conditions row hfind hsome hnone =>
    refine h.of_setRole hhad rfl (fun _ _ ht => ht) ?_
    intro t ht
    rcases hfind with ⟨dto, hrole, _⟩ | ⟨event, x, hrole, _⟩
    . rw [hrole] at ht
      cases row with
      | none => exact ht.elim
      | some t' =>
        rw [show t = t' from ht]
        exact hrows t' (hsome t' rfl).left
    . rw [hrole] at ht
      cases row <;> exact ht.elim
  | insert i dto g fb row role hrole hnodup hrow hid hkey hrole' =>
    refine h.of_setRole hhad rfl (fun _ _ ht => ht) ?_
    intro t ht
    rcases hrole' with hrole' | hrole'
    all_goals
      subst hrole'
      exact ht.elim
  | commit i step createdAt role hpermit hrow hrole' =>
    refine h.of_setRole hhad rfl (fun _ _ ht => ht) ?_
    intro t ht
    rcases hrole' with hrole' | hrole'
    . rw [hrole'] at ht
      rw [hpermit.handsOut_advance ht]
      apply hrows
      exact mem_writeRow_self hrow TransitionStep.result_id.symm
    . rw [hrole'] at ht
      exact absurd ht (Role.not_handsOut_abort _ t)
  | load i event => exact h.of_setRole hhad rfl (fun _ _ ht => ht) (fun t ht => ht.elim)
  | charge i dto row g fb => exact h.of_setRole hhad rfl (fun _ _ ht => ht) (fun t ht => ht.elim)
  | answer i dto row g fb n charge response hrole =>
    refine h.of_setRole hhad rfl (fun _ _ ht => ht) ?_
    intro t ht
    rw [hrole] at ht
    simp only [Role.raced] at ht
    split at ht <;> exact ht.elim
  | threw i dto row g fb n =>
    exact h.of_setRole hhad rfl (fun _ _ ht => ht) (fun t ht => ht.elim)
  | timeout i dto row g fb n =>
    exact h.of_setRole hhad rfl (fun _ _ ht => ht) (fun t ht => ht.elim)
  | abort i =>
    refine h.of_setRole hhad rfl (fun _ _ ht => ht) ?_
    intro t ht
    exact absurd ht (Role.not_handsOut_abort _ t)
  | _ =>
    exact ⟨fun key t ht => hhad t (h.stored key t ht), fun i t ht => hhad t (h.role i t ht)⟩

theorem Start.copied (h : b.Start tasks) : b.Copied := by
  refine ⟨fun key t ht => absurd ht (h.completed key t), ?_⟩
  intro i t
  rw [h.role]
  cases tasks i <;> exact fun ht => ht.elim

theorem Reachable.copied (h : b.Reachable D tasks) : b.Copied := by
  rcases h with ⟨b₀, hstart, hrun⟩
  induction hrun with
  | refl => exact hstart.copied
  | tail hrun hstep ih =>
    exact hstep.copied (Reachable.inv ⟨b₀, hstart, hrun⟩) (Reachable.audited ⟨b₀, hstart, hrun⟩) ih

theorem Reachable.exists_now (h : b.Reachable D tasks) {t : Transaction} (ht : b.Had t)
    : ∃ now ∈ b.transactions, Earlier b.auditLog t now := by
  rcases ht.known.exists_row with ⟨now, hnow, hidentity⟩
  have hidentity' := hidentity
  simp only [Transaction.identity, Prod.mk.injEq] at hidentity'
  refine ⟨now, hnow, hidentity, ?_, ?_⟩
  . rcases ht.replays with ⟨i, row, primary, past, hrow, hid, hprimary, ⟨later, hlater⟩, hpast⟩
    rcases h.audited.replays now hnow with ⟨j, row', primary', hrow', hid', hprimary', hreplays⟩
    rw [hidentity'.left] at hid' hreplays
    -- Both start from the row that was inserted under this id.
    have hkey := h.inv.key_eq_of_id (h.told.known hrow) (h.told.known hrow') (hid.trans hid'.symm)
    rw [(h.told.inserted_inj h.inv hrow hrow' hkey).right, hprimary'] at hprimary
    injection hprimary with hprimary
    subst hprimary
    rw [← hlater] at hreplays
    exact ⟨primary', past, later, hlater.symm, hpast, hreplays⟩
  . intro hsettled
    exact ht.gatewayTxnId hsettled now hnow hidentity'.left

theorem Copied.had_of_finish (h : b.Copied) {i : Pid} {dto : CreateTransactionDto}
    {t : Transaction} {tx : TxPhase} (htask : tasks i = .create dto)
    (hfinish : (tasks i).finish (.ok (.transaction t)) ⟨b.role i, tx⟩) : b.Had t := by
  rw [htask] at hfinish
  rcases hfinish with ⟨_, phase, hrole, hreply⟩
  dsimp only at hrole
  apply h.role i
  rw [hrole]
  rcases hreply _ rfl with ⟨t', ht', hphase⟩
  injection ht' with ht'
  subst ht'
  rcases hphase with hphase | hphase | ⟨row, hphase⟩
  all_goals
    subst hphase
    rfl

end Books

/--
The answer `t` still holds of the table: it is an earlier content of its row, and where it was
final the row has not gone back on it.
-/
structure Holds (ledger : Ledger) (t : Transaction) : Prop where
  now : ∃ now ∈ ledger.transactions, Earlier ledger.auditLog t now ∧
    t.attemptCount ≤ now.attemptCount ∧
    (t.currentState = .FAILED → now.currentState = .FAILED) ∧
    (Settled t.currentState →
      Settled now.currentState ∧ now.gatewayTxnId = t.gatewayTxnId)

theorem Holds.of_earlier {ledger : Ledger} {t now : Transaction} (hnow : now ∈ ledger.transactions)
    (h : Earlier ledger.auditLog t now) : Holds ledger t := by
  refine ⟨now, hnow, h, h.attemptCount_le, ?_, fun ht => ⟨h.settled ht, h.gatewayTxnId ht⟩⟩
  intro ht
  rw [(h.eq_of_terminal (by rw [ht]; rfl)).left, ht]

namespace System

variable {D : Deployment} {tasks : Pid → Task}

def Returned (tasks : Pid → Task) (c : System D) (t : Transaction) : Prop :=
  ∃ i dto, tasks i = .create dto ∧ (c.pool i).result = some (.ok (.transaction t))

/--
No answer is taken back: what calls of `create` have returned and what a replay would return holds,
and no two answers for one payment contradict each other.
-/
structure AnswersHold (tasks : Pid → Task) (c : System D) : Prop where
  stored : ∀ key t, c.world.completed key t → Holds c.world.ledger t
  returned : ∀ t, c.Returned tasks t → Holds c.world.ledger t
  agree : ∀ t t', c.Returned tasks t → c.Returned tasks t' → t.id = t'.id →
    t.currentState = .FAILED → ¬Settled t'.currentState

theorem Described.exists_now {c : System D} {b : Books} (hdescribed : Described tasks c b)
    (hb : b.Reachable D tasks) {t : Transaction} (ht : b.Had t)
    : ∃ now ∈ c.world.ledger.transactions, Earlier c.world.ledger.auditLog t now := by
  have hnow := hb.exists_now ht
  rw [hdescribed.transactions, hdescribed.auditLog] at hnow
  exact hnow

theorem Described.had_of_returned {c : System D} {b : Books} (hdescribed : Described tasks c b)
    (hb : b.Reachable D tasks) {t : Transaction} (ht : c.Returned tasks t) : b.Had t := by
  rcases ht with ⟨i, dto, htask, ht⟩
  rcases hdescribed.finish i _ ht with ⟨tx, hfinish⟩
  exact hb.copied.had_of_finish htask hfinish

theorem answers_hold {c : System D} (h : c.Reachable D tasks) : c.AnswersHold tasks := by
  rcases h.exists_books with ⟨b, hb, hdescribed⟩
  refine ⟨?_, ?_, ?_⟩
  . intro key t ht
    have hstored : b.completed key t := by
      rw [hdescribed.books]
      exact ht
    rcases hdescribed.exists_now hb (hb.copied.stored key t hstored) with ⟨now, hnow, hearlier⟩
    exact .of_earlier hnow hearlier
  . intro t ht
    rcases hdescribed.exists_now hb (hdescribed.had_of_returned hb ht) with ⟨now, hnow, hearlier⟩
    exact .of_earlier hnow hearlier
  . intro t t' ht ht' hid hfailed hsettled
    rcases hdescribed.exists_now hb (hdescribed.had_of_returned hb ht) with ⟨now, hnow, hearlier⟩
    rcases hdescribed.exists_now hb (hdescribed.had_of_returned hb ht') with
      ⟨now', hnow', hearlier'⟩
    have hsame : now = now' := by
      have hinv := hb.inv
      rw [hdescribed.books] at hinv
      have hidentity := hearlier.identity
      have hidentity' := hearlier'.identity
      simp only [Transaction.identity, Prod.mk.injEq] at hidentity hidentity'
      apply hinv.eq_of_id hnow hnow'
      rw [hidentity.left, hidentity'.left, hid]
    subst hsame
    have hstate := (hearlier.eq_of_terminal (by rw [hfailed]; rfl)).left
    rcases hearlier'.settled hsettled with hnow | hnow
    . rw [hstate, hfailed] at hnow
      cases hnow
    . rw [hstate, hfailed] at hnow
      cases hnow

/--
The call has returned SUCCESS, a webhook has taken the row to RECONCILED since.
-/
theorem answers_hold_reconciled
    : ∃ c : System Scenario.deployment,
        c.world.ledger.transactions.map (·.currentState) = [.RECONCILED] ∧
        Scenario.returns ⟨0, 0⟩ .SUCCESS c = true ∧
        c.AnswersHold (Scenario.tasks
          (Scenario.webhook "PAYMENT_SUCCESS" [("upi_txn_id", .str "upi_1")])) := by
  have hrun : (Scenario.outcome
      (Scenario.tasks (Scenario.webhook "PAYMENT_SUCCESS" [("upi_txn_id", .str "upi_1")]))
      (Scenario.upToCharge ⟨0, 0⟩ "txn-1" ++
        [Scenario.settle 0 (.answered (Scenario.accepted "upi_1"))] ++
        Scenario.steps ⟨0, 0⟩ 12 ++ Scenario.deliver ++
        .spawn ⟨0, 2⟩ :: Scenario.steps ⟨0, 2⟩ 12)).any
      (fun c => decide (c.world.ledger.transactions.map (·.currentState) = [.RECONCILED]) &&
        Scenario.returns ⟨0, 0⟩ .SUCCESS c) = true := by
    decide +kernel
  rcases Scenario.exists_reachable hrun with ⟨c, hreachable, hstate⟩
  rw [Bool.and_eq_true, decide_eq_true_eq] at hstate
  exact ⟨c, hstate.left, hstate.right, answers_hold hreachable⟩

end System

end PaymentOrchestration
