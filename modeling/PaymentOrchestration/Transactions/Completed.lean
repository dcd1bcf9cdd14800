import PaymentOrchestration.Books.Lookups
import PaymentOrchestration.Books.Refinement
import PaymentOrchestration.Books.WorkerTrail
import PaymentOrchestration.Scenario

/-!
This module is about what `create` returns and caches as completed. Two of its four writes take the
row as the database holds it at that moment.
-/

namespace PaymentOrchestration

open StateMachine

variable {D : Deployment} {tasks : Pid → Task}

/--
A call of `create` that looks its key up finds a payment that is settled, or none.
-/
def FindsFinal (tasks : Pid → Task) (_ : List Event) (i : Pid) (_ : List TxnWhere)
    (t : Transaction) : Prop :=
  ∀ dto, (tasks i).dto = some dto → t.currentState.final = true

/--
The payment a call is about to return, or to cache, is settled.
-/
def Role.Final (role : Role) : Prop :=
  match role with
  | .creating _ (.found t) | .creating _ (.cached t) | .creating _ (.settled _ t) =>
    t.currentState.final = true
  | _ => True

theorem Role.final_abort (role : Role) : role.abort.Final := by
  cases role <;> trivial

theorem Role.Final.of_mayWrite {role : Role} {key : String} {t : Transaction} (h : role.Final)
    (hwrite : role.mayWrite key (.completed t)) : t.currentState.final = true := by
  unfold Role.mayWrite at hwrite
  dsimp only at hwrite
  split at hwrite
  . rw [← hwrite.left]
    exact h
  . rw [← hwrite.left]
    exact h
  . exact hwrite.elim

-- The loop is left by a transition to SUCCESS or to FAILED only.
theorem Permit.final_advance {role : Role} {step : TransitionStep} (h : Permit D role step)
    : (role.advance step.result).Final := by
  cases h with
  | succeed | fail => rfl
  | _ => trivial

namespace Books

variable {b b' : Books}

structure Completed (b : Books) : Prop where
  stored : ∀ key t, b.completed key t → t.currentState.final = true
  role : ∀ i, (b.role i).Final

theorem Completed.of_setRole {i : Pid} {role : Role} (h : b.Completed)
    (hrole' : b'.role = Function.update b.role i role)
    (hstored : ∀ key t, b'.completed key t → b.completed key t) (hrole : role.Final)
    : b'.Completed := by
  refine ⟨fun key t ht => h.stored key t (hstored key t ht), ?_⟩
  intro j
  rw [hrole']
  by_cases hj : j = i
  . subst hj
    simpa using hrole
  . rw [Function.update_of_ne hj]
    exact h.role j

theorem Step.completed (htraced : b.Traced D tasks) (hstep : b.Step D b')
    (hfinds : Finds (FindsFinal tasks) b'.history) (h : b.Completed) : b'.Completed := by
  cases hstep with
  | forget completed hcompleted =>
    exact ⟨fun key t ht => h.stored key t (hcompleted key t ht), h.role⟩
  | store i completed hcompleted =>
    refine ⟨?_, h.role⟩
    intro key t ht
    rcases hcompleted key t ht with ht | hwrite
    . exact h.stored key t ht
    . exact (h.role i).of_mayWrite hwrite
  | hit i dto key t hrole hkey hcompleted =>
    exact h.of_setRole rfl (fun _ _ ht => ht) (h.stored key t hcompleted)
  | find i conditions row hfind hsome hnone =>
    refine h.of_setRole rfl (fun _ _ ht => ht) ?_
    rcases hfind with ⟨dto, hrole, _⟩ | ⟨event, x, hrole, _⟩
    . rw [hrole]
      cases row with
      | none => trivial
      | some t =>
        have hdto : (tasks i).dto = some dto := by
          rw [← htraced.dto i, hrole]
          rfl
        exact hfinds b.history [] i conditions t rfl dto hdto
    . rw [hrole]
      cases row <;> trivial
  | insert i dto g fb row role hrole hnodup hrow hid hkey hrole' =>
    refine h.of_setRole rfl (fun _ _ ht => ht) ?_
    rcases hrole' with hrole' | hrole'
    all_goals
      subst hrole'
      trivial
  | commit i step createdAt role hpermit hrow hrole' =>
    refine h.of_setRole rfl (fun _ _ ht => ht) ?_
    rcases hrole' with hrole' | hrole'
    . rw [hrole']
      exact hpermit.final_advance
    . rw [hrole']
      exact Role.final_abort _
  | load i event => exact h.of_setRole rfl (fun _ _ ht => ht) trivial
  | charge i dto row g fb => exact h.of_setRole rfl (fun _ _ ht => ht) trivial
  | answer i dto row g fb n charge response hrole =>
    refine h.of_setRole rfl (fun _ _ ht => ht) ?_
    rw [hrole]
    simp only [Role.raced]
    split <;> trivial
  | threw i dto row g fb n => exact h.of_setRole rfl (fun _ _ ht => ht) trivial
  | timeout i dto row g fb n => exact h.of_setRole rfl (fun _ _ ht => ht) trivial
  | abort i => exact h.of_setRole rfl (fun _ _ ht => ht) (Role.final_abort _)
  | _ => exact ⟨h.stored, h.role⟩

theorem Start.completed_of_start (h : b.Start tasks) : b.Completed := by
  refine ⟨fun key t ht => absurd ht (h.completed key t), ?_⟩
  intro i
  rw [h.role]
  cases tasks i <;> trivial

theorem Reachable.completed (h : b.Reachable D tasks) (hfinds : Finds (FindsFinal tasks) b.history)
    : b.Completed := by
  rcases h with ⟨b₀, hstart, hrun⟩
  induction hrun with
  | refl => exact hstart.completed_of_start
  | tail hrun hstep ih =>
    rcases hstep.history_append with ⟨events, hhistory⟩
    have htraced := Reachable.traced ⟨b₀, hstart, hrun⟩
    apply hstep.completed htraced hfinds
    rw [hhistory] at hfinds
    exact ih hfinds.of_append

theorem Completed.final_of_finish (h : b.Completed) {i : Pid} {dto : CreateTransactionDto}
    {t : Transaction} {tx : TxPhase} (htask : tasks i = .create dto)
    (hfinish : (tasks i).finish (.ok (.transaction t)) ⟨b.role i, tx⟩)
    : t.currentState.final = true := by
  rw [htask] at hfinish
  rcases hfinish with ⟨_, phase, hrole, hreply⟩
  have hfinal := h.role i
  dsimp only at hrole
  rw [hrole] at hfinal
  rcases hreply _ rfl with ⟨t', ht', hphase⟩
  injection ht' with ht'
  subst ht'
  rcases hphase with hphase | hphase | ⟨row, hphase⟩
  all_goals
    subst hphase
    exact hfinal

end Books

namespace System

/--
What is stored as completed and what a call of `create` returns is settled.
-/
structure CompletedFinal (tasks : Pid → Task) (c : System D) : Prop where
  stored : ∀ key t, c.world.completed key t → t.currentState.final = true
  returned : ∀ i dto t, tasks i = .create dto →
    (c.pool i).result = some (.ok (.transaction t)) → t.currentState.final = true

theorem completed_final {c : System D} (h : c.ReachableBy D tasks (Lookups (FindsFinal tasks)))
    : c.CompletedFinal tasks := by
  rcases h.reachable.exists_books with ⟨b, hb, hdescribed⟩
  have hfinds : Finds (FindsFinal tasks) b.history := by
    rw [hdescribed.books]
    exact h.finds
  have hcompleted := hb.completed hfinds
  refine ⟨?_, ?_⟩
  . intro key t ht
    apply hcompleted.stored key t
    rw [hdescribed.books]
    exact ht
  . intro i dto t htask ht
    rcases hdescribed.finish i _ ht with ⟨tx, hfinish⟩
    exact hcompleted.final_of_finish htask hfinish

/--
A call finds the settled payment of an earlier one after Redis has lost the key.
-/
theorem completed_final_replayed
    : ∃ c : System Scenario.deployment,
        ((c.pool ⟨1, 0⟩).result.isSome) = true ∧
        c.CompletedFinal (fun _ => .create Scenario.order) := by
  have hcheck : ∀ (history : List Event) (i : Pid) (conditions : List TxnWhere) (t : Transaction),
      t.currentState.final = true →
      FindsFinal (fun _ => .create Scenario.order) history i conditions t := by
    intro history i conditions t ht _ _
    exact ht
  have hrun : (Scenario.outcomeIf (lookups (fun _ _ _ t => t.currentState.final))
      (fun _ => .create Scenario.order)
      (Scenario.upToCharge ⟨0, 0⟩ "txn-1" ++
        Scenario.settle 0 (.answered (Scenario.accepted "upi_1")) :: Scenario.steps ⟨0, 0⟩ 12 ++
        [.env (.lose "idempotency:order-7"), .spawn ⟨1, 0⟩] ++ Scenario.steps ⟨1, 0⟩ 5)).any
      (fun c => (c.pool ⟨1, 0⟩).result.isSome) = true := by
    decide +kernel
  rcases Scenario.exists_reachableBy (lookups_of_check hcheck) hrun with ⟨c, hreachable, hresult⟩
  exact ⟨c, hresult, completed_final hreachable⟩

/--
The first call loses its connection before the first transition and cleans up, and the retry is
answered with the new row it has left behind.
-/
theorem retry_completed_initiated
    : ∃ c : System Scenario.deployment,
        c.Reachable Scenario.deployment (fun _ => .create Scenario.order) ∧
        ¬c.CompletedFinal (fun _ => .create Scenario.order) := by
  have hrun : (Scenario.outcome (fun _ => .create Scenario.order)
      (.spawn ⟨0, 0⟩ :: Scenario.steps ⟨0, 0⟩ 4 ++
        .run ⟨0, 0⟩ { id := "txn-1" } :: Scenario.steps ⟨0, 0⟩ 1 ++
        .run ⟨0, 0⟩ { fault := .before } :: Scenario.steps ⟨0, 0⟩ 3 ++
        .spawn ⟨1, 0⟩ :: Scenario.steps ⟨1, 0⟩ 5)).any
      (fun c => Scenario.returns ⟨1, 0⟩ .INITIATED c) = true := by
    decide +kernel
  rcases Scenario.exists_reachable hrun with ⟨c, hreachable, hreturns⟩
  rcases Scenario.exists_returned hreturns with ⟨t, ht, hstate⟩
  refine ⟨c, hreachable, fun h => ?_⟩
  have := h.returned ⟨1, 0⟩ Scenario.order t rfl ht
  rw [hstate] at this
  cases this

end System

end PaymentOrchestration
