import PaymentOrchestration.Transactions.Idempotency

/-!
This module is about what a call of `create` confirms to its caller. The idempotency key is all that
an earlier payment is looked up by, so the answer is the payment of whoever has used the key first.
-/

namespace PaymentOrchestration

/--
The payment is the one that the request asks for.
-/
def Confirms (t : Transaction) (dto : CreateTransactionDto) : Prop :=
  t.merchantId = dto.merchantId ∧ t.amount = dto.amount ∧ t.currency = dto.currency

theorem Confirms.of_identity {t row : Transaction} {dto : CreateTransactionDto}
    (h : Confirms row dto) (hidentity : t.identity = row.identity) : Confirms t dto := by
  simp only [Transaction.identity, Prod.mk.injEq] at hidentity
  rcases hidentity with ⟨_, _, hmerchantId, hamount, hcurrency⟩
  unfold Confirms
  rw [hmerchantId, hamount, hcurrency]
  exact h

/--
The rows a process has inserted are what its request asks for.
-/
def Trail.Asked (trail : Trail) : Prop :=
  ∀ row ∈ insertsOf trail.events, ∃ dto, trail.role.dto = some dto ∧
    row.idempotencyKey = dto.idempotencyKey ∧ Confirms row dto

theorem Trail.Step.asked {D : Deployment} {i : Pid} {trail trail' : Trail}
    (hstep : Trail.Step D i trail trail') (h : trail.Asked) : trail'.Asked := by
  intro row hrow
  rw [hstep.dto]
  cases hstep with
  | insert events dto g fb row' role hnodup hrow' =>
    simp only [insertsOf_append, List.mem_append] at hrow
    rcases hrow with hrow | hrow
    . exact h row hrow
    . simp at hrow
      subst hrow
      refine ⟨dto, rfl, ?_⟩
      rw [hrow']
      exact ⟨rfl, rfl, rfl, rfl⟩
  | hit | race | abort => exact h row hrow
  | _ =>
    apply h row
    simpa using hrow

theorem Trail.Run.asked {D : Deployment} {i : Pid} {trail trail' : Trail}
    (hrun : Trail.Run D i trail trail') (h : trail.Asked) : trail'.Asked := by
  induction hrun with
  | refl => exact h
  | tail _ hstep ih => exact hstep.asked ih

namespace Books

variable {D : Deployment} {tasks : Pid → Task} {b : Books}

-- Every row has been inserted.
theorem Reachable.exists_inserted (h : b.Reachable D tasks) {t : Transaction} (ht : b.Known t)
    : ∃ j row, .inserted j row ∈ b.history ∧ t.identity = row.identity := by
  have hmem : some t.identity ∈ b.transactions.map (fun t => some t.identity) := by
    rw [Known, List.mem_map] at ht
    rcases ht with ⟨row, hrow, hidentity⟩
    exact List.mem_map.mpr ⟨row, hrow, by rw [hidentity]⟩
  rw [← h.told.inserted, List.mem_map] at hmem
  rcases hmem with ⟨event, hevent, hidentity⟩
  cases event with
  | inserted j row =>
    injection hidentity with hidentity
    exact ⟨j, row, List.mem_of_mem_filter hevent, hidentity.symm⟩
  | _ => cases hidentity

-- A row is that of the request that it was inserted for.
theorem Traced.confirms_inserted (h : b.Traced D tasks) {j : Pid} {row : Transaction}
    (hrow : .inserted j row ∈ b.history)
    : ∃ dto, tasks j = .create dto ∧ row.idempotencyKey = dto.idempotencyKey ∧
        Confirms row dto := by
  have hmem : row ∈ insertsOf (b.trail j).events := by
    unfold insertsOf
    rw [List.mem_filterMap]
    exact ⟨_, mem_trail hrow rfl, rfl⟩
  rcases (h.trail j).asked (by simp [Trail.Asked]) row hmem with ⟨dto, hdto, hconfirms⟩
  refine ⟨dto, ?_, hconfirms⟩
  have htask : (tasks j).dto = some dto := (h.dto j).symm.trans hdto
  cases htasks : tasks j with
  | create dto' =>
    rw [htasks] at htask
    injection htask with htask
    rw [htask]
  | _ =>
    rw [htasks] at htask
    cases htask

end Books

namespace System

variable {D : Deployment} {tasks : Pid → Task}

end System

namespace Scenario

end Scenario

namespace System

end System

end PaymentOrchestration
