import PaymentOrchestration.Books.History
import PaymentOrchestration.Books.Refinement
import PaymentOrchestration.Scenario

/-!
This module shows that `create` is idempotent: however many calls carry one key and however they
interleave, expire, crash or lose what is cached, there is one payment behind it.
-/

namespace PaymentOrchestration

-- The key that a call of `create` carries.
def Task.key (task : Task) : Option String :=
  task.dto.map CreateTransactionDto.idempotencyKey

namespace Books

variable {D : Deployment} {tasks : Pid → Task} {b : Books}

-- Only one process charges on behalf of a key, the one whose insert succeeded.
theorem Reachable.pid_eq_of_key (h : b.Reachable D tasks) {charge charge' : Charge}
    (hcharge : charge ∈ b.charges) (hcharge' : charge' ∈ b.charges)
    (hkey : (tasks charge.pid).key = (tasks charge'.pid).key) : charge.pid = charge'.pid := by
  rcases h.exists_owning (h.told.mem_charges hcharge) with ⟨dto, row, hdto, hrow, _, howning⟩
  rcases h.exists_owning (h.told.mem_charges hcharge') with ⟨dto', row', hdto', hrow', _, howning'⟩
  simp only [Task.key, hdto, hdto', Option.map_some, Option.some.injEq] at hkey
  have hkeys : row.idempotencyKey = row'.idempotencyKey := by
    rw [howning.key, howning'.key, hkey]
  exact (h.told.inserted_inj h.inv hrow hrow' hkeys).left

theorem Reachable.length_charges_le (h : b.Reachable D tasks) (i : Pid) (g : GatewayProvider)
    : (b.charges.filter (fun charge => charge.pid = i ∧ charge.gateway = g)).length ≤ 1 := by
  have hnodup : ((chargesOf (b.trail i).events).map Prod.fst).Nodup := by
    by_cases hne : chargesOf (b.trail i).events = []
    . simp [hne]
    . have htrail := h.traced.trail_inv i
      rcases htrail.exists_owning (htrail.inserts_ne_nil hne) with ⟨dto, row, _, howning⟩
      simpa using howning.nodup
  have hcount := List.nodup_iff_count_le_one.mp hnodup g
  rw [h.told.charges_trail, List.map_map, List.count_eq_countP, List.countP_map,
    List.countP_filter, List.countP_eq_length_filter] at hcount
  have hfilter : b.charges.filter (fun charge => charge.pid = i ∧ charge.gateway = g) =
      b.charges.filter (fun charge =>
        ((· == g) ∘ Prod.fst ∘ fun charge : Charge => (charge.gateway, charge.request)) charge &&
          decide (charge.pid = i)) := by
    apply List.filter_congr
    intro charge _
    simp [and_comm, Bool.beq_eq_decide_eq]
  rw [hfilter]
  exact hcount

/--
At most one charge call is made at each gateway on behalf of a key.
-/
theorem Reachable.length_charges_of_key_le (h : b.Reachable D tasks) (key : String)
    (g : GatewayProvider)
    : (b.charges.filter
        (fun charge => (tasks charge.pid).key = some key ∧ charge.gateway = g)).length ≤ 1 := by
  rcases hcharges : b.charges.filter
      (fun charge => (tasks charge.pid).key = some key ∧ charge.gateway = g) with _ | ⟨charge, rest⟩
  . rw [hcharges]
    simp
  . have hcharge : charge ∈ b.charges.filter
        (fun charge => (tasks charge.pid).key = some key ∧ charge.gateway = g) := by
      rw [hcharges]
      exact List.mem_cons_self
    simp only [List.mem_filter, decide_eq_true_eq] at hcharge
    apply le_trans _ (h.length_charges_le charge.pid g)
    rw [← List.countP_eq_length_filter, ← List.countP_eq_length_filter]
    apply List.countP_mono_left
    intro charge' hcharge' hkey'
    simp only [decide_eq_true_eq] at hkey' ⊢
    have hkeys := hkey'.left.trans hcharge.right.left.symm
    exact ⟨h.pid_eq_of_key hcharge' hcharge.left hkeys, hkey'.right⟩

-- What a call of `create` returns is a snapshot of the row with its key.
theorem Reachable.known_of_finish (h : b.Reachable D tasks) {i : Pid} {key : String}
    {t : Transaction} {tx : TxPhase} (hkey : (tasks i).key = some key)
    (hfinish : (tasks i).finish (.ok (.transaction t)) ⟨b.role i, tx⟩)
    : b.Known t ∧ t.idempotencyKey = key := by
  have hsound := h.inv.role i
  cases htask : tasks i with
  | create dto =>
    rw [htask] at hfinish hkey
    rcases hfinish with ⟨_, phase, hrole, hreply⟩
    dsimp only at hrole
    rw [hrole] at hsound
    injection hkey with hkey
    rcases hreply _ rfl with ⟨t', ht', hphase⟩
    injection ht' with ht'
    subst ht'
    rcases hphase with hphase | hphase | ⟨row, hphase⟩
    . subst hphase
      exact ⟨hsound.left, hsound.right.trans hkey⟩
    . subst hphase
      exact ⟨hsound.left, hsound.right.trans hkey⟩
    . subst hphase
      rcases hsound with ⟨hknown, hidentity, hdto⟩
      refine ⟨by simpa [Known, hidentity] using hknown, ?_⟩
      simp only [Transaction.identity, Prod.mk.injEq] at hidentity
      rw [hidentity.right.left, hdto, ← hkey]
  | ingest event =>
    rw [htask] at hkey
    cases hkey
  | pollQueue =>
    rw [htask] at hkey
    cases hkey

end Books

namespace System

variable {D : Deployment} {tasks : Pid → Task}

/--
There is one payment behind a key, it is charged at most once at each gateway and every call that
returns normally returns it.
-/
structure Idempotent (tasks : Pid → Task) (key : String) (c : System D) : Prop where
  one_row : (c.world.ledger.transactions.filter (·.idempotencyKey = key)).length ≤ 1
  one_charge : ∀ g, (c.world.charges.filter
    (fun charge => (tasks charge.pid).key = some key ∧ charge.gateway = g)).length ≤ 1
  one_answer : ∀ i j t u, (tasks i).key = some key → (tasks j).key = some key →
    (c.pool i).result = some (.ok (.transaction t)) →
    (c.pool j).result = some (.ok (.transaction u)) → t.id = u.id

theorem create_idempotent {c : System D} (h : c.Reachable D tasks) (key : String)
    : c.Idempotent tasks key := by
  rcases h.exists_books with ⟨b, hb, hdescribed⟩
  have hbooks := hdescribed.books
  refine ⟨?_, ?_, ?_⟩
  . have hkeys := List.nodup_iff_count_le_one.mp hb.inv.keys key
    rw [hbooks, List.count_eq_countP, List.countP_map, List.countP_eq_length_filter] at hkeys
    simpa [World.books, Function.comp_def, Bool.beq_eq_decide_eq] using hkeys
  . intro g
    have := hb.length_charges_of_key_le key g
    rw [hbooks] at this
    exact this
  . intro i j t u hi hj ht hu
    rcases hdescribed.finish i _ ht with ⟨tx, hfinish⟩
    rcases hdescribed.finish j _ hu with ⟨tx', hfinish'⟩
    rcases hb.known_of_finish hi hfinish with ⟨hknown, hkey⟩
    rcases hb.known_of_finish hj hfinish' with ⟨hknown', hkey'⟩
    exact hb.inv.id_eq_of_key hknown hknown' (hkey.trans hkey'.symm)

/--
Two calls with one key. The second one is answered from the cache.
-/
theorem create_idempotent_twice
    : ∃ c : System Scenario.deployment,
        ((c.pool ⟨0, 0⟩).result.isSome && (c.pool ⟨1, 0⟩).result.isSome) = true ∧
        c.Idempotent (fun _ => .create Scenario.order) "order-7" := by
  have hrun : (Scenario.outcome (fun _ => .create Scenario.order)
      (Scenario.upToCharge ⟨0, 0⟩ "txn-1" ++
        [Scenario.settle 0 (.answered (Scenario.accepted "upi_1"))] ++
        Scenario.steps ⟨0, 0⟩ 12 ++ .spawn ⟨1, 0⟩ :: Scenario.steps ⟨1, 0⟩ 4)).any
      (fun c => (c.pool ⟨0, 0⟩).result.isSome && (c.pool ⟨1, 0⟩).result.isSome) = true := by
    decide +kernel
  rcases Scenario.exists_reachable hrun with ⟨c, hreachable, hresults⟩
  exact ⟨c, hresults, create_idempotent hreachable "order-7"⟩

end System

end PaymentOrchestration
