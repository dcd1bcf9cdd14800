import PaymentOrchestration.Books.Refinement
import PaymentOrchestration.Books.Replay
import PaymentOrchestration.Scenario

/-!
This module shows that every charge has an audited attempt of its own, and that a payment that is
settled is charged no more, up to the one attempt that was under way.
-/

namespace PaymentOrchestration

-- The charge calls that were made for a payment.
def Event.chargeFor (id : String) (event : Event) : Bool :=
  event.charged?.any (fun charge => charge.2.transactionId = id)

def Event.attemptFor (id : String) (event : Event) : Bool :=
  event.committed?.any (fun audit => audit.transactionId = id ∧ audit.toState = .PROCESSING)

theorem Event.chargeFor_iff {id : String} {event : Event}
    : event.chargeFor id = true ↔
        ∃ i g request, event = .charged i g request ∧ request.transactionId = id := by
  cases event <;> simp [chargeFor]

theorem final_closed (a b : TransactionState) (ha : a.final = true) (h : Valid a b)
    : b.final = true := by
  revert ha h
  cases a <;> cases b <;> simp [Valid, VALID_TRANSITIONS, TransactionState.final]

namespace Books

variable {D : Deployment} {tasks : Pid → Task} {b : Books}

/--
Every charge for a payment comes after an attempt of its own.
-/
theorem Reachable.preceded (h : b.Reachable D tasks) (id : String)
    : Preceded (Event.chargeFor id) AttemptOf b.history := by
  by_cases hne : ∃ event ∈ b.history, event.chargeFor id = true
  . rcases hne with ⟨event, hevent, hfor⟩
    rcases Event.chargeFor_iff.mp hfor with ⟨i, g, request, heq, hid⟩
    subst heq
    rcases h.exists_owning hevent with ⟨dto, row, _, _, _, howning⟩
    apply Preceded.of_filter (q := fun event => event.pid = i)
    . intro event' hevent' hfor'
      rcases Event.chargeFor_iff.mp hfor' with ⟨j, g', request', heq, hid'⟩
      subst heq
      have := h.pid_eq_of_transactionId hevent' hevent (hid'.trans hid.symm)
      simp [Event.pid, this]
    . apply howning.preceded.mono
      intro event' hfor'
      rcases Event.chargeFor_iff.mp hfor' with ⟨j, g', request', heq, _⟩
      subst heq
      rfl
  . intro e₁ event e₂ heq hfor
    exact absurd ⟨event, by simp [heq], hfor⟩ hne

theorem Told.transitionsOf_eq (h : b.Told) (id : String)
    : transitionsOf id b.auditLog =
        (commitsOf b.history).filter (fun audit => audit.transactionId = id) := by
  rw [h.committed, List.filter_filter]
  unfold transitionsOf
  apply List.filter_congr
  intro audit _
  simp

theorem Told.mem_auditLog (h : b.Told) {i : Pid} {audit : AuditLog}
    (hevent : .committed i audit ∈ b.history) : audit ∈ b.auditLog := by
  have : audit ∈ commitsOf b.history := by
    unfold commitsOf
    rw [List.mem_filterMap]
    exact ⟨_, hevent, rfl⟩
  rw [h.committed] at this
  exact List.mem_of_mem_filter this

theorem Told.countP_chargeFor (h : b.Told) (id : String)
    : b.history.countP (Event.chargeFor id) =
        (b.charges.filter (·.request.transactionId = id)).length := by
  have hfilter : b.history.filter (Event.chargeFor id) =
      (b.history.filter (·.charged?.isSome)).filter (Event.chargeFor id) := by
    rw [List.filter_filter]
    apply List.filter_congr
    intro event _
    cases event <;> simp [Event.chargeFor]
  rw [List.countP_eq_length_filter, hfilter, h.charged, List.filter_map, List.length_map]
  rfl

theorem Told.countP_attemptFor (h : b.Told) (id : String)
    : b.history.countP (Event.attemptFor id) =
        ((transitionsOf id b.auditLog).filter (·.toState = .PROCESSING)).length := by
  rw [h.transitionsOf_eq, List.filter_filter, ← List.countP_eq_length_filter]
  unfold commitsOf
  rw [List.countP_filterMap]
  apply List.countP_congr
  intro event _
  cases event <;> simp [Event.attemptFor, and_comm]

theorem Reachable.length_charges_le_attemptCount (h : b.Reachable D tasks) {t : Transaction}
    (ht : t ∈ b.transactions)
    : (b.charges.filter (·.request.transactionId = t.id)).length ≤ t.attemptCount := by
  rcases h.audited.replays t ht with ⟨_, _, _, _, _, _, hreplays⟩
  rw [hreplays.attempts, ← h.told.countP_attemptFor, ← h.told.countP_chargeFor]
  apply (h.preceded t.id).countP_le
  intro y x hx hy
  rcases hy with ⟨i, audit, g, request, hy, hcharge, hattempt⟩
  subst hy hcharge
  have hid : request.transactionId = t.id := by
    simpa [Event.chargeFor] using hx
  simp [Event.attemptFor, Event.chargeFor, hattempt.transactionId, hattempt.toState, hid]

/--
A payment that is settled makes no attempts.
-/
theorem Reachable.not_attempt_of_final (h : b.Reachable D tasks) {n m : ℕ} {i j : Pid}
    {audit audit' : AuditLog} (hm : b.history[m]? = some (.committed i audit))
    (hn : b.history[n]? = some (.committed j audit')) (hlt : m < n)
    (hid : audit'.transactionId = audit.transactionId) (hfinal : audit.toState.final = true)
    : audit'.toState ≠ .PROCESSING := by
  have hsplit := eq_take_append_drop hm
  have htransitions := h.told.transitionsOf_eq audit.transactionId
  rw [hsplit, commitsOf_append, commitsOf_cons, List.filter_append] at htransitions
  simp only [Event.committed?, Option.toList_some, List.singleton_append, decide_true,
    List.filter_cons_of_pos] at htransitions
  have hmem : audit' ∈ (commitsOf (b.history.drop (m + 1))).filter
      (fun row => row.transactionId = audit.transactionId) := by
    rw [List.mem_filter, decide_eq_true_eq]
    refine ⟨?_, hid⟩
    unfold commitsOf
    rw [List.mem_filterMap]
    refine ⟨.committed j audit', ?_, rfl⟩
    apply List.mem_of_getElem? (i := n - (m + 1))
    rw [List.getElem?_drop, ← hn]
    congr 1
    omega
  have haudit := h.told.mem_auditLog (List.mem_of_getElem? hm)
  rcases List.mem_map.mp (h.audited.ids _ haudit) with ⟨t, ht, htid⟩
  rcases h.audited.replays t ht with ⟨_, _, primary, _, _, _, hreplays⟩
  rw [htid, htransitions] at hreplays
  have hrows : ∀ row ∈ transitionsOf audit.transactionId b.auditLog, row.fromState.isSome :=
    isSome_of_mem_transitionsOf
  rw [htransitions] at hrows
  have hclosed := hreplays.mem_of_closed (S := fun state => state.final = true) final_closed
    (hrows audit (by simp)) hfinal
  have hfrom : audit'.fromState.isSome := by
    apply hrows
    exact List.mem_append_right _ (List.mem_cons_of_mem _ hmem)
  have hfinal' := hclosed.right audit' hmem hfrom
  intro hprocessing
  rw [hprocessing] at hfinal'
  cases hfinal'

end Books

/--
`attempt n` is the position of the attempt that belongs to the charge call at position `n` of the
history.
-/
structure ChargesAudited (w : World) (id : String) (attempt : ℕ → ℕ) : Prop where
  attempted : ∀ n i g request, w.history[n]? = some (.charged i g request) →
    request.transactionId = id →
    attempt n < n ∧ ∃ audit, w.history[attempt n]? = some (.committed i audit) ∧
      audit.Attempt id g ∧ audit ∈ w.ledger.auditLog
  injective : ∀ n n' i i' g g' request request',
    w.history[n]? = some (.charged i g request) → request.transactionId = id →
    w.history[n']? = some (.charged i' g' request') → request'.transactionId = id →
    attempt n = attempt n' → n = n'
  count : ∀ t ∈ w.ledger.transactions, t.id = id →
    (w.charges.filter (·.request.transactionId = id)).length ≤ t.attemptCount
  -- from position `m` on the payment is settled
  settled : ∀ m j audit, w.history[m]? = some (.committed j audit) → audit.transactionId = id →
    audit.toState.final = true →
    (∀ n i g request, m < n → w.history[n]? = some (.charged i g request) →
      request.transactionId = id → attempt n < m) ∧
    ∀ n n' i i' g g' request request', m < n → m < n' →
      w.history[n]? = some (.charged i g request) → request.transactionId = id →
      w.history[n']? = some (.charged i' g' request') → request'.transactionId = id → n = n'

theorem Books.Reachable.chargesAudited {D : Deployment} {tasks : Pid → Task} {b : Books}
    {w : World} (h : b.Reachable D tasks) (hw : b = w.books b.role) (id : String)
    : ∃ attempt, ChargesAudited w id attempt := by
  have hhistory : b.history = w.history := by rw [hw]; rfl
  have hfor : ∀ {i g} {request : GatewayChargeRequest}, request.transactionId = id →
      (Event.charged i g request).chargeFor id = true := by
    intro i g request hid
    simp [Event.chargeFor, hid]
  rcases (h.preceded id).exists_position with ⟨attempt, hattempt⟩
  rw [hhistory] at hattempt
  -- Between an attempt and its charge there is no other charge.
  have hbetween : ∀ n n' i i' g g' request request',
      w.history[n]? = some (.charged i g request) → request.transactionId = id →
      w.history[n']? = some (.charged i' g' request') → request'.transactionId = id →
      n < n' → n ≤ attempt n' := by
    intro n n' i i' g g' request request' hn hid hn' hid' hlt
    by_contra hcontra
    have := (hattempt n' _ hn' (hfor hid')).right.right n _ (by omega) hlt hn
    rw [hfor hid] at this
    cases this
  have hattempted : ∀ n i g request, w.history[n]? = some (.charged i g request) →
      request.transactionId = id →
      attempt n < n ∧ ∃ audit, w.history[attempt n]? = some (.committed i audit) ∧
        audit.Attempt id g ∧ audit ∈ w.ledger.auditLog := by
    intro n i g request hn hid
    rcases hattempt n _ hn (hfor hid) with ⟨hlt, ⟨y, hy, hattemptOf⟩, _⟩
    rcases hattemptOf with ⟨i', audit, g', request', hyeq, hcharge, haudit⟩
    injection hcharge with hi hg hrequest
    subst hi hg hrequest hyeq
    rw [hid] at haudit
    refine ⟨hlt, audit, hy, haudit, ?_⟩
    rw [← hhistory] at hy
    have hmem := h.told.mem_auditLog (List.mem_of_getElem? hy)
    rw [hw] at hmem
    exact hmem
  have hsettled : ∀ m j audit, w.history[m]? = some (.committed j audit) →
      audit.transactionId = id → audit.toState.final = true → ∀ n i g request, m < n →
      w.history[n]? = some (.charged i g request) → request.transactionId = id →
      attempt n < m := by
    intro m j audit hm hid hfinal n i g request hlt hn hid'
    rcases hattempted n i g request hn hid' with ⟨_, audit', haudit', hattempt', _⟩
    by_contra hcontra
    rcases Nat.eq_or_lt_of_not_lt hcontra with heq | hlt'
    . rw [heq, hm] at haudit'
      injection haudit' with haudit'
      injection haudit' with _ haudit'
      rw [haudit', hattempt'.toState] at hfinal
      cases hfinal
    . rw [← hhistory] at hm haudit'
      have htid := hattempt'.transactionId.trans hid.symm
      exact h.not_attempt_of_final hm haudit' hlt' htid hfinal hattempt'.toState
  refine ⟨attempt, hattempted, ?_, ?_, ?_⟩
  . intro n n' i i' g g' request request' hn hid hn' hid' heq
    have hlt := (hattempted n i g request hn hid).left
    have hlt' := (hattempted n' i' g' request' hn' hid').left
    rcases Nat.lt_trichotomy n n' with hnn' | hnn' | hnn'
    . have := hbetween n n' i i' g g' request request' hn hid hn' hid' hnn'
      omega
    . exact hnn'
    . have := hbetween n' n i' i g' g request' request hn' hid' hn hid hnn'
      omega
  . intro t ht hid
    subst hid
    have hcount := h.length_charges_le_attemptCount (t := t)
    rw [hw] at hcount
    exact hcount ht
  . intro m j audit hm hid hfinal
    refine ⟨hsettled m j audit hm hid hfinal, ?_⟩
    intro n n' i i' g g' request request' hmn hmn' hn hid₁ hn' hid₂
    have hlt := hsettled m j audit hm hid hfinal n i g request hmn hn hid₁
    have hlt' := hsettled m j audit hm hid hfinal n' i' g' request' hmn' hn' hid₂
    rcases Nat.lt_trichotomy n n' with hnn' | hnn' | hnn'
    . have := hbetween n n' i i' g g' request request' hn hid₁ hn' hid₂ hnn'
      omega
    . exact hnn'
    . have := hbetween n' n i' i g' g request' request hn' hid₂ hn hid₁ hnn'
      omega

namespace System

variable {D : Deployment} {tasks : Pid → Task}

theorem charges_audited {c : System D} (h : c.Reachable D tasks) (id : String)
    : ∃ attempt, ChargesAudited c.world id attempt := by
  rcases h.exists_books with ⟨b, hb, hdescribed⟩
  exact hb.chargesAudited hdescribed.books id

/--
A payment whose first gateway declines and whose second one accepts.
-/
theorem charges_audited_failover
    : ∃ c : System Scenario.deployment,
        c.world.charges.length = 2 ∧ ∃ attempt, ChargesAudited c.world "txn-1" attempt := by
  have hrun : (Scenario.outcome (fun _ => .create Scenario.order)
      (Scenario.upToCharge ⟨0, 0⟩ "txn-1" ++
        [Scenario.settle 0 (.answered (Scenario.declined "insufficient funds"))] ++
        Scenario.steps ⟨0, 0⟩ 24 ++
        [Scenario.settle 1 (.answered (Scenario.accepted "payu_1"))] ++
        Scenario.steps ⟨0, 0⟩ 12)).any (fun c => c.world.charges.length = 2) = true := by
    decide +kernel
  rcases Scenario.exists_reachable hrun with ⟨c, hreachable, hcharges⟩
  exact ⟨c, of_decide_eq_true hcharges, charges_audited hreachable "txn-1"⟩

end System

end PaymentOrchestration
