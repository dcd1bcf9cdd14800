import PaymentOrchestration.Transactions.DoubleCapture
import PaymentOrchestration.Transactions.Uncontested

/-!
This module is about the route of a payment: the gateways that `create` has stored with it, in the
order in which it tries them.
-/

namespace PaymentOrchestration

open StateMachine

/--
The gateways a new payment is to be tried at.
-/
def Transaction.route (row : Transaction) : List GatewayProvider :=
  row.selectedGateway.toList ++ row.fallbackGateways

-- The gateways that were charged, in the order of the calls.
def chargedOf (events : List Event) : List GatewayProvider :=
  (chargesOf events).map Prod.fst

-- How often the payment was sent on to the next gateway.
def retriesOf (events : List Event) : Nat :=
  (commitsOf events).countP (·.toState = .RETRY_PENDING)

def GivenUp (events : List Event) : Prop :=
  ∃ audit ∈ commitsOf events, audit.toState = .FAILED

theorem chargedOf_append {e₁ e₂ : List Event}
    : chargedOf (e₁ ++ e₂) = chargedOf e₁ ++ chargedOf e₂ := by
  simp [chargedOf]

theorem retriesOf_append {e₁ e₂ : List Event}
    : retriesOf (e₁ ++ e₂) = retriesOf e₁ + retriesOf e₂ := by
  simp [retriesOf]

theorem givenUp_append {e₁ e₂ : List Event} : GivenUp (e₁ ++ e₂) ↔ GivenUp e₁ ∨ GivenUp e₂ := by
  simp only [GivenUp, commitsOf_append, List.mem_append]
  grind

-- Only commits move a payment.
theorem going_append {events : List Event} {event : Event} (h : event.committed? = none)
    : retriesOf (events ++ [event]) = retriesOf events ∧
        (GivenUp (events ++ [event]) ↔ GivenUp events) := by
  have hcommits : commitsOf (events ++ [event]) = commitsOf events := by
    simp [commitsOf_append, commitsOf_cons, h]
  unfold retriesOf GivenUp
  rw [hcommits]
  exact ⟨rfl, Iff.rfl⟩

theorem route_of_insert {dto : CreateTransactionDto} {g : GatewayProvider}
    {fb : List GatewayProvider} {row : Transaction}
    (h : row = (TransactionsService.newTransaction dto g fb).row row.id) : row.route = g :: fb := by
  rw [h]
  rfl

namespace Trail

/--
The call stands before the gateways in `rest`, all of them but the first `fb` have been tried.
-/
structure OnRoute (row : Transaction) (rest fb : List GatewayProvider) (events : List Event)
    : Prop where
  inserts : insertsOf events = [row]
  charges : chargedOf events ++ rest = row.route
  retries : retriesOf events + fb.length + 1 = row.route.length
  going : ¬GivenUp events

/--
What is left of a route that the call has left, at its end or before.
-/
structure OffRoute (row : Transaction) (events : List Event) : Prop where
  charges : chargedOf events <+: row.route
  retries : retriesOf events < row.route.length
  exhausted : GivenUp events →
    chargedOf events = row.route ∧ retriesOf events + 1 = row.route.length

def Routed (trail : Trail) : Prop :=
  match trail.role with
  | .creating _ (.looping row g fb stage) =>
    OnRoute row (stage.remaining g fb) fb trail.events
  | .creating _ (.settled _ _) | .creating _ .aborted =>
    ∀ row ∈ insertsOf trail.events, OffRoute row trail.events
  | .creating _ _ => Quiet trail.events
  | .working _ => retriesOf trail.events = 0 ∧ ¬GivenUp trail.events
  | .ingesting => trail.events = []

variable {D : Deployment} {i : Pid} {trail trail' : Trail} {row : Transaction}
  {rest fb : List GatewayProvider} {events : List Event}

theorem OnRoute.off (h : OnRoute row rest fb events) : OffRoute row events := by
  refine ⟨⟨rest, h.charges⟩, ?_, fun hgiven => absurd hgiven h.going⟩
  have := h.retries
  omega

theorem OnRoute.abort (h : OnRoute row rest fb events)
    : ∀ row' ∈ insertsOf events, OffRoute row' events := by
  rw [h.inserts]
  intro row' hrow'
  rw [List.mem_singleton] at hrow'
  rw [hrow']
  exact h.off

-- An event of the call that is neither a charge nor a commit of importance.
theorem OnRoute.commit (h : OnRoute row rest fb events) {audit : AuditLog}
    (hretry : audit.toState ≠ .RETRY_PENDING) (hfail : audit.toState ≠ .FAILED)
    : OnRoute row rest fb (events ++ [.committed i audit]) := by
  refine ⟨?_, ?_, ?_, ?_⟩
  . simpa using h.inserts
  . rw [chargedOf_append, show chargedOf [Event.committed i audit] = [] from rfl, List.append_nil]
    exact h.charges
  . have : retriesOf [Event.committed i audit] = 0 := by
      simp [retriesOf, Event.committed?, hretry]
    rw [retriesOf_append, this]
    exact h.retries
  . rw [givenUp_append]
    rintro (hgiven | hgiven)
    . exact h.going hgiven
    . exact hfail (by simpa [GivenUp, Event.committed?] using hgiven)

theorem OnRoute.charge {g : GatewayProvider} (h : OnRoute row (g :: rest) fb events)
    {request : GatewayChargeRequest} : OnRoute row rest fb (events ++ [.charged i g request]) := by
  refine ⟨?_, ?_, ?_, ?_⟩
  . simpa using h.inserts
  . rw [chargedOf_append, show chargedOf [Event.charged i g request] = [g] from rfl,
      List.append_assoc]
    exact h.charges
  . rw [retriesOf_append, show retriesOf [Event.charged i g request] = 0 from rfl]
    exact h.retries
  . rw [givenUp_append]
    rintro (hgiven | hgiven)
    . exact h.going hgiven
    . rcases hgiven with ⟨audit, haudit, _⟩
      cases haudit

theorem routed_abort {role : Role} (h : Routed ⟨role, events⟩) : Routed ⟨role.abort, events⟩ := by
  cases role with
  | creating dto phase =>
    cases phase with
    | looping row g fb stage => exact OnRoute.abort h
    | settled row t => exact h
    | aborted => exact h
    | _ =>
      intro row hrow
      have hquiet : Quiet events := h
      rw [hquiet.left] at hrow
      cases hrow
  | working phase => exact h
  | ingesting => exact h

/--
A commit: only RETRY_PENDING and FAILED are steps on the route.
-/
theorem routed_commit {role role' : Role} {step : TransitionStep} {createdAt : Nat}
    (h : Routed ⟨role, events⟩) (hpermit : Permit D role step)
    (hrole : role' = role.advance step.result ∨ role' = role.abort)
    : Routed ⟨role', events ++ [.committed i (step.entry createdAt)]⟩ := by
  have hto : (step.entry createdAt).toState = step.toState := rfl
  suffices hadvance : Routed ⟨role.advance step.result,
        events ++ [.committed i (step.entry createdAt)]⟩ by
    rcases hrole with hrole | hrole
    . rw [hrole]
      exact hadvance
    . rw [hrole]
      have habort := routed_abort hadvance
      have heq : (role.advance step.result).abort = role.abort := by
        cases hpermit <;> rfl
      rw [heq] at habort
      exact habort
  cases hpermit with
  | route | process => exact OnRoute.commit h (by simp [hto]) (by simp [hto])
  | succeed dto row g fb r st metadata now hst =>
    exact (OnRoute.commit h (by simp [hto]) (by simp [hto])).abort
  | retry dto row g g' fb r st metadata now hst =>
    refine ⟨?_, ?_, ?_, ?_⟩
    . simpa using h.inserts
    . have hcharges : chargedOf events ++ (g' :: fb) = row.route := h.charges
      rw [chargedOf_append, show chargedOf [Event.committed i (TransitionStep.entry
        ⟨st, .RETRY_PENDING, metadata, now⟩ createdAt)] = [] from rfl, List.append_nil]
      exact hcharges
    . have hone : retriesOf [Event.committed i (TransitionStep.entry
          ⟨st, .RETRY_PENDING, metadata, now⟩ createdAt)] = 1 := rfl
      have := h.retries
      rw [retriesOf_append, hone]
      simp only [List.length_cons] at this
      omega
    . rw [givenUp_append]
      rintro (hgiven | hgiven)
      . exact h.going hgiven
      . rcases hgiven with ⟨audit, haudit, hfailed⟩
        simp only [commitsOf_cons, commitsOf_nil, Event.committed?, Option.toList_some,
          List.append_nil, List.mem_singleton] at haudit
        rw [haudit] at hfailed
        cases hfailed
  | fail dto row g r st metadata now hst =>
    intro row' hrow'
    have hinserts : insertsOf events = [row] := h.inserts
    rw [insertsOf_append, hinserts] at hrow'
    have hrow' : row' = row := by simpa [Event.inserted?] using hrow'
    subst hrow'
    have hcharges : chargedOf events = row'.route := by
      rw [← h.charges]
      exact (List.append_nil _).symm
    have hcharged : chargedOf (events ++ [.committed i (TransitionStep.entry
        ⟨st, .FAILED, metadata, now⟩ createdAt)]) = row'.route := by
      rw [chargedOf_append, hcharges]
      exact List.append_nil _
    have hretried : retriesOf (events ++ [.committed i (TransitionStep.entry
        ⟨st, .FAILED, metadata, now⟩ createdAt)]) = retriesOf events := by
      rw [retriesOf_append, show retriesOf [Event.committed i (TransitionStep.entry
        ⟨st, .FAILED, metadata, now⟩ createdAt)] = 0 from rfl]
      rfl
    refine ⟨?_, ?_, fun _ => ⟨hcharged, ?_⟩⟩
    . rw [hcharged]
    . rw [hretried]
      exact h.off.retries
    . rw [hretried]
      exact h.retries
  | workerRoute | workerProcess | workerSucceed | workerReconcile =>
    rcases h with ⟨hretries, hgoing⟩
    refine ⟨?_, ?_⟩
    . rw [retriesOf_append, hretries]
      simp [retriesOf, Event.committed?, hto]
    . rw [givenUp_append]
      rintro (hgiven | hgiven)
      . exact hgoing hgiven
      . simp [GivenUp, Event.committed?, hto] at hgiven

theorem Step.routed (hstep : Step D i trail trail') (h : trail.Routed) : trail'.Routed := by
  cases hstep with
  | hit events dto t => exact h
  | find events role conditions row hfind hholds =>
    rcases hfind with ⟨dto, hrole, _⟩ | ⟨event, x, hrole, _⟩
    . subst hrole
      cases row <;> simpa [Role.read, Routed, Quiet] using h
    . subst hrole
      have hworking := @going_append events (.read i conditions row) rfl
      cases row with
      | none => exact ⟨hworking.left.trans h.left, fun hgiven => h.right (hworking.right.mp hgiven)⟩
      | some t => exact ⟨hworking.left.trans h.left, fun hgiven => h.right (hworking.right.mp hgiven)⟩
  | insert events dto g fb row role hnodup hrow hrole =>
    rcases h with ⟨hinserts, hcharges, hcommits⟩
    have hroute : OnRoute row (g :: fb) fb (events ++ [.inserted i row]) := by
      refine ⟨?_, ?_, ?_, ?_⟩
      . rw [insertsOf_append, hinserts]
        rfl
      . simp [chargedOf, hcharges, route_of_insert hrow]
      . simp [retriesOf, hcommits, route_of_insert hrow]
      . simp [GivenUp, hcommits]
    rcases hrole with hrole | hrole
    . subst hrole
      exact hroute
    . subst hrole
      exact hroute.abort
  | commit events role role' step createdAt hpermit hrole => exact routed_commit h hpermit hrole
  | load events event =>
    have hworking := @going_append events (.loaded i event) rfl
    exact ⟨hworking.left.trans h.left, fun hgiven => h.right (hworking.right.mp hgiven)⟩
  | charge events dto row g fb n => exact OnRoute.charge h
  | race events dto row g fb n stage hstage =>
    rcases hstage with hstage | ⟨response, hstage⟩
    all_goals
      subst hstage
      exact h
  | abort events role => exact routed_abort h

theorem Run.routed (hrun : Run D i trail trail') (h : trail.Routed) : trail'.Routed := by
  induction hrun with
  | refl => exact h
  | tail _ hstep ih => exact hstep.routed ih

theorem Routed.off (h : trail.Routed) (hinv : trail.Inv i)
    : ∀ row ∈ insertsOf trail.events, OffRoute row trail.events := by
  rcases trail with ⟨role, events⟩
  cases role with
  | creating dto phase => exact @routed_abort _ (.creating dto phase) h
  | working phase =>
    intro row hrow
    rw [show insertsOf events = [] from hinv.left] at hrow
    cases hrow
  | ingesting =>
    intro row hrow
    rw [show events = [] from hinv] at hrow
    cases hrow

end Trail

theorem Task.routed_party (task : Task) : Trail.Routed ⟨task.party.role, []⟩ := by
  cases task with
  | create dto => exact ⟨rfl, rfl, rfl⟩
  | ingest event => rfl
  | pollQueue =>
    refine ⟨rfl, ?_⟩
    rintro ⟨audit, haudit, _⟩
    cases haudit

namespace Books

variable {D : Deployment} {tasks : Pid → Task} {b b' : Books} {i : Pid} {row : Transaction}

theorem Traced.trail_routed (h : b.Traced D tasks) (i : Pid) : (b.trail i).Routed := by
  exact (h.trail i).routed (tasks i).routed_party

theorem mem_insertsOf_trail (hrow : .inserted i row ∈ b.history)
    : row ∈ insertsOf (b.trail i).events := by
  unfold insertsOf
  rw [List.mem_filterMap]
  exact ⟨_, mem_trail hrow rfl, rfl⟩

theorem mem_commitsOf_trail {audit : AuditLog} (haudit : .committed i audit ∈ b.history)
    : audit ∈ commitsOf (b.trail i).events := by
  unfold commitsOf
  rw [List.mem_filterMap]
  exact ⟨_, mem_trail haudit rfl, rfl⟩

/--
The charge calls for a payment are those of the process that has inserted it.
-/
theorem Reachable.charges_for (h : b.Reachable D tasks) (hrow : .inserted i row ∈ b.history)
    : b.charges.filter (·.request.transactionId = row.id) = b.charges.filter (·.pid = i) := by
  apply List.filter_congr
  intro charge hcharge
  rcases h.exists_owning (h.told.mem_charges hcharge) with ⟨dto, row', _, hrow', hrequest, _⟩
  have hid : charge.request.transactionId = row'.id := by
    rw [hrequest]
    rfl
  rw [hid, decide_eq_decide]
  constructor
  . intro heq
    have hkey := h.inv.key_eq_of_id (h.told.known hrow') (h.told.known hrow) heq
    exact (h.told.inserted_inj h.inv hrow' hrow hkey).left
  . intro hpid
    rw [hpid] at hrow'
    rw [h.traced.inserted_unique hrow' hrow]

theorem Reachable.chargedOf_trail (h : b.Reachable D tasks) (hrow : .inserted i row ∈ b.history)
    : chargedOf (b.trail i).events =
        (b.charges.filter (·.request.transactionId = row.id)).map Charge.gateway := by
  rw [h.charges_for hrow, chargedOf, h.told.charges_trail, List.map_map]
  rfl

/--
The route of a payment stays the one it was inserted with.
-/
def Stored (b : Books) : Prop :=
  ∀ t ∈ b.transactions, ∃ i row, .inserted i row ∈ b.history ∧ row.id = t.id ∧
    row.fallbackGateways = t.fallbackGateways

theorem Stored.of_eq (h : b.Stored) (htransactions : b'.transactions = b.transactions)
    (hhistory : ∀ event ∈ b.history, event ∈ b'.history) : b'.Stored := by
  intro t ht
  rw [htransactions] at ht
  rcases h t ht with ⟨i, row, hrow, hid, hfallback⟩
  exact ⟨i, row, hhistory _ hrow, hid, hfallback⟩

theorem Step.stored (hstep : b.Step D b') (h : b.Stored) : b'.Stored := by
  have hhistory : ∀ event ∈ b.history, event ∈ b'.history := by
    rcases hstep.history_append with ⟨events, hevents⟩
    intro event hevent
    rw [hevents]
    exact List.mem_append_left _ hevent
  cases hstep with
  | insert i dto g fb row role hrole hnodup hrow hfresh =>
    intro t ht
    simp only [setRole, Books.insert, List.mem_append, List.mem_singleton] at ht
    rcases ht with ht | ht
    . rcases h t ht with ⟨j, row', hrow', hid, hfallback⟩
      exact ⟨j, row', hhistory _ hrow', hid, hfallback⟩
    . subst ht
      exact ⟨i, t, by simp [setRole, Books.insert], rfl, rfl⟩
  | commit i step createdAt role hpermit hrow =>
    intro t ht
    rcases mem_writeRow ht with ht | ⟨ht, _⟩
    . subst ht
      rcases h step.row hrow with ⟨j, row', hrow', hid, hfallback⟩
      exact ⟨j, row', hhistory _ hrow', hid, hfallback⟩
    . rcases h t ht with ⟨j, row', hrow', hid, hfallback⟩
      exact ⟨j, row', hhistory _ hrow', hid, hfallback⟩
  | _ => exact h.of_eq rfl hhistory

theorem Reachable.stored (h : b.Reachable D tasks) : b.Stored := by
  rcases h with ⟨b₀, hstart, hrun⟩
  induction hrun with
  | refl =>
    intro t ht
    rw [hstart.transactions] at ht
    cases ht
  | tail _ hstep ih => exact hstep.stored ih

/--
Only the call that has inserted a payment sends it on or gives it up.
-/
theorem Reachable.owner_of_commit (h : b.Reachable D tasks) {audit : AuditLog}
    (haudit : .committed i audit ∈ b.history)
    (hto : audit.toState = .RETRY_PENDING ∨ audit.toState = .FAILED)
    : ∃ row, .inserted i row ∈ b.history ∧ audit.transactionId = row.id := by
  have hmem := mem_commitsOf_trail haudit
  have hrouted := h.traced.trail_routed i
  have hinv := h.traced.trail_inv i
  rcases heq : b.trail i with ⟨role, events⟩
  rw [heq] at hmem hrouted hinv
  cases role with
  | creating dto phase =>
    rcases Creates.abort hinv with hquiet | ⟨row, howning⟩
    . rw [show commitsOf events = [] from hquiet.right.right] at hmem
      cases hmem
    . refine ⟨row, ?_, howning.commits audit hmem⟩
      apply mem_history_of_inserts
      rw [heq]
      simp [howning.inserts]
  | working phase =>
    rcases hto with hto | hto
    . have hzero : retriesOf events = 0 := hrouted.left
      unfold retriesOf at hzero
      rw [List.countP_eq_zero] at hzero
      exact absurd (decide_eq_true hto) (hzero audit hmem)
    . exact absurd ⟨audit, hmem, hto⟩ hrouted.right
  | ingesting =>
    rw [show events = [] from hinv] at hmem
    cases hmem

/--
A payment that was given up has tried its whole route.
-/
theorem Reachable.exhausted (h : b.Reachable D tasks) {t : Transaction} (ht : t ∈ b.transactions)
    (hfailed : t.currentState = .FAILED)
    : ∃ i row, .inserted i row ∈ b.history ∧ row.id = t.id ∧ b.FailedBy i ∧
        GivenUp (b.trail i).events := by
  have hne : t.currentState ≠ .INITIATED := by
    rw [hfailed]
    simp
  rcases h.exists_commit_of_state ht hne with ⟨i, audit, haudit, hid, hto⟩
  rw [hfailed] at hto
  rcases h.owner_of_commit haudit (.inr hto) with ⟨row, hrow, htransaction⟩
  exact ⟨i, row, hrow, htransaction.symm.trans hid, ⟨audit, haudit, hto⟩, audit,
    mem_commitsOf_trail haudit, hto⟩

theorem Reachable.lost_of_failed (h : b.Reachable D tasks) {t : Transaction}
    (ht : t ∈ b.transactions) (hfailed : t.currentState = .FAILED) {charge : Charge}
    (hcharge : charge ∈ b.charges) (htransaction : charge.request.transactionId = t.id)
    : charge.Lost := by
  rcases h.exhausted ht hfailed with ⟨i, row, hrow, hid, hby, _⟩
  have hmem : charge ∈ b.charges.filter (·.request.transactionId = row.id) := by
    rw [List.mem_filter, decide_eq_true_eq]
    exact ⟨hcharge, htransaction.trans hid.symm⟩
  rw [h.charges_for hrow, List.mem_filter, decide_eq_true_eq] at hmem
  rcases List.mem_iff_getElem?.mp hcharge with ⟨n, hn⟩
  exact (h.careful i).failed hby n charge hn hmem.right (by simp)

-- Of two charge calls for a payment one is lost.
theorem Reachable.lost_or_lost (h : b.Reachable D tasks) {n n' : Nat} {charge charge' : Charge}
    (hn : b.charges[n]? = some charge) (hn' : b.charges[n']? = some charge') (hne : n ≠ n')
    (hid : charge.request.transactionId = charge'.request.transactionId)
    : charge.Lost ∨ charge'.Lost := by
  have hcharged := h.told.mem_charges (List.mem_of_getElem? hn)
  have hcharged' := h.told.mem_charges (List.mem_of_getElem? hn')
  have hpid : charge.pid = charge'.pid := h.pid_eq_of_transactionId hcharged hcharged' hid
  rcases (h.careful charge.pid).one with ⟨m, hm⟩
  by_cases hsome : some n = m
  . right
    apply hm n' charge' hn' hpid.symm
    rw [← hsome]
    intro heq
    injection heq with heq
    exact hne heq.symm
  . left
    exact hm n charge hn rfl hsome

/--
What is left of the route of a payment.
-/
theorem Reachable.offRoute (h : b.Reachable D tasks) (hrow : .inserted i row ∈ b.history)
    : Trail.OffRoute row (b.trail i).events := by
  exact (h.traced.trail_routed i).off (h.traced.trail_inv i) row (mem_insertsOf_trail hrow)

/--
The row of a payment has the route it was inserted with.
-/
theorem Reachable.fallbackGateways_eq (h : b.Reachable D tasks)
    (hrow : .inserted i row ∈ b.history) {t : Transaction} (ht : t ∈ b.transactions)
    (hid : t.id = row.id) : t.fallbackGateways = row.fallbackGateways := by
  rcases h.stored t ht with ⟨j, row', hrow', hid', hfallback⟩
  have hkey := h.inv.key_eq_of_id (h.told.known hrow') (h.told.known hrow) (hid'.trans hid)
  rw [← hfallback, (h.told.inserted_inj h.inv hrow' hrow hkey).right]

end Books

namespace System

variable {D : Deployment} {tasks : Pid → Task} {c : System D}

/--
What `create` has charged for a payment is the beginning of the route it has stored, and nobody
changes the route.
-/
theorem charges_follow_route (h : c.Reachable D tasks) {i : Pid} {row : Transaction}
    (hrow : .inserted i row ∈ c.world.history)
    : (c.world.charges.filter (·.request.transactionId = row.id)).map Charge.gateway <+: row.route ∧
        ∀ t ∈ c.world.ledger.transactions, t.id = row.id →
          t.fallbackGateways = row.fallbackGateways := by
  rcases h.exists_books with ⟨b, hb, hdescribed⟩
  rw [← hdescribed.history] at hrow
  rw [← hdescribed.charges, ← hdescribed.transactions, ← hb.chargedOf_trail hrow]
  refine ⟨?_, ?_⟩
  . exact (hb.offRoute hrow).charges
  . intro t ht hid
    exact hb.fallbackGateways_eq hrow ht hid

open Scenario in
/--
The first gateway declines, the second one has been charged.
-/
theorem charges_follow_route_failover
    : ∃ (c : System deployment) (row : Transaction), c.world.charges.length = 2 ∧
        (c.world.charges.filter (·.request.transactionId = row.id)).map Charge.gateway <+:
            row.route ∧
          ∀ t ∈ c.world.ledger.transactions, t.id = row.id →
            t.fallbackGateways = row.fallbackGateways := by
  let p (c : System deployment) : Bool :=
    inserts ⟨0, 0⟩ c.world && decide (c.world.charges.length = 2)
  have hrun : (outcome (fun _ => .create order)
      (upToCharge ⟨0, 0⟩ "txn-1" ++ settle 0 (.answered (declined "card_declined")) ::
        steps ⟨0, 0⟩ 24)).any p = true := by
    decide +kernel
  rcases exists_reachable hrun with ⟨c, hc, hp⟩
  simp only [p, Bool.and_eq_true, decide_eq_true_eq] at hp
  rcases exists_inserted hp.left with ⟨row, hrow⟩
  exact ⟨c, row, hp.right, charges_follow_route hc hrow⟩

/--
A payment is FAILED only when every gateway of its route was charged, in this order, and every
charge was lost.
-/
theorem failed_exhausts_route (h : c.Reachable D tasks) {t : Transaction}
    (ht : t ∈ c.world.ledger.transactions) (hfailed : t.currentState = .FAILED)
    : ∃ i row, .inserted i row ∈ c.world.history ∧ row.id = t.id ∧
        (c.world.charges.filter (·.request.transactionId = t.id)).map Charge.gateway = row.route ∧
        ∀ charge ∈ c.world.charges, charge.request.transactionId = t.id → charge.Lost := by
  rcases h.exists_books with ⟨b, hb, hdescribed⟩
  rw [← hdescribed.transactions] at ht
  rcases hb.exhausted ht hfailed with ⟨i, row, hrow, hid, hby, hgiven⟩
  rw [← hdescribed.history, ← hdescribed.charges]
  refine ⟨i, row, hrow, hid, ?_, ?_⟩
  . rw [← hid, ← hb.chargedOf_trail hrow]
    exact ((hb.offRoute hrow).exhausted hgiven).left
  . intro charge hcharge htransaction
    exact hb.lost_of_failed ht hfailed hcharge htransaction

end System

namespace Scenario

def declineThen (charge more : Nat) : List Act :=
  settle charge (.answered (declined "card_declined")) :: steps ⟨0, 0⟩ more

-- All four gateways decline.
theorem exists_declined
    : ∃ c : System deployment, c.Reachable deployment (fun _ => .create order) ∧
        (∃ t ∈ c.world.ledger.transactions, t.currentState = .FAILED) ∧
        ∃ audit ∈ c.world.ledger.auditLog, audit.toState = .FAILED := by
  let p (c : System deployment) : Bool :=
    c.world.ledger.transactions.any (fun t => t.currentState = .FAILED) &&
      c.world.ledger.auditLog.any (fun audit => audit.toState = .FAILED)
  have hrun : (outcome (fun _ => .create order)
      (upToCharge ⟨0, 0⟩ "txn-1" ++ declineThen 0 24 ++ declineThen 1 24 ++ declineThen 2 24 ++
        declineThen 3 12)).any p = true := by
    decide +kernel
  rcases exists_reachable hrun with ⟨c, hc, hp⟩
  simp only [p, Bool.and_eq_true, List.any_eq_true, decide_eq_true_eq] at hp
  exact ⟨c, hc, hp.left, hp.right⟩

end Scenario

namespace System

open Scenario in
theorem failed_exhausts_route_declined
    : ∃ (c : System deployment) (t : Transaction), t ∈ c.world.ledger.transactions ∧
        t.currentState = .FAILED ∧
        ∃ i row, .inserted i row ∈ c.world.history ∧ row.id = t.id ∧
          (c.world.charges.filter (·.request.transactionId = t.id)).map Charge.gateway =
            row.route ∧
          ∀ charge ∈ c.world.charges, charge.request.transactionId = t.id → charge.Lost := by
  rcases exists_declined with ⟨c, hc, ⟨t, ht, hfailed⟩, _⟩
  exact ⟨c, t, ht, hfailed, failed_exhausts_route hc ht hfailed⟩

end System

end PaymentOrchestration
