import PaymentOrchestration.Books.History

/-!
This module contains what the trail of a round of the reconciliation worker looks like: it loads an
event, looks up one payment and moves that payment only.
-/

namespace PaymentOrchestration

open StateMachine ReconciliationWorker

variable {D : Deployment} {i : Pid}

/--
The trail of a round that has found `txn` for the event.
-/
structure Driving (D : Deployment) (i : Pid) (event : WebhookEvent) (txn : Transaction)
    (events : List Event) : Prop where
  unique : ∀ event', .loaded i event' ∈ events → event' = event
  found : ∃ x e₁ e₂, extractGatewayTxnId event.gateway event.payload = some x ∧
    events = e₁ ++ .read i (lookupConditions x event.payload) (some txn) :: e₂ ∧
    .loaded i event ∈ e₁ ∧ ∃ c ∈ lookupConditions x event.payload, c.holds D txn
  commits : ∀ audit ∈ commitsOf events, audit.transactionId = txn.id ∧ audit.toState ≠ .FAILED
  -- There is no way on from these two states.
  moved : commitsOf events ≠ [] → txn.currentState ≠ .FAILED ∧ txn.currentState ≠ .RECONCILED

/--
What a round of the worker has left behind, phase by phase.
-/
def Works (D : Deployment) (i : Pid) (phase : WorkerPhase) (events : List Event) : Prop :=
  match phase with
  | .polling => (∀ event, .loaded i event ∉ events) ∧ commitsOf events = []
  | .loaded event =>
    .loaded i event ∈ events ∧ (∀ event', .loaded i event' ∈ events → event' = event) ∧
      commitsOf events = []
  | .driving event txn state =>
    Driving D i event txn events ∧ (commitsOf events = [] → state = txn.currentState)
  | .aborted => commitsOf events = [] ∨ ∃ event txn, Driving D i event txn events

theorem Works.abort {phase : WorkerPhase} {events : List Event} (h : Works D i phase events)
    : Works D i .aborted events := by
  cases phase with
  | polling => exact .inl h.right
  | loaded event => exact .inl h.right.right
  | driving event txn state => exact .inr ⟨event, txn, h.left⟩
  | aborted => exact h

theorem Driving.commit {event : WebhookEvent} {txn : Transaction} {events : List Event}
    {audit : AuditLog} (h : Driving D i event txn events) (hid : audit.transactionId = txn.id)
    (hto : audit.toState ≠ .FAILED)
    (hstate : txn.currentState ≠ .FAILED ∧ txn.currentState ≠ .RECONCILED)
    : Driving D i event txn (events ++ [.committed i audit]) := by
  refine ⟨?_, ?_, ?_, fun _ => hstate⟩
  . simpa using h.unique
  . rcases h.found with ⟨x, e₁, e₂, hx, hevents, hloaded, hholds⟩
    refine ⟨x, e₁, e₂ ++ [.committed i audit], hx, ?_, hloaded, hholds⟩
    simp [hevents]
  . intro audit' haudit'
    rw [commitsOf_append, List.mem_append] at haudit'
    rcases haudit' with h' | h'
    . exact h.commits audit' h'
    . simp only [commitsOf_cons, commitsOf_nil, Event.committed?, Option.toList_some,
        List.append_nil, List.mem_singleton] at h'
      rw [h']
      exact ⟨hid, hto⟩

-- A worker has a way on only from the states it drives.
theorem Permit.of_driving {event : WebhookEvent} {txn : Transaction} {state : TransactionState}
    {step : TransitionStep} (h : Permit D (.working (.driving event txn state)) step)
    : step.row.id = txn.id ∧ step.toState ≠ .FAILED ∧ state ≠ .FAILED ∧ state ≠ .RECONCILED := by
  cases h with
  | workerRoute _ _ _ _ _ _ _ hid hstate =>
    refine ⟨hid, by simp, ?_⟩
    rcases hstate with hstate | hstate <;> simp [hstate]
  | workerProcess _ _ _ _ _ hid => exact ⟨hid, by simp⟩
  | workerSucceed _ _ _ _ _ _ hid => exact ⟨hid, by simp⟩
  | workerReconcile _ _ _ _ _ hid => exact ⟨hid, by simp⟩

namespace Trail

def WorkInv (D : Deployment) (i : Pid) (trail : Trail) : Prop :=
  match trail.role with
  | .working phase => Works D i phase trail.events
  | _ => ∀ event, .loaded i event ∉ trail.events

variable {trail trail' : Trail}

theorem workInv_commit {role role' : Role} {events : List Event} {step : TransitionStep}
    {createdAt : Nat} (h : WorkInv D i ⟨role, events⟩) (hpermit : Permit D role step)
    (hrole : role' = role.advance step.result ∨ role' = role.abort)
    : WorkInv D i ⟨role', events ++ [.committed i (step.entry createdAt)]⟩ := by
  cases role with
  | creating dto phase =>
    have hcreating : ∃ phase', role' = .creating dto phase' := by
      rcases hrole with hrole | hrole
      . cases hpermit <;> exact ⟨_, hrole⟩
      . exact ⟨_, hrole⟩
    rcases hcreating with ⟨phase', hrole'⟩
    subst hrole'
    simpa [WorkInv] using h
  | ingesting => cases hpermit
  | working phase =>
    have hphase : ∃ event txn state, phase = .driving event txn state := by
      cases hpermit <;> exact ⟨_, _, _, rfl⟩
    rcases hphase with ⟨event, txn, state, hphase⟩
    subst hphase
    rcases h with ⟨hdriving, hstate⟩
    rcases hpermit.of_driving with ⟨hid, hto, hopen⟩
    have hopen' : txn.currentState ≠ .FAILED ∧ txn.currentState ≠ .RECONCILED := by
      by_cases hcommits : commitsOf events = []
      . rw [← hstate hcommits]
        exact hopen
      . exact hdriving.moved hcommits
    have hdriving' : Driving D i event txn (events ++ [.committed i (step.entry createdAt)]) :=
      hdriving.commit hid hto hopen'
    rcases hrole with hrole | hrole
    . subst hrole
      refine ⟨hdriving', fun hcommits => ?_⟩
      simp at hcommits
    . subst hrole
      exact .inr ⟨event, txn, hdriving'⟩

theorem Step.workInv (hstep : Step D i trail trail') (h : trail.WorkInv D i)
    : trail'.WorkInv D i := by
  cases hstep with
  | hit events dto t => exact h
  | find events role conditions row hfind hholds =>
    rcases hfind with ⟨dto, hrole, _⟩ | ⟨event, x, hrole, hx, hconditions, _⟩
    . subst hrole
      cases row <;> simpa [WorkInv, Role.read] using h
    . subst hrole hconditions
      rcases h with ⟨hloaded, hunique, hcommits⟩
      cases row with
      | none => exact ⟨List.mem_append_left _ hloaded, by simpa using hunique, by simpa using hcommits⟩
      | some t =>
        have hnone : commitsOf (events ++ [.read i (lookupConditions x event.payload) (some t)]) =
            [] := by
          simpa using hcommits
        refine ⟨⟨?_, ⟨x, events, [], hx, rfl, hloaded, hholds t rfl⟩, ?_, ?_⟩, fun _ => rfl⟩
        . simpa using hunique
        . simp [hnone]
        . intro hne
          exact absurd hnone hne
  | insert events dto g fb row role hnodup hrow hrole =>
    rcases hrole with hrole | hrole
    all_goals
      subst hrole
      simpa [WorkInv] using h
  | commit events role role' step createdAt hpermit hrole => exact workInv_commit h hpermit hrole
  | load events event =>
    rcases h with ⟨hnone, hcommits⟩
    refine ⟨by simp, ?_, ?_⟩
    . intro event' hevent'
      rw [List.mem_append, List.mem_singleton] at hevent'
      rcases hevent' with hevent' | hevent'
      . exact absurd hevent' (hnone event')
      . injection hevent'
    . simpa using hcommits
  | charge events dto row g fb n => simpa [WorkInv] using h
  | race events dto row g fb n stage hstage => exact h
  | abort events role =>
    cases role with
    | working phase => exact Works.abort h
    | _ => exact h

theorem Run.workInv (hrun : Run D i trail trail') (h : trail.WorkInv D i)
    : trail'.WorkInv D i := by
  induction hrun with
  | refl => exact h
  | tail _ hstep ih => exact hstep.workInv ih

end Trail

theorem Task.workInv_party (task : Task) : Trail.WorkInv D i ⟨task.party.role, []⟩ := by
  cases task <;> simp [Task.party, Trail.WorkInv, Works]

namespace Books

variable {tasks : Pid → Task} {b : Books}

theorem Traced.trail_workInv (h : b.Traced D tasks) (i : Pid) : (b.trail i).WorkInv D i := by
  exact (h.trail i).workInv (tasks i).workInv_party

theorem Traced.not_loaded (h : b.Traced D tasks) {dto : CreateTransactionDto}
    (hdto : (tasks i).dto = some dto) (event : WebhookEvent) : .loaded i event ∉ b.history := by
  intro hloaded
  have hwork := h.trail_workInv i
  rw [← h.dto i] at hdto
  cases hrole : b.role i with
  | creating dto' phase =>
    rw [trail_eq hrole] at hwork
    exact hwork event (mem_trail hloaded rfl)
  | _ =>
    rw [hrole] at hdto
    cases hdto

theorem Step.loaded (hinv : b.Inv) {b' : Books} (hstep : b.Step D b')
    (h : ∀ i event, .loaded i event ∈ b.history → b.Recorded event) {event : WebhookEvent}
    (hloaded : .loaded i event ∈ b'.history) : b'.Recorded event := by
  have hold : .loaded i event ∈ b.history → b'.Recorded event := by
    intro hmem
    exact hstep.recorded_mono hinv (h i event hmem)
  cases hstep with
  | find | insert | commit | charge =>
    apply hold
    simpa [setRole, Books.insert, Books.commit] using hloaded
  | load j event' hrole hevent =>
    rw [List.mem_append, List.mem_singleton] at hloaded
    rcases hloaded with hloaded | hloaded
    . exact hold hloaded
    . injection hloaded with _ hloaded
      rw [hloaded]
      exact List.mem_map_of_mem hevent
  | _ => exact hold hloaded

-- What a round has loaded is stored.
theorem Traced.recorded (h : b.Traced D tasks) {event : WebhookEvent}
    (hloaded : .loaded i event ∈ b.history) : b.Recorded event := by
  rcases h with ⟨b₀, hinv, _, hhistory, hrun⟩
  induction hrun generalizing i event with
  | refl =>
    rw [hhistory] at hloaded
    cases hloaded
  | tail hrun hstep ih => exact hstep.loaded (Run.inv hinv hrun) (fun _ _ => ih) hloaded

-- What comes before an event on a trail comes before it in the history.
theorem exists_split {event : Event} {e₁ e₂ : List Event}
    (h : (b.trail i).events = e₁ ++ event :: e₂)
    : ∃ h₁ h₂, b.history = h₁ ++ event :: h₂ ∧ ∀ e ∈ e₁, e ∈ h₁ := by
  rcases List.filter_eq_append_iff.mp h with ⟨l₁, l₂, hhistory, he₁, hl₂⟩
  rcases List.filter_eq_cons_iff.mp hl₂ with ⟨m₁, m₂, hl₂, _, _, _⟩
  refine ⟨l₁ ++ m₁, m₂, by simp [hhistory, hl₂], ?_⟩
  intro e he
  rw [← he₁] at he
  exact List.mem_append_left _ (List.mem_of_mem_filter he)

/--
A transition is committed by the call that has inserted the row or by a round that has found it.
-/
theorem Traced.committer (h : b.Traced D tasks) {audit : AuditLog}
    (haudit : .committed i audit ∈ b.history)
    : (∃ dto row, (tasks i).dto = some dto ∧ Owning i dto row [] (b.trail i).events ∧
          audit.transactionId = row.id) ∨
        ∃ event txn, Driving D i event txn (b.trail i).events ∧ audit.transactionId = txn.id ∧
          (tasks i).dto = none ∧ audit.toState ≠ .FAILED := by
  have hmem : audit ∈ commitsOf (b.trail i).events := by
    unfold commitsOf
    rw [List.mem_filterMap]
    exact ⟨_, mem_trail haudit rfl, rfl⟩
  have hinv := h.trail_inv i
  have hwork := h.trail_workInv i
  have hdto := h.dto i
  cases hrole : b.role i with
  | creating dto phase =>
    rw [trail_eq hrole] at hinv
    rw [hrole] at hdto
    rcases Creates.abort hinv with hquiet | ⟨row, howning⟩
    . rw [hquiet.right.right] at hmem
      cases hmem
    . exact .inl ⟨dto, row, hdto.symm, howning, howning.commits audit hmem⟩
  | working phase =>
    rw [trail_eq hrole] at hwork
    rw [hrole] at hdto
    rcases Works.abort hwork with hnone | ⟨event, txn, hdriving⟩
    . rw [hnone] at hmem
      cases hmem
    . rcases hdriving.commits audit hmem with ⟨hid, hto⟩
      exact .inr ⟨event, txn, hdriving, hid, hdto.symm, hto⟩
  | ingesting =>
    rw [trail_eq hrole] at hinv
    simp only [Trail.Inv] at hinv
    rw [hinv] at hmem
    cases hmem

end Books

end PaymentOrchestration
