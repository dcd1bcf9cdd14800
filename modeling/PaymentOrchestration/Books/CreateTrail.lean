import PaymentOrchestration.Books.Trail
import PaymentOrchestration.Concurrency.Pairing

/-!
This module contains what the trail of a call of `create` looks like: it inserts at most one row,
charges no gateway twice and commits an attempt before every charge.
-/

namespace PaymentOrchestration

open StateMachine

/--
The audit row of an attempt to charge gateway `g`.
-/
structure AuditLog.Attempt (id : String) (g : GatewayProvider) (audit : AuditLog) : Prop where
  transactionId : audit.transactionId = id
  fromState : audit.fromState = some .ROUTED
  toState : audit.toState = .PROCESSING
  gateway : audit.gateway = some g

def Event.isCharge (event : Event) : Bool :=
  event.charged?.isSome

/--
An attempt and the charge that was made for it.
-/
def AttemptOf (attempt charge : Event) : Prop :=
  ∃ i audit g request, attempt = .committed i audit ∧ charge = .charged i g request ∧
    audit.Attempt request.transactionId g

-- The last thing of importance is an attempt that no charge has followed yet.
def Unspent (i : Pid) (id : String) (g : GatewayProvider) (events : List Event) : Prop :=
  ∃ e₁ audit e₂, events = e₁ ++ .committed i audit :: e₂ ∧ audit.Attempt id g ∧
    ∀ event ∈ e₂, event.isCharge = false

def Quiet (events : List Event) : Prop :=
  insertsOf events = [] ∧ chargesOf events = [] ∧ commitsOf events = []

/--
The trail of a call that has inserted `row` and may still try the `remaining` gateways.
-/
structure Owning (i : Pid) (dto : CreateTransactionDto) (row : Transaction)
    (remaining : List GatewayProvider) (events : List Event) : Prop where
  inserts : insertsOf events = [row]
  key : row.idempotencyKey = dto.idempotencyKey
  charges : ∀ c ∈ chargesOf events, c.2 = TransactionsService.chargeRequest dto row.id c.1
  commits : ∀ audit ∈ commitsOf events, audit.transactionId = row.id
  nodup : ((chargesOf events).map Prod.fst ++ remaining).Nodup
  preceded : Preceded Event.isCharge AttemptOf events

namespace Owning

variable {i : Pid} {dto : CreateTransactionDto} {row : Transaction}
  {remaining remaining' : List GatewayProvider} {events : List Event} {event : Event}

theorem sublist (h : Owning i dto row remaining events) (hsub : remaining'.Sublist remaining)
    : Owning i dto row remaining' events := by
  refine ⟨h.inserts, h.key, h.charges, h.commits, ?_, h.preceded⟩
  exact h.nodup.sublist (hsub.append_left _)

theorem commit (h : Owning i dto row remaining events) {audit : AuditLog}
    (haudit : audit.transactionId = row.id)
    : Owning i dto row remaining (events ++ [.committed i audit]) := by
  refine ⟨?_, h.key, ?_, ?_, ?_, h.preceded.snoc (fun h => by cases h)⟩
  . simpa using h.inserts
  . simpa using h.charges
  . intro audit' haudit'
    rw [commitsOf_append, List.mem_append] at haudit'
    rcases haudit' with h' | h'
    . exact h.commits audit' h'
    . simp only [commitsOf_cons, commitsOf_nil, Event.committed?, Option.toList_some,
        List.append_nil, List.mem_singleton] at h'
      rw [h', haudit]
  . simpa using h.nodup

theorem charge {g : GatewayProvider} (h : Owning i dto row (g :: remaining) events)
    (hunspent : Unspent i row.id g events)
    : Owning i dto row remaining
        (events ++ [.charged i g (TransactionsService.chargeRequest dto row.id g)]) := by
  refine ⟨?_, h.key, ?_, ?_, ?_, ?_⟩
  . simpa using h.inserts
  . intro c hc
    rw [chargesOf_append, List.mem_append] at hc
    rcases hc with hc | hc
    . exact h.charges c hc
    . simp only [chargesOf_cons, chargesOf_nil, Event.charged?, Option.toList_some,
        List.append_nil, List.mem_singleton] at hc
      rw [hc]
  . simpa using h.commits
  . simpa using h.nodup
  . apply h.preceded.snoc
    intro _
    rcases hunspent with ⟨e₁, audit, e₂, hevents, haudit, he₂⟩
    exact ⟨e₁, _, e₂, hevents, ⟨i, audit, g, _, rfl, rfl, haudit⟩, he₂⟩

theorem of_insert {g : GatewayProvider} {fb : List GatewayProvider} (hquiet : Quiet events)
    (hrow : row = (TransactionsService.newTransaction dto g fb).row row.id)
    (hnodup : (g :: fb).Nodup)
    : Owning i dto row (g :: fb) (events ++ [.inserted i row]) := by
  rcases hquiet with ⟨hinserts, hcharges, hcommits⟩
  have hcharges' : chargesOf (events ++ [.inserted i row]) = [] := by
    rw [chargesOf_append, hcharges]
    rfl
  have hcommits' : commitsOf (events ++ [.inserted i row]) = [] := by
    rw [commitsOf_append, hcommits]
    rfl
  refine ⟨?_, ?_, ?_, ?_, ?_, ?_⟩
  . rw [insertsOf_append, hinserts]
    rfl
  . rw [hrow]
    rfl
  . simp [hcharges']
  . simp [hcommits']
  . rw [hcharges']
    exact hnodup
  . -- There is no charge at all.
    intro e₁ x e₂ heq hx
    rcases Option.isSome_iff_exists.mp hx with ⟨charge, hcharge⟩
    rw [heq, chargesOf_append, chargesOf_cons, hcharge] at hcharges'
    simp at hcharges'

end Owning

namespace Stage

-- The gateways that have not been charged yet.
def remaining (stage : Stage) (g : GatewayProvider) (fb : List GatewayProvider)
    : List GatewayProvider :=
  match stage with
  | .ready | .routed | .processing => g :: fb
  | .charging _ | .succeeded _ | .failed => fb

end Stage

/--
What a call of `create` has left behind, phase by phase.
-/
def Creates (i : Pid) (dto : CreateTransactionDto) (phase : CreatePhase) (events : List Event)
    : Prop :=
  match phase with
  | .start | .found _ | .cached _ => Quiet events
  | .looping row g fb stage =>
    Owning i dto row (stage.remaining g fb) events ∧
      (stage = .processing → Unspent i row.id g events)
  | .settled row _ => Owning i dto row [] events
  | .aborted => Quiet events ∨ ∃ row, Owning i dto row [] events

theorem Creates.abort {i : Pid} {dto : CreateTransactionDto} {phase : CreatePhase}
    {events : List Event} (h : Creates i dto phase events) : Creates i dto .aborted events := by
  cases phase with
  | looping row g fb stage => exact .inr ⟨row, h.left.sublist (List.nil_sublist _)⟩
  | settled row t => exact .inr ⟨row, h⟩
  | aborted => exact h
  | _ => exact .inl h

namespace Trail

def Inv (i : Pid) (trail : Trail) : Prop :=
  match trail.role with
  | .creating dto phase => Creates i dto phase trail.events
  | .working _ => insertsOf trail.events = [] ∧ chargesOf trail.events = []
  | .ingesting => trail.events = []

variable {D : Deployment} {i : Pid} {trail trail' : Trail}

theorem inv_abort {role : Role} {events : List Event} (h : Inv i ⟨role, events⟩)
    : Inv i ⟨role.abort, events⟩ := by
  cases role with
  | creating dto phase => exact Creates.abort h
  | working phase => exact h
  | ingesting => exact h

theorem attempt_of_permit {role : Role} {step : TransitionStep} {dto : CreateTransactionDto}
    {row : Transaction} {g : GatewayProvider} {fb : List GatewayProvider} {createdAt : Nat}
    (hrole : role = .creating dto (.looping row g fb .routed)) (hpermit : Permit D role step)
    : (step.entry createdAt).Attempt row.id g := by
  subst hrole
  cases hpermit with
  | process _ _ _ _ st metadata now hid hvalid hmeta =>
    subst hmeta
    refine ⟨hid, ?_, rfl, rfl⟩
    have : st.currentState = .ROUTED := by
      revert hvalid
      cases st.currentState <;> decide
    simp [TransitionStep.entry, TransitionStep.audit, auditRow, this]

-- A commit of the party that owns a row keeps it the owner.
theorem inv_commit {role role' : Role} {events : List Event} {step : TransitionStep}
    {createdAt : Nat} (h : Inv i ⟨role, events⟩) (hpermit : Permit D role step)
    (hrole : role' = role.advance step.result ∨ role' = role.abort)
    : Inv i ⟨role', events ++ [.committed i (step.entry createdAt)]⟩ := by
  have hid : (step.entry createdAt).transactionId = step.row.id := rfl
  suffices hadvance : Inv i ⟨role.advance step.result,
        events ++ [.committed i (step.entry createdAt)]⟩ ∧
      Inv i ⟨role.abort, events ++ [.committed i (step.entry createdAt)]⟩ by
    rcases hrole with hrole | hrole
    . rw [hrole]
      exact hadvance.left
    . rw [hrole]
      exact hadvance.right
  have hattempt : ∀ dto row g fb, role = .creating dto (.looping row g fb .routed) →
      (step.entry createdAt).Attempt row.id g := by
    intro dto row g fb hrole
    exact attempt_of_permit hrole hpermit
  cases hpermit with
  | route dto row g fb st metadata now hst =>
    have howning := h.left.commit (hid.trans hst)
    exact ⟨⟨howning, fun hstage => by cases hstage⟩,
      .inr ⟨row, howning.sublist (List.nil_sublist _)⟩⟩
  | process dto row g fb st metadata now hst =>
    have howning := h.left.commit (hid.trans hst)
    refine ⟨⟨howning, fun _ => ?_⟩, .inr ⟨row, howning.sublist (List.nil_sublist _)⟩⟩
    exact ⟨events, _, [], rfl, hattempt dto row g fb rfl, by simp⟩
  | succeed dto row g fb r st metadata now hst =>
    have howning := (h.left.commit (hid.trans hst)).sublist (List.nil_sublist _)
    exact ⟨howning, .inr ⟨row, howning⟩⟩
  | retry dto row g g' fb r st metadata now hst =>
    have howning := h.left.commit (hid.trans hst)
    exact ⟨⟨howning, fun hstage => by cases hstage⟩,
      .inr ⟨row, howning.sublist (List.nil_sublist _)⟩⟩
  | fail dto row g r st metadata now hst =>
    have howning := (h.left.commit (hid.trans hst)).sublist (List.nil_sublist _)
    exact ⟨howning, .inr ⟨row, howning⟩⟩
  | _ =>
    constructor <;> simpa [Inv, Role.advance, Role.abort] using h

theorem Step.inv (hstep : Step D i trail trail') (h : trail.Inv i) : trail'.Inv i := by
  cases hstep with
  | hit events dto t => exact h
  | find events role conditions row hfind hholds =>
    rcases hfind with ⟨dto, hrole, _⟩ | ⟨event, x, hrole, _⟩
    all_goals
      subst hrole
      cases row <;> simpa [Role.read, Inv, Creates, Quiet] using h
  | insert events dto g fb row role hnodup hrow hrole =>
    have howning : Owning i dto row (g :: fb) (events ++ [.inserted i row]) :=
      .of_insert h hrow hnodup
    rcases hrole with hrole | hrole
    . subst hrole
      exact ⟨howning, fun hstage => by cases hstage⟩
    . subst hrole
      exact .inr ⟨row, howning.sublist (List.nil_sublist _)⟩
  | commit events role role' step createdAt hpermit hrole => exact inv_commit h hpermit hrole
  | load events event => simpa [Inv] using h
  | charge events dto row g fb n =>
    rcases h with ⟨howning, hunspent⟩
    exact ⟨howning.charge (hunspent rfl), fun hstage => by cases hstage⟩
  | race events dto row g fb n stage hstage =>
    rcases h with ⟨howning, _⟩
    rcases hstage with hstage | ⟨response, hstage⟩
    all_goals
      subst hstage
      exact ⟨howning, fun hstage => by cases hstage⟩
  | abort events role => exact inv_abort h

theorem Run.inv (hrun : Run D i trail trail') (h : trail.Inv i) : trail'.Inv i := by
  induction hrun with
  | refl => exact h
  | tail _ hstep ih => exact hstep.inv ih

end Trail

theorem Task.inv_party (i : Pid) (task : Task) : Trail.Inv i ⟨task.party.role, []⟩ := by
  cases task with
  | create dto => exact ⟨rfl, rfl, rfl⟩
  | ingest event => rfl
  | pollQueue => exact ⟨rfl, rfl⟩

namespace Books

theorem Traced.trail_inv {D : Deployment} {tasks : Pid → Task} {b : Books}
    (h : b.Traced D tasks) (i : Pid) : (b.trail i).Inv i := by
  exact (h.trail i).inv ((tasks i).inv_party i)

end Books

end PaymentOrchestration
