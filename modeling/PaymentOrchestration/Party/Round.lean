import PaymentOrchestration.Party.Ground

/-!
This module contains the protocol of a round of the worker whose lookup finds a payment that has not
failed: such a round ends with the payment in RECONCILED.
-/

namespace PaymentOrchestration

open Protocol ReconciliationWorker StateMachine

namespace Calm

/--
The answers of a round that finds its payment. The event may be missing.
-/
def expects (s : Calm) (cmd : Cmd) (r : Except Err cmd.Resp) : Prop :=
  match cmd, r with
  | .findEvent _, _ => True
  | .findTransaction _, r => s = .free ∨ ∃ row, r = .ok (some row) ∧ row.currentState ≠ .FAILED
  | cmd, r => s.answers cmd r

/--
What a round has come to is remembered when the event is marked.
-/
def onward (s : Calm) (cmd : Cmd) (r : Except Err cmd.Resp) : Calm :=
  match cmd with
  | .saveEvent _ => s
  | cmd => s.next cmd r

end Calm

@[reducible]
def roundProtocol : Protocol Cmd Cmd.Resp Err where
  State := Calm
  allowed := Calm.allowed
  answers := Calm.expects
  next := Calm.onward
  crash := Calm.crash

variable {α : Type} {s : Calm}

theorem Calm.onward_free {cmd : Cmd} {r : Except Err cmd.Resp} : Calm.free.onward cmd r = .free := by
  cases cmd <;> first | rfl | exact next_free

theorem round_perform {cmd : Cmd} {Q : Except Err cmd.Resp → Calm → Prop}
    : roundProtocol.wp (perform cmd) Q s
        ↔
      s.allowed cmd ∧ ∀ r, s.expects cmd r → Q r (s.onward cmd r) := by
  unfold perform
  rw [Protocol.wp_perform]

-- The commands that both protocols treat alike.
def Cmd.alike (cmd : Cmd) : Prop :=
  match cmd with
  | .findEvent _ | .findTransaction _ | .saveEvent _ => False
  | _ => True

theorem Cmd.alike.expects_iff {cmd : Cmd} (h : cmd.alike) {r : Except Err cmd.Resp}
    : s.expects cmd r ↔ s.answers cmd r := by
  cases cmd <;> first | rfl | cases h

theorem Cmd.alike.onward {cmd : Cmd} (h : cmd.alike) {r : Except Err cmd.Resp}
    : s.onward cmd r = s.next cmd r := by
  cases cmd <;> first | rfl | cases h

theorem round_of_calm {p : Program α} {Q : Except Err α → Calm → Prop} (hp : p.Issues Cmd.alike)
    (hwp : calmProtocol.wp p Q s) : roundProtocol.wp p Q s := by
  have hcarried : roundProtocol.wp p (fun r t' => ∃ t, t = t' ∧ Q r t) s := by
    apply hp.carry calmProtocol roundProtocol (R := Eq) _ rfl hwp
    intro cmd s s' halike heq hallowed
    subst heq
    refine ⟨hallowed, fun r hr => ⟨halike.expects_iff.mp hr, ?_⟩⟩
    exact halike.onward.symm
  apply wp_mono hcarried
  rintro r t' ⟨t, heq, hQ⟩
  rw [← heq]
  exact hQ

theorem Cmd.ofTransition.alike {cmd : Cmd} (h : cmd.ofTransition) : cmd.alike := by
  cases cmd <;> trivial

namespace ReconciliationWorker

variable {D : Deployment} {event : WebhookEvent} {id : String} {seen : TransactionState}

/--
How a round of the worker can end.
-/
def Rounded (s : Calm) : Prop :=
  s = .polling ∨ (∃ id, s = .holding id) ∨
    (∃ event, s = .loaded event ∧
      (event.processed = true ∨ extractGatewayTxnId event.gateway event.payload = none ∨
        ∃ x, extractGatewayTxnId event.gateway event.payload = some x ∧ x.convertible = false)) ∨
    ∃ event id, s = .moving (some event) id .RECONCILED .closed

theorem round_transition {toState : TransactionState} {metadata : TransitionMetadata}
    {Q : Except Err Transaction → Calm → Prop} (hto : toState ∈ VALID_TRANSITIONS seen)
    (hok : ∀ row now, row.id = id →
      Q (.ok (mutate row toState metadata now)) (.moving (some event) id toState .closed))
    : roundProtocol.wp (transition id toState metadata) Q
        (.moving (some event) id seen .closed) := by
  apply round_of_calm
  . apply StateMachine.issues_transition.mono
    intro cmd hcmd
    exact hcmd.alike
  . exact calm_transition hto (by simp) hok

/--
A step of the drive takes its payment out of the state `expected`.
-/
theorem round_stepFrom {expected toState : TransactionState} {l : List TransactionState}
    {metadata : TransitionMetadata} {Q : Except Err TransactionState → Calm → Prop}
    (hto : toState ∈ VALID_TRANSITIONS expected) (hseen : seen ∈ expected :: l)
    (hmem : toState ∈ l)
    (hok : ∀ state ∈ l, Q (.ok state) (.moving (some event) id state .closed))
    : roundProtocol.wp (stepFrom expected (transition id toState metadata) seen) Q
        (.moving (some event) id seen .closed) := by
  unfold stepFrom
  split
  . next heq =>
    subst heq
    rw [Prog.bind_def, wp_bind]
    apply round_transition hto
    intro row now _
    exact hok toState hmem
  . next hne =>
    apply hok
    exact (List.mem_cons.mp hseen).resolve_left hne

theorem round_driveToReconciled {txn : Transaction} {gateway : GatewayProvider}
    {gatewayTxnId rawResponse : Json} {Q : Except Err Unit → Calm → Prop}
    (hstate : txn.currentState ≠ .FAILED)
    (hok : Q (.ok ()) (.moving (some event) txn.id .RECONCILED .closed))
    : roundProtocol.wp (driveToReconciled D txn gateway gatewayTxnId rawResponse) Q
        (.moving (some event) txn.id txn.currentState .closed) := by
  unfold driveToReconciled
  dsimp only
  split
  . next hreconciled =>
    rw [hreconciled]
    exact hok
  . next hreconciled =>
    -- each step leaves one state less
    have hseen : txn.currentState ∈
        [.INITIATED, .RETRY_PENDING, .ROUTED, .PROCESSING, .SUCCESS] := by
      cases hcase : txn.currentState with
      | FAILED => exact absurd hcase hstate
      | RECONCILED => exact absurd hcase hreconciled
      | _ => decide
    rw [Prog.bind_def, wp_bind]
    apply round_stepFrom (by decide) hseen (by decide)
    intro state₁ hstate₁
    dsimp only
    rw [Prog.bind_def, wp_bind]
    apply round_stepFrom (by decide) hstate₁ (by decide)
    intro state₂ hstate₂
    dsimp only
    rw [Prog.bind_def, wp_bind]
    apply round_stepFrom (by decide) hstate₂ (by decide)
    intro state₃ hstate₃
    dsimp only
    rw [Prog.bind_def, wp_bind]
    apply round_stepFrom (by decide) hstate₃ (by decide)
    intro state₄ hstate₄
    have hsuccess : state₄ ∈ [.SUCCESS, .RECONCILED] := by
      rw [List.mem_singleton.mp hstate₄]
      decide
    dsimp only
    rw [Prog.bind_def, wp_bind]
    apply round_stepFrom (l := [.RECONCILED]) (by decide) hsuccess (by decide)
    intro state₅ hstate₅
    rw [List.mem_singleton.mp hstate₅]
    exact hok

theorem round_markProcessed {s : Calm} (hevent : s.event = some event)
    (hrounded : Rounded s) : roundProtocol.wp (markProcessed event) (fun _ => Rounded) s := by
  unfold markProcessed
  rw [Prog.bind_def, wp_bind, round_perform]
  refine ⟨.inr trivial, fun r _ => ?_⟩
  cases r with
  | error e => exact hrounded
  | ok now =>
    dsimp only
    rw [round_perform]
    exact ⟨⟨rfl, .inr ⟨event, hevent, rfl⟩⟩, fun _ _ => hrounded⟩

theorem round_processEvent {recordId : String}
    : roundProtocol.wp (processEvent D recordId) (fun _ => Rounded) (.holding recordId) := by
  unfold processEvent
  rw [Prog.bind_def, wp_bind, round_perform]
  refine ⟨.inr rfl, fun r _ => ?_⟩
  rcases r with e | _ | event
  . exact .inr (.inl ⟨recordId, rfl⟩)
  . exact .inr (.inl ⟨recordId, rfl⟩)
  . dsimp only [Calm.onward, Calm.next, Calm.found]
    split
    . next hprocessed => exact .inr (.inr (.inl ⟨event, rfl, .inl hprocessed⟩))
    . split
      . next hnone =>
        apply round_markProcessed rfl
        exact .inr (.inr (.inl ⟨event, rfl, .inr (.inl hnone)⟩))
      . next x hx =>
        split
        . next hconvertible =>
          rw [Bool.not_eq_true'] at hconvertible
          exact .inr (.inr (.inl ⟨event, rfl, .inr (.inr ⟨x, hx, hconvertible⟩)⟩))
        . rw [Prog.bind_def, wp_bind, round_perform]
          refine ⟨.inr (.inr ⟨event, rfl⟩), fun r hr => ?_⟩
          rcases hr.resolve_left (by simp) with ⟨txn, hr, hstate⟩
          subst hr
          dsimp only [Calm.onward, Calm.next, Calm.read]
          rw [Prog.bind_def, wp_bind]
          apply round_driveToReconciled hstate
          apply round_markProcessed rfl
          exact .inr (.inr (.inr ⟨event, txn.id, rfl⟩))

theorem round_pollQueue : roundProtocol.wp (pollQueue D) (fun _ => Rounded) .polling := by
  unfold pollQueue RedisService.brpop
  rw [Prog.bind_def, wp_bind, Prog.bind_def, wp_bind, round_perform]
  refine ⟨.inr ⟨rfl, rfl⟩, fun r _ => ?_⟩
  rcases r with e | _ | _ | id
  . exact .inl rfl
  . dsimp only
    rw [round_perform]
    refine ⟨.inr ⟨rfl, rfl⟩, fun r _ => ?_⟩
    rcases r with e | _ | id
    . exact .inl rfl
    . exact .inl rfl
    . exact round_processEvent
  . exact .inl rfl
  . exact round_processEvent

end ReconciliationWorker

-- The processes nobody looks at keep to this protocol as well.
theorem round_free {p : Program α} (hp : p.Issues Cmd.marking)
    : roundProtocol.wp p (fun _ _ => True) .free := by
  have hfree : ∀ cmd s s', cmd.marking → s = .free ∧ s' = .free → calmProtocol.allowed s cmd →
      roundProtocol.allowed s' cmd ∧ ∀ r, roundProtocol.answers s' cmd r →
        calmProtocol.answers s cmd r ∧ s.next cmd r = .free ∧ s'.onward cmd r = .free := by
    rintro cmd s s' _ ⟨hs, hs'⟩ hallowed
    subst hs hs'
    exact ⟨hallowed, fun r _ => ⟨.inl rfl, Calm.next_free, Calm.onward_free⟩⟩
  have hcarried := hp.carry calmProtocol roundProtocol hfree ⟨rfl, rfl⟩ (calm_free hp)
  apply wp_mono hcarried
  intro _ _ _
  trivial

namespace Task

variable (tasks : Pid → Task) (j : Pid)

def rounds (k : Pid) (_ : Except Err Reply) (s : Calm) : Prop :=
  k = j → Rounded s

theorem followed_round {D : Deployment} (hworker : tasks j = .pollQueue) (k : Pid)
    : roundProtocol.wp ((tasks k).program D) (rounds j k) (followed tasks j k) := by
  unfold followed
  split
  . next hk =>
    subst hk
    rw [hworker]
    unfold program
    dsimp only [Task.calm]
    rw [Prog.bind_def, wp_bind]
    apply wp_mono round_pollQueue
    intro r s hrounded
    cases r with
    | error e => exact fun _ => hrounded
    | ok _ => exact fun _ => hrounded
  . next hk =>
    apply wp_mono (round_free (marking_program _))
    intro r s _ heq
    exact absurd heq hk

theorem rounds_crash (k : Pid) (r : Except Err Reply) (s : Calm) (h : rounds j k r s)
    : rounds j k r s.crash := by
  intro hk
  rcases h hk with hs | ⟨id, hs⟩ | ⟨event, hs, hevent⟩ | ⟨event, id, hs⟩
  . rw [hs]
    exact .inl rfl
  . rw [hs]
    exact .inr (.inl ⟨id, rfl⟩)
  . rw [hs]
    exact .inr (.inr (.inl ⟨event, rfl, hevent⟩))
  . rw [hs]
    exact .inr (.inr (.inr ⟨event, id, rfl⟩))

end Task

end PaymentOrchestration
