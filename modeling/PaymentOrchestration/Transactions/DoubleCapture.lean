import PaymentOrchestration.Books.Refinement
import PaymentOrchestration.Books.Replay
import PaymentOrchestration.Books.WorkerTrail
import PaymentOrchestration.Scenario

/-!
This module is about the failover loop charging a payment again. The loop goes on when it takes a
charge call to be lost, which is right as long as no lost call captures the payment after all.
-/

namespace PaymentOrchestration

namespace Charge

-- What the failover loop takes for a failed attempt.
def Lost (charge : Charge) : Prop :=
  charge.timedOut = true ∨ (∃ message captured, charge.status = .threw message captured) ∨
    ∃ response, charge.status = .answered response ∧ response.success = false

/--
The call has captured the payment only if the loop may still hear of it.
-/
def Timely (charge : Charge) : Prop :=
  charge.status.captured = true →
    charge.timedOut = false ∧ ∀ message captured, charge.status ≠ .threw message captured

theorem Timely.captured_of_lost {charge : Charge} (h : charge.Timely) (hlost : charge.Lost)
    : charge.status.captured = false := by
  by_contra hcaptured
  rw [Bool.not_eq_false] at hcaptured
  rcases h hcaptured with ⟨htimer, hthrew⟩
  rcases hlost with hlost | ⟨message, captured, hlost⟩ | ⟨response, hlost, hdeclined⟩
  . rw [htimer] at hlost
    cases hlost
  . exact hthrew message captured hlost
  . rw [hlost, ChargeStatus.captured, hdeclined] at hcaptured
    cases hcaptured

theorem Lost.settle {charge : Charge} {captured : Bool} {status : ChargeStatus}
    (h : charge.Lost) (hstatus : charge.status = .pending captured)
    : Charge.Lost { charge with status := status } := by
  rcases h with h | ⟨message, captured', h⟩ | ⟨response, h, _⟩
  . exact .inl h
  . rw [hstatus] at h
    cases h
  . rw [hstatus] at h
    cases h

end Charge

namespace Books

variable {D : Deployment} {tasks : Pid → Task} {b b' : Books} {i : Pid}

/--
All charge calls of the process are lost, up to the one with the number in `m`.
-/
def LostBut (b : Books) (i : Pid) (m : Option Nat) : Prop :=
  ∀ n charge, b.charges[n]? = some charge → charge.pid = i → some n ≠ m → charge.Lost

def FailedBy (b : Books) (i : Pid) : Prop :=
  ∃ audit, .committed i audit ∈ b.history ∧ audit.toState = .FAILED

def Pending (b : Books) (i : Pid) (stage : Stage) : Prop :=
  match stage with
  | .charging n => b.LostBut i (some n)
  | .succeeded _ => True
  | _ => b.LostBut i none

/--
A process tries the next gateway, or gives the payment up, only when all its calls are lost.
-/
structure Careful (b : Books) (i : Pid) : Prop where
  one : ∃ m, b.LostBut i m
  failed : b.FailedBy i → b.LostBut i none
  stage : ∀ dto row g fb stage, b.role i = .creating dto (.looping row g fb stage) →
    ¬b.FailedBy i ∧ b.Pending i stage

theorem LostBut.weaken (h : b.LostBut i none) (m : Option Nat) : b.LostBut i m := by
  intro n charge hcharge hpid _
  exact h n charge hcharge hpid (by simp)

theorem LostBut.of_eq {m : Option Nat} (h : b.LostBut i m) (hcharges : b'.charges = b.charges)
    : b'.LostBut i m := by
  intro n charge hcharge
  rw [hcharges] at hcharge
  exact h n charge hcharge

theorem LostBut.of_set {m : Option Nat} {n : Nat} {charge charge' : Charge} (h : b.LostBut i m)
    (hcharge : b.charges[n]? = some charge) (hcharges : b'.charges = b.charges.set n charge')
    (hpid : charge'.pid = charge.pid) (hlost : charge.Lost → charge'.Lost)
    : b'.LostBut i m := by
  intro n' charge'' hcharge'' hpid'' hne
  rw [hcharges, List.getElem?_set] at hcharge''
  split at hcharge''
  . next heq =>
    subst heq
    split at hcharge''
    . injection hcharge'' with hcharge''
      subst hcharge''
      exact hlost (h n charge hcharge (hpid.symm.trans hpid'') hne)
    . cases hcharge''
  . exact h n' charge'' hcharge'' hpid'' hne

theorem LostBut.of_append {m : Option Nat} {charge : Charge} (h : b.LostBut i m)
    (hne : charge.pid = i → m = some b.charges.length)
    (hcharges : b'.charges = b.charges ++ [charge]) : b'.LostBut i m := by
  intro n charge' hcharge' hpid hn
  rw [hcharges, List.getElem?_append] at hcharge'
  split at hcharge'
  . exact h n charge' hcharge' hpid hn
  . next hlt =>
    rw [List.getElem?_singleton] at hcharge'
    split at hcharge'
    . next hzero =>
      injection hcharge' with hcharge'
      subst hcharge'
      have : n = b.charges.length := by omega
      rw [hne hpid, this] at hn
      exact absurd rfl hn
    . cases hcharge'

-- The call a process has been waiting for turns out to be lost.
theorem LostBut.of_lost {n : Nat} {charge : Charge} (h : b.LostBut i (some n))
    (hcharge : b.charges[n]? = some charge) (hlost : charge.Lost) : b.LostBut i none := by
  intro n' charge' hcharge' hpid _
  by_cases hn : n' = n
  . subst hn
    rw [hcharge] at hcharge'
    injection hcharge' with hcharge'
    rw [← hcharge']
    exact hlost
  . exact h n' charge' hcharge' hpid (by simpa using hn)

theorem Pending.of_lostBut {stage : Stage} (h : b.LostBut i none) : b.Pending i stage := by
  cases stage with
  | charging n => exact h.weaken _
  | succeeded response => trivial
  | _ => exact h

theorem Pending.mono {stage : Stage} (h : b.Pending i stage)
    (hlost : ∀ m, b.LostBut i m → b'.LostBut i m) : b'.Pending i stage := by
  cases stage with
  | succeeded response => trivial
  | _ => exact hlost _ h

/--
A step of another process, or one that leaves the failover loop.
-/
theorem Careful.frame (h : b.Careful i) (hlost : ∀ m, b.LostBut i m → b'.LostBut i m)
    (hfailed : b'.FailedBy i → b.FailedBy i)
    (hrole : b'.role i = b.role i ∨
      ∀ dto row g fb stage, b'.role i ≠ .creating dto (.looping row g fb stage))
    : b'.Careful i := by
  refine ⟨?_, ?_, ?_⟩
  . rcases h.one with ⟨m, hm⟩
    exact ⟨m, hlost m hm⟩
  . intro hby
    exact hlost none (h.failed (hfailed hby))
  . intro dto row g fb stage hrole'
    rcases hrole with heq | hne
    . rw [heq] at hrole'
      rcases h.stage dto row g fb stage hrole' with ⟨hnot, hpending⟩
      exact ⟨fun hby => hnot (hfailed hby), hpending.mono hlost⟩
    . exact absurd hrole' (hne dto row g fb stage)

theorem FailedBy.of_event {event : Event} (hhistory : b'.history = b.history ++ [event])
    (hevent : ∀ audit, event = .committed i audit → audit.toState ≠ .FAILED)
    (h : b'.FailedBy i) : b.FailedBy i := by
  rcases h with ⟨audit, haudit, hto⟩
  rw [hhistory, List.mem_append, List.mem_singleton] at haudit
  rcases haudit with haudit | haudit
  . exact ⟨audit, haudit, hto⟩
  . exact absurd hto (hevent audit haudit.symm)

theorem FailedBy.of_eq (hhistory : b'.history = b.history) (h : b'.FailedBy i)
    : b.FailedBy i := by
  unfold FailedBy at h ⊢
  rw [hhistory] at h
  exact h

theorem Careful.of_eq (h : b.Careful i) (hcharges : b'.charges = b.charges)
    (hhistory : b'.history = b.history)
    (hrole : b'.role i = b.role i ∨
      ∀ dto row g fb stage, b'.role i ≠ .creating dto (.looping row g fb stage))
    : b'.Careful i := by
  exact h.frame (fun m hm => hm.of_eq hcharges) (fun hby => hby.of_eq hhistory) hrole

theorem Careful.of_event (h : b.Careful i) {event : Event} (hevent : event.committed? = none)
    (hcharges : b'.charges = b.charges) (hhistory : b'.history = b.history ++ [event])
    (hrole : b'.role i = b.role i ∨
      ∀ dto row g fb stage, b'.role i ≠ .creating dto (.looping row g fb stage))
    : b'.Careful i := by
  apply h.frame (fun m hm => hm.of_eq hcharges) _ hrole
  apply FailedBy.of_event hhistory
  intro audit heq
  rw [heq] at hevent
  cases hevent

theorem abort_not_looping (role : Role) (dto : CreateTransactionDto) (row : Transaction)
    (g : GatewayProvider) (fb : List GatewayProvider) (stage : Stage)
    : role.abort ≠ .creating dto (.looping row g fb stage) := by
  cases role <;> simp [Role.abort]

theorem read_not_looping {role : Role} {conditions : List TxnWhere}
    (hfind : role.mayFind conditions) (row : Option Transaction) (dto : CreateTransactionDto)
    (row' : Transaction) (g : GatewayProvider) (fb : List GatewayProvider) (stage : Stage)
    : role.read row ≠ .creating dto (.looping row' g fb stage) := by
  rcases hfind with ⟨dto', hrole, _⟩ | ⟨event, x, hrole, _⟩
  all_goals
    subst hrole
    cases row <;> simp [Role.read]

-- A process that has inserted nothing has charged nothing and given nothing up.
theorem Reachable.quiet (h : b.Reachable D tasks) {dto : CreateTransactionDto}
    (hrole : b.role i = .creating dto .start) : b.LostBut i none ∧ ¬b.FailedBy i := by
  have hquiet : Quiet (b.trail i).events := by
    have := h.traced.trail_inv i
    rw [trail_eq hrole] at this
    exact this
  constructor
  . intro n charge hcharge hpid _
    have hcharges := h.told.charges_trail i
    rw [hquiet.right.left] at hcharges
    have hmem : charge ∈ b.charges.filter (·.pid = i) := by
      simp [List.mem_of_getElem? hcharge, hpid]
    rw [List.map_eq_nil_iff.mp hcharges.symm] at hmem
    cases hmem
  . rintro ⟨audit, haudit, _⟩
    have hmem : audit ∈ commitsOf (b.trail i).events := by
      unfold commitsOf
      rw [List.mem_filterMap]
      exact ⟨_, mem_trail haudit rfl, rfl⟩
    rw [hquiet.right.right] at hmem
    cases hmem

-- A call that stays in the loop after a commit is not waiting for anything.
theorem looping_of_advance {role : Role} {step : TransitionStep} {dto : CreateTransactionDto}
    {row : Transaction} {g : GatewayProvider} {fb : List GatewayProvider} {stage : Stage}
    (hpermit : Permit D role step)
    (h : role.advance step.result = .creating dto (.looping row g fb stage))
    : ∃ g' fb' stage', role = .creating dto (.looping row g' fb' stage') ∧
        (b.Pending i stage' → b.LostBut i none) := by
  cases hpermit with
  | route | process | retry =>
    simp only [Role.advance, Role.creating.injEq, CreatePhase.looping.injEq] at h
    rcases h with ⟨hdto, hrow, _⟩
    subst hdto hrow
    exact ⟨_, _, _, rfl, fun h => h⟩
  | _ => cases h

theorem Careful.commit {step : TransitionStep} {createdAt : Nat} {role : Role}
    (h : b.Careful i) (hpermit : Permit D (b.role i) step)
    (hrole' : role = (b.role i).advance step.result ∨ role = (b.role i).abort)
    : ((b.commit i step createdAt).setRole i role).Careful i := by
  have hlost : ∀ m, b.LostBut i m → ((b.commit i step createdAt).setRole i role).LostBut i m := by
    intro m hm
    exact hm.of_eq rfl
  have hhistory : ((b.commit i step createdAt).setRole i role).history =
      b.history ++ [.committed i (step.entry createdAt)] := rfl
  have hself : ((b.commit i step createdAt).setRole i role).role i = role := by
    simp
  -- The call that gives a payment up has nothing left to wait for.
  have hgiven : step.toState = .FAILED → b.LostBut i none ∧
      ∀ dto row g fb stage, role ≠ .creating dto (.looping row g fb stage) := by
    intro hto
    generalize hr : b.role i = r at hpermit hrole'
    cases hpermit with
    | fail dto row g r st metadata now =>
      refine ⟨(h.stage _ _ _ _ _ hr).right, ?_⟩
      intro _ _ _ _ _
      rcases hrole' with hrole' | hrole'
      . rw [hrole']
        simp [Role.advance]
      . rw [hrole']
        exact abort_not_looping _ _ _ _ _ _
    | _ => cases hto
  by_cases hto : step.toState = .FAILED
  . rcases hgiven hto with ⟨hnone, hnot⟩
    refine ⟨⟨none, hlost none hnone⟩, fun _ => hlost none hnone, ?_⟩
    intro dto row g fb stage hrole
    rw [hself] at hrole
    exact absurd hrole (hnot _ _ _ _ _)
  . have hfailed : ((b.commit i step createdAt).setRole i role).FailedBy i → b.FailedBy i := by
      apply FailedBy.of_event hhistory
      intro audit heq
      injection heq with _ heq
      rw [← heq]
      exact hto
    refine ⟨?_, fun hby => hlost none (h.failed (hfailed hby)), ?_⟩
    . rcases h.one with ⟨m, hm⟩
      exact ⟨m, hlost m hm⟩
    . intro dto row g fb stage hrole
      rw [hself] at hrole
      rcases hrole' with hrole' | hrole'
      . rw [hrole'] at hrole
        rcases looping_of_advance hpermit hrole with ⟨g', fb', stage', hlooping, hnone⟩
        rcases h.stage _ _ _ _ _ hlooping with ⟨hnot, hpending⟩
        exact ⟨fun hby => hnot (hfailed hby), .of_lostBut (hlost none (hnone hpending))⟩
      . rw [hrole'] at hrole
        exact absurd hrole (abort_not_looping _ _ _ _ _ _)

-- The race is over: either the call has answered success or it is lost.
theorem Careful.raced {dto : CreateTransactionDto} {row : Transaction} {g : GatewayProvider}
    {fb : List GatewayProvider} {n : Nat} {stage : Stage} (h : b.Careful i)
    (hrole : b.role i = .creating dto (.looping row g fb (.charging n)))
    (hlost : ∀ m, b.LostBut i m → b'.LostBut i m) (hhistory : b'.history = b.history)
    (hrole' : b'.role i = .creating dto (.looping row g fb stage)) (hstage : b'.Pending i stage)
    : b'.Careful i := by
  rcases h.stage _ _ _ _ _ hrole with ⟨hnot, hpending⟩
  refine ⟨⟨some n, hlost _ hpending⟩, ?_, ?_⟩
  . intro hby
    exact absurd (hby.of_eq hhistory) hnot
  . intro dto' row' g' fb' stage' heq
    rw [hrole'] at heq
    injection heq with _ heq
    injection heq with _ _ _ heq
    rw [← heq]
    exact ⟨fun hby => hnot (hby.of_eq hhistory), hstage⟩

theorem Step.careful (hreachable : b.Reachable D tasks) (hstep : b.Step D b') (h : b.Careful i)
    : b'.Careful i := by
  cases hstep with
  | hit j dto key t hrole =>
    refine h.of_eq rfl rfl ?_
    by_cases hi : i = j
    . subst hi
      simp
    . exact .inl (setRole_role_of_ne hi)
  | find j conditions row hfind =>
    refine h.of_event (Event.committed?_eq.right.right.right.left j conditions row) rfl rfl ?_
    by_cases hi : i = j
    . subst hi
      right
      intro dto row' g fb stage
      dsimp only
      rw [setRole_role_self]
      exact read_not_looping hfind _ _ _ _ _ _
    . exact .inl (setRole_role_of_ne hi)
  | load j event hrole =>
    refine h.of_event (Event.committed?_eq.right.right.right.right j event) rfl rfl ?_
    by_cases hi : i = j
    . subst hi
      simp
    . exact .inl (setRole_role_of_ne hi)
  | insert j dto g fb row role hrole hnodup hrow hid hkey hrole' =>
    have hfailed : ((b.insert j row).setRole j role).FailedBy i → b.FailedBy i := by
      apply FailedBy.of_event rfl
      intro _ heq
      cases heq
    by_cases hi : i = j
    . subst hi
      rcases hreachable.quiet hrole with ⟨hnone, hnot⟩
      have hlost : ((b.insert i row).setRole i role).LostBut i none := hnone.of_eq rfl
      refine ⟨⟨none, hlost⟩, fun _ => hlost, ?_⟩
      intro dto' row' g' fb' stage heq
      exact ⟨fun hby => hnot (hfailed hby), .of_lostBut hlost⟩
    . exact h.frame (fun m hm => hm.of_eq rfl) hfailed (.inl (setRole_role_of_ne hi))
  | commit j step createdAt role hpermit hrow hrole' =>
    by_cases hi : i = j
    . subst hi
      exact h.commit hpermit hrole'
    . refine h.frame (fun m hm => hm.of_eq rfl) ?_ (.inl (setRole_role_of_ne hi))
      rintro ⟨audit, haudit, hto⟩
      simp only [setRole, Books.commit, List.mem_append, List.mem_singleton] at haudit
      rcases haudit with haudit | haudit
      . exact ⟨audit, haudit, hto⟩
      . injection haudit with hj
        exact absurd hj hi
  | charge j dto row g fb hrole =>
    have hfailed : ∀ {b' : Books}, b'.history = b.history ++
        [.charged j g (TransactionsService.chargeRequest dto row.id g)] →
        b'.FailedBy i → b.FailedBy i := by
      intro b' hhistory
      apply FailedBy.of_event hhistory
      intro _ heq
      cases heq
    by_cases hi : i = j
    . subst hi
      rcases h.stage _ _ _ _ _ hrole with ⟨hnot, hpending⟩
      have hlost : ∀ {b' : Books}, b'.charges = b.charges ++
          [⟨i, g, TransactionsService.chargeRequest dto row.id g, .pending false, false⟩] →
          b'.LostBut i (some b.charges.length) := by
        intro b' hcharges
        exact (LostBut.weaken hpending _).of_append (fun _ => rfl) hcharges
      refine ⟨⟨_, hlost rfl⟩, fun hby => absurd (hfailed rfl hby) hnot, ?_⟩
      intro dto' row' g' fb' stage heq
      dsimp only at heq
      rw [setRole_role_self] at heq
      injection heq with _ heq
      injection heq with _ _ _ heq
      rw [← heq]
      exact ⟨fun hby => hnot (hfailed rfl hby), hlost rfl⟩
    . refine h.frame (fun m hm => ?_) (hfailed rfl) (.inl (setRole_role_of_ne hi))
      exact hm.of_append (fun hj => absurd hj.symm hi) rfl
  | answer j dto row g fb n charge response hrole hcharge hstatus =>
    by_cases hi : i = j
    . subst hi
      have hpending := (h.stage _ _ _ _ _ hrole).right
      cases hsuccess : response.success with
      | true =>
        have hraced : (b.role i).raced (.ok response) =
            .creating dto (.looping row g fb (.succeeded response)) := by
          simp [hrole, Role.raced, hsuccess]
        rw [hraced]
        exact h.raced hrole (fun m hm => hm.of_eq rfl) rfl setRole_role_self trivial
      | false =>
        have hraced : (b.role i).raced (.ok response) =
            .creating dto (.looping row g fb .failed) := by
          simp [hrole, Role.raced, hsuccess]
        have hlost : charge.Lost := .inr (.inr ⟨response, hstatus, hsuccess⟩)
        rw [hraced]
        refine h.raced hrole (fun m hm => hm.of_eq rfl) rfl setRole_role_self ?_
        exact (LostBut.of_lost hpending hcharge hlost).of_eq rfl
    . exact h.of_eq rfl rfl (.inl (setRole_role_of_ne hi))
  | threw j dto row g fb n charge message captured hrole hcharge hstatus =>
    by_cases hi : i = j
    . subst hi
      have hpending := (h.stage _ _ _ _ _ hrole).right
      have hlost : charge.Lost := .inr (.inl ⟨message, captured, hstatus⟩)
      refine h.raced hrole (fun m hm => hm.of_eq rfl) rfl setRole_role_self ?_
      exact (LostBut.of_lost hpending hcharge hlost).of_eq rfl
    . exact h.of_eq rfl rfl (.inl (setRole_role_of_ne hi))
  | timeout j dto row g fb n charge captured hrole hcharge hstatus =>
    have hlost : Charge.Lost { charge with timedOut := true } := .inl rfl
    have hmono : ∀ {b' : Books} {m}, b'.charges = b.charges.set n { charge with timedOut := true } →
        b.LostBut i m → b'.LostBut i m := by
      intro b' m hcharges hm
      exact hm.of_set hcharge hcharges rfl (fun _ => hlost)
    by_cases hi : i = j
    . subst hi
      have hpending := (h.stage _ _ _ _ _ hrole).right
      refine h.raced hrole (fun m hm => hmono rfl hm) rfl setRole_role_self ?_
      refine LostBut.of_lost (hmono rfl hpending) ?_ hlost
      dsimp only
      rw [List.getElem?_set_self (List.getElem?_eq_some_iff.mp hcharge).fst]
    . exact h.frame (fun m hm => hmono rfl hm) (fun hby => hby) (.inl (setRole_role_of_ne hi))
  | settle n charge captured status hcharge hstatus =>
    refine h.frame (fun m hm => ?_) (fun hby => hby) (.inl rfl)
    exact hm.of_set hcharge rfl rfl (fun hlost => hlost.settle hstatus)
  | abort j =>
    refine h.of_eq rfl rfl ?_
    by_cases hi : i = j
    . subst hi
      right
      intro dto row g fb stage
      rw [setRole_role_self]
      exact abort_not_looping _ _ _ _ _ _
    . exact .inl (setRole_role_of_ne hi)
  | _ => exact h.of_eq rfl rfl (.inl rfl)

theorem Start.careful (h : b.Start tasks) : b.Careful i := by
  have hlost : ∀ m, b.LostBut i m := by
    intro m n charge hcharge
    rw [h.charges] at hcharge
    cases hcharge
  refine ⟨⟨none, hlost none⟩, fun _ => hlost none, ?_⟩
  intro dto row g fb stage hrole
  rw [h.role] at hrole
  cases htask : tasks i <;> simp [htask, Task.party] at hrole

theorem Reachable.careful (h : b.Reachable D tasks) (i : Pid) : b.Careful i := by
  rcases h with ⟨b₀, hstart, hrun⟩
  induction hrun with
  | refl => exact hstart.careful
  | tail hrun hstep ih => exact hstep.careful ⟨b₀, hstart, hrun⟩ ih

theorem Reachable.captured_inj (h : b.Reachable D tasks)
    (htimely : ∀ charge ∈ b.charges, charge.Timely) {n n' : Nat} {charge charge' : Charge}
    (hn : b.charges[n]? = some charge) (hn' : b.charges[n']? = some charge')
    (hid : charge.request.transactionId = charge'.request.transactionId)
    (hcaptured : charge.status.captured = true) (hcaptured' : charge'.status.captured = true)
    : n = n' := by
  have hmem := List.mem_of_getElem? hn
  have hmem' := List.mem_of_getElem? hn'
  have hpid : charge.pid = charge'.pid :=
    h.pid_eq_of_transactionId (h.told.mem_charges hmem) (h.told.mem_charges hmem') hid
  rcases (h.careful charge.pid).one with ⟨m, hm⟩
  -- Of two different calls one is lost.
  have hone : ∀ n charge', b.charges[n]? = some charge' → charge'.pid = charge.pid →
      charge'.status.captured = true → some n = m := by
    intro n charge' hcharge' hpid' hcaptured
    by_contra hne
    have hlost := hm n charge' hcharge' hpid' hne
    rw [(htimely charge' (List.mem_of_getElem? hcharge')).captured_of_lost hlost] at hcaptured
    cases hcaptured
  have heq := (hone n charge hn rfl hcaptured).trans (hone n' charge' hn' hpid.symm hcaptured').symm
  injection heq

theorem Reachable.not_captured_of_failed (h : b.Reachable D tasks)
    (htimely : ∀ charge ∈ b.charges, charge.Timely) {t : Transaction} (ht : t ∈ b.transactions)
    (hfailed : t.currentState = .FAILED) {charge : Charge} (hcharge : charge ∈ b.charges)
    (hid : charge.request.transactionId = t.id) : charge.status.captured = false := by
  have hne : t.currentState ≠ .INITIATED := by simp [hfailed]
  rcases h.exists_commit_of_state ht hne with ⟨j, audit, haudit, hauditId, hto⟩
  rw [hfailed] at hto
  rcases h.traced.committer haudit with ⟨dto, row, _, howning, hrow⟩ | ⟨event, txn, _, _, _, hnot⟩
  . have hpid : charge.pid = j := by
      apply h.pid_eq_of_row howning (h.told.mem_charges hcharge)
      rw [hid, ← hauditId, hrow]
    have hlost := (h.careful j).failed ⟨audit, haudit, hto⟩
    rcases List.mem_iff_getElem?.mp hcharge with ⟨n, hn⟩
    exact (htimely charge hcharge).captured_of_lost (hlost n charge hn hpid (by simp))
  . exact absurd hto hnot

end Books

/--
The payment is captured once, and not at all if it has failed.
-/
structure CapturedOnce (w : World) (id : String) : Prop where
  once : ∀ (n n' : Nat) (charge charge' : Charge), w.charges[n]? = some charge → w.charges[n']? = some charge' →
    charge.request.transactionId = id → charge'.request.transactionId = id →
    charge.status.captured = true → charge'.status.captured = true → n = n'
  failed : ∀ t ∈ w.ledger.transactions, t.id = id → t.currentState = .FAILED →
    ∀ charge ∈ w.charges, charge.request.transactionId = id → charge.status.captured = false

namespace System

variable {D : Deployment} {tasks : Pid → Task}

/--
No gateway captures a payment with a call that the service has given up or that throws: the timer
wins only against calls that have not captured, and a call against which it has won, or that
throws, does not capture.
-/
def Timely (c : System D) (a : (machine D).Act) : Prop :=
  match a with
  | .run i o =>
    ∀ n k charge, c.pool i = .running (.op (.race n) k) → c.world.charges[n]? = some charge →
      charge.status = .pending true → o.timer = false
  | .env (.settle n status) =>
    ∀ charge, c.world.charges[n]? = some charge → status.captured = true →
      charge.timedOut = false ∧ ∀ message captured, status ≠ .threw message captured
  | _ => True

theorem Timely.act {c c' : System D} {a : (machine D).Act} (h : c.Timely a)
    (hact : (machine D).act (fun i => (tasks i).program D) a c = some c')
    (hcharges : ∀ charge ∈ c.world.charges, charge.Timely)
    : ∀ charge ∈ c'.world.charges, charge.Timely := by
  rcases Machine.act_world hact with hsame | ⟨i, o, cmd, k, r, ha, hop, hexec⟩ | ⟨e, ha, henv⟩ |
    ⟨inst, _, hcrash⟩
  . rw [hsame]
    exact hcharges
  . subst ha
    rcases exec_charges hexec with hsame | ⟨g, request, _, hnew⟩ |
      ⟨n, charge, captured, ⟨hcmd, htimer⟩, hcharge, hstatus, hset⟩
    . rw [hsame]
      exact hcharges
    . rw [hnew]
      intro charge hmem
      rw [List.mem_append, List.mem_singleton] at hmem
      rcases hmem with hmem | hmem
      . exact hcharges charge hmem
      . rw [hmem]
        intro hcaptured
        cases hcaptured
    . subst hcmd
      rw [hset]
      intro charge' hmem
      rcases List.mem_or_eq_of_mem_set hmem with hmem | hmem
      . exact hcharges charge' hmem
      . rw [hmem]
        intro hcaptured
        simp only [hstatus, ChargeStatus.captured] at hcaptured
        subst hcaptured
        rw [h n k charge hop hcharge hstatus] at htimer
        cases htimer
  . subst ha
    cases e with
    | settle n status =>
      simp only [envStep] at henv
      split at henv
      . next charge hcharge =>
        split at henv
        . injection henv with henv
          rw [← henv]
          intro charge' hmem
          rcases List.mem_or_eq_of_mem_set hmem with hmem | hmem
          . exact hcharges charge' hmem
          . rw [hmem]
            exact h charge hcharge
        . cases henv
      . cases henv
    | _ =>
      injection henv with henv
      rw [← henv]
      exact hcharges
  . rw [hcrash]
    exact hcharges

theorem captured_once {c : System D} (h : c.ReachableBy D tasks Timely) (id : String)
    : CapturedOnce c.world id := by
  have htimely : ∀ charge ∈ c.world.charges, charge.Timely := by
    apply h.induction (Q := fun c => ∀ charge ∈ c.world.charges, charge.Timely)
    . intro c hstart
      rcases hstart.world with ⟨_, _, hworld⟩
      simp [hworld, World.start]
    . intro c c' a _ hcharges ha hact
      exact ha.act hact hcharges
  rcases h.reachable.exists_books with ⟨b, hb, hdescribed⟩
  have hcharges : b.charges = c.world.charges := by rw [hdescribed.books]; rfl
  have htransactions : b.transactions = c.world.ledger.transactions := by
    rw [hdescribed.books]
    rfl
  rw [← hcharges] at htimely
  refine ⟨?_, ?_⟩
  . intro n n' charge charge' hn hn' hid hid'
    rw [← hcharges] at hn hn'
    exact hb.captured_inj htimely hn hn' (hid.trans hid'.symm)
  . intro t ht hid hfailed charge hcharge hid'
    rw [← hcharges] at hcharge
    rw [← htransactions] at ht
    exact hb.not_captured_of_failed htimely ht hfailed hcharge (hid'.trans hid.symm)

-- A check for `Timely` that can be computed.
def timely (c : System D) (a : (machine D).Act) : Bool :=
  match a with
  | .run _ o =>
    !o.timer || c.world.charges.all fun charge =>
      match charge.status with
      | .pending captured => !captured
      | _ => true
  | .env (.settle n status) =>
    (c.world.charges[n]?).all fun charge =>
      match status with
      | .threw _ captured => !captured
      | status => !status.captured || !charge.timedOut
  | _ => true

theorem timely_of_check (c : System D) (a : (machine D).Act) (h : timely c a = true)
    : c.Timely a := by
  cases a with
  | run i o =>
    intro n k charge _ hcharge hstatus
    simp only [timely, Bool.or_eq_true, Bool.not_eq_true', List.all_eq_true] at h
    rcases h with h | h
    . exact h
    . have := h charge (List.mem_of_getElem? hcharge)
      simp [hstatus] at this
  | env e =>
    cases e with
    | settle n status =>
      intro charge hcharge hcaptured
      simp only [timely, hcharge, Option.all_some] at h
      cases status with
      | threw message captured => simp_all [ChargeStatus.captured]
      | _ => simp_all
    | _ => trivial
  | _ => trivial

/--
The first call is given up and comes to nothing, the second gateway accepts.
-/
theorem captured_once_failover
    : ∃ c : System Scenario.deployment,
        (c.world.charges.map (fun charge => charge.status.captured)) = [false, true] ∧
        CapturedOnce c.world "txn-1" := by
  have hrun : (Scenario.outcomeIf timely (fun _ => .create Scenario.order)
      (Scenario.upToCharge ⟨0, 0⟩ "txn-1" ++ [.run ⟨0, 0⟩ { timer := true }] ++
        Scenario.steps ⟨0, 0⟩ 24 ++
        [Scenario.settle 0 (.answered (Scenario.declined "insufficient funds")),
          Scenario.settle 1 (.answered (Scenario.accepted "payu_1"))] ++
        Scenario.steps ⟨0, 0⟩ 12)).any
      (fun c => (c.world.charges.map (fun charge => charge.status.captured)) = [false, true]) =
        true := by
    decide +kernel
  rcases Scenario.exists_reachableBy timely_of_check hrun with ⟨c, hreachable, hcharges⟩
  exact ⟨c, of_decide_eq_true hcharges, captured_once hreachable "txn-1"⟩

/--
The service gives the first call up after 1500 ms and charges at the second gateway. Then both
gateways accept.
-/
theorem captured_twice
    : ∃ c : System Scenario.deployment,
        c.Reachable Scenario.deployment (fun _ => .create Scenario.order) ∧
        ¬CapturedOnce c.world "txn-1" := by
  have hrun : (Scenario.outcome (fun _ => .create Scenario.order)
      (Scenario.upToCharge ⟨0, 0⟩ "txn-1" ++ [.run ⟨0, 0⟩ { timer := true }] ++
        Scenario.steps ⟨0, 0⟩ 24 ++
        [Scenario.settle 0 (.answered (Scenario.accepted "upi_1")),
          Scenario.settle 1 (.answered (Scenario.accepted "payu_1"))])).any
      (fun c => (c.world.charges.map
        (fun charge => (charge.request.transactionId, charge.status.captured))) =
        [("txn-1", true), ("txn-1", true)]) = true := by
    decide +kernel
  rcases Scenario.exists_reachable hrun with ⟨c, hreachable, hcharges⟩
  refine ⟨c, hreachable, fun h => ?_⟩
  have hcaptured : ∀ n < 2, ∃ charge, c.world.charges[n]? = some charge ∧
      charge.request.transactionId = "txn-1" ∧ charge.status.captured = true := by
    intro n hn
    have hmap := congrArg (fun charges => charges[n]?) (of_decide_eq_true hcharges)
    rcases show n = 0 ∨ n = 1 by omega with hn | hn
    all_goals
      subst hn
      simp only [List.getElem?_map, List.getElem?_cons_zero, List.getElem?_cons_succ,
        Option.map_eq_some_iff, Prod.mk.injEq] at hmap
      exact hmap
  rcases hcaptured 0 (by omega) with ⟨charge, hn, hid, hcharge⟩
  rcases hcaptured 1 (by omega) with ⟨charge', hn', hid', hcharge'⟩
  have := h.once 0 1 charge charge' hn hn' hid hid' hcharge hcharge'
  omega

end System

end PaymentOrchestration
