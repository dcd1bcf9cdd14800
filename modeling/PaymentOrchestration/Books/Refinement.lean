import PaymentOrchestration.Books.Effects
import PaymentOrchestration.Books.Trail

/-!
This module shows that every run of the service is a run of its books.
-/

namespace PaymentOrchestration

open StateMachine

/--
The process has locked the row, nobody else changes it.
-/
def Ledger.Owns (ledger : Ledger) (i : Pid) (row : Transaction) : Prop :=
  row ∈ ledger.transactions ∧ ledger.locks row.id = some i

namespace Party

/--
The open database transaction of a process is the one its party remembers.
-/
def Open (D : Deployment) (ledger : Ledger) (i : Pid) (party : Party) : Prop :=
  match party.tx with
  | .idle => ledger.sessions i = none
  | .begun => ∃ t, ledger.sessions i = some ⟨t, none, none, []⟩
  | .locked row => ledger.Owns i row ∧ ∃ t, ledger.sessions i = some ⟨t, some row.id, none, []⟩
  | .saved row row' =>
    ledger.Owns i row ∧ ∃ t, ledger.sessions i = some ⟨t, some row.id, some row', []⟩
  | .audited row row' audit =>
    ledger.Owns i row ∧
      (∃ step, Permit D party.role step ∧ row = step.row ∧ row' = step.result ∧
        audit = step.audit) ∧
      ∃ t, ledger.sessions i =
        some ⟨t, some row.id, some row', [{ audit with createdAt := t }]⟩

variable {D : Deployment} {ledger ledger' : Ledger} {i : Pid} {party : Party}

/--
The database transaction stays open as long as the process only does what is no part of it.
-/
theorem Open.frame {party' : Party} (h : party.Open D ledger i) (htx : party'.tx = party.tx)
    (hrole : party'.role = party.role ∨ ∀ step, ¬Permit D party.role step)
    (hsession : ledger'.sessions i = ledger.sessions i)
    (howns : ∀ row, ledger.Owns i row → ledger'.Owns i row) : party'.Open D ledger' i := by
  unfold Open at h ⊢
  rw [htx, hsession]
  split at h
  . exact h
  . exact h
  . exact ⟨howns _ h.left, h.right⟩
  . exact ⟨howns _ h.left, h.right⟩
  . rcases h with ⟨h, ⟨step, hpermit, hstep⟩, hsession⟩
    rcases hrole with hrole | hrole
    . rw [hrole]
      exact ⟨howns _ h, ⟨step, hpermit, hstep⟩, hsession⟩
    . exact absurd hpermit (hrole step)

end Party

-- A role without a row of its own makes no transitions.
theorem Permit.not_of_target {D : Deployment} {role : Role} (h : role.target = none)
    (step : TransitionStep) : ¬Permit D role step := by
  intro hpermit
  rw [hpermit.target] at h
  cases h

namespace Role

variable {D : Deployment} {role : Role} {step : TransitionStep}

theorem got_cases (role : Role) (value : Option Stored)
    : role.got value = role ∨
        ∃ dto t, role = .creating dto .start ∧ value = some (.completed t) ∧
          role.got value = .creating dto (.cached t) := by
  unfold got
  split
  . exact .inr ⟨_, _, rfl, rfl, rfl⟩
  . exact .inl rfl

end Role

namespace Service

variable {D : Deployment}

def books (c : Service D) : Books :=
  c.world.books (fun i => (c.state i).role)

structure Inv (c : Service D) : Prop where
  books : c.books.Inv
  sessions : ∀ i, (c.state i).Open D c.world.ledger i
  stats : (c.world.gatewayStats.map GatewayStats.gateway).Nodup

-- Process `i` has changed the world to `w` and is in state `party` now.
def after (c : Service D) (i : Pid) (w : World) (party : Party) : Service D :=
  { world := w, state := Function.update c.state i party }

variable {c : Service D} {i : Pid} {w : World} {party : Party}

theorem books_after
    : (c.after i w party).books = w.books (Function.update c.books.role i party.role) := by
  unfold books after
  congr
  funext j
  by_cases hj : j = i
  . subst hj
    simp
  . simp [hj, World.books]

theorem books_after_of_role (h : party.role = (c.state i).role)
    : (c.after i w party).books = w.books c.books.role := by
  rw [books_after, h]
  congr
  exact Function.update_eq_self i c.books.role

/--
Operations on a store write what the role allows and may find what has been written before.
-/
theorem run_of_store
    (hw : ∀ role, w.books role = { c.world.books role with completed := w.completed })
    (hcompleted : ∀ key t, w.completed key t →
      c.world.completed key t ∨ (c.state i).role.mayWrite key (.completed t))
    (hrole : party.role = (c.state i).role)
    : c.books.Run D (c.after i w party).books := by
  rw [books_after_of_role hrole, hw]
  exact .single (.store c.books i w.completed hcompleted)

theorem run_of_get {key : String} {value : Option Stored}
    (hw : ∀ role, w.books role = { c.world.books role with completed := w.completed })
    (hcompleted : ∀ key t, w.completed key t → c.world.completed key t)
    (hkey : (c.state i).role.mayGet key)
    (hvalue : ∀ t, value = some (.completed t) → c.world.completed key t)
    (hrole : party.role = (c.state i).role.got value)
    : c.books.Run D (c.after i w party).books := by
  rcases (c.state i).role.got_cases value with h | ⟨dto, t, hstart, hv, h⟩
  . exact run_of_store hw (fun key t ht => .inl (hcompleted key t ht)) (hrole.trans h)
  . rw [books_after, hw, hrole, h]
    apply Relation.ReflTransGen.head (.hit c.books i dto key t hstart hkey (hvalue t hv))
    exact .single (.forget _ w.completed hcompleted)

theorem run_mock {op : MockOp} (hallowed : (c.state i).allowed D (.mock op))
    : c.books.Run D
        (c.after i (Exec.mock i op c.world).2
          ((c.state i).next (.mock op) (.ok (Exec.mock i op c.world).1))).books := by
  have hset : ∀ key t, (Exec.mock i op c.world).2.completed key t →
      c.world.completed key t ∨ (c.state i).role.mayWrite key (.completed t) := by
    intro key t ht
    rcases Exec.completed_mock ht with h | ⟨mode, h⟩
    . exact .inl h
    . subst h
      exact .inr hallowed
  cases op with
  | get key =>
    cases hreply : (Exec.mock i (.get key) c.world).1 with
    | none =>
      apply run_of_store _ hset rfl
      exact fun _ => Exec.books_mock
    | some value =>
      apply run_of_get _ _ hallowed _ rfl
      . exact fun _ => Exec.books_mock
      . intro key t ht
        rcases Exec.completed_mock ht with h | ⟨mode, h⟩
        . exact h
        . cases h
      . intro t ht
        exact Exec.completed_of_mock_get hreply ht
  | _ =>
    apply run_of_store _ hset rfl
    exact fun _ => Exec.books_mock

theorem run_fallback {op : MockOp} (hallowed : (c.state i).allowed D (.fallback op))
    : c.books.Run D
        (c.after i (Exec.fallback i op c.world).2
          ((c.state i).next (.fallback op) (.ok (Exec.fallback i op c.world).1))).books := by
  have hset : ∀ key t, (Exec.fallback i op c.world).2.completed key t →
      c.world.completed key t ∨ (c.state i).role.mayWrite key (.completed t) := by
    intro key t ht
    rcases Exec.completed_fallback ht with h | ⟨mode, h⟩
    . exact .inl h
    . subst h
      exact .inr hallowed
  cases op with
  | get key =>
    apply run_of_get _ _ hallowed _ rfl
    . exact fun _ => rfl
    . intro key t ht
      rcases Exec.completed_fallback ht with h | ⟨mode, h⟩
      . exact h
      . cases h
    . intro t ht
      exact Exec.completed_of_fallback_get ht
  | _ => exact run_of_store (fun _ => rfl) hset rfl

theorem run_client {op : ClientOp} {o : Oracle} {r : Except Err op.Reply}
    (hallowed : (c.state i).allowed D (.client op))
    (hexec : exec D i (.client op) o c.world = some (r, w))
    : c.books.Run D (c.after i w ((c.state i).next (.client op) r)).books := by
  have hset : ∀ key t, (Exec.client op c.world).2.completed key t →
      c.world.completed key t ∨ (c.state i).role.mayWrite key (.completed t) := by
    intro key t ht
    rcases Exec.completed_client ht with h | ⟨expiry, mode, h⟩
    . exact .inl h
    . subst h
      exact .inr hallowed
  rcases Exec.statement_cases hexec with ⟨hw, hr | hr⟩ | ⟨hw, hr⟩
  . subst hw hr
    cases op with
    | get key =>
      apply run_of_get _ _ hallowed _ rfl
      . exact fun _ => rfl
      . intro key t ht
        rcases Exec.completed_client ht with h | ⟨expiry, mode, h⟩
        . exact h
        . cases h
      . intro t ht
        exact Exec.completed_of_client_get ht
    | _ => exact run_of_store (fun _ => rfl) hset rfl
  . subst hw hr
    exact run_of_store (fun _ => rfl) hset (by cases op <;> rfl)
  . subst hw hr
    exact run_of_store (fun _ => rfl) (fun _ _ ht => .inl ht) (by cases op <;> rfl)

theorem run_quiet (hw : ∀ role, w.books role = c.world.books role)
    (hrole : party.role = (c.state i).role) : c.books.Run D (c.after i w party).books := by
  rw [books_after_of_role hrole, hw]
  exact .refl

theorem run_insertTransaction {txn : NewTransaction} {o : Oracle} {r : Except Err Transaction}
    (hallowed : (c.state i).allowed D (.insertTransaction txn))
    (hexec : exec D i (.insertTransaction txn) o c.world = some (r, w))
    : c.books.Run D (c.after i w ((c.state i).next (.insertTransaction txn) r)).books := by
  rcases hallowed with ⟨dto, g, fb, hrole, hnodup, htxn⟩
  rcases Exec.insertTransaction_cases hexec with ⟨hw, e, hr⟩ | ⟨hid, hkey, hr, hw⟩
  . subst hw hr
    rw [books_after]
    exact .single (.abort _ i)
  . subst hw
    rw [books_after]
    apply Relation.ReflTransGen.single
    apply Books.Step.insert c.books i dto g fb (txn.row o.id) _ hrole hnodup
    . rw [htxn]
      rfl
    . exact hid
    . exact hkey
    . rcases hr with hr | ⟨e, hr⟩
      . subst hr htxn
        simp [Party.next, Role.inserted, hrole, TransactionsService.newTransaction]
      . subst hr
        simp [Party.next, Role.abort, hrole]

theorem run_commit (hinv : c.Inv) {o : Oracle} {r : Except Err Unit}
    (hallowed : (c.state i).allowed D .commit)
    (hexec : exec D i .commit o c.world = some (r, w))
    : c.books.Run D (c.after i w ((c.state i).next .commit r)).books := by
  rcases hallowed with ⟨row, row', audit, htx⟩
  have hopen := hinv.sessions i
  unfold Party.Open at hopen
  rw [htx] at hopen
  rcases hopen with ⟨howns, ⟨step, hpermit, hrow, hrow', haudit⟩, t, hsession⟩
  subst hrow hrow' haudit
  rcases Exec.commit_cases hexec with ⟨session, hsession', ⟨hw, e, hr⟩ | ⟨hr, hw⟩⟩
  . subst hw hr
    rw [books_after]
    exact .single (.abort _ i)
  . rw [hsession] at hsession'
    injection hsession' with hsession'
    subst hw hsession'
    rw [books_after]
    apply Relation.ReflTransGen.single
    apply Books.Step.commit c.books i step t _ hpermit howns.left
    rcases hr with hr | ⟨e, hr⟩
    . subst hr
      simp only [Party.next, htx]
      exact .inl rfl
    . subst hr
      exact .inr rfl

theorem run_race {n : Nat} {o : Oracle} {r : Except Err GatewayChargeResponse}
    (hallowed : (c.state i).allowed D (.race n))
    (hexec : exec D i (.race n) o c.world = some (r, w))
    : c.books.Run D (c.after i w ((c.state i).next (.race n) r)).books := by
  rcases hallowed with ⟨dto, row, g, fb, hrole⟩
  rcases Exec.race_cases hexec with ⟨charge, hcharge, h⟩
  have hfailed : ∀ e, ((c.state i).next (.race n) (.error e)).role =
      .creating dto (.looping row g fb .failed) := by
    intro e
    simp [Party.next, Role.raced, hrole]
  rw [books_after]
  apply Relation.ReflTransGen.single
  rcases h with ⟨response, hstatus, hr, hw⟩ | ⟨message, captured, e, hstatus, hr, hw⟩ |
    ⟨captured, e, ⟨hstatus, _⟩, hr, hw⟩
  . subst hr hw
    exact .answer c.books i dto row g fb n charge response hrole hcharge hstatus
  . subst hr hw
    rw [hfailed]
    exact .threw c.books i dto row g fb n charge message captured hrole hcharge hstatus
  . subst hr hw
    rw [hfailed]
    exact .timeout c.books i dto row g fb n charge captured hrole hcharge hstatus

/--
What a command does to the world is a step of the books, or does not concern them.
-/
theorem run_exec (hinv : c.Inv) {cmd : Cmd} {o : Oracle} {r : Except Err cmd.Resp}
    (hallowed : (c.state i).allowed D cmd) (hexec : exec D i cmd o c.world = some (r, w))
    : c.books.Run D (c.after i w ((c.state i).next cmd r)).books := by
  cases cmd with
  | mock op =>
    simp only [exec, Option.some.injEq, Prod.mk.injEq] at hexec
    rcases hexec with ⟨hr, hw⟩
    subst hr hw
    exact run_mock hallowed
  | client op => exact run_client hallowed hexec
  | fallback op =>
    simp only [exec, Option.some.injEq, Prod.mk.injEq] at hexec
    rcases hexec with ⟨hr, hw⟩
    subst hr hw
    exact run_fallback hallowed
  | findTransaction conditions =>
    rcases Exec.findTransaction_cases hexec with ⟨hr, hw⟩ | ⟨row, hr, hw, hpick, hnone⟩
    . subst hr hw
      exact run_quiet (fun _ => rfl) rfl
    . subst hr hw
      rw [books_after]
      apply Relation.ReflTransGen.single
      apply Books.Step.find c.books i conditions row hallowed
      . intro t ht
        exact Exec.mem_matching.mp (List.mem_of_getElem? (hpick.symm.trans ht))
      . intro hrow t ht condition hcondition
        by_contra hholds
        have : t ∈ matching D conditions c.world.ledger.transactions :=
          Exec.mem_matching.mpr ⟨ht, condition, hcondition, by simpa using hholds⟩
        rw [hnone hrow] at this
        cases this
  | insertTransaction txn => exact run_insertTransaction hallowed hexec
  | insertAudit audit =>
    rcases hallowed with ⟨dto, row, g, fb, hrole, haudit⟩
    have hnext : ((c.state i).next (.insertAudit audit) r).role = (c.state i).role := by
      cases r <;> rfl
    rcases Exec.insertAudit_cases hexec with hw | hw
    . subst hw
      exact run_quiet (fun _ => rfl) hnext
    . subst hw haudit
      rw [books_after_of_role hnext]
      exact .single (.announce c.books i dto row g fb c.world.clock hrole)
  | begin =>
    rcases Exec.begin_cases hexec with ⟨hw, e, hr⟩ | ⟨hw, hr⟩
    . subst hr hw
      exact run_quiet (fun _ => rfl) rfl
    . subst hr hw
      exact run_quiet (fun _ => rfl) rfl
  | selectForUpdate id =>
    rcases Exec.selectForUpdate_cases hexec with ⟨session, _, ⟨hw, hr | ⟨e, hr⟩⟩ | h⟩
    . subst hr hw
      exact run_quiet (fun _ => rfl) rfl
    . subst hr hw
      exact run_quiet (fun _ => rfl) rfl
    . rcases h with ⟨row, hr, _, _, _, hw⟩
      subst hr hw
      exact run_quiet (fun _ => rfl) rfl
  | saveTransaction row =>
    have hnext : ((c.state i).next (.saveTransaction row) r).role = (c.state i).role := by
      unfold Party.next
      grind
    rcases Exec.saveTransaction_cases hexec with ⟨session, _, ⟨hw, _⟩ | ⟨_, hw⟩⟩
    . subst hw
      exact run_quiet (fun _ => rfl) hnext
    . subst hw
      exact run_quiet (fun _ => rfl) hnext
  | saveAudit audit =>
    have hnext : ((c.state i).next (.saveAudit audit) r).role = (c.state i).role := by
      unfold Party.next
      grind
    rcases Exec.saveAudit_cases hexec with ⟨session, _, ⟨hw, _⟩ | ⟨_, hw⟩⟩
    . subst hw
      exact run_quiet (fun _ => rfl) hnext
    . subst hw
      exact run_quiet (fun _ => rfl) hnext
  | commit => exact run_commit hinv hallowed hexec
  | rollback =>
    simp only [exec, Option.some.injEq, Prod.mk.injEq] at hexec
    rcases hexec with ⟨hr, hw⟩
    subst hr hw
    exact run_quiet (fun _ => rfl) rfl
  | findEvent id =>
    rcases Exec.findEvent_cases hexec with ⟨hw, hr | ⟨e, hr⟩⟩ | ⟨event, hr, hevent, _, hw⟩
    . subst hr hw
      exact run_quiet (fun _ => rfl) rfl
    . subst hr hw
      exact run_quiet (fun _ => rfl) rfl
    . subst hr hw
      rw [books_after]
      exact .single (.load c.books i event hallowed hevent)
  | insertEvent event =>
    have hnext : ((c.state i).next (.insertEvent event) r).role = (c.state i).role := by
      cases r <;> rfl
    rcases Exec.insertEvent_cases hexec with hw | ⟨hid, hw⟩
    . subst hw
      exact run_quiet (fun _ => rfl) hnext
    . subst hw
      rw [books_after_of_role hnext]
      exact .single (.ingest c.books (event.row o.id) hid)
  | saveEvent event' =>
    rcases hallowed with ⟨event, now, hevent, _, hevent'⟩
    have hnext : ((c.state i).next (.saveEvent event') r).role = (c.state i).role := by
      cases r <;> rfl
    rcases Exec.statement_cases hexec with ⟨hw, _⟩ | ⟨hw, _⟩
    . subst hw hevent'
      rw [books_after_of_role hnext]
      exact .single (.mark c.books i event now hevent)
    . subst hw
      exact run_quiet (fun _ => rfl) hnext
  | findStats =>
    rcases Exec.query_cases hexec with ⟨hw, hr⟩
    subst hw
    exact run_quiet (fun _ => rfl) (by cases r <;> rfl)
  | findStatsOf gateway =>
    rcases Exec.query_cases hexec with ⟨hw, hr⟩
    subst hw
    exact run_quiet (fun _ => rfl) (by cases r <;> rfl)
  | saveStats stats =>
    have hnext : ((c.state i).next (.saveStats stats) r).role = (c.state i).role := by
      cases r <;> rfl
    rcases Exec.statement_cases hexec with ⟨hw, _⟩ | ⟨hw, _⟩
    . subst hw
      exact run_quiet (fun _ => rfl) hnext
    . subst hw
      exact run_quiet (fun _ => rfl) hnext
  | charge gateway request =>
    rcases hallowed with ⟨dto, row, fb, hrole, hrequest⟩
    simp only [exec, Option.some.injEq, Prod.mk.injEq] at hexec
    rcases hexec with ⟨hr, hw⟩
    subst hr hw hrequest
    have hnext : ((c.state i).next (.charge gateway (TransactionsService.chargeRequest dto row.id
        gateway)) (.ok c.world.charges.length)).role =
        .creating dto (.looping row gateway fb (.charging c.world.charges.length)) := by
      simp [Party.next, Role.charged, hrole]
    rw [books_after]
    unfold Exec.charge
    rw [hnext]
    exact .single (.charge c.books i dto row gateway fb hrole)
  | race n => exact run_race hallowed hexec
  | now =>
    simp only [exec, Option.some.injEq, Prod.mk.injEq] at hexec
    rcases hexec with ⟨hr, hw⟩
    subst hr hw
    exact run_quiet (fun _ => rfl) rfl

theorem Inv.gets (hinv : c.Inv) {key : String} {value : Option Stored}
    (hvalue : ∀ t, value = some (.completed t) → c.world.completed key t)
    : Party.gets key value := by
  intro t ht
  exact (hinv.books.completed key t (hvalue t ht)).right

/--
The world answers a party as the protocol says.
-/
theorem Inv.answers (hinv : c.Inv) {cmd : Cmd} {o : Oracle} {r : Except Err cmd.Resp}
    (hallowed : (c.state i).allowed D cmd) (hexec : exec D i cmd o c.world = some (r, w))
    : (c.state i).answers D cmd r := by
  cases cmd with
  | mock op =>
    simp only [exec, Option.some.injEq, Prod.mk.injEq] at hexec
    rcases hexec with ⟨hr, hw⟩
    subst hr hw
    cases op with
    | get key =>
      cases hreply : (Exec.mock i (.get key) c.world).1 with
      | none => trivial
      | some value =>
        apply hinv.gets
        intro t ht
        exact Exec.completed_of_mock_get hreply ht
    | _ => simp [Party.answers]
  | client op =>
    rcases Exec.statement_cases hexec with ⟨hw, hr | hr⟩ | ⟨hw, hr⟩
    . subst hr
      cases op with
      | get key =>
        apply hinv.gets
        intro t ht
        exact Exec.completed_of_client_get ht
      | _ => trivial
    . subst hr
      cases op <;> trivial
    . subst hr
      cases op <;> trivial
  | fallback op =>
    simp only [exec, Option.some.injEq, Prod.mk.injEq] at hexec
    rcases hexec with ⟨hr, hw⟩
    subst hr hw
    cases op with
    | get key =>
      apply hinv.gets
      intro t ht
      exact Exec.completed_of_fallback_get ht
    | _ => trivial
  | findTransaction conditions =>
    rcases Exec.findTransaction_cases hexec with ⟨hr, _⟩ | ⟨row, hr, _, hpick, _⟩
    . subst hr
      trivial
    . subst hr
      cases row with
      | none => trivial
      | some t => exact (Exec.mem_matching.mp (List.mem_of_getElem? hpick.symm)).right
  | insertTransaction txn =>
    rcases Exec.insertTransaction_cases hexec with ⟨_, e, hr⟩ | ⟨_, _, hr | ⟨e, hr⟩, _⟩
    . subst hr
      trivial
    . subst hr
      rfl
    . subst hr
      trivial
  | selectForUpdate id =>
    rcases Exec.selectForUpdate_cases hexec with ⟨session, _, ⟨_, hr | ⟨e, hr⟩⟩ | h⟩
    . subst hr
      trivial
    . subst hr
      trivial
    . rcases h with ⟨row, hr, hrow, hid, _, _⟩
      subst hr
      refine ⟨hid, ?_⟩
      intro dto phase hrole
      rcases hallowed with ⟨_, htarget⟩
      have hsound : c.books.Sound (c.state i).role := hinv.books.role i
      rw [hrole] at htarget hsound
      cases phase with
      | looping row₀ g fb stage =>
        rcases hsound with ⟨hknown, hkey⟩
        simp only [Role.target, Option.some.injEq] at htarget
        have := hinv.books.identity_eq_of_id hrow hknown (htarget.trans hid.symm)
        simp only [Transaction.identity, Prod.mk.injEq] at this
        rw [← hkey, this.right.left]
      | _ => cases htarget
  | rollback =>
    simp only [exec, Option.some.injEq, Prod.mk.injEq] at hexec
    rcases hexec with ⟨hr, _⟩
    subst hr
    trivial
  | findStats =>
    rcases Exec.query_cases hexec with ⟨_, hr | ⟨e, hr⟩⟩
    . subst hr
      exact hinv.stats
    . subst hr
      trivial
  | charge gateway request =>
    simp only [exec, Option.some.injEq, Prod.mk.injEq] at hexec
    rcases hexec with ⟨hr, _⟩
    subst hr
    trivial
  | now =>
    simp only [exec, Option.some.injEq, Prod.mk.injEq] at hexec
    rcases hexec with ⟨hr, _⟩
    subst hr
    trivial
  | _ => cases r <;> trivial

/--
What stays in place around a step of process `i`.
-/
structure Frame (c : Service D) (i : Pid) (w : World) (party : Party) : Prop where
  self : party.Open D w.ledger i
  sessions : ∀ j, j ≠ i → w.ledger.sessions j = c.world.ledger.sessions j
  owns : ∀ j row, j ≠ i → c.world.ledger.Owns j row → w.ledger.Owns j row
  stats : w.gatewayStats.map GatewayStats.gateway =
    c.world.gatewayStats.map GatewayStats.gateway

theorem Frame.open_after (hinv : c.Inv) (h : Frame c i w party) (j : Pid)
    : ((c.after i w party).state j).Open D w.ledger j := by
  unfold after
  by_cases hj : j = i
  . subst hj
    simpa using h.self
  . simp only [Function.update_of_ne hj]
    apply (hinv.sessions j).frame rfl (.inl rfl) (h.sessions j hj)
    intro row
    exact h.owns j row hj

-- The step does not concern the tables of payments.
theorem frame_of_ledger (hinv : c.Inv) (hledger : w.ledger = c.world.ledger)
    (hstats : w.gatewayStats.map GatewayStats.gateway =
      c.world.gatewayStats.map GatewayStats.gateway)
    (htx : party.tx = (c.state i).tx)
    (hrole : party.role = (c.state i).role ∨ ∀ step, ¬Permit D (c.state i).role step)
    : Frame c i w party := by
  refine ⟨?_, ?_, ?_, hstats⟩
  . apply (hinv.sessions i).frame htx hrole
    . rw [hledger]
    . intro row h
      rwa [hledger]
  . intro j _
    rw [hledger]
  . intro j row _ h
    rwa [hledger]

theorem frame_of_session {session : Session}
    (hself : party.Open D (Exec.setSession i session c.world).ledger i)
    : Frame c i (Exec.setSession i session c.world) party := by
  refine ⟨hself, ?_, ?_, rfl⟩
  . intro j hj
    exact Function.update_of_ne hj _ _
  . intro j row _ h
    exact h

theorem release_locks {ledger : Ledger} {id : String} {j : Pid} (hj : j ≠ i)
    (h : ledger.locks id = some j) : (ledger.release i).locks id = some j := by
  unfold Ledger.release
  simp only [h]
  rw [if_neg]
  simpa using hj

theorem frame_of_release (ledger : Ledger) (htx : party.tx = .idle)
    (hledger : w.ledger = ledger.release i)
    (hsessions : ledger.sessions = c.world.ledger.sessions)
    (hlocks : ledger.locks = c.world.ledger.locks)
    (hrows : ∀ j row, j ≠ i → c.world.ledger.Owns j row → row ∈ ledger.transactions)
    (hstats : w.gatewayStats = c.world.gatewayStats)
    : Frame c i w party := by
  refine ⟨?_, ?_, ?_, ?_⟩
  . unfold Party.Open
    rw [htx, hledger]
    exact Function.update_self _ _ _
  . intro j hj
    rw [hledger]
    simp only [Ledger.release]
    rw [Function.update_of_ne hj, hsessions]
  . intro j row hj h
    rw [hledger]
    refine ⟨hrows j row hj h, release_locks hj ?_⟩
    rw [hlocks]
    exact h.right
  . rw [hstats]

theorem frame_commit (hinv : c.Inv) {o : Oracle} {r : Except Err Unit}
    (hallowed : (c.state i).allowed D .commit)
    (hexec : exec D i .commit o c.world = some (r, w))
    : Frame c i w ((c.state i).next .commit r) := by
  rcases hallowed with ⟨row, row', audit, htx⟩
  have hidle : ((c.state i).next .commit r).tx = .idle := by
    cases r with
    | error e => rfl
    | ok _ => simp [Party.next, htx]
  have hopen := hinv.sessions i
  unfold Party.Open at hopen
  rw [htx] at hopen
  rcases hopen with ⟨howns, ⟨step, _, hrow, hrow', _⟩, t, hsession⟩
  rcases Exec.commit_cases hexec with ⟨session, hsession', ⟨hw, _⟩ | ⟨_, hw⟩⟩
  . subst hw
    apply frame_of_release c.world.ledger hidle rfl rfl rfl
    . intro j row hj h
      exact h.left
    . rfl
  . rw [hsession] at hsession'
    injection hsession' with hsession'
    subst hsession' hw
    apply frame_of_release (c.world.ledger.apply _) hidle rfl rfl rfl
    . intro j row₁ hj h
      apply Books.mem_writeRow_of_ne h.left
      intro hid
      -- Two processes would hold the lock of one row.
      have hlock : c.world.ledger.locks row₁.id = some i := by
        rw [hid, hrow', TransitionStep.result_id, ← hrow]
        exact howns.right
      rw [h.right] at hlock
      injection hlock with hlock
      exact hj hlock
    . rfl

theorem frame_selectForUpdate (hinv : c.Inv) {id : String} {o : Oracle}
    {r : Except Err (Option Transaction)}
    (hallowed : (c.state i).allowed D (.selectForUpdate id))
    (hexec : exec D i (.selectForUpdate id) o c.world = some (r, w))
    : Frame c i w ((c.state i).next (.selectForUpdate id) r) := by
  rcases hallowed with ⟨htx, _⟩
  have hopen := hinv.sessions i
  unfold Party.Open at hopen
  rw [htx] at hopen
  rcases hopen with ⟨t, hsession⟩
  rcases Exec.selectForUpdate_cases hexec with ⟨session, hsession', ⟨hw, hr | ⟨e, hr⟩⟩ | h⟩
  . subst hr hw
    exact frame_of_ledger hinv rfl rfl rfl (.inl rfl)
  . subst hr hw
    exact frame_of_ledger hinv rfl rfl rfl (.inl rfl)
  . rw [hsession] at hsession'
    injection hsession' with hsession'
    subst hsession'
    rcases h with ⟨row, hr, hrow, hid, hlock, hw⟩
    subst hr hw hid
    refine ⟨?_, ?_, ?_, rfl⟩
    . refine ⟨⟨hrow, Function.update_self _ _ _⟩, t, ?_⟩
      exact Function.update_self _ _ _
    . intro j hj
      exact Function.update_of_ne hj _ _
    . intro j row₁ hj h
      refine ⟨h.left, ?_⟩
      by_cases hid : row₁.id = row.id
      . rw [← hid, h.right] at hlock
        simp [hj] at hlock
      . simp only [Function.update_of_ne hid]
        exact h.right

theorem got_cases_permit {role : Role} {value : Option Stored}
    : role.got value = role ∨ ∀ step, ¬Permit D role step := by
  rcases role.got_cases value with h | ⟨dto, t, hrole, _, _⟩
  . exact .inl h
  . subst hrole
    exact .inr (Permit.not_of_target rfl)

theorem frame_exec (hinv : c.Inv) {cmd : Cmd} {o : Oracle} {r : Except Err cmd.Resp}
    (hallowed : (c.state i).allowed D cmd) (hexec : exec D i cmd o c.world = some (r, w))
    : Frame c i w ((c.state i).next cmd r) := by
  cases cmd with
  | mock op =>
    simp only [exec, Option.some.injEq, Prod.mk.injEq] at hexec
    rcases hexec with ⟨hr, hw⟩
    have hledger : w.ledger = c.world.ledger ∧ w.gatewayStats = c.world.gatewayStats := by
      subst hw
      unfold Exec.mock
      dsimp only
      split <;> exact ⟨rfl, rfl⟩
    have hstats := congrArg (List.map GatewayStats.gateway) hledger.right
    subst hr
    cases op with
    | get key =>
      cases (Exec.mock i (.get key) c.world).1 with
      | none => exact frame_of_ledger hinv hledger.left hstats rfl (.inl rfl)
      | some value => exact frame_of_ledger hinv hledger.left hstats rfl got_cases_permit
    | _ => exact frame_of_ledger hinv hledger.left hstats rfl (.inl rfl)
  | client op =>
    have hledger : w.ledger = c.world.ledger ∧ w.gatewayStats = c.world.gatewayStats := by
      rcases Exec.statement_cases hexec with ⟨hw, _⟩ | ⟨hw, _⟩
      all_goals
        subst hw
        exact ⟨rfl, rfl⟩
    have hstats := congrArg (List.map GatewayStats.gateway) hledger.right
    cases r with
    | error e =>
      have hnext : (c.state i).next (.client op) (.error e) = c.state i := by
        cases op <;> rfl
      rw [hnext]
      exact frame_of_ledger hinv hledger.left hstats rfl (.inl rfl)
    | ok reply =>
      cases op with
      | get key => exact frame_of_ledger hinv hledger.left hstats rfl got_cases_permit
      | _ => exact frame_of_ledger hinv hledger.left hstats rfl (.inl rfl)
  | fallback op =>
    simp only [exec, Option.some.injEq, Prod.mk.injEq] at hexec
    rcases hexec with ⟨hr, hw⟩
    subst hr hw
    cases op with
    | get key => exact frame_of_ledger hinv rfl rfl rfl got_cases_permit
    | _ => exact frame_of_ledger hinv rfl rfl rfl (.inl rfl)
  | findTransaction conditions =>
    have hpermit : ∀ step, ¬Permit D (c.state i).role step := by
      rcases hallowed with ⟨dto, hrole, _⟩ | ⟨event, x, hrole, _⟩
      all_goals
        rw [hrole]
        exact Permit.not_of_target rfl
    rcases Exec.findTransaction_cases hexec with ⟨hr, hw⟩ | ⟨row, hr, hw, _⟩
    . subst hr hw
      exact frame_of_ledger hinv rfl rfl rfl (.inl rfl)
    . subst hr hw
      exact frame_of_ledger hinv rfl rfl rfl (.inr hpermit)
  | insertTransaction txn =>
    have hpermit : ∀ step, ¬Permit D (c.state i).role step := by
      rcases hallowed with ⟨dto, g, fb, hrole, _⟩
      rw [hrole]
      exact Permit.not_of_target rfl
    have htx : ((c.state i).next (.insertTransaction txn) r).tx = (c.state i).tx := by
      cases r <;> rfl
    rcases Exec.insertTransaction_cases hexec with ⟨hw, _⟩ | ⟨_, _, _, hw⟩
    . subst hw
      exact frame_of_ledger hinv rfl rfl htx (.inr hpermit)
    . have howns : ∀ j row, c.world.ledger.Owns j row → w.ledger.Owns j row := by
        intro j row h
        subst hw
        exact ⟨List.mem_append_left _ h.left, h.right⟩
      refine ⟨?_, ?_, ?_, ?_⟩
      . apply (hinv.sessions i).frame htx (.inr hpermit)
        . rw [hw]
          rfl
        . exact howns i
      . intro j _
        rw [hw]
        rfl
      . intro j row _
        exact howns j row
      . rw [hw]
  | insertAudit audit =>
    have hnext : (c.state i).next (.insertAudit audit) r = c.state i := by
      cases r <;> rfl
    rw [hnext]
    rcases Exec.insertAudit_cases hexec with hw | hw
    . subst hw
      exact frame_of_ledger hinv rfl rfl rfl (.inl rfl)
    . subst hw
      refine ⟨?_, fun _ _ => rfl, fun _ _ _ h => h, rfl⟩
      exact (hinv.sessions i).frame rfl (.inl rfl) rfl (fun _ h => h)
  | begin =>
    rcases Exec.begin_cases hexec with ⟨hw, e, hr⟩ | ⟨hw, hr⟩
    . subst hr hw
      exact frame_of_ledger hinv rfl rfl rfl (.inl rfl)
    . subst hr hw
      apply frame_of_session
      exact ⟨_, Function.update_self _ _ _⟩
  | selectForUpdate id => exact frame_selectForUpdate hinv hallowed hexec
  | saveTransaction row' =>
    rcases hallowed with ⟨step, htx, _, _⟩
    have hopen := hinv.sessions i
    unfold Party.Open at hopen
    rw [htx] at hopen
    rcases hopen with ⟨howns, t, hsession⟩
    rcases Exec.saveTransaction_cases hexec with ⟨session, hsession', ⟨hw, e, hr⟩ | ⟨hr, hw⟩⟩
    . subst hr hw
      exact frame_of_ledger hinv rfl rfl rfl (.inl rfl)
    . rw [hsession] at hsession'
      injection hsession' with hsession'
      subst hr hw hsession'
      apply frame_of_session
      unfold Party.Open
      simp only [Party.next, htx]
      exact ⟨howns, t, Function.update_self _ _ _⟩
  | saveAudit audit =>
    rcases hallowed with ⟨step, htx, hpermit, haudit⟩
    have hopen := hinv.sessions i
    unfold Party.Open at hopen
    rw [htx] at hopen
    rcases hopen with ⟨howns, t, hsession⟩
    rcases Exec.saveAudit_cases hexec with ⟨session, hsession', ⟨hw, e, hr⟩ | ⟨hr, hw⟩⟩
    . subst hr hw
      exact frame_of_ledger hinv rfl rfl rfl (.inl rfl)
    . rw [hsession] at hsession'
      injection hsession' with hsession'
      subst hr hw hsession'
      apply frame_of_session
      unfold Party.Open
      simp only [Party.next, htx]
      exact ⟨howns, ⟨step, hpermit, rfl, rfl, haudit⟩, t, Function.update_self _ _ _⟩
  | commit => exact frame_commit hinv hallowed hexec
  | rollback =>
    simp only [exec, Option.some.injEq, Prod.mk.injEq] at hexec
    rcases hexec with ⟨hr, hw⟩
    subst hr hw
    apply frame_of_release c.world.ledger rfl rfl rfl rfl
    . intro j row _ h
      exact h.left
    . rfl
  | findEvent id =>
    have hpermit : ∀ step, ¬Permit D (c.state i).role step := by
      rw [show (c.state i).role = .working .polling from hallowed]
      exact Permit.not_of_target rfl
    rcases Exec.findEvent_cases hexec with ⟨hw, hr | ⟨e, hr⟩⟩ | ⟨event, hr, _, _, hw⟩
    . subst hr hw
      exact frame_of_ledger hinv rfl rfl rfl (.inl rfl)
    . subst hr hw
      exact frame_of_ledger hinv rfl rfl rfl (.inl rfl)
    . subst hr hw
      exact frame_of_ledger hinv rfl rfl rfl (.inr hpermit)
  | insertEvent event =>
    have hnext : (c.state i).next (.insertEvent event) r = c.state i := by
      cases r <;> rfl
    rw [hnext]
    rcases Exec.insertEvent_cases hexec with hw | ⟨_, hw⟩
    all_goals
      subst hw
      exact frame_of_ledger hinv rfl rfl rfl (.inl rfl)
  | saveEvent event =>
    have hnext : (c.state i).next (.saveEvent event) r = c.state i := by
      cases r <;> rfl
    rw [hnext]
    rcases Exec.statement_cases hexec with ⟨hw, _⟩ | ⟨hw, _⟩
    all_goals
      subst hw
      exact frame_of_ledger hinv rfl rfl rfl (.inl rfl)
  | findStats =>
    have hnext : (c.state i).next .findStats r = c.state i := by
      cases r <;> rfl
    rw [hnext]
    rcases Exec.query_cases hexec with ⟨hw, _⟩
    subst hw
    exact frame_of_ledger hinv rfl rfl rfl (.inl rfl)
  | findStatsOf gateway =>
    have hnext : (c.state i).next (.findStatsOf gateway) r = c.state i := by
      cases r <;> rfl
    rw [hnext]
    rcases Exec.query_cases hexec with ⟨hw, _⟩
    subst hw
    exact frame_of_ledger hinv rfl rfl rfl (.inl rfl)
  | saveStats stats =>
    have hnext : (c.state i).next (.saveStats stats) r = c.state i := by
      cases r <;> rfl
    rw [hnext]
    rcases Exec.statement_cases hexec with ⟨hw, _⟩ | ⟨hw, _⟩
    . subst hw
      apply frame_of_ledger hinv _ _ rfl (.inl rfl)
      . rfl
      . dsimp only
        rw [List.map_map]
        apply List.map_congr_left
        intro old _
        simp only [Function.comp]
        split
        . next h => rw [h]
        . rfl
    . subst hw
      exact frame_of_ledger hinv rfl rfl rfl (.inl rfl)
  | charge gateway request =>
    rcases hallowed with ⟨dto, row, fb, hrole, _⟩
    simp only [exec, Option.some.injEq, Prod.mk.injEq] at hexec
    rcases hexec with ⟨hr, hw⟩
    subst hr hw
    have hpermit : ∀ step, ¬Permit D (c.state i).role step := by
      rw [hrole]
      intro step hpermit
      cases hpermit
    exact frame_of_ledger hinv rfl rfl rfl (.inr hpermit)
  | race n =>
    rcases hallowed with ⟨dto, row, g, fb, hrole⟩
    have hledger : w.ledger = c.world.ledger ∧ w.gatewayStats = c.world.gatewayStats := by
      rcases Exec.race_cases hexec with ⟨charge, _, ⟨_, _, _, hw⟩ | ⟨_, _, _, _, _, hw⟩ |
        ⟨_, _, _, _, hw⟩⟩
      all_goals
        subst hw
        exact ⟨rfl, rfl⟩
    have hstats := congrArg (List.map GatewayStats.gateway) hledger.right
    have hpermit : ∀ step, ¬Permit D (c.state i).role step := by
      rw [hrole]
      intro step hpermit
      cases hpermit
    exact frame_of_ledger hinv hledger.left hstats rfl (.inr hpermit)
  | now =>
    simp only [exec, Option.some.injEq, Prod.mk.injEq] at hexec
    rcases hexec with ⟨hr, hw⟩
    subst hr hw
    exact frame_of_ledger hinv rfl rfl rfl (.inl rfl)

theorem completed_fallBack {inst : Nat} {key : String} {t : Transaction}
    (h : World.completed
      { c.world with mem := Function.update c.world.mem inst ⟨true, (c.world.mem inst).mockStore⟩ }
      key t)
    : c.world.completed key t := by
  rcases h with h | ⟨inst', hstore⟩
  . exact .inl h
  . by_cases hinst : inst' = inst
    . subst hinst
      simp only [Function.update_self] at hstore
      exact .inr ⟨_, hstore⟩
    . simp only [Function.update_of_ne hinst] at hstore
      exact .inr ⟨_, hstore⟩

theorem run_env {e : EnvAct} (henv : envStep e c.world = some w)
    : c.books.Run D (Service.books { c with world := w }) := by
  cases e with
  | tick ms =>
    injection henv with henv
    subst henv
    exact .refl
  | lose key =>
    injection henv with henv
    subst henv
    apply Relation.ReflTransGen.single
    apply Books.Step.forget c.books
    intro k t h
    rcases h with ⟨entry, hentry, hvalue⟩ | h
    . rcases update_cases hentry with h | ⟨_, h⟩
      . exact .inl ⟨entry, h, hvalue⟩
      . cases h
    . exact .inr h
  | fallBack inst =>
    injection henv with henv
    subst henv
    apply Relation.ReflTransGen.single
    apply Books.Step.forget c.books
    intro k t h
    exact completed_fallBack h
  | settle n status =>
    simp only [envStep] at henv
    split at henv
    . next charge hcharge =>
      split at henv
      . next captured hstatus =>
        injection henv with henv
        subst henv
        exact .single (.settle c.books n charge captured status hcharge hstatus)
      . cases henv
    . cases henv

theorem env_ledger {e : EnvAct} {w w' : World} (henv : envStep e w = some w')
    : w'.ledger = w.ledger ∧ w'.gatewayStats = w.gatewayStats := by
  cases e with
  | settle n status =>
    simp only [envStep] at henv
    split at henv
    . split at henv
      . injection henv with henv
        subst henv
        exact ⟨rfl, rfl⟩
      . cases henv
    . cases henv
  | _ =>
    injection henv with henv
    subst henv
    exact ⟨rfl, rfl⟩

theorem run_crash (inst : Nat) : c.books.Run D (Service.books (Machine.Parties.crash c inst)) := by
  have hrole : (fun i => ((Machine.Parties.crash c inst : Service D).state i).role) =
      fun i => (c.state i).role := by
    funext i
    simp only [Machine.Parties.crash]
    split <;> rfl
  unfold books
  rw [hrole]
  apply Relation.ReflTransGen.single
  apply Books.Step.forget (World.books c.world (fun i => (c.state i).role))
  intro k t h
  rcases h with h | ⟨inst', hstore⟩
  . exact .inl h
  . simp only [Machine.Parties.crash, crashInst] at hstore
    by_cases hinst : inst' = inst
    . subst hinst
      simp at hstore
    . simp only [Function.update_of_ne hinst] at hstore
      exact .inr ⟨_, hstore⟩

theorem sessions_crash (hinv : c.Inv) (inst : Nat) (i : Pid)
    : ((Machine.Parties.crash c inst : Service D).state i).Open D
        (crashInst inst c.world).ledger i := by
  simp only [Machine.Parties.crash, crashInst]
  by_cases hi : i.inst = inst
  . simp [hi, Party.Open, Party.crash]
  . rw [if_neg hi]
    apply (hinv.sessions i).frame rfl (.inl rfl)
    . simp [hi]
    . intro row h
      refine ⟨h.left, ?_⟩
      simp [h.right, hi]

/--
Every step of the parties is a step of the books, or several, or none.
-/
theorem run_of_step (hinv : c.Inv) {c' : Service D}
    (hstep : (machine D).PartyStep (partyProtocol D) c c') : c.books.Run D c'.books := by
  cases hstep with
  | run i cmd o r w hallowed hexec => exact run_exec hinv hallowed hexec
  | env e w henv => exact run_env henv
  | crash inst => exact run_crash inst

theorem Inv.step (hinv : c.Inv) {c' : Service D}
    (hstep : (machine D).PartyStep (partyProtocol D) c c') : c'.Inv := by
  refine ⟨(run_of_step hinv hstep).inv hinv.books, ?_, ?_⟩
  . cases hstep with
    | run i cmd o r w hallowed hexec => exact (frame_exec hinv hallowed hexec).open_after hinv
    | env e w henv =>
      intro i
      dsimp only
      rw [(env_ledger henv).left]
      exact hinv.sessions i
    | crash inst => exact sessions_crash hinv inst
  . cases hstep with
    | run i cmd o r w hallowed hexec =>
      dsimp only
      rw [(frame_exec hinv hallowed hexec).stats]
      exact hinv.stats
    | env e w henv =>
      dsimp only
      rw [(env_ledger henv).right]
      exact hinv.stats
    | crash inst => exact hinv.stats

variable (D) in
theorem conforms (tasks : Pid → Task)
    : Machine.Conforms (M := machine D) (P := partyProtocol D) (fun i => (tasks i).program D)
        (fun i => (tasks i).party) (fun i => (tasks i).finish) Inv := by
  refine ⟨fun i => (tasks i).wp_program, ?_, ?_, ?_, ?_⟩
  . intro i
    unfold Task.party
    split <;> rfl
  . rintro i r s ⟨htx, h⟩
    exact ⟨rfl, h⟩
  . intro c i cmd o r w hinv hallowed hexec
    exact hinv.answers hallowed hexec
  . intro c c' hinv hstep
    exact hinv.step hstep

end Service

namespace System

variable {D : Deployment} {tasks : Pid → Task}

/--
The books describe a state of the service: its tables are theirs, and every call of it that has
finished is where they say.
-/
structure Described (tasks : Pid → Task) (c : System D) (b : Books) : Prop where
  books : b = c.world.books b.role
  finish : ∀ i r, (c.pool i).result = some r → ∃ tx, (tasks i).finish r ⟨b.role i, tx⟩

theorem Described.transactions {c : System D} {b : Books} (h : Described tasks c b)
    : b.transactions = c.world.ledger.transactions := by
  rw [h.books]
  rfl

theorem Described.auditLog {c : System D} {b : Books} (h : Described tasks c b)
    : b.auditLog = c.world.ledger.auditLog := by
  rw [h.books]
  rfl

theorem Described.charges {c : System D} {b : Books} (h : Described tasks c b)
    : b.charges = c.world.charges := by
  rw [h.books]
  rfl

theorem Described.history {c : System D} {b : Books} (h : Described tasks c b)
    : b.history = c.world.history := by
  rw [h.books]
  rfl

/--
No process has started yet and no database transaction is open. The tables may hold any rows that
their keys and unique indexes admit, and the stores snapshots of them.
-/
structure Resting (c : System D) : Prop where
  idle : ∀ i, c.pool i = .idle
  ids : (c.world.ledger.transactions.map (·.id)).Nodup
  keys : (c.world.ledger.transactions.map (·.idempotencyKey)).Nodup
  events : (c.world.webhookEvents.map (·.id)).Nodup
  stats : (c.world.gatewayStats.map GatewayStats.gateway).Nodup
  sessions : ∀ i, c.world.ledger.sessions i = none
  completed : ∀ key t, c.world.completed key t →
    t.identity ∈ c.world.ledger.transactions.map Transaction.identity ∧
      key = TransactionsService.redisKey t.idempotencyKey
  history : c.world.history = []

theorem Start.resting {c : System D} (h : c.Start) : c.Resting := by
  rcases h.world with ⟨stats, hnodup, hworld⟩
  refine ⟨h.idle, ?_, ?_, ?_, ?_, ?_, ?_, ?_⟩
  all_goals
    simp [hworld, World.start]
  . exact hnodup
  . intro key t hcompleted
    rcases hcompleted with ⟨entry, hentry, _⟩ | ⟨inst, hstore⟩
    . cases hentry
    . cases hstore

def party (tasks : Pid → Task) (w : World) : Service D where
  world := w
  state := fun i => (tasks i).party

theorem Start.books {c : System D} (h : c.Start)
    : (party (D := D) tasks c.world).books.Start tasks := by
  rcases h.world with ⟨stats, _, hworld⟩
  constructor
  all_goals
    simp only [Service.books, party, World.books, hworld, World.start]
  . intro key t h
    rcases h with ⟨entry, hentry, _⟩ | ⟨inst, hstore⟩
    . cases hentry
    . cases hstore
  . intro i
    trivial

theorem Resting.inv {c : System D} (h : c.Resting) : (party (D := D) tasks c.world).Inv := by
  refine ⟨⟨h.ids, h.keys, h.events, h.completed, ?_⟩, ?_, h.stats⟩
  . intro i
    change Books.Sound _ (tasks i).party.role
    unfold Task.party
    split <;> trivial
  . intro i
    unfold party Party.Open
    rw [Task.party_tx]
    exact h.sessions i

theorem Resting.simulates {c : System D} (h : c.Resting)
    : Machine.Simulates (P := partyProtocol D) (fun i => (tasks i).party)
        (fun i => (tasks i).finish) c (party tasks c.world) := by
  refine ⟨rfl, fun i => ?_⟩
  rw [h.idle i]
  rfl

/--
Every state that the service can reach is one of parties that keep to the protocol.
-/
theorem Reachable.exists_service {c : System D} (h : c.Reachable D tasks)
    : ∃ d : Service D, d.Inv ∧
        Machine.Simulates (P := partyProtocol D) (fun i => (tasks i).party)
          (fun i => (tasks i).finish) c d := by
  rcases h with ⟨c₀, hstart, hrun⟩
  have hconforms := Service.conforms D tasks
  have hinv : (party tasks c₀.world).Inv := hstart.resting.inv
  rcases hstart.resting.simulates.run hconforms hinv hrun with ⟨d, hd, hsim⟩
  exact ⟨d, hconforms.invariant hinv hd, hsim⟩

/--
A database transaction makes one transition at most.
-/
theorem Reachable.session_audits {c : System D} (h : c.Reachable D tasks) {i : Pid}
    {session : Session} (hsession : c.world.ledger.sessions i = some session)
    : session.audits = [] ∨
        ∃ audit, session.audits = [audit] ∧ audit.createdAt = session.startedAt ∧
          audit.fromState.isSome := by
  rcases h.exists_service with ⟨d, hinv, hsim⟩
  have hopen := hinv.sessions i
  unfold Party.Open at hopen
  rw [← hsim.world, hsession] at hopen
  split at hopen
  . cases hopen
  . rcases hopen with ⟨t, heq⟩
    injection heq with heq
    exact .inl (by rw [heq])
  . rcases hopen with ⟨_, t, heq⟩
    injection heq with heq
    exact .inl (by rw [heq])
  . rcases hopen with ⟨_, t, heq⟩
    injection heq with heq
    exact .inl (by rw [heq])
  . next audit _ =>
    rcases hopen with ⟨_, ⟨step, _, _, _, haudit⟩, t, heq⟩
    injection heq with heq
    rw [heq]
    exact .inr ⟨_, rfl, rfl, by rw [haudit]; rfl⟩

theorem run_books {c c' : Service D} (hinv : c.Inv)
    (hrun : (machine D).PartyRun (partyProtocol D) c c') : c.books.Run D c'.books := by
  induction hrun with
  | refl => exact .refl
  | tail hrun hstep ih =>
    have := (Service.conforms D (fun _ => .pollQueue)).invariant hinv hrun
    exact ih.trans (Service.run_of_step this hstep)

theorem described_of_simulates {c : System D} {d : Service D}
    (hsim : Machine.Simulates (P := partyProtocol D) (fun i => (tasks i).party)
      (fun i => (tasks i).finish) c d)
    : Described tasks c d.books := by
  refine ⟨?_, ?_⟩
  . rw [hsim.world]
    rfl
  . intro i r hr
    exact ⟨(d.state i).tx, hsim.result hr⟩

/--
What the service does from a state that it can reach is described by a run of the books.
-/
theorem Reachable.exists_books_run {c c' : System D} (h : c.Reachable D tasks)
    (hrun : (machine D).Run (fun i => (tasks i).program D) c c')
    : ∃ b b' : Books, b.Reachable D tasks ∧ Described tasks c b ∧ b.Run D b' ∧
        Described tasks c' b' := by
  rcases h with ⟨c₀, hstart, hrun₀⟩
  have hconforms := Service.conforms D tasks
  have hinv : (party tasks c₀.world).Inv := hstart.resting.inv
  rcases hstart.resting.simulates.run hconforms hinv hrun₀ with ⟨d, hd, hsim⟩
  have hinv' := hconforms.invariant hinv hd
  rcases hsim.run hconforms hinv' hrun with ⟨d', hd', hsim'⟩
  exact ⟨Service.books d, Service.books d', ⟨_, Start.books hstart, run_books hinv hd⟩,
    described_of_simulates hsim, run_books hinv' hd', described_of_simulates hsim'⟩

/--
Every state that the service can reach is described by books that the books can reach.
-/
theorem Reachable.exists_books {c : System D} (h : c.Reachable D tasks)
    : ∃ b : Books, b.Reachable D tasks ∧ Described tasks c b := by
  rcases h.exists_books_run .refl with ⟨b, _, hb, hdescribed, _, _⟩
  exact ⟨b, hb, hdescribed⟩

/--
The same from any content of the tables.
-/
theorem Resting.exists_books {c₀ c : System D} (h : c₀.Resting)
    (hrun : (machine D).Run (fun i => (tasks i).program D) c₀ c)
    : ∃ b : Books, b.Traced D tasks ∧ Described tasks c b := by
  have hinv : (party tasks c₀.world).Inv := h.inv
  rcases h.simulates.run (Service.conforms D tasks) hinv hrun with ⟨d, hd, hsim⟩
  refine ⟨Service.books d, ⟨_, hinv.books, fun _ => rfl, h.history, run_books hinv hd⟩, ?_⟩
  exact described_of_simulates hsim

end System

end PaymentOrchestration
