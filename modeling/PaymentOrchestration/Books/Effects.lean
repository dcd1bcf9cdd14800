import PaymentOrchestration.Books.Invariant
import PaymentOrchestration.Party.Calls

/-!
This module contains what the commands do to the world, as far as the books and the open database
transactions are concerned.
-/

namespace PaymentOrchestration

open StateMachine

abbrev Service (D : Deployment) := (machine D).Parties (partyProtocol D)

namespace World

def completed (w : World) (key : String) (t : Transaction) : Prop :=
  (∃ entry, w.redis.entries key = some entry ∧ entry.value = .completed t) ∨
    ∃ inst, (w.mem inst).mockStore key = some (.completed t)

def books (w : World) (role : Pid → Role) : Books where
  transactions := w.ledger.transactions
  auditLog := w.ledger.auditLog
  webhookEvents := w.webhookEvents
  charges := w.charges
  completed := w.completed
  history := w.history
  role := role

end World

-- An update changes what is found under its own key only.
theorem update_cases {β : Type} {f : String → Option β} {k key : String} {v : Option β} {x : β}
    (h : Function.update f k v key = some x) : f key = some x ∨ (key = k ∧ v = some x) := by
  by_cases hk : key = k
  . subst hk
    rw [Function.update_self] at h
    exact .inr ⟨rfl, h⟩
  . rw [Function.update_of_ne hk] at h
    exact .inl h

namespace MockOp

variable {store : MockStore} {key : String} {t : Transaction}

theorem run_completed (op : MockOp) (h : (op.run store).2 key = some (.completed t))
    : store key = some (.completed t) ∨ ∃ mode, op = .set key (.completed t) mode := by
  cases op with
  | get k => exact .inl h
  | set k value mode =>
    simp only [run] at h
    split at h
    . exact .inl h
    . rcases update_cases h with h | ⟨hk, hv⟩
      . exact .inl h
      . injection hv with hv
        subst hk hv
        exact .inr ⟨mode, rfl⟩
  | del k =>
    simp only [run] at h
    rcases update_cases h with h | ⟨_, hv⟩
    . exact .inl h
    . cases hv
  | lpush queue item =>
    simp only [run] at h
    rcases update_cases h with h | ⟨_, hv⟩
    . exact .inl h
    . cases hv
  | brpop queue =>
    simp only [run] at h
    split at h
    . split at h
      . exact .inl h
      . rcases update_cases h with h | ⟨_, hv⟩
        . exact .inl h
        . cases hv
    . exact .inl h

theorem of_run_get {key : String} {value : Stored} (h : (run (.get key) store).1 = some value)
    : store key = some value := by
  exact (Option.filter_eq_some_iff.mp h).left

end MockOp

theorem Redis.lookup_eq_some {redis : Redis} {now : Nat} {key : String} {value : Stored}
    (h : redis.lookup now key = some value)
    : ∃ entry, redis.entries key = some entry ∧ entry.value = value := by
  unfold Redis.lookup at h
  split at h
  . next entry hentry =>
    refine ⟨entry, hentry, ?_⟩
    split at h
    . split at h
      . simpa using h
      . cases h
    . simpa using h
  . cases h

namespace ClientOp

variable {redis : Redis} {now : Nat} {key : String} {t : Transaction} {entry : Entry}

theorem run_completed (op : ClientOp) (h : (op.run now redis).2.entries key = some entry)
    (hentry : entry.value = .completed t)
    : redis.entries key = some entry ∨ ∃ expiry mode, op = .set key (.completed t) expiry mode := by
  cases op with
  | get k => exact .inl h
  | set k value expiry mode =>
    simp only [run] at h
    split at h
    . exact .inl h
    . rcases update_cases h with h | ⟨hk, hv⟩
      . exact .inl h
      . injection hv with hv
        subst hk hv
        dsimp only at hentry
        subst hentry
        exact .inr ⟨expiry, mode, rfl⟩
  | del k =>
    simp only [run] at h
    rcases update_cases h with h | ⟨_, hv⟩
    . exact .inl h
    . cases hv
  | lpush queue item => exact .inl h
  | brpop queue =>
    simp only [run] at h
    split at h
    . exact .inl h
    . exact .inl h

end ClientOp

namespace Exec

variable {i : Pid} {w : World} {key : String} {t : Transaction}

theorem completed_mock {op : MockOp} (h : (mock i op w).2.completed key t)
    : w.completed key t ∨ ∃ mode, op = .set key (.completed t) mode := by
  unfold mock at h
  dsimp only at h
  split at h
  . rcases h with h | ⟨inst, hstore⟩
    . exact .inl (.inl h)
    . by_cases hinst : inst = i.inst
      . subst hinst
        simp only [Function.update_self] at hstore
        rcases op.run_completed hstore with h | h
        . exact .inl (.inr ⟨_, h⟩)
        . exact .inr h
      . simp only [Function.update_of_ne hinst] at hstore
        exact .inl (.inr ⟨_, hstore⟩)
  . exact .inl h

theorem completed_fallback {op : MockOp} (h : (fallback i op w).2.completed key t)
    : w.completed key t ∨ ∃ mode, op = .set key (.completed t) mode := by
  unfold fallback at h
  rcases h with h | ⟨inst, hstore⟩
  . exact .inl (.inl h)
  . by_cases hinst : inst = i.inst
    . subst hinst
      simp only [Function.update_self] at hstore
      rcases op.run_completed hstore with h | h
      . exact .inl (.inr ⟨_, h⟩)
      . exact .inr h
    . simp only [Function.update_of_ne hinst] at hstore
      exact .inl (.inr ⟨_, hstore⟩)

theorem completed_client {op : ClientOp} (h : (client op w).2.completed key t)
    : w.completed key t ∨ ∃ expiry mode, op = .set key (.completed t) expiry mode := by
  unfold client at h
  rcases h with ⟨entry, hentry, hvalue⟩ | h
  . rcases op.run_completed hentry hvalue with h | h
    . exact .inl (.inl ⟨entry, h, hvalue⟩)
    . exact .inr h
  . exact .inl (.inr h)

theorem books_mock {op : MockOp} {role : Pid → Role}
    : (mock i op w).2.books role =
        { w.books role with completed := (mock i op w).2.completed } := by
  unfold mock
  dsimp only
  split <;> rfl

-- The value that an operation of the mock store reads is in the store.
theorem completed_of_mock_get {value : Option Stored}
    (h : (mock i (.get key) w).1 = some value) (hvalue : value = some (.completed t))
    : w.completed key t := by
  unfold mock at h
  dsimp only at h
  split at h
  . injection h with h
    subst hvalue
    exact .inr ⟨i.inst, MockOp.of_run_get h⟩
  . cases h

theorem completed_of_fallback_get (h : (fallback i (.get key) w).1 = some (.completed t))
    : w.completed key t := by
  exact .inr ⟨i.inst, MockOp.of_run_get h⟩

theorem completed_of_client_get (h : (client (.get key) w).1 = some (.completed t))
    : w.completed key t := by
  rcases Redis.lookup_eq_some h with ⟨entry, hentry, hvalue⟩
  exact .inl ⟨entry, hentry, hvalue⟩

end Exec

namespace Exec

variable {D : Deployment} {ρ : Type} {i : Pid} {o : Oracle} {w w' : World}

/--
A statement takes effect or not. If it does not, it does not answer.
-/
theorem statement_cases {fault : Fault} {error : Err} {result : Except Err ρ × World}
    {r : Except Err ρ} (h : statement fault w error result = some (r, w'))
    : (w' = result.2 ∧ (r = result.1 ∨ r = .error error)) ∨ (w' = w ∧ r = .error error) := by
  unfold statement at h
  cases fault <;> simp_all

theorem inSession_cases {fault : Fault} {result : Session → Option (Except Err ρ × World)}
    {r : Except Err ρ} (h : inSession i fault w result = some (r, w'))
    : ∃ session, w.ledger.sessions i = some session ∧
        (result session = some (r, w') ∨ (r = .error connectionError ∧ w' = w)) := by
  unfold inSession at h
  split at h
  . cases h
  . next session hsession =>
    refine ⟨session, hsession, ?_⟩
    split at h
    . exact .inl h
    . simp only [Option.some.injEq, Prod.mk.injEq] at h
      exact .inr ⟨h.left.symm, h.right.symm⟩

theorem findTransaction_cases {conditions : List TxnWhere} {r : Except Err (Option Transaction)}
    (h : findTransaction D i conditions o w = some (r, w'))
    : (r = .error connectionError ∧ w' = w) ∨
        ∃ row, r = .ok row ∧
          w' = { w with history := w.history ++ [.read i conditions row] } ∧
          row = (matching D conditions w.ledger.transactions)[o.pick]? ∧
          (row = none → matching D conditions w.ledger.transactions = []) := by
  unfold findTransaction at h
  dsimp only at h
  split at h
  . simp only [Option.some.injEq, Prod.mk.injEq] at h
    exact .inl ⟨h.left.symm, h.right.symm⟩
  . split at h
    . cases h
    . next hpick =>
      simp only [Option.some.injEq, Prod.mk.injEq] at h
      refine .inr ⟨_, h.left.symm, h.right.symm, rfl, ?_⟩
      intro hnone
      by_contra hne
      exact hpick ⟨hne, hnone⟩

theorem mem_matching {conditions : List TxnWhere} {t : Transaction}
    : t ∈ matching D conditions w.ledger.transactions
        ↔
      t ∈ w.ledger.transactions ∧ ∃ c ∈ conditions, c.holds D t := by
  simp [matching]

theorem insertTransaction_cases {txn : NewTransaction} {r : Except Err Transaction}
    (h : insertTransaction i txn o w = some (r, w'))
    : (w' = w ∧ ∃ e, r = .error e) ∨
        (o.id ∉ w.ledger.transactions.map (·.id) ∧
          txn.idempotencyKey ∉ w.ledger.transactions.map (·.idempotencyKey) ∧
          (r = .ok (txn.row o.id) ∨ ∃ e, r = .error e) ∧
          w' = { w with
            ledger := w.ledger.insert (txn.row o.id)
            history := w.history ++ [.inserted i (txn.row o.id)] }) := by
  unfold insertTransaction at h
  split at h
  . cases h
  . next hid =>
    split at h
    . simp only [Option.some.injEq, Prod.mk.injEq] at h
      exact .inl ⟨h.right.symm, _, h.left.symm⟩
    . split at h
      . simp only [Option.some.injEq, Prod.mk.injEq] at h
        exact .inl ⟨h.right.symm, _, h.left.symm⟩
      . next hkey =>
        rcases statement_cases h with ⟨hw, hr | hr⟩ | ⟨hw, hr⟩
        . exact .inr ⟨hid, hkey, .inl hr, hw⟩
        . exact .inr ⟨hid, hkey, .inr ⟨_, hr⟩, hw⟩
        . exact .inl ⟨hw, _, hr⟩

theorem insertAudit_cases {row : AuditLog} {r : Except Err Unit}
    (h : insertAudit D row o w = some (r, w'))
    : w' = w ∨
        w' = { w with ledger := { w.ledger with
          auditLog := w.ledger.auditLog ++ [{ row with createdAt := w.clock }] } } := by
  unfold insertAudit at h
  split at h
  . simp only [Option.some.injEq, Prod.mk.injEq] at h
    exact .inl h.right.symm
  . rcases statement_cases h with ⟨hw, _⟩ | ⟨hw, _⟩
    . exact .inr hw
    . exact .inl hw

theorem begin_cases {r : Except Err Unit} (h : begin i o w = some (r, w'))
    : (w' = w ∧ ∃ e, r = .error e) ∨
        (w' = setSession i ⟨w.clock, none, none, []⟩ w ∧ r = .ok ()) := by
  unfold begin at h
  split at h
  . simp only [Option.some.injEq, Prod.mk.injEq] at h
    exact .inr ⟨h.right.symm, h.left.symm⟩
  . simp only [Option.some.injEq, Prod.mk.injEq] at h
    exact .inl ⟨h.right.symm, _, h.left.symm⟩

theorem selectForUpdate_cases {id : String} {r : Except Err (Option Transaction)}
    (h : selectForUpdate i id o w = some (r, w'))
    : ∃ session, w.ledger.sessions i = some session ∧
        ((w' = w ∧ (r = .ok none ∨ ∃ e, r = .error e)) ∨
          ∃ row, r = .ok (some row) ∧ row ∈ w.ledger.transactions ∧ row.id = id ∧
            (w.ledger.locks id = none ∨ w.ledger.locks id = some i) ∧
            w' = { w with ledger := { w.ledger with
              sessions := Function.update w.ledger.sessions i
                (some { session with lock := some id })
              locks := Function.update w.ledger.locks id (some i) } }) := by
  rcases inSession_cases h with ⟨session, hsession, h | ⟨hr, hw⟩⟩
  . refine ⟨session, hsession, ?_⟩
    split at h
    . simp only [Option.some.injEq, Prod.mk.injEq] at h
      exact .inl ⟨h.right.symm, .inl h.left.symm⟩
    . next row hfind =>
      split at h
      . cases h
      . next hlock =>
        simp only [Option.some.injEq, Prod.mk.injEq] at h
        have hid := List.find?_some hfind
        refine .inr ⟨row, h.left.symm, List.mem_of_find?_eq_some hfind, by simpa using hid, ?_,
          h.right.symm⟩
        by_contra hcontra
        exact hlock (not_or.mp hcontra)
  . exact ⟨session, hsession, .inl ⟨hw, .inr ⟨_, hr⟩⟩⟩

theorem saveTransaction_cases {row : Transaction} {r : Except Err Unit}
    (h : saveTransaction i row o w = some (r, w'))
    : ∃ session, w.ledger.sessions i = some session ∧
        ((w' = w ∧ ∃ e, r = .error e) ∨
          (r = .ok () ∧ w' = setSession i { session with update := some row } w)) := by
  rcases inSession_cases h with ⟨session, hsession, h | ⟨hr, hw⟩⟩
  . refine ⟨session, hsession, ?_⟩
    split at h
    . simp only [Option.some.injEq, Prod.mk.injEq] at h
      exact .inl ⟨h.right.symm, _, h.left.symm⟩
    . simp only [Option.some.injEq, Prod.mk.injEq] at h
      exact .inr ⟨h.left.symm, h.right.symm⟩
  . exact ⟨session, hsession, .inl ⟨hw, _, hr⟩⟩

theorem saveAudit_cases {row : AuditLog} {r : Except Err Unit}
    (h : saveAudit D i row o w = some (r, w'))
    : ∃ session, w.ledger.sessions i = some session ∧
        ((w' = w ∧ ∃ e, r = .error e) ∨
          (r = .ok () ∧
            w' = setSession i { session with
              audits := session.audits ++ [{ row with createdAt := session.startedAt }] } w)) := by
  rcases inSession_cases h with ⟨session, hsession, h | ⟨hr, hw⟩⟩
  . refine ⟨session, hsession, ?_⟩
    split at h
    . simp only [Option.some.injEq, Prod.mk.injEq] at h
      exact .inl ⟨h.right.symm, _, h.left.symm⟩
    . simp only [Option.some.injEq, Prod.mk.injEq] at h
      exact .inr ⟨h.left.symm, h.right.symm⟩
  . exact ⟨session, hsession, .inl ⟨hw, _, hr⟩⟩

theorem commit_cases {r : Except Err Unit} (h : commit i o w = some (r, w'))
    : ∃ session, w.ledger.sessions i = some session ∧
        ((w' = { w with ledger := w.ledger.release i } ∧ ∃ e, r = .error e) ∨
          ((r = .ok () ∨ ∃ e, r = .error e) ∧
            w' = { w with
              ledger := (w.ledger.apply session).release i
              history := w.history ++ session.audits.map (.committed i) })) := by
  unfold commit at h
  split at h
  . cases h
  . next session hsession =>
    refine ⟨session, hsession, ?_⟩
    cases hfault : o.fault with
    | none =>
      simp only [hfault, statement, Option.some.injEq, Prod.mk.injEq] at h
      exact .inr ⟨.inl h.left.symm, h.right.symm⟩
    | before =>
      simp only [hfault, statement, Option.some.injEq, Prod.mk.injEq] at h
      exact .inl ⟨h.right.symm, _, h.left.symm⟩
    | after =>
      simp only [hfault, statement, Option.some.injEq, Prod.mk.injEq] at h
      exact .inr ⟨.inr ⟨_, h.left.symm⟩, h.right.symm⟩

theorem findEvent_cases {id : String} {r : Except Err (Option WebhookEvent)}
    (h : findEvent i id o w = some (r, w'))
    : (w' = w ∧ (r = .ok none ∨ ∃ e, r = .error e)) ∨
        ∃ event, r = .ok (some event) ∧ event ∈ w.webhookEvents ∧ event.id = id ∧
          w' = { w with history := w.history ++ [.loaded i event] } := by
  unfold findEvent at h
  split at h
  . simp only [Option.some.injEq, Prod.mk.injEq] at h
    exact .inl ⟨h.right.symm, .inr ⟨_, h.left.symm⟩⟩
  . split at h
    . simp only [Option.some.injEq, Prod.mk.injEq] at h
      exact .inl ⟨h.right.symm, .inl h.left.symm⟩
    . next event hfind =>
      simp only [Option.some.injEq, Prod.mk.injEq] at h
      have hid := List.find?_some hfind
      exact .inr ⟨event, h.left.symm, List.mem_of_find?_eq_some hfind, by simpa using hid,
        h.right.symm⟩

theorem insertEvent_cases {event : IncomingWebhook} {r : Except Err WebhookEvent}
    (h : insertEvent D event o w = some (r, w'))
    : w' = w ∨
        (o.id ∉ w.webhookEvents.map (·.id) ∧
          w' = { w with webhookEvents := w.webhookEvents ++ [event.row o.id] }) := by
  unfold insertEvent at h
  split at h
  . cases h
  . next hid =>
    split at h
    . simp only [Option.some.injEq, Prod.mk.injEq] at h
      exact .inl h.right.symm
    . split at h
      . simp only [Option.some.injEq, Prod.mk.injEq] at h
        exact .inl h.right.symm
      . rcases statement_cases h with ⟨hw, _⟩ | ⟨hw, _⟩
        . exact .inr ⟨hid, hw⟩
        . exact .inl hw

theorem query_cases {fault : Fault} {answer : ρ} {r : Except Err ρ}
    (h : query fault w answer = some (r, w'))
    : w' = w ∧ (r = .ok answer ∨ ∃ e, r = .error e) := by
  unfold query at h
  split at h
  . simp only [Option.some.injEq, Prod.mk.injEq] at h
    exact ⟨h.right.symm, .inl h.left.symm⟩
  . simp only [Option.some.injEq, Prod.mk.injEq] at h
    exact ⟨h.right.symm, .inr ⟨_, h.left.symm⟩⟩

theorem race_cases {n : Nat} {r : Except Err GatewayChargeResponse}
    (h : race n o w = some (r, w'))
    : ∃ charge, w.charges[n]? = some charge ∧
        ((∃ response, charge.status = .answered response ∧ r = .ok response ∧ w' = w) ∨
          (∃ message captured e, charge.status = .threw message captured ∧ r = .error e ∧ w' = w) ∨
          (∃ captured e, (charge.status = .pending captured ∧ o.timer = true) ∧ r = .error e ∧
            w' = { w with charges := w.charges.set n { charge with timedOut := true } })) := by
  unfold race at h
  split at h
  . cases h
  . next charge hcharge =>
    refine ⟨charge, hcharge, ?_⟩
    split at h
    . next response hstatus =>
      simp only [Option.some.injEq, Prod.mk.injEq] at h
      exact .inl ⟨response, hstatus, h.left.symm, h.right.symm⟩
    . next message captured hstatus =>
      simp only [Option.some.injEq, Prod.mk.injEq] at h
      exact .inr (.inl ⟨message, captured, _, hstatus, h.left.symm, h.right.symm⟩)
    . next captured hstatus =>
      split at h
      . next htimer =>
        simp only [Option.some.injEq, Prod.mk.injEq] at h
        exact .inr (.inr ⟨captured, _, ⟨hstatus, htimer⟩, h.left.symm, h.right.symm⟩)
      . cases h

end Exec

-- The commands that leave an event or touch a charge call.
def Cmd.telling (cmd : Cmd) : Bool :=
  match cmd with
  | .findTransaction _ | .insertTransaction _ | .commit | .findEvent _ | .charge _ _
  | .race _ => true
  | _ => false

theorem exec_of_not_telling {D : Deployment} {i : Pid} {cmd : Cmd} {o : Oracle} {w w' : World}
    {r : Except Err cmd.Resp} (hcmd : cmd.telling = false)
    (hexec : exec D i cmd o w = some (r, w'))
    : w'.history = w.history ∧ w'.charges = w.charges := by
  cases cmd with
  | mock op =>
    simp only [exec, Option.some.injEq, Prod.mk.injEq] at hexec
    rcases hexec with ⟨_, hw⟩
    subst hw
    unfold Exec.mock
    dsimp only
    split <;> exact ⟨rfl, rfl⟩
  | client op =>
    rcases Exec.statement_cases hexec with ⟨hw, _⟩ | ⟨hw, _⟩
    all_goals
      subst hw
      exact ⟨rfl, rfl⟩
  | fallback op =>
    simp only [exec, Option.some.injEq, Prod.mk.injEq] at hexec
    rcases hexec with ⟨_, hw⟩
    subst hw
    exact ⟨rfl, rfl⟩
  | insertAudit audit =>
    rcases Exec.insertAudit_cases hexec with hw | hw
    all_goals
      subst hw
      exact ⟨rfl, rfl⟩
  | begin =>
    rcases Exec.begin_cases hexec with ⟨hw, _⟩ | ⟨hw, _⟩
    all_goals
      subst hw
      exact ⟨rfl, rfl⟩
  | selectForUpdate id =>
    rcases Exec.selectForUpdate_cases hexec with ⟨_, _, ⟨hw, _⟩ | ⟨_, _, _, _, _, hw⟩⟩
    all_goals
      subst hw
      exact ⟨rfl, rfl⟩
  | saveTransaction row =>
    rcases Exec.saveTransaction_cases hexec with ⟨_, _, ⟨hw, _⟩ | ⟨_, hw⟩⟩
    all_goals
      subst hw
      exact ⟨rfl, rfl⟩
  | saveAudit audit =>
    rcases Exec.saveAudit_cases hexec with ⟨_, _, ⟨hw, _⟩ | ⟨_, hw⟩⟩
    all_goals
      subst hw
      exact ⟨rfl, rfl⟩
  | rollback =>
    simp only [exec, Option.some.injEq, Prod.mk.injEq] at hexec
    rcases hexec with ⟨_, hw⟩
    subst hw
    exact ⟨rfl, rfl⟩
  | insertEvent event =>
    rcases Exec.insertEvent_cases hexec with hw | ⟨_, hw⟩
    all_goals
      subst hw
      exact ⟨rfl, rfl⟩
  | saveEvent event =>
    rcases Exec.statement_cases hexec with ⟨hw, _⟩ | ⟨hw, _⟩
    all_goals
      subst hw
      exact ⟨rfl, rfl⟩
  | findStats =>
    rcases Exec.query_cases hexec with ⟨hw, _⟩
    subst hw
    exact ⟨rfl, rfl⟩
  | findStatsOf gateway =>
    rcases Exec.query_cases hexec with ⟨hw, _⟩
    subst hw
    exact ⟨rfl, rfl⟩
  | saveStats stats =>
    rcases Exec.statement_cases hexec with ⟨hw, _⟩ | ⟨hw, _⟩
    all_goals
      subst hw
      exact ⟨rfl, rfl⟩
  | now =>
    simp only [exec, Option.some.injEq, Prod.mk.injEq] at hexec
    rcases hexec with ⟨_, hw⟩
    subst hw
    exact ⟨rfl, rfl⟩
  | _ => cases hcmd

/--
A charge call is started, or it is given up, or nothing happens to it.
-/
theorem exec_charges {D : Deployment} {i : Pid} {cmd : Cmd} {o : Oracle} {w w' : World}
    {r : Except Err cmd.Resp} (hexec : exec D i cmd o w = some (r, w'))
    : w'.charges = w.charges ∨
        (∃ g request, cmd = .charge g request ∧
          w'.charges = w.charges ++ [⟨i, g, request, .pending false, false⟩]) ∨
        ∃ n charge captured, (cmd = .race n ∧ o.timer = true) ∧ w.charges[n]? = some charge ∧
          charge.status = .pending captured ∧
          w'.charges = w.charges.set n { charge with timedOut := true } := by
  cases hcmd : cmd.telling with
  | false => exact .inl (exec_of_not_telling hcmd hexec).right
  | true =>
    cases cmd with
    | findTransaction conditions =>
      rcases Exec.findTransaction_cases hexec with ⟨_, hw⟩ | ⟨_, _, hw, _⟩
      all_goals
        subst hw
        exact .inl rfl
    | insertTransaction txn =>
      rcases Exec.insertTransaction_cases hexec with ⟨hw, _⟩ | ⟨_, _, _, hw⟩
      all_goals
        subst hw
        exact .inl rfl
    | commit =>
      rcases Exec.commit_cases hexec with ⟨_, _, ⟨hw, _⟩ | ⟨_, hw⟩⟩
      all_goals
        subst hw
        exact .inl rfl
    | findEvent id =>
      rcases Exec.findEvent_cases hexec with ⟨hw, _⟩ | ⟨_, _, _, _, hw⟩
      all_goals
        subst hw
        exact .inl rfl
    | charge gateway request =>
      simp only [exec, Option.some.injEq, Prod.mk.injEq] at hexec
      rcases hexec with ⟨_, hw⟩
      subst hw
      exact .inr (.inl ⟨gateway, request, rfl, rfl⟩)
    | race n =>
      rcases Exec.race_cases hexec with ⟨charge, hcharge, ⟨_, _, _, hw⟩ | ⟨_, _, _, _, _, hw⟩ |
        ⟨captured, _, ⟨hstatus, htimer⟩, _, hw⟩⟩
      . subst hw
        exact .inl rfl
      . subst hw
        exact .inl rfl
      . subst hw
        exact .inr (.inr ⟨n, charge, captured, ⟨rfl, htimer⟩, hcharge, hstatus, rfl⟩)
    | _ => cases hcmd

/--
A command leaves at most one event. It is a read only if the command has looked up a payment.
-/
theorem exec_history {D : Deployment} {i : Pid} {cmd : Cmd} {o : Oracle} {w w' : World}
    {r : Except Err cmd.Resp} (hexec : exec D i cmd o w = some (r, w'))
    : (∃ conditions row, cmd = .findTransaction conditions ∧
          w'.history = w.history ++ [.read i conditions row] ∧
          row = (matching D conditions w.ledger.transactions)[o.pick]?) ∨
        ∃ events, w'.history = w.history ++ events ∧
          ∀ j conditions row, .read j conditions row ∉ events := by
  cases hcmd : cmd.telling with
  | false => exact .inr ⟨[], by simp [(exec_of_not_telling hcmd hexec).left]⟩
  | true =>
    cases cmd with
    | findTransaction conditions =>
      rcases Exec.findTransaction_cases hexec with ⟨_, hw⟩ | ⟨row, _, hw, hpick, _⟩
      . subst hw
        exact .inr ⟨[], by simp⟩
      . subst hw
        exact .inl ⟨conditions, row, rfl, rfl, hpick⟩
    | insertTransaction txn =>
      rcases Exec.insertTransaction_cases hexec with ⟨hw, _⟩ | ⟨_, _, _, hw⟩
      . subst hw
        exact .inr ⟨[], by simp⟩
      . subst hw
        exact .inr ⟨_, rfl, by simp⟩
    | commit =>
      rcases Exec.commit_cases hexec with ⟨session, _, ⟨hw, _⟩ | ⟨_, hw⟩⟩
      . subst hw
        exact .inr ⟨[], by simp⟩
      . subst hw
        exact .inr ⟨_, rfl, by simp⟩
    | findEvent id =>
      rcases Exec.findEvent_cases hexec with ⟨hw, _⟩ | ⟨_, _, _, _, hw⟩
      . subst hw
        exact .inr ⟨[], by simp⟩
      . subst hw
        exact .inr ⟨_, rfl, by simp⟩
    | charge gateway request =>
      simp only [exec, Option.some.injEq, Prod.mk.injEq] at hexec
      rcases hexec with ⟨_, hw⟩
      subst hw
      exact .inr ⟨_, rfl, by simp⟩
    | race n =>
      rcases Exec.race_cases hexec with ⟨charge, hcharge, ⟨_, _, _, hw⟩ | ⟨_, _, _, _, _, hw⟩ |
        ⟨_, _, _, _, hw⟩⟩
      all_goals
        subst hw
        exact .inr ⟨[], by simp⟩
    | _ => cases hcmd

-- The statements of an open database transaction.
def Cmd.inSession (cmd : Cmd) : Bool :=
  match cmd with
  | .begin | .selectForUpdate _ | .saveTransaction _ | .saveAudit _ | .commit | .rollback => true
  | _ => false

/--
What a command may touch of the tables: its process has one open database transaction, the rows of
the payments change with an insert and with a commit, those of the webhook events with an insert and
with a save, the statistics with a save.
-/
structure Touches (i : Pid) (cmd : Cmd) (o : Oracle) (w w' : World) : Prop where
  sessions : ∀ j, (j = i → cmd.inSession = false) →
    w'.ledger.sessions j = w.ledger.sessions j
  transactions : w'.ledger.transactions = w.ledger.transactions ∨
    (∃ txn, cmd = .insertTransaction txn ∧ o.id ∉ w.ledger.transactions.map (·.id) ∧
      w'.ledger.transactions = w.ledger.transactions ++ [txn.row o.id]) ∨
    ∃ session row, cmd = .commit ∧ o.fault ≠ .before ∧
      w.ledger.sessions i = some session ∧ session.update = some row ∧
      w'.ledger.transactions = Ledger.writeRow row w.ledger.transactions
  webhookEvents : w'.webhookEvents = w.webhookEvents ∨
    (∃ record, w'.webhookEvents = w.webhookEvents ++ [record]) ∨
    ∃ event, cmd = .saveEvent event ∧
      w'.webhookEvents = w.webhookEvents.map (fun old => if old.id = event.id then event else old)
  gatewayStats : w'.gatewayStats = w.gatewayStats ∨
    ∃ stats, cmd = .saveStats stats ∧
      w'.gatewayStats =
        w.gatewayStats.map (fun old => if old.gateway = stats.gateway then stats else old)

theorem exec_touches {D : Deployment} {i : Pid} {cmd : Cmd} {o : Oracle} {w w' : World}
    {r : Except Err cmd.Resp} (hexec : exec D i cmd o w = some (r, w')) : Touches i cmd o w w' := by
  have hne : ∀ (session : Option Session) (j : Pid), (j = i → true = false) →
      Function.update w.ledger.sessions i session j = w.ledger.sessions j := by
    intro session j hj
    rw [Function.update_of_ne]
    intro heq
    cases hj heq
  cases cmd with
  | mock op =>
    simp only [exec, Option.some.injEq, Prod.mk.injEq] at hexec
    rw [← hexec.right]
    unfold Exec.mock
    dsimp only
    split <;> exact ⟨fun _ _ => rfl, .inl rfl, .inl rfl, .inl rfl⟩
  | client op =>
    rcases Exec.statement_cases hexec with ⟨hw, _⟩ | ⟨hw, _⟩
    all_goals
      rw [hw]
      exact ⟨fun _ _ => rfl, .inl rfl, .inl rfl, .inl rfl⟩
  | fallback op =>
    simp only [exec, Option.some.injEq, Prod.mk.injEq] at hexec
    rw [← hexec.right]
    exact ⟨fun _ _ => rfl, .inl rfl, .inl rfl, .inl rfl⟩
  | findTransaction conditions =>
    rcases Exec.findTransaction_cases hexec with ⟨_, hw⟩ | ⟨_, _, hw, _⟩
    all_goals
      rw [hw]
      exact ⟨fun _ _ => rfl, .inl rfl, .inl rfl, .inl rfl⟩
  | insertTransaction txn =>
    rcases Exec.insertTransaction_cases hexec with ⟨hw, _⟩ | ⟨hid, _, _, hw⟩
    . rw [hw]
      exact ⟨fun _ _ => rfl, .inl rfl, .inl rfl, .inl rfl⟩
    . rw [hw]
      exact ⟨fun _ _ => rfl, .inr (.inl ⟨txn, rfl, hid, rfl⟩), .inl rfl, .inl rfl⟩
  | insertAudit audit =>
    rcases Exec.insertAudit_cases hexec with hw | hw
    all_goals
      rw [hw]
      exact ⟨fun _ _ => rfl, .inl rfl, .inl rfl, .inl rfl⟩
  | begin =>
    rcases Exec.begin_cases hexec with ⟨hw, _⟩ | ⟨hw, _⟩
    . rw [hw]
      exact ⟨fun _ _ => rfl, .inl rfl, .inl rfl, .inl rfl⟩
    . rw [hw]
      exact ⟨hne _, .inl rfl, .inl rfl, .inl rfl⟩
  | selectForUpdate id =>
    rcases Exec.selectForUpdate_cases hexec with ⟨_, _, ⟨hw, _⟩ | ⟨_, _, _, _, _, hw⟩⟩
    . rw [hw]
      exact ⟨fun _ _ => rfl, .inl rfl, .inl rfl, .inl rfl⟩
    . rw [hw]
      exact ⟨hne _, .inl rfl, .inl rfl, .inl rfl⟩
  | saveTransaction row =>
    rcases Exec.saveTransaction_cases hexec with ⟨_, _, ⟨hw, _⟩ | ⟨_, hw⟩⟩
    . rw [hw]
      exact ⟨fun _ _ => rfl, .inl rfl, .inl rfl, .inl rfl⟩
    . rw [hw]
      exact ⟨hne _, .inl rfl, .inl rfl, .inl rfl⟩
  | saveAudit audit =>
    rcases Exec.saveAudit_cases hexec with ⟨_, _, ⟨hw, _⟩ | ⟨_, hw⟩⟩
    . rw [hw]
      exact ⟨fun _ _ => rfl, .inl rfl, .inl rfl, .inl rfl⟩
    . rw [hw]
      exact ⟨hne _, .inl rfl, .inl rfl, .inl rfl⟩
  | commit =>
    rcases Exec.commit_cases hexec with ⟨session, hsession, ⟨hw, _⟩ | ⟨_, hw⟩⟩
    . rw [hw]
      exact ⟨hne _, .inl rfl, .inl rfl, .inl rfl⟩
    . have hfault : o.fault = .before → w' = { w with ledger := w.ledger.release i } := by
        intro hfault
        simp only [exec, Exec.commit, hsession, hfault, Exec.statement, Option.some.injEq,
          Prod.mk.injEq] at hexec
        exact hexec.right.symm
      by_cases hbefore : o.fault = .before
      . rw [hfault hbefore]
        exact ⟨hne _, .inl rfl, .inl rfl, .inl rfl⟩
      rw [hw]
      refine ⟨hne _, ?_, .inl rfl, .inl rfl⟩
      cases hupdate : session.update with
      | none =>
        left
        simp [Ledger.release, Ledger.apply, hupdate]
      | some row =>
        refine .inr (.inr ⟨session, row, rfl, hbefore, hsession, hupdate, ?_⟩)
        simp [Ledger.release, Ledger.apply, hupdate]
  | rollback =>
    simp only [exec, Option.some.injEq, Prod.mk.injEq] at hexec
    rw [← hexec.right]
    exact ⟨hne _, .inl rfl, .inl rfl, .inl rfl⟩
  | findEvent id =>
    rcases Exec.findEvent_cases hexec with ⟨hw, _⟩ | ⟨_, _, _, _, hw⟩
    all_goals
      rw [hw]
      exact ⟨fun _ _ => rfl, .inl rfl, .inl rfl, .inl rfl⟩
  | insertEvent event =>
    rcases Exec.insertEvent_cases hexec with hw | ⟨_, hw⟩
    . rw [hw]
      exact ⟨fun _ _ => rfl, .inl rfl, .inl rfl, .inl rfl⟩
    . rw [hw]
      exact ⟨fun _ _ => rfl, .inl rfl, .inr (.inl ⟨_, rfl⟩), .inl rfl⟩
  | saveEvent event =>
    rcases Exec.statement_cases hexec with ⟨hw, _⟩ | ⟨hw, _⟩
    . rw [hw]
      exact ⟨fun _ _ => rfl, .inl rfl, .inr (.inr ⟨event, rfl, rfl⟩), .inl rfl⟩
    . rw [hw]
      exact ⟨fun _ _ => rfl, .inl rfl, .inl rfl, .inl rfl⟩
  | findStats =>
    rcases Exec.query_cases hexec with ⟨hw, _⟩
    rw [hw]
    exact ⟨fun _ _ => rfl, .inl rfl, .inl rfl, .inl rfl⟩
  | findStatsOf gateway =>
    rcases Exec.query_cases hexec with ⟨hw, _⟩
    rw [hw]
    exact ⟨fun _ _ => rfl, .inl rfl, .inl rfl, .inl rfl⟩
  | saveStats stats =>
    rcases Exec.statement_cases hexec with ⟨hw, _⟩ | ⟨hw, _⟩
    . rw [hw]
      exact ⟨fun _ _ => rfl, .inl rfl, .inl rfl, .inr ⟨stats, rfl, rfl⟩⟩
    . rw [hw]
      exact ⟨fun _ _ => rfl, .inl rfl, .inl rfl, .inl rfl⟩
  | charge gateway request =>
    simp only [exec, Option.some.injEq, Prod.mk.injEq] at hexec
    rw [← hexec.right]
    exact ⟨fun _ _ => rfl, .inl rfl, .inl rfl, .inl rfl⟩
  | race n =>
    rcases Exec.race_cases hexec with ⟨_, _, ⟨_, _, _, hw⟩ | ⟨_, _, _, _, _, hw⟩ | ⟨_, _, _, _, hw⟩⟩
    all_goals
      rw [hw]
      exact ⟨fun _ _ => rfl, .inl rfl, .inl rfl, .inl rfl⟩
  | now =>
    simp only [exec, Option.some.injEq, Prod.mk.injEq] at hexec
    rw [← hexec.right]
    exact ⟨fun _ _ => rfl, .inl rfl, .inl rfl, .inl rfl⟩

-- The commands that write audit rows.
def Cmd.auditing (cmd : Cmd) : Bool :=
  match cmd with
  | .insertAudit _ | .commit => true
  | _ => false

theorem exec_of_not_auditing {D : Deployment} {i : Pid} {cmd : Cmd} {o : Oracle} {w w' : World}
    {r : Except Err cmd.Resp} (hcmd : cmd.auditing = false)
    (hexec : exec D i cmd o w = some (r, w')) : w'.ledger.auditLog = w.ledger.auditLog := by
  cases cmd with
  | insertAudit audit => cases hcmd
  | commit => cases hcmd
  | mock op =>
    simp only [exec, Option.some.injEq, Prod.mk.injEq] at hexec
    rw [← hexec.right]
    unfold Exec.mock
    dsimp only
    split <;> rfl
  | client op =>
    rcases Exec.statement_cases hexec with ⟨hw, _⟩ | ⟨hw, _⟩ <;> rw [hw]
  | findTransaction conditions =>
    rcases Exec.findTransaction_cases hexec with ⟨_, hw⟩ | ⟨_, _, hw, _⟩ <;> rw [hw]
  | insertTransaction txn =>
    rcases Exec.insertTransaction_cases hexec with ⟨hw, _⟩ | ⟨_, _, _, hw⟩
    . rw [hw]
    . rw [hw]
      rfl
  | begin =>
    rcases Exec.begin_cases hexec with ⟨hw, _⟩ | ⟨hw, _⟩
    . rw [hw]
    . rw [hw]
      rfl
  | selectForUpdate id =>
    rcases Exec.selectForUpdate_cases hexec with ⟨_, _, ⟨hw, _⟩ | ⟨_, _, _, _, _, hw⟩⟩ <;> rw [hw]
  | saveTransaction row =>
    rcases Exec.saveTransaction_cases hexec with ⟨_, _, ⟨hw, _⟩ | ⟨_, hw⟩⟩
    . rw [hw]
    . rw [hw]
      rfl
  | saveAudit audit =>
    rcases Exec.saveAudit_cases hexec with ⟨_, _, ⟨hw, _⟩ | ⟨_, hw⟩⟩
    . rw [hw]
    . rw [hw]
      rfl
  | findEvent id =>
    rcases Exec.findEvent_cases hexec with ⟨hw, _⟩ | ⟨_, _, _, _, hw⟩ <;> rw [hw]
  | insertEvent event =>
    rcases Exec.insertEvent_cases hexec with hw | ⟨_, hw⟩ <;> rw [hw]
  | saveEvent event =>
    rcases Exec.statement_cases hexec with ⟨hw, _⟩ | ⟨hw, _⟩ <;> rw [hw]
  | findStats =>
    rcases Exec.query_cases hexec with ⟨hw, _⟩
    rw [hw]
  | findStatsOf gateway =>
    rcases Exec.query_cases hexec with ⟨hw, _⟩
    rw [hw]
  | saveStats stats =>
    rcases Exec.statement_cases hexec with ⟨hw, _⟩ | ⟨hw, _⟩ <;> rw [hw]
  | race n =>
    rcases Exec.race_cases hexec with ⟨_, _, ⟨_, _, _, hw⟩ | ⟨_, _, _, _, _, hw⟩ |
      ⟨_, _, _, _, hw⟩⟩ <;> rw [hw]
  | now =>
    simp only [exec, Option.some.injEq, Prod.mk.injEq] at hexec
    rw [← hexec.right]
  | _ =>
    simp only [exec, Option.some.injEq, Prod.mk.injEq] at hexec
    rw [← hexec.right]
    rfl

/--
The event is one that command `cmd` of process `i` leaves in the world `w`.
-/
def Event.tells (i : Pid) (cmd : Cmd) (w : World) (event : Event) : Prop :=
  match event with
  | .inserted j _ => j = i ∧ ∃ txn, cmd = .insertTransaction txn
  | .committed j audit =>
    j = i ∧ cmd = .commit ∧ ∃ session, w.ledger.sessions i = some session ∧ audit ∈ session.audits
  | .charged j gateway request => j = i ∧ cmd = .charge gateway request
  | .read j conditions _ => j = i ∧ cmd = .findTransaction conditions
  | .loaded j _ => j = i ∧ ∃ id, cmd = .findEvent id

theorem exec_tells {D : Deployment} {i : Pid} {cmd : Cmd} {o : Oracle} {w w' : World}
    {r : Except Err cmd.Resp} (hexec : exec D i cmd o w = some (r, w'))
    : ∃ events, w'.history = w.history ++ events ∧ ∀ event ∈ events, event.tells i cmd w := by
  cases hcmd : cmd.telling with
  | false => exact ⟨[], by simp [(exec_of_not_telling hcmd hexec).left]⟩
  | true =>
    cases cmd with
    | findTransaction conditions =>
      rcases Exec.findTransaction_cases hexec with ⟨_, hw⟩ | ⟨_, _, hw, _⟩
      . rw [hw]
        exact ⟨[], by simp⟩
      . rw [hw]
        refine ⟨_, rfl, ?_⟩
        simp [Event.tells]
    | insertTransaction txn =>
      rcases Exec.insertTransaction_cases hexec with ⟨hw, _⟩ | ⟨_, _, _, hw⟩
      . rw [hw]
        exact ⟨[], by simp⟩
      . rw [hw]
        refine ⟨_, rfl, ?_⟩
        simp [Event.tells]
    | commit =>
      rcases Exec.commit_cases hexec with ⟨session, hsession, ⟨hw, _⟩ | ⟨_, hw⟩⟩
      . rw [hw]
        exact ⟨[], by simp⟩
      . rw [hw]
        refine ⟨_, rfl, ?_⟩
        intro event hevent
        rcases List.mem_map.mp hevent with ⟨audit, haudit, heq⟩
        rw [← heq]
        exact ⟨rfl, rfl, session, hsession, haudit⟩
    | findEvent id =>
      rcases Exec.findEvent_cases hexec with ⟨hw, _⟩ | ⟨_, _, _, _, hw⟩
      . rw [hw]
        exact ⟨[], by simp⟩
      . rw [hw]
        refine ⟨_, rfl, ?_⟩
        simp [Event.tells]
    | charge gateway request =>
      simp only [exec, Option.some.injEq, Prod.mk.injEq] at hexec
      rw [← hexec.right]
      refine ⟨_, rfl, ?_⟩
      simp [Event.tells]
    | race n =>
      rcases Exec.race_cases hexec with ⟨_, _, ⟨_, _, _, hw⟩ | ⟨_, _, _, _, _, hw⟩ |
        ⟨_, _, _, _, hw⟩⟩
      all_goals
        rw [hw]
        exact ⟨[], by simp⟩
    | _ => cases hcmd

end PaymentOrchestration
