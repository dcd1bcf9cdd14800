import PaymentOrchestration.Books.Effects
import PaymentOrchestration.Party.CalmCalls

/-!
This module is about one call in the midst of the others: under which steps of its own its
statements do not fail, and what it knows of the world between two of its steps.
-/

namespace PaymentOrchestration

/--
The state of its payment that an event shows to process `i`.
-/
def Event.seen (i : Pid) (event : Event) : Option TransactionState :=
  match event with
  | .inserted j row => if j = i then some row.currentState else none
  | .committed j audit => if j = i then some audit.toState else none
  | .read j _ (some row) => if j = i then some row.currentState else none
  | _ => none

/--
The state process `i` has last seen its payment in.
-/
def lastSeen (i : Pid) (history : List Event) : Option TransactionState :=
  (history.filterMap (Event.seen i)).getLast?

theorem lastSeen_append {i : Pid} {history events : List Event}
    (h : ∀ event ∈ events, event.seen i = none)
    : lastSeen i (history ++ events) = lastSeen i history := by
  unfold lastSeen
  have hnil : events.filterMap (Event.seen i) = [] := by
    rw [List.filterMap_eq_nil_iff]
    exact h
  rw [List.filterMap_append, hnil, List.append_nil]

theorem lastSeen_concat {i : Pid} {history : List Event} {event : Event} {state : TransactionState}
    (h : event.seen i = some state) : lastSeen i (history ++ [event]) = some state := by
  unfold lastSeen
  simp [List.filterMap_append, h]

theorem Event.tells.seen_of_ne {i j : Pid} {cmd : Cmd} {w : World} {event : Event}
    (h : event.tells j cmd w) (hj : j ≠ i) : event.seen i = none := by
  cases event with
  | inserted k row =>
    have hk : k ≠ i := by
      rw [h.left]
      exact hj
    simp [Event.seen, hk]
  | committed k audit =>
    have hk : k ≠ i := by
      rw [h.left]
      exact hj
    simp [Event.seen, hk]
  | read k conditions row =>
    have hk : k ≠ i := by
      rw [h.left]
      exact hj
    cases row <;> simp [Event.seen, hk]
  | _ => rfl

-- The commands that show their process a payment.
def Cmd.shows (cmd : Cmd) : Bool :=
  match cmd with
  | .insertTransaction _ | .findTransaction _ | .commit => true
  | _ => false

theorem Event.tells.seen_of_not_shows {i : Pid} {cmd : Cmd} {w : World} {event : Event}
    (h : event.tells i cmd w) (hcmd : cmd.shows = false) : event.seen i = none := by
  cases event with
  | inserted k row =>
    rcases h with ⟨_, txn, heq⟩
    subst heq
    cases hcmd
  | committed k audit =>
    rcases h with ⟨_, heq, _⟩
    subst heq
    cases hcmd
  | read k conditions row =>
    rcases h with ⟨_, heq⟩
    subst heq
    cases hcmd
  | _ => rfl

/--
The database does what it is asked to, and what it is to store fits its columns.
-/
def Performs (D : Deployment) (cmd : Cmd) (o : Oracle) : Prop :=
  match cmd with
  | .findTransaction _ | .insertTransaction _ | .begin | .selectForUpdate _ | .commit
  | .findEvent _ | .findStatsOf _ | .saveStats _ => o.fault = .none
  | .insertAudit audit => o.fault = .none ∧ Exec.AuditLog.fits D audit = true
  | .saveTransaction row => o.fault = .none ∧ Exec.Transaction.fits row = true
  | .saveAudit audit => o.fault = .none ∧ Exec.AuditLog.fits D audit = true
  -- the answer does not matter any more
  | .saveEvent _ => o.fault ≠ .before
  | _ => True

instance (D : Deployment) (cmd : Cmd) (o : Oracle) : Decidable (Performs D cmd o) :=
  match cmd with
  | .findTransaction _ | .insertTransaction _ | .begin | .selectForUpdate _ | .commit
  | .findEvent _ | .findStatsOf _ | .saveStats _ => inferInstanceAs (Decidable (o.fault = .none))
  | .insertAudit _ | .saveTransaction _ | .saveAudit _ => inferInstanceAs (Decidable (_ ∧ _))
  | .saveEvent _ => inferInstanceAs (Decidable (o.fault ≠ .before))
  | .mock _ | .client _ | .fallback _ | .rollback | .insertEvent _ | .findStats | .charge _ _
  | .race _ | .now => .isTrue trivial

/--
The open database transaction holds what the draft says, for the payment `id`.
-/
def Draft.Holds (draft : Draft) (id : String) (session : Option Session) : Prop :=
  match draft with
  | .closed => True
  | .opened => ∃ s, session = some s ∧ s.audits = []
  | .saved toState =>
    ∃ s row, session = some s ∧ s.update = some row ∧ row.id = id ∧ row.currentState = toState ∧
      s.audits = []
  | .logged toState =>
    ∃ s row audit, session = some s ∧ s.update = some row ∧ row.id = id ∧
      row.currentState = toState ∧ s.audits = [audit] ∧ audit.toState = toState

namespace Calm

/--
What a call that makes transitions knows: its payment is there, and it is the last that has seen it.
-/
def Grounded (s : Calm) (i : Pid) (w : World) : Prop :=
  match s with
  | .moving _ id seen draft =>
    (∃ row ∈ w.ledger.transactions, row.id = id) ∧ lastSeen i w.history = some seen ∧
      draft.Holds id (w.ledger.sessions i)
  | _ => True

variable {D : Deployment} {s : Calm} {i : Pid} {o : Oracle} {w w' : World}

theorem Grounded.frame (h : s.Grounded i w)
    (hrows : ∀ row ∈ w.ledger.transactions, ∃ row' ∈ w'.ledger.transactions, row'.id = row.id)
    (hseen : lastSeen i w'.history = lastSeen i w.history)
    (hsession : w'.ledger.sessions i = w.ledger.sessions i) : s.Grounded i w' := by
  cases s with
  | moving event id seen draft =>
    rcases h with ⟨⟨row, hrow, hid⟩, hlast, hdraft⟩
    rcases hrows row hrow with ⟨row', hrow', hid'⟩
    refine ⟨⟨row', hrow', by rw [hid', hid]⟩, ?_, ?_⟩
    . rw [hseen]
      exact hlast
    . rw [hsession]
      exact hdraft
  | _ => trivial

end Calm

/--
What happens by itself happens to no table.
-/
structure SameTables (w w' : World) : Prop where
  ledger : w'.ledger = w.ledger
  webhookEvents : w'.webhookEvents = w.webhookEvents
  gatewayStats : w'.gatewayStats = w.gatewayStats
  history : w'.history = w.history

theorem env_tables {e : EnvAct} {w w' : World} (henv : envStep e w = some w')
    : SameTables w w' := by
  cases e with
  | settle n status =>
    simp only [envStep] at henv
    split at henv
    . split at henv
      . injection henv with henv
        rw [← henv]
        exact ⟨rfl, rfl, rfl, rfl⟩
      . cases henv
    . cases henv
  | _ =>
    injection henv with henv
    rw [← henv]
    exact ⟨rfl, rfl, rfl, rfl⟩

/--
Rows of payments stay.
-/
theorem Touches.rows {i : Pid} {cmd : Cmd} {o : Oracle} {w w' : World} (h : Touches i cmd o w w')
    : ∀ row ∈ w.ledger.transactions, ∃ row' ∈ w'.ledger.transactions, row'.id = row.id := by
  intro row hrow
  rcases h.transactions with heq | ⟨_, _, _, heq⟩ | ⟨_, row', _, _, _, _, heq⟩
  . exact ⟨row, by rw [heq]; exact hrow, rfl⟩
  . exact ⟨row, by rw [heq]; exact List.mem_append_left _ hrow, rfl⟩
  . rw [heq]
    refine ⟨_, List.mem_map_of_mem hrow, ?_⟩
    split
    . next hid => exact hid.symm
    . rfl

/--
A payment stays in its state as long as nobody commits an update of it.
-/
theorem Touches.states {i : Pid} {cmd : Cmd} {o : Oracle} {w w' : World} (h : Touches i cmd o w w')
    {id : String} {seen : TransactionState} (hknown : ∃ row ∈ w.ledger.transactions, row.id = id)
    (hstate : ∀ row ∈ w.ledger.transactions, row.id = id → row.currentState = seen)
    (hcommit : ∀ session row, cmd = .commit → o.fault ≠ .before →
      w.ledger.sessions i = some session → session.update = some row → row.id ≠ id)
    : ∀ row ∈ w'.ledger.transactions, row.id = id → row.currentState = seen := by
  intro row hrow hid
  rcases h.transactions with heq | ⟨txn, _, hfresh, heq⟩ |
    ⟨session, row', hcmd, hfault, hsession, hupdate, heq⟩
  . rw [heq] at hrow
    exact hstate row hrow hid
  . rw [heq, List.mem_append, List.mem_singleton] at hrow
    rcases hrow with hrow | hrow
    . exact hstate row hrow hid
    . -- the id of a new row is new
      rcases hknown with ⟨old, hold, holdid⟩
      apply absurd _ hfresh
      rw [List.mem_map]
      refine ⟨old, hold, ?_⟩
      rw [holdid, ← hid, hrow]
      rfl
  . rw [heq] at hrow
    rcases Books.mem_writeRow hrow with hrow | ⟨hrow, _⟩
    . subst hrow
      exact absurd hid (hcommit session row hcmd hfault hsession hupdate)
    . exact hstate row hrow hid

namespace Calm

variable {D : Deployment} {s : Calm} {i : Pid} {o : Oracle} {w w' : World}

/--
The other processes leave the ground as it is.
-/
theorem Grounded.other (h : s.Grounded i w) {j : Pid} (hj : j ≠ i) {cmd : Cmd}
    {r : Except Err cmd.Resp} (hexec : exec D j cmd o w = some (r, w')) : s.Grounded i w' := by
  have htouches := exec_touches hexec
  apply h.frame htouches.rows
  . rcases exec_tells hexec with ⟨events, hevents, htells⟩
    rw [hevents]
    apply lastSeen_append
    intro event hevent
    exact (htells event hevent).seen_of_ne hj
  . apply htouches.sessions
    intro heq
    exact absurd heq.symm hj

theorem Grounded.env (h : s.Grounded i w) {e : EnvAct} (henv : envStep e w = some w')
    : s.Grounded i w' := by
  have hsame := env_tables henv
  apply h.frame
  . intro row hrow
    exact ⟨row, by rw [hsame.ledger]; exact hrow, rfl⟩
  . rw [hsame.history]
  . rw [hsame.ledger]

theorem Grounded.crash (h : s.Grounded i w) (inst : Nat)
    : (if i.inst = inst then s.crash else s).Grounded i (crashInst inst w) := by
  split
  . cases s with
    | moving event id seen draft => exact ⟨h.left, h.right.left, trivial⟩
    | _ => trivial
  . next hinst =>
    apply h.frame
    . intro row hrow
      exact ⟨row, hrow, rfl⟩
    . rfl
    . simp [crashInst, hinst]

theorem Grounded.quiet (h : s.Grounded i w) {cmd : Cmd} {r : Except Err cmd.Resp}
    (hsession : cmd.inSession = false) (hshows : cmd.shows = false)
    (hexec : exec D i cmd o w = some (r, w')) : s.Grounded i w' := by
  have htouches := exec_touches hexec
  apply h.frame htouches.rows
  . rcases exec_tells hexec with ⟨events, hevents, htells⟩
    rw [hevents]
    apply lastSeen_append
    intro event hevent
    exact (htells event hevent).seen_of_not_shows hshows
  . apply htouches.sessions
    exact fun _ => hsession

theorem Grounded.beside (h : s.Grounded i w) {cmd : Cmd} {r : Except Err cmd.Resp}
    (hcmd : cmd.beside) (hexec : exec D i cmd o w = some (r, w')) : (s.next cmd r).Grounded i w' := by
  have hnext : s.next cmd r = s := hcmd.calm.right r
  rw [hnext]
  apply h.quiet _ _ hexec
  . cases cmd <;> first | rfl | cases hcmd
  . cases cmd <;> first | rfl | cases hcmd

theorem Grounded.findTransaction {conditions : List TxnWhere} {r : Except Err (Option Transaction)}
    (hs : s ≠ .free) (hallowed : s.allowed (.findTransaction conditions))
    (hexec : exec D i (.findTransaction conditions) o w = some (r, w'))
    : (s.next (.findTransaction conditions) r).Grounded i w' := by
  rcases hallowed.resolve_left hs with hs | ⟨event, hs⟩
  . subst hs
    rcases r with e | _ | row <;> trivial
  . subst hs
    rcases r with e | _ | row
    . trivial
    . trivial
    . rcases Exec.findTransaction_cases hexec with ⟨hr, _⟩ | ⟨row', hr, hw, hpick, _⟩
      . cases hr
      . injection hr with hr
        subst hr hw
        have hmem := List.mem_of_getElem? hpick.symm
        rw [Exec.mem_matching] at hmem
        refine ⟨⟨row, hmem.left, rfl⟩, ?_, trivial⟩
        apply lastSeen_concat
        simp [Event.seen]

theorem Grounded.insertTransaction {txn : NewTransaction} {r : Except Err Transaction}
    (hs : s ≠ .free) (hallowed : s.allowed (.insertTransaction txn))
    (hexec : exec D i (.insertTransaction txn) o w = some (r, w'))
    : (s.next (.insertTransaction txn) r).Grounded i w' := by
  have hs := (hallowed.resolve_left hs).left
  subst hs
  cases r with
  | error e => trivial
  | ok row =>
    rcases Exec.insertTransaction_cases hexec with ⟨_, e, hr⟩ | ⟨_, _, hr, hw⟩
    . cases hr
    . rcases hr with hr | ⟨e, hr⟩
      . injection hr with hr
        subst hr hw
        refine ⟨⟨txn.row o.id, ?_, rfl⟩, ?_, trivial⟩
        . simp [Ledger.insert]
        . apply lastSeen_concat
          simp [Event.seen]
      . cases hr

/--
A statement of its own transition leaves the session that the draft says.
-/
theorem Grounded.inSession (h : s.Grounded i w) (hs : s ≠ .free) {cmd : Cmd}
    {r : Except Err cmd.Resp} (hcmd : cmd.inSession = true) (hallowed : s.allowed cmd)
    (hanswers : s.answers cmd r) (hexec : exec D i cmd o w = some (r, w'))
    : (s.next cmd r).Grounded i w' := by
  cases cmd with
  | begin =>
    rcases hallowed.resolve_left hs with ⟨event, id, seen, hs⟩
    subst hs
    rcases Exec.begin_cases hexec with ⟨_, e, hr⟩ | ⟨hw, hr⟩
    . subst hr
      exact absurd (hanswers.resolve_left hs) (fun h => h)
    . subst hr hw
      refine ⟨h.left, h.right.left, ?_⟩
      exact ⟨_, Function.update_self _ _ _, rfl⟩
  | selectForUpdate id =>
    rcases hallowed.resolve_left hs with ⟨event, seen, hs, _⟩
    subst hs
    rcases h with ⟨hrow, hseen, session, hsession, haudits⟩
    rcases Exec.selectForUpdate_cases hexec with ⟨session', hsession', hw | ⟨row, hr, _, _, _, hw⟩⟩
    . rw [hw.left]
      exact ⟨hrow, hseen, session, hsession, haudits⟩
    . rw [hsession] at hsession'
      injection hsession' with hsession'
      subst hsession' hr hw
      exact ⟨hrow, hseen, _, Function.update_self _ _ _, haudits⟩
  | saveTransaction row =>
    rcases hallowed.resolve_left hs with ⟨event, seen, hs⟩
    subst hs
    rcases h with ⟨hrow, hseen, session, hsession, haudits⟩
    rcases Exec.saveTransaction_cases hexec with ⟨session', hsession', ⟨_, e, hr⟩ | ⟨hr, hw⟩⟩
    . subst hr
      exact absurd (hanswers.resolve_left hs) id
    . rw [hsession] at hsession'
      injection hsession' with hsession'
      subst hsession' hr hw
      exact ⟨hrow, hseen, _, row, Function.update_self _ _ _, rfl, rfl, rfl, haudits⟩
  | saveAudit audit =>
    rcases hallowed.resolve_left hs with ⟨event, id, seen, hs⟩
    subst hs
    rcases h with ⟨hrow, hseen, session, row, hsession, hupdate, hid, hstate, haudits⟩
    rcases Exec.saveAudit_cases hexec with ⟨session', hsession', ⟨_, e, hr⟩ | ⟨hr, hw⟩⟩
    . subst hr
      exact absurd (hanswers.resolve_left hs) (fun h => h)
    . rw [hsession] at hsession'
      injection hsession' with hsession'
      subst hsession' hr hw
      refine ⟨hrow, hseen, _, row, { audit with createdAt := session.startedAt },
        Function.update_self _ _ _, hupdate, hid, hstate, ?_, rfl⟩
      rw [haudits]
      rfl
  | commit =>
    rcases hallowed.resolve_left hs with ⟨event, id, seen, toState, hs⟩
    subst hs
    rcases h with ⟨⟨old, hold, hid⟩, hseen, session, row, audit, hsession, _, _, _, haudits, hto⟩
    rcases (exec_touches hexec).rows old hold with ⟨old', hold', hid'⟩
    have hr : r = .ok () := by
      cases r with
      | error e => exact absurd (hanswers.resolve_left hs) (fun h => h)
      | ok _ => rfl
    subst hr
    rcases Exec.commit_cases hexec with ⟨session', hsession', ⟨_, e, hr⟩ | ⟨_, hw⟩⟩
    . cases hr
    . rw [hsession] at hsession'
      injection hsession' with hsession'
      subst hsession'
      refine ⟨⟨old', hold', by rw [hid', hid]⟩, ?_, trivial⟩
      rw [hw, haudits]
      apply lastSeen_concat
      simp [Event.seen, hto]
  | rollback => exact absurd (hallowed.resolve_left hs) (fun h => h)
  | _ => cases hcmd

/--
A commit leaves the payment in the state that the draft says.
-/
theorem Grounded.state_of_commit {event : Option WebhookEvent} {id : String}
    {seen toState : TransactionState} (h : (moving event id seen (.logged toState)).Grounded i w)
    (hexec : exec D i .commit o w = some (.ok (), w'))
    : ∀ row ∈ w'.ledger.transactions, row.id = id → row.currentState = toState := by
  rcases h with ⟨_, _, session, row, audit, hsession, hupdate, hid, hstate, _, _⟩
  rcases Exec.commit_cases hexec with ⟨session', hsession', ⟨_, e, hr⟩ | ⟨_, hw⟩⟩
  . cases hr
  . rw [hsession] at hsession'
    injection hsession' with hsession'
    subst hsession' hw
    intro row' hrow' hid'
    simp only [Ledger.release, Ledger.apply, hupdate] at hrow'
    rcases Books.mem_writeRow hrow' with hrow' | ⟨_, hne⟩
    . rw [hrow', hstate]
    . exact absurd (by rw [hid', hid]) hne

/--
A step of its own leaves the call on its ground.
-/
theorem Grounded.own (h : s.Grounded i w) (hs : s ≠ .free) {cmd : Cmd} {r : Except Err cmd.Resp}
    (hallowed : s.allowed cmd) (hanswers : s.answers cmd r)
    (hexec : exec D i cmd o w = some (r, w')) : (s.next cmd r).Grounded i w' := by
  cases cmd with
  | mock op =>
    cases op with
    | brpop queue =>
      have hs := (hallowed.resolve_left hs).left
      subst hs
      rcases r with e | _ | _ | id <;> trivial
    | _ => exact h.beside (hallowed.resolve_left hs) hexec
  | client op =>
    cases op with
    | brpop queue =>
      have hs := (hallowed.resolve_left hs).left
      subst hs
      rcases r with e | _ | id <;> trivial
    | _ => exact h.beside (hallowed.resolve_left hs) hexec
  | findTransaction conditions => exact Grounded.findTransaction hs hallowed hexec
  | insertTransaction txn => exact Grounded.insertTransaction hs hallowed hexec
  | insertAudit audit =>
    have hnext : s.next (.insertAudit audit) r = s := by
      cases r <;> rfl
    rw [hnext]
    exact h.quiet rfl rfl hexec
  | findEvent id =>
    have hs := hallowed.resolve_left hs
    subst hs
    rcases r with e | _ | event <;> trivial
  | saveEvent record =>
    have hquiet := h.quiet rfl rfl hexec
    cases s with
    | moving event id seen draft =>
      cases event with
      | none => exact hquiet
      | some event => trivial
    | _ => trivial
  | begin => exact h.inSession hs rfl hallowed hanswers hexec
  | selectForUpdate id => exact h.inSession hs rfl hallowed hanswers hexec
  | saveTransaction row => exact h.inSession hs rfl hallowed hanswers hexec
  | saveAudit audit => exact h.inSession hs rfl hallowed hanswers hexec
  | commit => exact h.inSession hs rfl hallowed hanswers hexec
  | rollback => exact h.inSession hs rfl hallowed hanswers hexec
  | _ => exact h.beside (hallowed.resolve_left hs) hexec

/--
Under statements that are performed, the answers are those of the protocol. What is left to show is
that the payment is still open to what the call is about to do, and that the event is there and
legible.
-/
theorem Grounded.answers (h : s.Grounded i w) {cmd : Cmd} {r : Except Err cmd.Resp}
    (hallowed : s.allowed cmd) (hperforms : s ≠ .free → Performs D cmd o)
    (hadmits : s ≠ .free → ∀ id, cmd = .selectForUpdate id → ∀ row ∈ w.ledger.transactions,
      row.id = id → s.admits row)
    (hevent : s ≠ .free → ∀ id, cmd = .findEvent id → ∃ event ∈ w.webhookEvents, event.id = id)
    (hlegible : s ≠ .free → ∀ id, cmd = .findEvent id → ∀ event ∈ w.webhookEvents, event.id = id →
      event.legible = true)
    (hexec : exec D i cmd o w = some (r, w')) : s.answers cmd r := by
  by_cases hs : s = .free
  . exact .inl hs
  right
  have hperformed := hperforms hs
  cases cmd with
  | mock op =>
    cases r with
    | ok reply => trivial
    | error e => simp [exec] at hexec
  | fallback op =>
    cases r with
    | ok reply => trivial
    | error e => simp [exec] at hexec
  | findTransaction conditions =>
    rcases r with e | row
    . simp only [exec, Exec.findTransaction, show o.fault = .none from hperformed] at hexec
      split at hexec
      . next hne => exact hne rfl
      . split at hexec <;> cases hexec
    . trivial
  | insertTransaction txn =>
    cases r with
    | error e => trivial
    | ok row =>
      rcases Exec.insertTransaction_cases hexec with ⟨_, e, hr⟩ | ⟨_, _, hr | ⟨e, hr⟩, _⟩
      . cases hr
      . injection hr with hr
        subst hr
        rfl
      . cases hr
  | insertAudit audit =>
    cases r with
    | ok _ => trivial
    | error e =>
      simp [exec, Exec.insertAudit, hperformed.left, hperformed.right, Exec.statement] at hexec
  | begin =>
    cases r with
    | ok _ => trivial
    | error e => simp [exec, Exec.begin, show o.fault = .none from hperformed] at hexec
  | selectForUpdate id =>
    rcases hallowed.resolve_left hs with ⟨event, seen, heq, _⟩
    subst heq
    rcases h with ⟨⟨old, hold, hid⟩, _, session, hsession, _⟩
    simp only [exec, Exec.selectForUpdate, Exec.inSession, hsession,
      show o.fault = .none from hperformed] at hexec
    split at hexec
    . next hfind =>
      rw [List.find?_eq_none] at hfind
      exact absurd hid (by simpa using hfind old hold)
    . next row hfind =>
      split at hexec
      . cases hexec
      . simp only [Option.some.injEq, Prod.mk.injEq] at hexec
        have hrow := List.mem_of_find?_eq_some hfind
        have hrowid : row.id = id := by
          simpa using List.find?_some hfind
        exact ⟨row, hexec.left.symm, hrowid, hadmits hs id rfl row hrow hrowid⟩
  | saveTransaction row =>
    cases r with
    | ok _ => trivial
    | error e =>
      rcases Exec.saveTransaction_cases hexec with ⟨session, hsession, _⟩
      simp [exec, Exec.saveTransaction, Exec.inSession, hsession, hperformed.left, hperformed.right]
        at hexec
  | saveAudit audit =>
    cases r with
    | ok _ => trivial
    | error e =>
      rcases Exec.saveAudit_cases hexec with ⟨session, hsession, _⟩
      simp [exec, Exec.saveAudit, Exec.inSession, hsession, hperformed.left, hperformed.right]
        at hexec
  | commit =>
    cases r with
    | ok _ => trivial
    | error e =>
      rcases Exec.commit_cases hexec with ⟨session, hsession, _⟩
      simp [exec, Exec.commit, hsession, show o.fault = .none from hperformed, Exec.statement]
        at hexec
  | findEvent id =>
    rcases hevent hs id rfl with ⟨record, hrecord, hid⟩
    simp only [exec, Exec.findEvent, show o.fault = .none from hperformed] at hexec
    split at hexec
    . next hne => exact absurd rfl hne
    . split at hexec
      . next hfind =>
        rw [List.find?_eq_none] at hfind
        exact absurd hid (by simpa using hfind record hrecord)
      . next event hfind =>
        simp only [Option.some.injEq, Prod.mk.injEq] at hexec
        have hevent := List.mem_of_find?_eq_some hfind
        have hid : event.id = id := by simpa using List.find?_some hfind
        exact ⟨event, hexec.left.symm, hid, hlegible hs id rfl event hevent hid⟩
  | findStatsOf gateway =>
    cases r with
    | ok stats => trivial
    | error e => simp [exec, Exec.query, show o.fault = .none from hperformed] at hexec
  | saveStats stats =>
    cases r with
    | ok _ => trivial
    | error e =>
      simp [exec, Exec.saveStats, Exec.statement, show o.fault = .none from hperformed] at hexec
  | charge gateway request =>
    cases r with
    | ok n => trivial
    | error e => simp [exec] at hexec
  | now =>
    cases r with
    | ok now => trivial
    | error e => simp [exec] at hexec
  | client op => cases r <;> trivial
  | rollback => cases r <;> trivial
  | insertEvent event => cases r <;> trivial
  | saveEvent record => cases r <;> trivial
  | findStats => cases r <;> trivial
  | race n => cases r <;> trivial

end Calm

/-!
One process is followed, the others are free.
-/

namespace Task

variable (tasks : Pid → Task) (i : Pid)

def followed (j : Pid) : Calm :=
  if j = i then (tasks i).calm else .free

def follows (j : Pid) (r : Except Err Reply) (s : Calm) : Prop :=
  j = i → (tasks i).calmly r s

theorem followed_program {D : Deployment} (j : Pid)
    : calmProtocol.wp ((tasks j).program D) (follows tasks i j) (followed tasks i j) := by
  have hfree : calmProtocol.wp ((tasks j).program D) (fun _ _ => True) .free := by
    exact calm_free (marking_program _)
  unfold followed
  split
  . next hj =>
    subst hj
    cases htask : tasks j with
    | ingest event =>
      rw [htask] at hfree
      apply Protocol.wp_mono hfree
      intro r s _ _
      rw [htask]
      trivial
    | _ =>
      apply Protocol.wp_mono (calm_program _ (by simp))
      intro r s hcalmly _
      rw [htask]
      exact hcalmly
  . next hj =>
    apply Protocol.wp_mono hfree
    intro r s _ heq
    exact absurd heq hj

theorem followed_crash (j : Pid) : (followed tasks i j).crash = followed tasks i j := by
  unfold followed
  split
  . cases tasks i <;> rfl
  . rfl

theorem follows_crash (j : Pid) (r : Except Err Reply) (s : Calm) (h : follows tasks i j r s)
    : follows tasks i j r s.crash := by
  intro hj
  have hcalmly := h hj
  cases htask : tasks i with
  | create dto =>
    rw [htask] at hcalmly
    rcases hcalmly with hs | ht
    . subst hs
      exact .inl rfl
    . exact .inr ht
  | ingest event => trivial
  | pollQueue =>
    rw [htask] at hcalmly
    rcases hcalmly with hs | ⟨event, hs, hprocessed⟩ | ⟨id, hs⟩
    . subst hs
      exact .inl rfl
    . subst hs
      exact .inr (.inl ⟨event, rfl, hprocessed⟩)
    . subst hs
      exact .inr (.inr ⟨id, rfl⟩)

end Task

end PaymentOrchestration
