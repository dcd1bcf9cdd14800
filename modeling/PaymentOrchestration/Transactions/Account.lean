import PaymentOrchestration.Breaker.Calls
import PaymentOrchestration.Books.History
import PaymentOrchestration.Concurrency.Amid
import PaymentOrchestration.Concurrency.Observed

/-!
This module is about a call of `create` that nobody interferes with, when every gateway has made up
its mind: what each part of the call does to the records of the payment.
-/

namespace PaymentOrchestration

open Machine StateMachine TransactionsService

/--
What the observer of a call of `create` notes. A record is noted when its row is saved.
-/
inductive GatewayEvent where
  | charged (gateway : GatewayProvider)
  | failed (gateway : GatewayProvider)
  | succeeded (gateway : GatewayProvider)
  deriving DecidableEq, Repr

def seesGateways (_ : Pid) (cmd : Cmd) (_ : Oracle) (w : World) : List GatewayEvent :=
  match cmd with
  | .charge gateway _ => [.charged gateway]
  | .saveStats stats =>
    match w.statsOf stats.gateway with
    | some old =>
      if old.failureCount < stats.failureCount then
        [.failed stats.gateway]
      else if old.successCount < stats.successCount then
        [.succeeded stats.gateway]
      else
        []
    | none => []
  | _ => []

/--
What comes of a charge call at a gateway.
-/
inductive GatewayOutcome where
  -- in time
  | answers (response : GatewayChargeResponse)
  | throws (message : String)
  | timesOut

namespace GatewayOutcome

def succeeds (outcome : GatewayOutcome) : Bool :=
  match outcome with
  | .answers response => response.success
  | _ => false

-- How `Promise.race` ends.
def reply (outcome : GatewayOutcome) : Except Err GatewayChargeResponse :=
  match outcome with
  | .answers response => .ok response
  | .throws message => .error (.error message)
  | .timesOut => .error (.error "Gateway call timed out")

-- The text that ends up in the audit log.
def error (outcome : GatewayOutcome) : String :=
  match outcome.reply with
  | .ok response => errorOf response
  | .error err => errorText err

-- The answer as the audit log has it.
def rawResponse (outcome : GatewayOutcome) : Json :=
  match outcome.reply with
  | .ok response => response.rawResponse
  | .error err => .obj [("error", .str (errorText err))]

def settles (outcome : GatewayOutcome) (status : ChargeStatus) (timedOut : Bool) : Prop :=
  match outcome, status with
  | _, .pending _ => True
  | .answers response, .answered response' => response' = response
  | .throws message, .threw message' _ => message' = message
  | .timesOut, _ => timedOut = true
  | _, _ => False

end GatewayOutcome

section Surroundings

variable (D : Deployment) (i : Pid) (outcome : GatewayProvider → GatewayOutcome)

/--
Time passes, and the gateways answer the charge calls of process `i` as `outcome` says.
-/
def Surroundings (w : World) (e : EnvAct) : Prop :=
  match e with
  | .tick _ => True
  | .settle n status => ∀ charge, w.charges[n]? = some charge → charge.pid = i →
    (outcome charge.gateway).settles status charge.timedOut
  | _ => False

-- The columns take the values of the statement.
def Cmd.fits (cmd : Cmd) : Bool :=
  match cmd with
  | .insertTransaction txn => Exec.NewTransaction.fits txn
  | .insertAudit row => Exec.AuditLog.fits D row
  | .saveTransaction row => Exec.Transaction.fits row
  | .saveAudit row => Exec.AuditLog.fits D row
  | _ => true

/--
No statement fails, and the timer goes off only for a gateway that does not answer in time.
-/
def InTime (w : World) (cmd : Cmd) (o : Oracle) : Prop :=
  o.fault = .none ∧ cmd.fits D = true ∧
  ∀ n charge, cmd = .race n → o.timer = true → w.charges[n]? = some charge →
    outcome charge.gateway = .timesOut

end Surroundings

def AuditLog.entry (row : AuditLog)
    : String × Option TransactionState × TransactionState × Option GatewayProvider :=
  (row.transactionId, row.fromState, row.toState, row.gateway)

def Charge.call (charge : Charge) : Pid × GatewayProvider × GatewayChargeRequest :=
  (charge.pid, charge.gateway, charge.request)

/--
The world with what has been noted so far.
-/
abbrev Scene := World × List GatewayEvent

/--
The records of a payment among those of the others.
-/
structure Account where
  others : List Transaction
  payment : Option Transaction
  trail : List (String × Option TransactionState × TransactionState × Option GatewayProvider)
  calls : List (Pid × GatewayProvider × GatewayChargeRequest)
  gateways : List GatewayProvider
  events : List GatewayEvent
  -- the row that the payment was created with
  created : Option Transaction

/--
What an open database transaction has done so far.
-/
structure OpenTx where
  lock : Option String
  update : Option Transaction
  audits : List AuditLog

namespace Account

-- The row has been committed with an audit row.
def moved (a : Account) (row : Transaction) (audit : AuditLog) : Account :=
  { a with payment := some row, trail := a.trail ++ [audit.entry] }

def notes (a : Account) (event : GatewayEvent) : Account :=
  { a with events := a.events ++ [event] }

/--
The records of the scene are those of the account. `tx` is the database transaction that process `i`
has open.
-/
structure Shows (a : Account) (i : Pid) (tx : Option OpenTx) (s : Scene) : Prop where
  transactions : s.1.ledger.transactions = a.others ++ a.payment.toList
  fresh : ∀ row, a.payment = some row → ∀ t ∈ a.others, t.id ≠ row.id
  trail : s.1.ledger.auditLog.map AuditLog.entry = a.trail
  session : match tx with
    | none => s.1.ledger.sessions i = none
    | some tx => ∃ t, s.1.ledger.sessions i =
        some ⟨t, tx.lock, tx.update, tx.audits.map (fun row => { row with createdAt := t })⟩
  locks : ∀ id, s.1.ledger.locks id = if tx.bind OpenTx.lock = some id then some i else none
  connected : (s.1.mem i.inst).isMockMode = false
  gateways : s.1.gatewayStats.map GatewayStats.gateway = a.gateways
  unique : a.gateways.Nodup
  calls : s.1.charges.map Charge.call = a.calls
  events : s.2 = a.events
  created : ∀ row, a.created = some row → .inserted i row ∈ s.1.history

end Account

variable (D : Deployment) (i : Pid) (outcome : GatewayProvider → GatewayOutcome)

abbrev sceneMachine : Machine Cmd Cmd.Resp Err :=
  (machine D).observed seesGateways

/--
Process `i` runs the program to its end with nobody else around.
-/
def Undergoes {α : Type} (p : Program α) (s : Scene) (r : Except Err α) (s' : Scene) : Prop :=
  (sceneMachine D).CompletesAmid i (fun s e => Surroundings i outcome s.1 e)
    (fun s cmd o => InTime D outcome s.1 cmd o) p s r s'

/--
If process `i` runs the program with nobody else around, it ends in `Φ`. If it has to be `total`, it
does end.
-/
def Leads (total : Prop) {α : Type} (p : Program α) (Φ : α → Scene → Prop) (s : Scene) : Prop :=
  ((sceneMachine D).amid i (fun s e => Surroundings i outcome s.1 e)
    (fun s cmd o => InTime D outcome s.1 cmd o) total).Assures Eq (fun _ _ => True) p Φ s

variable {D} {i} {outcome} {a : Account} {tx : Option OpenTx} {s s' : Scene} {α : Type}
  {total : Prop}

/-!
What goes on around the call leaves its records alone.
-/

structure Around (s s' : Scene) : Prop where
  world : ∃ clock charges, s'.1 = { s.1 with clock := clock, charges := charges }
  clock : s.1.clock ≤ s'.1.clock
  calls : s'.1.charges.map Charge.call = s.1.charges.map Charge.call
  log : s'.2 = s.2

namespace Around

theorem refl (s : Scene) : Around s s := by
  exact ⟨⟨_, _, rfl⟩, le_refl _, rfl, rfl⟩

theorem trans {s₁ s₂ s₃ : Scene} (h : Around s₁ s₂) (h' : Around s₂ s₃) : Around s₁ s₃ := by
  rcases h.world with ⟨_, _, hw⟩
  rcases h'.world with ⟨clock, charges, hw'⟩
  refine ⟨⟨clock, charges, ?_⟩, h.clock.trans h'.clock, h'.calls.trans h.calls, h'.log.trans h.log⟩
  rw [hw', hw]

theorem redis (h : Around s s') : s'.1.redis = s.1.redis := by
  rcases h.world with ⟨_, _, hw⟩
  rw [hw]

theorem gatewayStats (h : Around s s') : s'.1.gatewayStats = s.1.gatewayStats := by
  rcases h.world with ⟨_, _, hw⟩
  rw [hw]

end Around

theorem Surroundings.env {e : EnvAct} {w w' : World} (he : Surroundings i outcome w e)
    (henv : envStep e w = some w')
    : ∃ clock charges, w' = { w with clock := clock, charges := charges } ∧ w.clock ≤ clock ∧
        charges.map Charge.call = w.charges.map Charge.call := by
  cases e with
  | tick ms =>
    injection henv with henv
    subst henv
    exact ⟨_, _, rfl, Nat.le_add_right _ _, rfl⟩
  | settle n status =>
    simp only [envStep] at henv
    split at henv
    . next charge hcharge =>
      split at henv
      . injection henv with henv
        subst henv
        refine ⟨_, _, rfl, le_refl _, ?_⟩
        apply Books.map_set_of_eq hcharge
        rfl
      . cases henv
    . cases henv
  | _ => exact he.elim

abbrev Idles (D : Deployment) (i : Pid) (outcome : GatewayProvider → GatewayOutcome) (s s' : Scene)
    : Prop :=
  (sceneMachine D).Drifts (fun s e => Surroundings i outcome s.1 e) s s'

theorem Idles.around (h : Idles D i outcome s s') : Around s s' := by
  induction h with
  | refl => exact .refl s
  | tail _ hstep ih =>
    rcases hstep with ⟨e, he, henv⟩
    rcases (observed_env seesGateways).mp henv with ⟨henv', hlog⟩
    rcases he.env henv' with ⟨clock, charges, hw, hclock, hcalls⟩
    apply ih.trans
    refine ⟨⟨clock, charges, hw⟩, ?_, ?_, hlog⟩
    . rw [hw]
      exact hclock
    . rw [hw]
      exact hcalls

theorem Account.Shows.around (h : a.Shows i tx s) (hs : Around s s') : a.Shows i tx s' := by
  rcases hs.world with ⟨clock, charges, hw⟩
  constructor
  . rw [hw]
    exact h.transactions
  . exact h.fresh
  . rw [hw]
    exact h.trail
  . rw [hw]
    exact h.session
  . rw [hw]
    exact h.locks
  . rw [hw]
    exact h.connected
  . rw [hw]
    exact h.gateways
  . exact h.unique
  . exact hs.calls.trans h.calls
  . exact hs.log.trans h.events
  . rw [hw]
    exact h.created

/-!
A statement of the call.
-/

theorem leads_perform {cmd : Cmd} {Φ : cmd.Resp → Scene → Prop}
    (hready : total → ∃ s₁ o x w, Idles D i outcome s s₁ ∧ InTime D outcome s₁.1 cmd o ∧
      exec D i cmd o s₁.1 = some (x, w))
    (hall : ∀ s₁ o x w, Idles D i outcome s s₁ → InTime D outcome s₁.1 cmd o →
      exec D i cmd o s₁.1 = some (x, w) →
      ∃ v, x = .ok v ∧ Φ v (w, s₁.2 ++ seesGateways i cmd o s₁.1))
    : Leads D i outcome total (perform cmd) Φ s := by
  apply Setting.Assures.perform
  intro s₀ hs₀
  subst hs₀
  refine ⟨?_, ?_⟩
  . intro htotal
    rcases hready htotal with ⟨s₁, o, x, w, hidles, ho, hexec⟩
    refine ⟨s₁, o, x, (w, s₁.2 ++ seesGateways i cmd o s₁.1), hidles, ho, ?_⟩
    exact observed_exec.mpr ⟨hexec, rfl⟩
  . rintro x s₂ ⟨s₁, o, hidles, ho, hanswer⟩
    rcases observed_exec.mp hanswer with ⟨hexec, hlog⟩
    rcases hall s₁ o x s₂.1 hidles ho hexec with ⟨v, hv, hΦ⟩
    rw [← hlog] at hΦ
    exact ⟨trivial, v, hv, hΦ⟩

/--
A command that has one answer and one effect in each world, unless something goes wrong.
-/
theorem leads_command {cmd : Cmd} {Φ : cmd.Resp → Scene → Prop} (hrace : ∀ n, cmd ≠ .race n)
    (hfits : total → cmd.fits D = true)
    (h : ∀ s₁, Around s s₁ → cmd.fits D = true → ∃ v w,
      (∀ o : Oracle, o.fault = .none → exec D i cmd o s₁.1 = some (.ok v, w)) ∧
      Φ v (w, s₁.2 ++ seesGateways i cmd {} s₁.1))
    : Leads D i outcome total (perform cmd) Φ s := by
  apply leads_perform
  . intro htotal
    rcases h s (.refl s) (hfits htotal) with ⟨v, w, hexec, _⟩
    refine ⟨s, {}, .ok v, w, .refl, ⟨rfl, hfits htotal, ?_⟩, hexec {} rfl⟩
    intro n charge hcmd
    exact absurd hcmd (hrace n)
  . intro s₁ o x w hidles ho hexec
    rcases h s₁ hidles.around ho.right.left with ⟨v, w', hexec', hΦ⟩
    have heq := (hexec' o ho.left).symm.trans hexec
    rw [Option.some.injEq, Prod.mk.injEq] at heq
    rcases heq with ⟨hx, hw⟩
    subst hw
    exact ⟨v, hx.symm, hΦ⟩

theorem leads_unseen {cmd : Cmd} {Φ : cmd.Resp → Scene → Prop} (hrace : ∀ n, cmd ≠ .race n)
    (hunseen : ∀ w, seesGateways i cmd {} w = []) (hfits : total → cmd.fits D = true)
    (h : ∀ s₁, Around s s₁ → cmd.fits D = true → ∃ v w,
      (∀ o : Oracle, o.fault = .none → exec D i cmd o s₁.1 = some (.ok v, w)) ∧ Φ v (w, s₁.2))
    : Leads D i outcome total (perform cmd) Φ s := by
  apply leads_command hrace hfits
  intro s₁ hs₁ hcmd
  rw [hunseen, List.append_nil]
  exact h s₁ hs₁ hcmd

/-!
A transition.
-/

def OpenTx.session (tx : OpenTx) (startedAt : Nat) : Session where
  startedAt := startedAt
  lock := tx.lock
  update := tx.update
  audits := tx.audits.map (fun row => { row with createdAt := startedAt })

theorem Account.Shows.exists_session {tx : OpenTx} (h : a.Shows i (some tx) s)
    : ∃ t, s.1.ledger.sessions i = some (tx.session t) := by
  exact h.session

theorem Account.Shows.setSession (h : a.Shows i tx s) (tx' : OpenTx)
    (hlock : tx.bind OpenTx.lock = tx'.lock) (t : Nat)
    : a.Shows i (some tx') (Exec.setSession i (tx'.session t) s.1, s.2) := by
  refine ⟨h.transactions, h.fresh, h.trail, ⟨t, ?_⟩, ?_, h.connected, h.gateways, h.unique, h.calls,
    h.events, h.created⟩
  . exact Function.update_self _ _ _
  . intro id
    rw [Option.bind_some, ← hlock]
    exact h.locks id

theorem leads_begin (h : a.Shows i none s)
    : Leads D i outcome total (perform .begin)
        (fun _ s' => a.Shows i (some ⟨none, none, []⟩) s') s := by
  apply leads_unseen (by simp) (fun _ => rfl) (fun _ => rfl)
  intro s₁ hs₁ _
  refine ⟨(), Exec.setSession i ⟨s₁.1.clock, none, none, []⟩ s₁.1, fun o ho => ?_, ?_⟩
  . simp [exec, Exec.begin, ho]
  . exact (h.around hs₁).setSession ⟨none, none, []⟩ rfl s₁.1.clock

theorem leads_now : Leads D i outcome total (perform .now) (fun _ s' => Around s s') s := by
  apply leads_unseen (by simp) (fun _ => rfl) (fun _ => rfl)
  intro s₁ hs₁ _
  exact ⟨s₁.1.clock, s₁.1, fun o ho => rfl, hs₁⟩

-- The row of the payment is found and nobody else holds it.
theorem Account.Shows.find?_eq {row : Transaction} (h : a.Shows i tx s) (hrow : a.payment = some row)
    : s.1.ledger.transactions.find? (·.id = row.id) = some row := by
  rw [h.transactions, hrow, List.find?_append, List.find?_eq_none.mpr]
  . simp
  . intro t ht
    simpa using h.fresh row hrow t ht

theorem leads_selectForUpdate {row : Transaction} (h : a.Shows i (some ⟨none, none, []⟩) s)
    (hrow : a.payment = some row)
    : Leads D i outcome total (perform (.selectForUpdate row.id))
        (fun t s' => t = some row ∧ a.Shows i (some ⟨some row.id, none, []⟩) s') s := by
  apply leads_unseen (by simp) (fun _ => rfl) (fun _ => rfl)
  intro s₁ hs₁ _
  have h₁ := h.around hs₁
  rcases h₁.exists_session with ⟨t, hsession⟩
  have hfree : s₁.1.ledger.locks row.id = none := by simpa using h₁.locks row.id
  let w := Exec.setSession i (OpenTx.session ⟨some row.id, none, []⟩ t) s₁.1
  refine ⟨some row, { w with ledger :=
    { w.ledger with locks := Function.update w.ledger.locks row.id (some i) } }, fun o ho => ?_, ?_⟩
  . simp only [exec, Exec.selectForUpdate, Exec.inSession, hsession, ho, h₁.find?_eq hrow, hfree]
    rfl
  . refine ⟨rfl, h₁.transactions, h₁.fresh, h₁.trail, ⟨t, Function.update_self _ _ _⟩, ?_,
      h₁.connected, h₁.gateways, h₁.unique, h₁.calls, h₁.events, h₁.created⟩
    intro id
    change Function.update s₁.1.ledger.locks row.id (some i) id = _
    have hlocks := h₁.locks id
    grind

theorem leads_saveTransaction {row : Transaction} {id : Option String}
    (h : a.Shows i (some ⟨id, none, []⟩) s) (hfits : total → Exec.Transaction.fits row = true)
    : Leads D i outcome total (perform (.saveTransaction row))
        (fun _ s' => a.Shows i (some ⟨id, some row, []⟩) s') s := by
  apply leads_unseen (by simp) (fun _ => rfl) hfits
  intro s₁ hs₁ hcmd
  have h₁ := h.around hs₁
  rcases h₁.exists_session with ⟨t, hsession⟩
  refine ⟨(), Exec.setSession i (OpenTx.session ⟨id, some row, []⟩ t) s₁.1, fun o ho => ?_, ?_⟩
  . simp only [exec, Exec.saveTransaction, Exec.inSession, hsession, ho,
      show Exec.Transaction.fits row = true from hcmd]
    rfl
  . exact h₁.setSession ⟨id, some row, []⟩ rfl t

theorem leads_saveAudit {row : Transaction} {audit : AuditLog} {id : Option String}
    (h : a.Shows i (some ⟨id, some row, []⟩) s) (hfits : total → Exec.AuditLog.fits D audit = true)
    : Leads D i outcome total (perform (.saveAudit audit))
        (fun _ s' => a.Shows i (some ⟨id, some row, [audit]⟩) s') s := by
  apply leads_unseen (by simp) (fun _ => rfl) hfits
  intro s₁ hs₁ hcmd
  have h₁ := h.around hs₁
  rcases h₁.exists_session with ⟨t, hsession⟩
  refine ⟨(), Exec.setSession i (OpenTx.session ⟨id, some row, [audit]⟩ t) s₁.1, fun o ho => ?_, ?_⟩
  . simp only [exec, Exec.saveAudit, Exec.inSession, hsession, ho,
      show Exec.AuditLog.fits D audit = true from hcmd]
    rfl
  . exact h₁.setSession ⟨id, some row, [audit]⟩ rfl t

theorem leads_commit {row row' : Transaction} {audit : AuditLog} (hrow : a.payment = some row)
    (h : a.Shows i (some ⟨some row.id, some row', [audit]⟩) s) (hid : row'.id = row.id)
    : Leads D i outcome total (perform .commit)
        (fun _ s' => (a.moved row' audit).Shows i none s') s := by
  apply leads_unseen (by simp) (fun _ => rfl) (fun _ => rfl)
  intro s₁ hs₁ _
  have h₁ := h.around hs₁
  rcases h₁.exists_session with ⟨t, hsession⟩
  let session := OpenTx.session ⟨some row.id, some row', [audit]⟩ t
  refine ⟨(), { s₁.1 with
    ledger := (s₁.1.ledger.apply session).release i
    history := s₁.1.history ++ session.audits.map (.committed i) }, fun o ho => ?_, ?_⟩
  . simp only [exec, Exec.commit, hsession, ho, Exec.statement]
    rfl
  . refine ⟨?_, ?_, ?_, ?_, ?_, h₁.connected, h₁.gateways, h₁.unique, h₁.calls, h₁.events, ?_⟩
    . change Ledger.writeRow row' s₁.1.ledger.transactions = a.others ++ [row']
      unfold Ledger.writeRow
      rw [h₁.transactions, hrow, List.map_append]
      congr 1
      . conv => rhs; rw [← List.map_id a.others]
        apply List.map_congr_left
        intro old hold
        rw [if_neg, id]
        rw [hid]
        exact h₁.fresh row hrow old hold
      . simp [hid]
    . intro r hr t ht
      injection hr with hr
      rw [← hr, hid]
      exact h₁.fresh row hrow t ht
    . change (s₁.1.ledger.auditLog ++ _).map AuditLog.entry = a.trail ++ [audit.entry]
      rw [List.map_append, h₁.trail]
      rfl
    . exact Function.update_self _ _ _
    . intro id
      change (if s₁.1.ledger.locks id = some i then none else s₁.1.ledger.locks id) = none
      have hlocks := h₁.locks id
      grind
    . intro r hr
      exact List.mem_append_left _ (h₁.created r hr)

-- The audit row of the transition takes what the metadata puts into it.
def TransitionMetadata.fits (D : Deployment) (metadata : TransitionMetadata) : Bool :=
  metadata.reason.all (Exec.varchar 500) && metadata.rawGatewayResponse.all D.jsonb

/--
What a transition other than the one to RECONCILED makes of the row.
-/
def transitioned (row : Transaction) (toState : TransactionState) (metadata : TransitionMetadata)
    : Transaction :=
  mutate row toState metadata 0

theorem leads_transition {row : Transaction} {id : String} {toState : TransactionState}
    {metadata : TransitionMetadata} (h : a.Shows i none s) (hrow : a.payment = some row)
    (hid : row.id = id)
    (hvalid : toState ∈ VALID_TRANSITIONS row.currentState)
    (hto : toState ≠ .RECONCILED)
    (hfits : total → Exec.Transaction.fits (transitioned row toState metadata) = true)
    (hmetadata : total → metadata.fits D = true)
    : Leads D i outcome total (transition id toState metadata)
        (fun t s' => t = transitioned row toState metadata ∧
          (a.moved t (auditRow row.currentState t toState metadata)).Shows i none s') s := by
  subst hid
  have hmutate : ∀ now, mutate row toState metadata now = transitioned row toState metadata := by
    intro now
    simp [transitioned, mutate, hto]
  unfold transition inTransaction
  apply Setting.Assures.tryCatch
  apply Setting.Assures.bind (leads_begin h)
  intro _ s₁ h₁
  apply Setting.Assures.bind
    (Φ := fun t s' => t = transitioned row toState metadata ∧
      a.Shows i (some ⟨some row.id, some t, [auditRow row.currentState t toState metadata]⟩) s')
  . apply Setting.Assures.bind (leads_selectForUpdate h₁ hrow)
    rintro _ s₂ ⟨rfl, h₂⟩
    simp only [hvalid, not_true_eq_false, if_false]
    apply Setting.Assures.bind leads_now
    intro now s₃ h₃
    rw [hmutate]
    apply Setting.Assures.bind (leads_saveTransaction (h₂.around h₃) hfits)
    intro _ s₄ h₄
    apply Setting.Assures.bind (leads_saveAudit h₄ hmetadata)
    intro _ s₅ h₅
    exact ⟨rfl, h₅⟩
  . rintro t s₂ ⟨ht, h₂⟩
    subst ht
    apply Setting.Assures.bind (leads_commit hrow h₂ rfl)
    intro _ s₃ h₃
    exact ⟨rfl, h₃⟩

end PaymentOrchestration
