import PaymentOrchestration.Books.History
import PaymentOrchestration.Books.Settlement
import PaymentOrchestration.Party.Round
import PaymentOrchestration.Transactions.Uncontested
import PaymentOrchestration.Watched
import PaymentOrchestration.Webhooks.NamedPayment

/-!
This module is about a webhook that comes while `create` still works on its payment. The payment is
reconciled unless the worker looks it up before `create` has stored the id of the charge, or `create`
commits between the lookup and the commits of the worker.
-/

namespace PaymentOrchestration

open ReconciliationWorker

namespace Calm

variable {D : Deployment} {s : Calm} {i j : Pid} {o : Oracle} {w w' : World} {cmd : Cmd}
  {r : Except Err cmd.Resp}

/--
The lookup of worker `j` has found the payment with this id.
-/
def Shown (j : Pid) (id : String) (w : World) : Prop :=
  ∃ conditions t, .read j conditions (some t) ∈ w.history ∧ t.id = id

/--
The payment a worker has found is the one that `i` has inserted, and it is in the state the worker
has last seen it in.
-/
def Keeps (s : Calm) (i j : Pid) (w : World) : Prop :=
  match s with
  | .moving _ id seen _ =>
    (∃ row, .inserted i row ∈ w.history ∧ row.id = id) ∧ Shown j id w ∧
      ∀ row ∈ w.ledger.transactions, row.id = id → row.currentState = seen
  | _ => True

theorem Keeps.frame (h : s.Keeps i j w)
    (hrows : ∀ event id seen draft, s = .moving event id seen draft → Shown j id w →
      (∀ row ∈ w.ledger.transactions, row.id = id → row.currentState = seen) →
      ∀ row ∈ w'.ledger.transactions, row.id = id → row.currentState = seen)
    (hhistory : ∃ events, w'.history = w.history ++ events) : s.Keeps i j w' := by
  rcases hhistory with ⟨events, hhistory⟩
  cases s with
  | moving event id seen draft =>
    rcases h with ⟨⟨row, hrow, hid⟩, hshown, hstate⟩
    have hstate' := hrows event id seen draft rfl hshown hstate
    rcases hshown with ⟨conditions, t, hread, ht⟩
    refine ⟨⟨row, ?_, hid⟩, ⟨conditions, t, ?_, ht⟩, hstate'⟩
    . rw [hhistory]
      exact List.mem_append_left _ hrow
    . rw [hhistory]
      exact List.mem_append_left _ hread
  | _ => trivial

theorem onward_of_ne (hsave : ∀ record, cmd ≠ .saveEvent record) : s.onward cmd r = s.next cmd r := by
  unfold onward
  split
  . exact absurd rfl (hsave _)
  . rfl

/--
A round keeps the event it has loaded.
-/
theorem onward_event (hfind : ∀ id, cmd ≠ .findEvent id) : (s.onward cmd r).event = s.event := by
  by_cases hsave : ∃ record, cmd = .saveEvent record
  . rcases hsave with ⟨record, hcmd⟩
    subst hcmd
    rfl
  . rw [onward_of_ne (fun record heq => hsave ⟨record, heq⟩)]
    have hturn := s.turn cmd r
    generalize s.next cmd r = s' at hturn ⊢
    cases hturn with
    | found => exact absurd rfl (hfind _)
    | marked => exact absurd ⟨_, rfl⟩ hsave
    | _ => rfl

/--
Only a lookup and a commit move what a worker sees of its payment.
-/
theorem onward_seen (hs : s ≠ .starting) (hfind : ∀ conditions, cmd ≠ .findTransaction conditions)
    (hcommit : cmd ≠ .commit) {event : Option WebhookEvent} {id : String} {seen : TransactionState}
    {draft : Draft} (h : s.onward cmd r = .moving event id seen draft)
    : ∃ draft', s = .moving event id seen draft' := by
  by_cases hsave : ∃ record, cmd = .saveEvent record
  . rcases hsave with ⟨record, hcmd⟩
    subst hcmd
    exact ⟨draft, h⟩
  . rw [onward_of_ne (fun record heq => hsave ⟨record, heq⟩)] at h
    have hturn := s.turn cmd r
    generalize s.next cmd r = s' at hturn h
    cases hturn with
    | stay => exact ⟨draft, h⟩
    | inserted => exact absurd rfl hs
    | read => exact absurd rfl (hfind _)
    | marked => cases h
    | drafted =>
      cases h
      exact ⟨_, rfl⟩
    | committed => exact absurd rfl hcommit
    | _ => cases h

-- The state of a worker.
def Works (s : Calm) : Prop :=
  s ≠ .free ∧ s ≠ .starting

theorem Works.onward (h : s.Works) : (s.onward cmd r).Works := by
  by_cases hsave : ∃ record, cmd = .saveEvent record
  . rcases hsave with ⟨record, hcmd⟩
    subst hcmd
    exact h
  . rw [onward_of_ne (fun record heq => hsave ⟨record, heq⟩)]
    have hturn := s.turn cmd r
    generalize s.next cmd r = s' at hturn ⊢
    cases hturn with
    | stay => exact h
    | _ => simp [Works]

theorem Works.crash (h : s.Works) : s.crash.Works := by
  cases s with
  | moving event id seen draft => simp [Works, Calm.crash]
  | _ => exact h

theorem crash_event : s.crash.event = s.event := by
  cases s <;> rfl

theorem Grounded.onward (h : s.Grounded j w) (hworks : s.Works) (hallowed : s.allowed cmd)
    (hexpects : s.expects cmd r) (hexec : exec D j cmd o w = some (r, w'))
    : (s.onward cmd r).Grounded j w' := by
  cases cmd with
  | saveEvent record => exact h.quiet rfl rfl hexec
  | findEvent id =>
    have hs := hallowed.resolve_left hworks.left
    subst hs
    rcases r with e | _ | event <;> trivial
  | findTransaction conditions => exact Grounded.findTransaction hworks.left hallowed hexec
  | _ => exact h.own hworks.left hallowed hexpects hexec

/--
The database returns the payment that `i` has inserted, and it has not failed.
-/
def Leads (D : Deployment) (i : Pid) (conditions : List TxnWhere) (o : Oracle) (w : World) : Prop :=
  ∃ row t, .inserted i row ∈ w.history ∧ t.id = row.id ∧
    (matching D conditions w.ledger.transactions)[o.pick]? = some t ∧
    t.currentState ≠ .FAILED

theorem Keeps.lookup {event : WebhookEvent} {conditions : List TxnWhere}
    {r : Except Err (Option Transaction)}
    (hids : ∀ t ∈ w.ledger.transactions, ∀ u ∈ w.ledger.transactions, t.id = u.id → t = u)
    (hleads : Leads D i conditions o w)
    (hexec : exec D j (.findTransaction conditions) o w = some (r, w'))
    : ((loaded event).onward (.findTransaction conditions) r).Keeps i j w' := by
  rcases hleads with ⟨row, t, hrow, hid, hpick, _⟩
  rcases Exec.findTransaction_cases hexec with ⟨hr, _⟩ | ⟨found, hr, hw, hfound, _⟩
  . subst hr
    trivial
  . rw [hpick] at hfound
    subst hr hw hfound
    have ht := (Exec.mem_matching.mp (List.mem_of_getElem? hpick)).left
    refine ⟨⟨row, List.mem_append_left _ hrow, hid.symm⟩, ⟨conditions, t, by simp, rfl⟩, ?_⟩
    intro u hu huid
    rw [hids u hu t ht huid]

theorem Keeps.onward (h : s.Keeps i j w) (hground : s.Grounded j w) (hworks : s.Works)
    (hallowed : s.allowed cmd) (hexpects : s.expects cmd r)
    (hids : ∀ t ∈ w.ledger.transactions, ∀ u ∈ w.ledger.transactions, t.id = u.id → t = u)
    (hleads : ∀ conditions, cmd = .findTransaction conditions → Leads D i conditions o w)
    (hexec : exec D j cmd o w = some (r, w')) : (s.onward cmd r).Keeps i j w' := by
  rcases exec_tells hexec with ⟨events, hevents, _⟩
  by_cases hfind : ∃ conditions, cmd = .findTransaction conditions
  . rcases hfind with ⟨conditions, hcmd⟩
    subst hcmd
    rcases (hallowed.resolve_left hworks.left).resolve_left hworks.right with ⟨event, hs⟩
    subst hs
    exact Keeps.lookup hids (hleads conditions rfl) hexec
  . by_cases hcommit : cmd = .commit
    . subst hcommit
      rcases hallowed.resolve_left hworks.left with ⟨event, id, seen, toState, hs⟩
      subst hs
      have hr : r = .ok () := by
        cases r with
        | error e => exact absurd (hexpects.resolve_left (by simp)) (fun h => h)
        | ok _ => rfl
      subst hr
      rcases h with ⟨⟨row, hrow, hid⟩, ⟨conditions, t, hread, ht⟩, _⟩
      refine ⟨⟨row, ?_, hid⟩, ⟨conditions, t, ?_, ht⟩, hground.state_of_commit hexec⟩
      . rw [hevents]
        exact List.mem_append_left _ hrow
      . rw [hevents]
        exact List.mem_append_left _ hread
    . cases hnext : s.onward cmd r with
      | moving event id seen draft =>
        have hseen := onward_seen hworks.right (fun conditions heq => hfind ⟨conditions, heq⟩)
          hcommit hnext
        rcases hseen with ⟨draft', hs⟩
        subst hs
        apply Keeps.frame (s := .moving event id seen draft') h _ ⟨events, hevents⟩
        intro _ id seen _ _ _ hstate
        rcases (exec_touches hexec).transactions with heq | ⟨txn, hcmd, _⟩ | ⟨_, _, hcmd, _⟩
        . rw [heq]
          exact hstate
        . subst hcmd
          exact absurd (hallowed.resolve_left (by simp)).left (by simp)
        . exact absurd hcmd hcommit
      | _ => trivial

/--
The others leave the payment alone once the worker has found it.
-/
theorem Keeps.other (h : s.Keeps i j w) (hground : s.Grounded j w) {k : Pid}
    (hexec : exec D k cmd o w = some (r, w'))
    (hcommit : ∀ session row, cmd = .commit → o.fault ≠ .before →
      w.ledger.sessions k = some session → session.update = some row → ¬Shown j row.id w)
    : s.Keeps i j w' := by
  rcases exec_tells hexec with ⟨events, hevents, _⟩
  apply h.frame _ ⟨events, hevents⟩
  intro event id seen draft hs hshown hstate
  subst hs
  apply (exec_touches hexec).states hground.left hstate
  intro session row hcmd hfault hsession hupdate hid
  subst hid
  exact hcommit session row hcmd hfault hsession hupdate hshown

/--
A round knows every event it has loaded.
-/
def Knows (s : Calm) (j : Pid) (w : World) : Prop :=
  ∀ event, .loaded j event ∈ w.history → s.event = some event

theorem Knows.frame (h : s.Knows j w) {events : List Event} (hhistory : w'.history = w.history ++ events)
    (hloaded : ∀ event, .loaded j event ∉ events) : s.Knows j w' := by
  intro event hevent
  rw [hhistory, List.mem_append] at hevent
  rcases hevent with hevent | hevent
  . exact h event hevent
  . exact absurd hevent (hloaded event)

theorem Knows.onward (h : s.Knows j w) (hworks : s.Works) (hallowed : s.allowed cmd)
    (hexec : exec D j cmd o w = some (r, w')) : (s.onward cmd r).Knows j w' := by
  by_cases hfind : ∃ id, cmd = .findEvent id
  . rcases hfind with ⟨id, hcmd⟩
    subst hcmd
    have hs := hallowed.resolve_left hworks.left
    subst hs
    rcases Exec.findEvent_cases hexec with ⟨hw, _⟩ | ⟨event, hr, _, _, hw⟩
    . rw [hw]
      intro event hevent
      cases h event hevent
    . subst hr hw
      intro event' hevent'
      rw [List.mem_append, List.mem_singleton] at hevent'
      rcases hevent' with hevent' | hevent'
      . cases h event' hevent'
      . injection hevent' with _ hevent'
        rw [hevent']
        rfl
  . intro event hevent
    rw [onward_event (fun id heq => hfind ⟨id, heq⟩)]
    rcases exec_tells hexec with ⟨events, hevents, htells⟩
    apply h.frame hevents _ event hevent
    intro event' hevent'
    exact hfind (htells _ hevent').right

theorem Knows.other (h : s.Knows j w) {k : Pid} (hk : k ≠ j)
    (hexec : exec D k cmd o w = some (r, w')) : s.Knows j w' := by
  rcases exec_tells hexec with ⟨events, hevents, htells⟩
  apply h.frame hevents
  intro event hevent
  exact hk (htells _ hevent).left.symm

end Calm

namespace System

variable {D : Deployment} {tasks : Pid → Task} {i j : Pid} {c c' : System D}

theorem Reachable.eq_of_id (h : c.Reachable D tasks)
    : ∀ t ∈ c.world.ledger.transactions, ∀ u ∈ c.world.ledger.transactions, t.id = u.id → t = u := by
  rcases h.exists_books with ⟨b, hb, hdescribed⟩
  rw [← hdescribed.transactions]
  intro t ht u hu hid
  exact hb.inv.eq_of_id ht hu hid

theorem Reachable.inserted_unique (h : c.Reachable D tasks) {row row' : Transaction}
    (hrow : .inserted i row ∈ c.world.history) (hrow' : .inserted i row' ∈ c.world.history)
    : row = row' := by
  rcases h.exists_books with ⟨b, hb, hdescribed⟩
  rw [← hdescribed.history] at hrow hrow'
  exact hb.traced.inserted_unique hrow hrow'

/--
The statements of worker `j` are performed, the database returns the payment of `i` to its lookup,
and nobody else commits an update of the payment once the worker has found it.
-/
def Orderly (i j : Pid) (c : System D) (a : (machine D).Act) : Prop :=
  match a with
  | .run k o =>
    (k = j → ∀ cmd rest, c.pool j = .running (.op cmd rest) →
      Performs D cmd o ∧
        ∀ conditions, cmd = .findTransaction conditions → Calm.Leads D i conditions o c.world) ∧
      (k ≠ j → ∀ rest, c.pool k = .running (.op .commit rest) → o.fault ≠ .before →
        ∀ session row, c.world.ledger.sessions k = some session → session.update = some row →
          ¬Calm.Shown j row.id c.world)
  | _ => True

/--
What holds of worker `j` in an orderly run.
-/
structure Attends (tasks : Pid → Task) (i j : Pid) (c : System D)
    (d : (machine D).Parties roundProtocol) : Prop where
  reachable : c.Reachable D tasks
  others : ∀ k, k ≠ j → d.state k = .free
  works : (d.state j).Works
  grounded : (d.state j).Grounded j c.world
  knows : (d.state j).Knows j c.world
  keeps : (d.state j).Keeps i j c.world

namespace Attends

variable {d d' : (machine D).Parties roundProtocol}

theorem answers (h : Attends tasks i j c d) {k : Pid} {o : Oracle} {cmd : Cmd}
    {rest : Except Err cmd.Resp → Program Reply} {r : Except Err cmd.Resp} {w : World}
    (horderly : Orderly i j c (.run k o)) (hop : c.pool k = .running (.op cmd rest))
    (hallowed : (d.state k).allowed cmd) (hexec : exec D k cmd o c.world = some (r, w))
    : (d.state k).expects cmd r := by
  by_cases hk : k = j
  . subst hk
    rcases horderly.left rfl cmd rest hop with ⟨hperforms, hleads⟩
    by_cases hfind : ∃ conditions, cmd = .findTransaction conditions
    . rcases hfind with ⟨conditions, hcmd⟩
      subst hcmd
      rcases hleads conditions rfl with ⟨row, t, _, _, hpick, hstate⟩
      right
      rcases Exec.findTransaction_cases hexec with ⟨hr, hw⟩ | ⟨found, hr, _, hfound, _⟩
      . subst hr
        simp [exec, Exec.findTransaction, show o.fault = .none from hperforms] at hexec
      . rw [hpick] at hfound
        rw [hr, hfound]
        exact ⟨t, rfl, hstate⟩
    . by_cases hevent : ∃ id, cmd = .findEvent id
      . rcases hevent with ⟨id, hcmd⟩
        subst hcmd
        trivial
      . have hanswers : (d.state k).answers cmd r := by
          apply h.grounded.answers hallowed (fun _ => hperforms) _ _ _ hexec
          . intro _ id hcmd row hrow hid
            subst hcmd
            rcases hallowed.resolve_left h.works.left with ⟨event, seen, hs, _⟩
            have hkeeps := h.keeps
            rw [hs] at hkeeps ⊢
            intro toState hto
            rw [hkeeps.right.right row hrow hid]
            exact hto
          . intro _ id hcmd
            exact absurd ⟨id, hcmd⟩ hevent
          . intro _ id hcmd
            exact absurd ⟨id, hcmd⟩ hevent
        unfold Calm.expects
        split
        . trivial
        . exact absurd ⟨_, rfl⟩ hfind
        . exact hanswers
  . rw [h.others k hk]
    cases cmd with
    | findEvent id => trivial
    | _ => exact .inl rfl

theorem run (h : Attends tasks i j c d) {k : Pid} {o : Oracle} {cmd : Cmd}
    {rest : Except Err cmd.Resp → Program Reply} {r : Except Err cmd.Resp}
    (hreachable : c'.Reachable D tasks) (horderly : Orderly i j c (.run k o))
    (hop : c.pool k = .running (.op cmd rest)) (hallowed : (d.state k).allowed cmd)
    (hexec : exec D k cmd o c.world = some (r, c'.world))
    (hstate : d'.state = Function.update d.state k ((d.state k).onward cmd r))
    : Attends tasks i j c' d' := by
  have hexpects := h.answers horderly hop hallowed hexec
  by_cases hk : k = j
  . subst hk
    have hself : d'.state k = (d.state k).onward cmd r := by
      rw [hstate, Function.update_self]
    refine ⟨hreachable, ?_, ?_, ?_, ?_, ?_⟩
    . intro j hj
      rw [hstate, Function.update_of_ne hj]
      exact h.others j hj
    . rw [hself]
      exact h.works.onward
    . rw [hself]
      exact h.grounded.onward h.works hallowed hexpects hexec
    . rw [hself]
      exact h.knows.onward h.works hallowed hexec
    . rw [hself]
      apply h.keeps.onward h.grounded h.works hallowed hexpects h.reachable.eq_of_id _ hexec
      exact (horderly.left rfl cmd rest hop).right
  . have hfree : (d.state k).onward cmd r = d.state k := by
      rw [h.others k hk, Calm.onward_free]
    rw [hfree, Function.update_eq_self] at hstate
    refine ⟨hreachable, ?_, ?_, ?_, ?_, ?_⟩
    . rw [hstate]
      exact h.others
    . rw [hstate]
      exact h.works
    . rw [hstate]
      exact h.grounded.other hk hexec
    . rw [hstate]
      exact h.knows.other hk hexec
    . rw [hstate]
      apply h.keeps.other h.grounded hexec
      intro session row hcmd
      subst hcmd
      intro hfault
      exact horderly.right hk rest hop hfault session row

-- The tables of payments and the history stay.
theorem frame (h : Attends tasks i j c d) (hreachable : c'.Reachable D tasks)
    (hstate : ∀ k, d'.state k = d.state k ∨ d'.state k = (d.state k).crash)
    (hgrounded : (d'.state j).Grounded j c'.world)
    (hrows : c'.world.ledger.transactions = c.world.ledger.transactions)
    (hhistory : c'.world.history = c.world.history) : Attends tasks i j c' d' := by
  have hevent : (d'.state j).event = (d.state j).event := by
    rcases hstate j with hj | hj
    . rw [hj]
    . rw [hj, Calm.crash_event]
  have hkeeps : (d.state j).Keeps i j c'.world := by
    apply h.keeps.frame
    . rw [hrows]
      exact fun _ _ _ _ _ _ hstate => hstate
    . exact ⟨[], by rw [hhistory, List.append_nil]⟩
  refine ⟨hreachable, ?_, ?_, hgrounded, ?_, ?_⟩
  . intro k hk
    rcases hstate k with hk' | hk'
    . rw [hk', h.others k hk]
    . rw [hk', h.others k hk]
      rfl
  . rcases hstate j with hj | hj
    . rw [hj]
      exact h.works
    . rw [hj]
      exact h.works.crash
  . intro event hloaded
    rw [hevent]
    rw [hhistory] at hloaded
    exact h.knows event hloaded
  . rcases hstate j with hj | hj
    . rw [hj]
      exact hkeeps
    . rw [hj]
      cases hs : d.state j with
      | moving event id seen draft =>
        rw [hs] at hkeeps
        exact hkeeps
      | _ => trivial

end Attends

variable (D tasks i j) in
theorem orderly_conformsBy (hworker : tasks j = .pollQueue)
    : Machine.ConformsBy (M := machine D) (P := roundProtocol) (fun k => (tasks k).program D)
        (Task.followed tasks j) (Task.rounds j) (Orderly i j) (Attends tasks i j) := by
  refine ⟨Task.followed_round tasks j hworker, Task.followed_crash tasks j, Task.rounds_crash j,
    ?_, ?_⟩
  . intro c d k o cmd rest r w _ h horderly hop hallowed hexec
    exact h.answers horderly hop hallowed hexec
  . intro a c c' d d' _ h horderly hmoves _
    have hreachable := h.reachable.tail hmoves.act
    cases hmoves with
    | run k o cmd rest r w hop hallowed hexec =>
      exact h.run hreachable horderly hop hallowed hexec rfl
    | env e w henv =>
      have hsame := env_tables henv
      have hrows : w.ledger.transactions = c.world.ledger.transactions := by
        rw [hsame.ledger]
      exact h.frame hreachable (fun _ => .inl rfl) (h.grounded.env henv) hrows hsame.history
    | crash inst =>
      apply h.frame hreachable _ (h.grounded.crash inst) rfl rfl
      intro k
      by_cases hk : k.inst = inst
      . exact .inr (if_pos hk)
      . exact .inl (if_neg hk)
    | _ => exact h.frame hreachable (fun _ => .inl rfl) h.grounded rfl rfl

theorem Start.attends (h : c.Start) (hworker : tasks j = .pollQueue)
    {d : (machine D).Parties roundProtocol} (hstate : d.state = Task.followed tasks j)
    : Attends tasks i j c d := by
  have hself : d.state j = .polling := by
    rw [hstate, Task.followed, if_pos rfl, hworker]
    rfl
  rcases h.world with ⟨stats, _, hworld⟩
  refine ⟨⟨c, h, .refl⟩, ?_, ?_, ?_, ?_, ?_⟩
  . intro k hk
    rw [hstate]
    exact if_neg hk
  . rw [hself]
    simp [Calm.Works]
  . rw [hself]
    trivial
  . intro event hevent
    rw [hworld] at hevent
    cases hevent
  . rw [hself]
    trivial

/--
A worker that finds the payment of `create` reconciles it, if `create` does not commit in between.
-/
theorem early_webhook_reconciles (h : c.ReachableBy D tasks (Orderly i j))
    (hworker : tasks j = .pollQueue) {row : Transaction}
    (hrow : .inserted i row ∈ c.world.history) {event : WebhookEvent}
    (hevent : .loaded j event ∈ c.world.history) (hprocessed : event.processed = false) {x : Json}
    (hx : extractGatewayTxnId event.gateway event.payload = some x)
    (hconvertible : x.convertible = true) {r : Except Err Reply}
    (hresult : (c.pool j).result = some r)
    : ∃ t ∈ c.world.ledger.transactions, t.id = row.id ∧ t.currentState = .RECONCILED := by
  rcases h with ⟨c₀, hstart, hrun⟩
  have hsim : Machine.Simulates (M := machine D) (P := roundProtocol) (Task.followed tasks j)
      (Task.rounds j) c₀ { world := c₀.world, state := Task.followed tasks j } := by
    refine ⟨rfl, fun k => ?_⟩
    rw [show c₀.pool k = .idle from hstart.idle k]
    rfl
  rcases hsim.runBy (orderly_conformsBy D tasks i j hworker) (hstart.attends hworker rfl) hrun with
    ⟨d, hsim', hattends⟩
  have hrounded : Rounded (d.state j) := hsim'.result hresult rfl
  have hknows := hattends.knows event hevent
  rcases hrounded with hs | ⟨id, hs⟩ | ⟨event', hs, hend⟩ | ⟨event', id, hs⟩
  . rw [hs] at hknows
    cases hknows
  . rw [hs] at hknows
    cases hknows
  . rw [hs] at hknows
    injection hknows with hknows
    subst hknows
    rcases hend with hend | hend | ⟨y, hy, hend⟩
    . rw [hprocessed] at hend
      cases hend
    . rw [hx] at hend
      cases hend
    . rw [hx] at hy
      injection hy with hy
      rw [← hy, hconvertible] at hend
      cases hend
  . have hkeeps := hattends.keeps
    have hgrounded := hattends.grounded
    rw [hs] at hkeeps hgrounded
    rcases hkeeps with ⟨⟨row', hrow', hid⟩, _, hstate⟩
    rcases hgrounded with ⟨⟨t, ht, htid⟩, _, _⟩
    refine ⟨t, ht, ?_, hstate t ht htid⟩
    rw [hattends.reachable.inserted_unique hrow hrow', htid, hid]

end System

namespace Scenario

def leads (i : Pid) (conditions : List TxnWhere) (o : Oracle) (w : World) : Bool :=
  match (matching deployment conditions w.ledger.transactions)[o.pick]? with
  | some t =>
    t.currentState ≠ .FAILED &&
      w.history.any fun event =>
        match event with
        | .inserted k row => k = i ∧ t.id = row.id
        | _ => false
  | none => false

theorem leads_of_leads {i : Pid} {conditions : List TxnWhere} {o : Oracle} {w : World}
    (h : leads i conditions o w = true) : Calm.Leads deployment i conditions o w := by
  unfold leads at h
  split at h
  . next t ht =>
    simp only [Bool.and_eq_true, decide_eq_true_eq, List.any_eq_true] at h
    rcases h with ⟨hstate, event, hevent, h⟩
    split at h
    . next k row =>
      rw [decide_eq_true_eq] at h
      rcases h with ⟨hk, hid⟩
      subst hk
      exact ⟨row, t, hevent, hid, ht, hstate⟩
    . cases h
  . cases h

-- Worker `j` has not found a payment yet.
def blank (j : Pid) (w : World) : Bool :=
  w.history.all fun event =>
    match event with
    | .read k _ (some _) => k ≠ j
    | _ => true

theorem not_shown_of_blank {j : Pid} {id : String} {w : World} (h : blank j w = true)
    : ¬Calm.Shown j id w := by
  rintro ⟨conditions, t, hread, _⟩
  unfold blank at h
  rw [List.all_eq_true] at h
  have hne := h _ hread
  rw [decide_eq_true_eq] at hne
  exact hne rfl

def orderly (i j : Pid) (c : System deployment) (a : Act) : Bool :=
  match a with
  | .run k o =>
    if k = j then
      match c.pool j with
      | .running (.op cmd _) =>
        decide (Performs deployment cmd o) &&
          match cmd with
          | .findTransaction conditions => leads i conditions o c.world
          | _ => true
      | _ => true
    else
      match c.pool k with
      | .running (.op .commit _) => blank j c.world
      | _ => true
  | _ => true

theorem orderly_of_orderly {i j : Pid} {c : System deployment} {a : Act}
    (h : orderly i j c a = true) : System.Orderly i j c a := by
  cases a with
  | run k o =>
    unfold orderly at h
    dsimp only at h
    constructor
    . intro hk cmd rest hop
      rw [if_pos hk, hop, Bool.and_eq_true, decide_eq_true_eq] at h
      refine ⟨h.left, ?_⟩
      intro conditions hcmd
      subst hcmd
      exact leads_of_leads h.right
    . intro hk rest hop _ session row _ _
      rw [if_neg hk, hop] at h
      exact not_shown_of_blank h
  | _ => trivial

-- The charge of process `i` was answered in time, with this id.
def grantedInTime (i : Pid) (id : String) (w : World) : Bool :=
  w.charges.any fun charge =>
    match charge.status with
    | .answered response =>
      charge.pid = i ∧ charge.timedOut = false ∧ response.success = true ∧
        response.gatewayTxnId = some (some id)
    | _ => false

theorem exists_grantedInTime {i : Pid} {id : String} {w : World} (h : grantedInTime i id w = true)
    : ∃ charge ∈ w.charges, ∃ response, charge.status = .answered response ∧ charge.pid = i ∧
        charge.timedOut = false ∧ response.success = true ∧
        response.gatewayTxnId = some (some id) := by
  simp only [grantedInTime, List.any_eq_true] at h
  rcases h with ⟨charge, hcharge, h⟩
  split at h
  . next response hstatus =>
    rw [decide_eq_true_eq] at h
    exact ⟨charge, hcharge, response, hstatus, h⟩
  . cases h

def unreconciled (w : World) : Bool :=
  w.ledger.transactions.all fun t => t.currentState = .SUCCESS

-- The worker has loaded an event that has not been processed and names this id.
def loadsNew (j : Pid) (id : String) (w : World) : Bool :=
  w.history.any fun event =>
    match event with
    | .loaded k event =>
      k = j && !event.processed &&
        match extractGatewayTxnId event.gateway event.payload with
        | some (.str x) => x = id
        | _ => false
    | _ => false

theorem exists_loadedNew {j : Pid} {id : String} {w : World} (h : loadsNew j id w = true)
    : ∃ event, .loaded j event ∈ w.history ∧ event.processed = false ∧
        extractGatewayTxnId event.gateway event.payload = some (.str id) := by
  simp only [loadsNew, List.any_eq_true] at h
  rcases h with ⟨event, hevent, h⟩
  split at h
  . next k event =>
    rw [Bool.and_eq_true, Bool.and_eq_true, decide_eq_true_eq, Bool.not_eq_true'] at h
    rcases h with ⟨⟨hk, hprocessed⟩, hx⟩
    subst hk
    split at hx
    . next x heq =>
      rw [decide_eq_true_eq] at hx
      subst hx
      exact ⟨event, hevent, hprocessed, heq⟩
    . cases hx
  . cases h

end Scenario

namespace System

open Scenario

/--
The webhook comes when `create` has stored the id of the charge.
-/
theorem early_webhook_reconciles_stored
    : ∃ (c : System deployment) (row : Transaction), .inserted ⟨0, 0⟩ row ∈ c.world.history ∧
        ∃ t ∈ c.world.ledger.transactions, t.id = row.id ∧ t.currentState = .RECONCILED := by
  let acts : List Act := upToCharge ⟨0, 0⟩ "txn-1" ++
    settle 0 (.answered (accepted "upi-1")) :: steps ⟨0, 0⟩ 8 ++ deliver ++
    .spawn ⟨0, 2⟩ :: steps ⟨0, 2⟩ 12 ++ steps ⟨0, 0⟩ 4
  let p (c : System deployment) : Bool :=
    inserts ⟨0, 0⟩ c.world && (loadsNew ⟨0, 2⟩ "upi-1" c.world && returned ⟨0, 2⟩ c)
  have hrun : (outcomeIf (orderly ⟨0, 0⟩ ⟨0, 2⟩) (Scenario.tasks captured) acts).any p = true := by
    decide +kernel
  rcases exists_reachableBy (fun c a => orderly_of_orderly) hrun with ⟨c, hc, hp⟩
  simp only [p, Bool.and_eq_true] at hp
  rcases hp with ⟨hinserts, hloads, hreturned⟩
  rcases exists_inserted hinserts with ⟨row, hrow⟩
  rcases exists_loadedNew hloads with ⟨event, hevent, hprocessed, hx⟩
  rcases Option.isSome_iff_exists.mp hreturned with ⟨r, hr⟩
  exact ⟨c, row, hrow, early_webhook_reconciles hc rfl hrow hevent hprocessed hx rfl hr⟩

/--
Nothing fails, and the charge is answered in time. The worker looks the payment up before `create`
has stored the id: it finds nothing, the event is marked, and the payment stays in SUCCESS.
-/
theorem early_webhook_lost
    : ∃ c : System deployment, c.ReachableBy deployment (Scenario.tasks captured) Faultless ∧
        (∃ charge ∈ c.world.charges, ∃ response, charge.status = .answered response ∧
          charge.pid = ⟨0, 0⟩ ∧ charge.timedOut = false ∧ response.success = true ∧
          response.gatewayTxnId = some (some "upi-1")) ∧
        (∃ event, .loaded ⟨0, 2⟩ event ∈ c.world.history ∧ event.processed = false ∧
          extractGatewayTxnId event.gateway event.payload = some (.str "upi-1")) ∧
        (∃ r, (c.pool ⟨0, 0⟩).result = some r) ∧ (∃ r, (c.pool ⟨0, 2⟩).result = some r) ∧
        (∃ row, .inserted ⟨0, 0⟩ row ∈ c.world.history) ∧
        ∀ t ∈ c.world.ledger.transactions, t.currentState = .SUCCESS := by
  let acts : List Act := upToCharge ⟨0, 0⟩ "txn-1" ++
    settle 0 (.answered (accepted "upi-1")) :: deliver ++
    .spawn ⟨0, 2⟩ :: steps ⟨0, 2⟩ 6 ++ steps ⟨0, 0⟩ 12
  let p (c : System deployment) : Bool :=
    grantedInTime ⟨0, 0⟩ "upi-1" c.world && (loadsNew ⟨0, 2⟩ "upi-1" c.world &&
      (returned ⟨0, 0⟩ c && (returned ⟨0, 2⟩ c && (inserts ⟨0, 0⟩ c.world &&
        unreconciled c.world))))
  have hrun : (outcomeIf faultless (Scenario.tasks captured) acts).any p = true := by
    decide +kernel
  rcases exists_reachableBy (fun c a => faultless_of_faultless) hrun with ⟨c, hc, hp⟩
  simp only [p, Bool.and_eq_true] at hp
  rcases hp with ⟨hgranted, hloads, hcreated, hworked, hinserts, hunreconciled⟩
  refine ⟨c, hc, exists_grantedInTime hgranted, exists_loadedNew hloads,
    Option.isSome_iff_exists.mp hcreated, Option.isSome_iff_exists.mp hworked,
    exists_inserted hinserts, ?_⟩
  intro t ht
  unfold unreconciled at hunreconciled
  rw [List.all_eq_true] at hunreconciled
  exact of_decide_eq_true (hunreconciled t ht)

end System

end PaymentOrchestration
