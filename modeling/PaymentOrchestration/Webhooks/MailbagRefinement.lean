import PaymentOrchestration.Books.Effects
import PaymentOrchestration.Webhooks.Mailbag

/-!
This module shows that the service does with its webhook events what the mailbag allows.
-/

namespace PaymentOrchestration

open ReconciliationWorker

variable {D : Deployment}

namespace World

def mailbag (w : World) (log : List QueueEvent) (hand : Pid → Hand) : Mailbag where
  records := w.webhookEvents
  server := w.redis.lists queueName
  memory := fun inst => (w.mem inst).mockStore queueName
  log := log
  lookups := w.history.filter Event.isLookup
  hand := hand

/--
The mailbag looks the same in both worlds.
-/
structure SameMail (w w' : World) : Prop where
  records : w'.webhookEvents = w.webhookEvents
  server : w'.redis.lists queueName = w.redis.lists queueName
  memory : ∀ inst, (w'.mem inst).mockStore queueName = (w.mem inst).mockStore queueName
  lookups : w'.history.filter Event.isLookup = w.history.filter Event.isLookup

theorem SameMail.refl (w : World) : w.SameMail w := by
  exact ⟨rfl, rfl, fun _ => rfl, rfl⟩

theorem SameMail.mailbag {w w' : World} (h : w.SameMail w') (log : List QueueEvent)
    (hand : Pid → Hand) : w'.mailbag log hand = w.mailbag log hand := by
  unfold World.mailbag
  rw [h.records, h.server, h.lookups]
  congr 1
  funext inst
  exact h.memory inst

end World

namespace Exec

variable {i : Pid} {o : Oracle} {w w' : World}

theorem insertEvent_spec {event : IncomingWebhook} {r : Except Err WebhookEvent}
    (h : insertEvent D event o w = some (r, w'))
    : (w' = w ∧ ∃ e, r = .error e ∧ (WebhooksService.isUniqueViolation e = true →
          (event.gateway, event.eventId) ∈ w.webhookEvents.map (fun e => (e.gateway, e.eventId)))) ∨
        (o.id ∉ w.webhookEvents.map (·.id) ∧
          (event.gateway, event.eventId) ∉
            w.webhookEvents.map (fun e => (e.gateway, e.eventId)) ∧
          w' = { w with webhookEvents := w.webhookEvents ++ [event.row o.id] } ∧
          (r = .ok (event.row o.id) ∨ (r = .error connectionError ∧ o.fault = .after))) := by
  unfold insertEvent at h
  split at h
  . cases h
  . next hid =>
    split at h
    . simp only [Option.some.injEq, Prod.mk.injEq] at h
      exact .inl ⟨h.right.symm, _, h.left.symm, fun he => by cases he⟩
    . split at h
      . next hpair =>
        simp only [Option.some.injEq, Prod.mk.injEq] at h
        exact .inl ⟨h.right.symm, _, h.left.symm, fun _ => hpair⟩
      . next hpair =>
        unfold statement at h
        cases hfault : o.fault with
        | none =>
          simp only [hfault, Option.some.injEq, Prod.mk.injEq] at h
          exact .inr ⟨hid, hpair, h.right.symm, .inl h.left.symm⟩
        | before =>
          simp only [hfault, Option.some.injEq, Prod.mk.injEq] at h
          exact .inl ⟨h.right.symm, _, h.left.symm, fun he => by cases he⟩
        | after =>
          simp only [hfault, Option.some.injEq, Prod.mk.injEq] at h
          exact .inr ⟨hid, hpair, h.right.symm, .inr ⟨h.left.symm, rfl⟩⟩

theorem sameMail_statement {ρ : Type} {fault : Fault} {error : Err} {result : Except Err ρ × World}
    {r : Except Err ρ} (hresult : w.SameMail result.2)
    (h : statement fault w error result = some (r, w')) : w.SameMail w' := by
  rcases statement_cases h with ⟨hw, _⟩ | ⟨hw, _⟩
  . rw [hw]
    exact hresult
  . rw [hw]
    exact .refl w

-- A fault before the statement keeps it from taking effect, no other one does.
theorem statement_fault {ρ : Type} {fault : Fault} {error : Err} {result : Except Err ρ × World}
    {r : Except Err ρ} (h : statement fault w error result = some (r, w'))
    : (fault = .before ∧ w' = w ∧ r = .error error) ∨
        (fault ≠ .before ∧ w' = result.2 ∧
          ((fault = .none ∧ r = result.1) ∨ (fault = .after ∧ r = .error error))) := by
  unfold statement at h
  cases fault <;> simp_all

theorem run_offQueue {op : MockOp} {store : MockStore} (hoff : op.offQueue)
    : (op.run store).2 queueName = store queueName := by
  cases op with
  | get key => rfl
  | set key value mode =>
    simp only [MockOp.run]
    split
    . rfl
    . exact Function.update_of_ne (Ne.symm hoff) _ _
  | del key => exact Function.update_of_ne (Ne.symm hoff) _ _
  | lpush queue item => cases hoff
  | brpop queue => cases hoff

theorem update_mem {mem : Nat → Mem} {n inst : Nat} {isMockMode : Bool} {store : MockStore}
    (h : store queueName = (mem n).mockStore queueName)
    : (Function.update mem n ⟨isMockMode, store⟩ inst).mockStore queueName =
        (mem inst).mockStore queueName := by
  by_cases hinst : inst = n
  . subst hinst
    rw [Function.update_self]
    exact h
  . rw [Function.update_of_ne hinst]

theorem sameMail_mock {op : MockOp} (hoff : op.offQueue) : w.SameMail (mock i op w).2 := by
  unfold mock
  dsimp only
  split
  . refine ⟨rfl, rfl, fun inst => ?_, rfl⟩
    exact update_mem (run_offQueue hoff)
  . exact .refl w

theorem sameMail_fallback {op : MockOp} (hoff : op.offQueue)
    : w.SameMail (fallback i op w).2 := by
  refine ⟨rfl, rfl, fun inst => ?_, rfl⟩
  exact update_mem (run_offQueue hoff)

theorem lists_offQueue {op : ClientOp} {now : Nat} {redis : Redis} (hoff : op.offQueue)
    : (op.run now redis).2.lists = redis.lists := by
  cases op with
  | get key => rfl
  | set key value expiry mode =>
    simp only [ClientOp.run]
    split <;> rfl
  | del key => rfl
  | lpush queue item => cases hoff
  | brpop queue => cases hoff

theorem sameMail_client {op : ClientOp} (hoff : op.offQueue) : w.SameMail (client op w).2 := by
  refine ⟨rfl, ?_, fun _ => rfl, rfl⟩
  exact congrFun (lists_offQueue hoff) queueName

end Exec

/--
A command that stays off the queue leaves the mailbag alone, but for the note of a lookup.
-/
theorem Cmd.offQueue.sameMail {i : Pid} {cmd : Cmd} {o : Oracle} {r : Except Err cmd.Resp}
    {w w' : World} (hoff : cmd.offQueue) (hne : ∀ conditions, cmd ≠ .findTransaction conditions)
    (hexec : exec D i cmd o w = some (r, w')) : w.SameMail w' := by
  cases cmd with
  | mock op =>
    simp only [exec, Option.some.injEq, Prod.mk.injEq] at hexec
    rw [← hexec.right]
    exact Exec.sameMail_mock hoff
  | client op => exact Exec.sameMail_statement (Exec.sameMail_client hoff) hexec
  | fallback op =>
    simp only [exec, Option.some.injEq, Prod.mk.injEq] at hexec
    rw [← hexec.right]
    exact Exec.sameMail_fallback hoff
  | findTransaction conditions => exact absurd rfl (hne conditions)
  | insertTransaction txn =>
    rcases Exec.insertTransaction_cases hexec with ⟨hw, _⟩ | ⟨_, _, _, hw⟩
    . rw [hw]
      exact .refl w
    . rw [hw]
      exact ⟨rfl, rfl, fun _ => rfl, by simp [Event.isLookup]⟩
  | insertAudit audit =>
    rcases Exec.insertAudit_cases hexec with hw | hw
    all_goals
      rw [hw]
      exact ⟨rfl, rfl, fun _ => rfl, rfl⟩
  | begin =>
    rcases Exec.begin_cases hexec with ⟨hw, _⟩ | ⟨hw, _⟩
    all_goals
      rw [hw]
      exact ⟨rfl, rfl, fun _ => rfl, rfl⟩
  | selectForUpdate id =>
    rcases Exec.selectForUpdate_cases hexec with ⟨_, _, ⟨hw, _⟩ | ⟨_, _, _, _, _, hw⟩⟩
    all_goals
      rw [hw]
      exact ⟨rfl, rfl, fun _ => rfl, rfl⟩
  | saveTransaction row =>
    rcases Exec.saveTransaction_cases hexec with ⟨_, _, ⟨hw, _⟩ | ⟨_, hw⟩⟩
    all_goals
      rw [hw]
      exact ⟨rfl, rfl, fun _ => rfl, rfl⟩
  | saveAudit audit =>
    rcases Exec.saveAudit_cases hexec with ⟨_, _, ⟨hw, _⟩ | ⟨_, hw⟩⟩
    all_goals
      rw [hw]
      exact ⟨rfl, rfl, fun _ => rfl, rfl⟩
  | commit =>
    rcases Exec.commit_cases hexec with ⟨session, _, ⟨hw, _⟩ | ⟨_, hw⟩⟩
    . rw [hw]
      exact ⟨rfl, rfl, fun _ => rfl, rfl⟩
    . rw [hw]
      refine ⟨rfl, rfl, fun _ => rfl, ?_⟩
      rw [List.filter_append, List.append_right_eq_self, List.filter_eq_nil_iff]
      intro event hevent
      rw [List.mem_map] at hevent
      rcases hevent with ⟨audit, _, heq⟩
      rw [← heq]
      simp [Event.isLookup]
  | rollback =>
    simp only [exec, Option.some.injEq, Prod.mk.injEq] at hexec
    rw [← hexec.right]
    exact ⟨rfl, rfl, fun _ => rfl, rfl⟩
  | findEvent id => cases hoff
  | insertEvent event => cases hoff
  | saveEvent event => cases hoff
  | findStats =>
    rcases Exec.query_cases hexec with ⟨hw, _⟩
    rw [hw]
    exact .refl w
  | findStatsOf gateway =>
    rcases Exec.query_cases hexec with ⟨hw, _⟩
    rw [hw]
    exact .refl w
  | saveStats stats =>
    exact Exec.sameMail_statement ⟨rfl, rfl, fun _ => rfl, rfl⟩ hexec
  | charge gateway request =>
    simp only [exec, Option.some.injEq, Prod.mk.injEq] at hexec
    rw [← hexec.right]
    exact ⟨rfl, rfl, fun _ => rfl, by simp [Exec.charge, Event.isLookup]⟩
  | race n =>
    rcases Exec.race_cases hexec with ⟨_, _, ⟨_, _, _, hw⟩ | ⟨_, _, _, _, _, hw⟩ | ⟨_, _, _, _, hw⟩⟩
    all_goals
      rw [hw]
      exact ⟨rfl, rfl, fun _ => rfl, rfl⟩
  | now =>
    simp only [exec, Option.some.injEq, Prod.mk.injEq] at hexec
    rw [← hexec.right]
    exact .refl w

theorem Cmd.offQueue.queueEvents {i : Pid} {cmd : Cmd} {o : Oracle} {w : World}
    (hoff : cmd.offQueue) : queueEvents i cmd o w = [] := by
  cases cmd with
  | mock op => cases op <;> first | rfl | cases hoff
  | client op => cases op <;> first | rfl | cases hoff
  | fallback op => cases op <;> first | rfl | cases hoff
  | _ => rfl

abbrev Couriers (D : Deployment) :=
  ((machine D).observed queueEvents).Parties custodyProtocol

namespace Couriers

def mailbag (d : Couriers D) : Mailbag :=
  d.world.1.mailbag d.world.2 d.state

variable {d : Couriers D} {i : Pid} {o : Oracle} {w : World × List QueueEvent}

-- The couriers after process `i` got the answer `r`.
def after (d : Couriers D) (i : Pid) (w : World × List QueueEvent) (hand : Hand) : Couriers D where
  world := w
  state := Function.update d.state i hand

theorem mailbag_after {hand : Hand}
    : (d.after i w hand).mailbag = w.1.mailbag w.2 (d.mailbag.setHand i hand).hand := by
  rfl

theorem run_of_same (hsame : d.world.1.SameMail w.1) (hlog : w.2 = d.world.2)
    : d.mailbag.Run (d.after i w (d.state i)).mailbag := by
  have heq : (d.after i w (d.state i)).mailbag = d.mailbag := by
    unfold mailbag after
    dsimp only
    rw [Function.update_eq_self, hlog]
    exact hsame.mailbag _ _
  rw [heq]

theorem mailbag_lpush {w : World} {log : List QueueEvent} {hand : Pid → Hand} {id : String}
    : (Exec.client (.lpush queueName id) w).2.mailbag log hand =
        { w.mailbag log hand with server := id :: w.redis.lists queueName } := by
  simp [World.mailbag, Exec.client, ClientOp.run]

theorem mailbag_brpop {w : World} {log : List QueueEvent} {hand : Pid → Hand}
    : (Exec.client (.brpop queueName) w).2.mailbag log hand =
        { w.mailbag log hand with server := (w.redis.lists queueName).dropLast } := by
  simp only [World.mailbag, Exec.client, ClientOp.run]
  split
  . simp
  . next hlast =>
    rw [List.getLast?_eq_none_iff] at hlast
    simp [hlast]

theorem run_insertEvent {event : IncomingWebhook} {r : Except Err WebhookEvent}
    (hallowed : d.state i = .delivering event)
    (hexec : Exec.insertEvent D event o d.world.1 = some (r, w.1)) (hlog : w.2 = d.world.2)
    : d.mailbag.Run (d.after i w ((d.state i).next (.insertEvent event) r)).mailbag := by
  rcases Exec.insertEvent_spec hexec with ⟨hw, e, hr, hpair⟩ | ⟨hid, hpair, hw, hr⟩
  . subst hr
    dsimp only [Hand.next]
    split
    . next hunique =>
      have hstep := Mailbag.Step.repel d.mailbag i event hallowed (hpair hunique)
      apply Relation.ReflTransGen.single
      rw [mailbag_after, hw, hlog]
      exact hstep
    . apply run_of_same _ hlog
      rw [hw]
      exact .refl _
  . apply Relation.ReflTransGen.single
    have hstep := Mailbag.Step.insert d.mailbag i event (event.row o.id) hallowed rfl hid hpair
      ((d.state i).next (.insertEvent event) r)
    rw [mailbag_after, hw, hlog]
    apply hstep
    rcases hr with hr | ⟨hr, _⟩
    . subst hr
      exact .inl rfl
    . subst hr
      exact .inr (by
        simpa [Hand.next, WebhooksService.isUniqueViolation, Exec.connectionError] using hallowed)

theorem memory_update {store : MockStore} {n : Nat}
    : (fun inst => (Function.update d.world.1.mem n ⟨true, store⟩ inst).mockStore queueName) =
        Function.update d.mailbag.memory n (store queueName) := by
  funext inst
  by_cases hinst : inst = n
  . subst hinst
    rw [Function.update_self, Function.update_self]
  . rw [Function.update_of_ne hinst, Function.update_of_ne hinst]
    rfl

theorem run_mockPush {record : WebhookEvent} {w : World × List QueueEvent}
    (hhand : d.state i = .stored record)
    (hw : w.1 = (Exec.mock i (.lpush queueName record.id) d.world.1).2)
    (hlog : w.2 = d.world.2 ++
      queueEvents i (.mock (.lpush queueName record.id)) o d.world.1)
    : d.mailbag.Run (d.after i w ((d.state i).next (.mock (.lpush queueName record.id))
        (.ok (Exec.mock i (.lpush queueName record.id) d.world.1).1))).mailbag := by
  cases hmode : (d.world.1.mem i.inst).isMockMode with
  | false =>
    have hmock : Exec.mock i (.lpush queueName record.id) d.world.1 = (none, d.world.1) := by
      simp [Exec.mock, hmode]
    rw [hmock] at hw ⊢
    apply run_of_same
    . rw [hw]
      exact .refl _
    . rw [hlog]
      simp [queueEvents, hmode]
  | true =>
    apply Relation.ReflTransGen.single
    have hstep := Mailbag.Step.pushMemory d.mailbag i record hhand
    rw [mailbag_after, hw, hlog]
    convert hstep using 1
    simp only [Exec.mock, hmode, if_true, MockOp.run, queueEvents, Hand.next, hhand, World.mailbag,
      memory_update, Function.update_self]
    rfl

theorem run_clientPush {record : WebhookEvent} {w : World × List QueueEvent}
    {r : Except Err Nat} (hhand : d.state i = .stored record)
    (hexec : exec D i (.client (.lpush queueName record.id)) o d.world.1 = some (r, w.1))
    (hlog : w.2 = d.world.2 ++
      queueEvents i (.client (.lpush queueName record.id)) o d.world.1)
    : d.mailbag.Run (d.after i w ((d.state i).next (.client (.lpush queueName record.id))
        r)).mailbag := by
  have hnext : (d.state i).next (.client (.lpush queueName record.id)) r = .pushed record := by
    rw [hhand]
    cases r <;> rfl
  rw [hnext, mailbag_after, hlog]
  apply Relation.ReflTransGen.single
  simp only [exec] at hexec
  rcases Exec.statement_fault hexec with ⟨hfault, hw, _⟩ | ⟨hfault, hw, _⟩
  . have hevents : queueEvents i (.client (.lpush queueName record.id)) o d.world.1 = [] := by
      simp [queueEvents, hfault]
    rw [hw, hevents, List.append_nil]
    exact Mailbag.Step.pushLost d.mailbag i record hhand
  . have hevents : queueEvents i (.client (.lpush queueName record.id)) o d.world.1 =
        [.pushed i queueName record.id] := by
      simp [queueEvents, hfault]
    rw [hw, hevents, mailbag_lpush]
    exact Mailbag.Step.pushServer d.mailbag i record hhand

theorem run_mockPop {w : World × List QueueEvent} (hhand : d.state i = .polling)
    (hw : w.1 = (Exec.mock i (.brpop queueName) d.world.1).2)
    (hlog : w.2 = d.world.2 ++ queueEvents i (.mock (.brpop queueName)) o d.world.1)
    : d.mailbag.Run (d.after i w ((d.state i).next (.mock (.brpop queueName))
        (.ok (Exec.mock i (.brpop queueName) d.world.1).1))).mailbag := by
  cases hmode : (d.world.1.mem i.inst).isMockMode with
  | false =>
    have hmock : Exec.mock i (.brpop queueName) d.world.1 = (none, d.world.1) := by
      simp [Exec.mock, hmode]
    rw [hmock] at hw ⊢
    apply run_of_same
    . rw [hw]
      exact .refl _
    . rw [hlog]
      simp [queueEvents, hmode]
  | true =>
    by_cases hitem : ∃ id, id ≠ "" ∧ (d.world.1.mem i.inst).mockStore queueName = some (.raw id)
    . rcases hitem with ⟨id, hne, hid⟩
      apply Relation.ReflTransGen.single
      have hstep := Mailbag.Step.popMemory d.mailbag i id hhand hid
      rw [mailbag_after, hw, hlog]
      convert hstep using 1
      simp only [Exec.mock, hmode, if_true, MockOp.run, hid, if_neg hne, queueEvents, Hand.next,
        World.mailbag, memory_update, Function.update_self]
      rfl
    . have hrun : MockOp.run (.brpop queueName) (d.world.1.mem i.inst).mockStore =
          (none, (d.world.1.mem i.inst).mockStore) := by
        simp only [MockOp.run]
        split
        . next id hid =>
          split
          . rfl
          . next hne => exact absurd ⟨id, hne, hid⟩ hitem
        . rfl
      have hmock : (Exec.mock i (.brpop queueName) d.world.1).1 = some none := by
        simp only [Exec.mock, hmode, if_true, hrun]
      rw [hmock]
      apply run_of_same
      . rw [hw]
        simp only [Exec.mock, hmode, if_true, hrun]
        refine ⟨rfl, rfl, fun inst => ?_, rfl⟩
        exact Exec.update_mem rfl
      . rw [hlog]
        simp only [queueEvents, hmode, if_true, hrun]
        simp

theorem run_clientPop {w : World × List QueueEvent} {r : Except Err (Option String)}
    (hhand : d.state i = .polling)
    (hexec : exec D i (.client (.brpop queueName)) o d.world.1 = some (r, w.1))
    (hlog : w.2 = d.world.2 ++ queueEvents i (.client (.brpop queueName)) o d.world.1)
    : d.mailbag.Run
        (d.after i w ((d.state i).next (.client (.brpop queueName)) r)).mailbag := by
  simp only [exec] at hexec
  rcases Exec.statement_fault hexec with ⟨hfault, hw, hr⟩ | ⟨_, hw, ⟨hfault, hr⟩ | ⟨hfault, hr⟩⟩
  . subst hr
    apply run_of_same
    . rw [hw]
      exact .refl _
    . rw [hlog]
      simp [queueEvents, hfault]
  . subst hr
    cases hlast : (d.world.1.redis.lists queueName).getLast? with
    | none =>
      have hrun : ClientOp.run (.brpop queueName) d.world.1.clock d.world.1.redis =
          (none, d.world.1.redis) := by
        simp only [ClientOp.run, hlast]
      have hclient : Exec.client (.brpop queueName) d.world.1 = (none, d.world.1) := by
        simp only [Exec.client, hrun]
      rw [hclient] at hw ⊢
      apply run_of_same
      . rw [hw]
        exact .refl _
      . rw [hlog]
        simp only [queueEvents, hfault, if_true, hrun]
        simp
    | some id =>
      have hreply : (Exec.client (.brpop queueName) d.world.1).1 = some id := by
        simp only [Exec.client, ClientOp.run, hlast]
      have hevents : queueEvents i (.client (.brpop queueName)) o d.world.1 =
          [.popped i queueName id] := by
        simp only [queueEvents, hfault, if_true, ClientOp.run, hlast]
      apply Relation.ReflTransGen.single
      rw [mailbag_after, hlog, hw, hevents, mailbag_brpop, hreply]
      exact Mailbag.Step.popServer d.mailbag i id hhand hlast
  . -- The element is off the queue, but its way to the worker ends here.
    subst hr
    have hevents : queueEvents i (.client (.brpop queueName)) o d.world.1 = [] := by
      simp [queueEvents, hfault]
    have hsame : (d.mailbag.setHand i (d.state i)).hand = d.state := by
      exact Function.update_eq_self _ _
    apply Relation.ReflTransGen.single
    rw [mailbag_after, hlog, hw, hevents, List.append_nil, mailbag_brpop]
    have hstep := Mailbag.Step.popLost d.mailbag
    dsimp only [Hand.next]
    rw [hsame]
    exact hstep

theorem run_findTransaction {conditions : List TxnWhere} {r : Except Err (Option Transaction)}
    (hallowed : d.state i = .creating ∨ ∃ event, d.state i = .loaded event)
    (hexec : Exec.findTransaction D i conditions o d.world.1 = some (r, w.1))
    (hlog : w.2 = d.world.2)
    : d.mailbag.Run (d.after i w ((d.state i).next (.findTransaction conditions) r)).mailbag := by
  rcases Exec.findTransaction_cases hexec with ⟨hr, hw⟩ | ⟨row, hr, hw, _⟩
  . subst hr
    apply run_of_same _ hlog
    rw [hw]
    exact .refl _
  . subst hr
    have hbag : w.1.mailbag w.2 d.state =
        { d.mailbag with lookups := d.mailbag.lookups ++ [.read i conditions row] } := by
      rw [hw, hlog]
      simp [World.mailbag, mailbag, Event.isLookup]
    apply Relation.ReflTransGen.single
    rcases hallowed with hcreating | ⟨event, hloaded⟩
    . have hnext : (d.state i).next (.findTransaction conditions) (.ok row) = d.state i := by
        rw [hcreating]
        cases row <;> rfl
      have hstep := Mailbag.Step.find d.mailbag i conditions row (.inl hcreating)
      rw [hnext]
      unfold after mailbag
      dsimp only
      rw [Function.update_eq_self, hbag]
      exact hstep
    . cases row with
      | none =>
        have hstep := Mailbag.Step.find d.mailbag i conditions none (.inr ⟨rfl, event, hloaded⟩)
        unfold after mailbag
        dsimp only [Hand.next]
        rw [Function.update_eq_self, hbag]
        exact hstep
      | some row =>
        have hstep := Mailbag.Step.drive d.mailbag i conditions row event hloaded
        have hnext : (d.state i).next (.findTransaction conditions) (.ok (some row)) =
            .driving event := by
          rw [hloaded]
          rfl
        rw [hnext, mailbag_after, hw, hlog]
        convert hstep using 1
        simp [World.mailbag, mailbag, Event.isLookup, Mailbag.setHand]

theorem run_findEvent {id : String} {r : Except Err (Option WebhookEvent)}
    (hallowed : d.state i = .holding id)
    (hexec : Exec.findEvent i id o d.world.1 = some (r, w.1)) (hlog : w.2 = d.world.2)
    : d.mailbag.Run (d.after i w ((d.state i).next (.findEvent id) r)).mailbag := by
  rcases Exec.findEvent_cases hexec with ⟨hw, hr⟩ | ⟨event, hr, hevent, hid, hw⟩
  . have hnext : (d.state i).next (.findEvent id) r = d.state i := by
      rcases hr with hr | ⟨e, hr⟩
      . subst hr
        rfl
      . subst hr
        rfl
    rw [hnext]
    apply run_of_same _ hlog
    rw [hw]
    exact .refl _
  . subst hr hid
    have hstep := Mailbag.Step.load d.mailbag i event hallowed hevent
    apply Relation.ReflTransGen.single
    rw [mailbag_after, hw, hlog]
    convert hstep using 1
    simp [World.mailbag, mailbag, Event.isLookup, Mailbag.setHand, Hand.next]

theorem run_saveEvent {event' : WebhookEvent} {r : Except Err Unit}
    (hallowed : (d.state i).allowed (.saveEvent event'))
    (hexec : Exec.saveEvent event' o d.world.1 = some (r, w.1)) (hlog : w.2 = d.world.2)
    : d.mailbag.Run (d.after i w ((d.state i).next (.saveEvent event') r)).mailbag := by
  rcases hallowed with ⟨event, now, hevent, hevent'⟩
  have hnext : (d.state i).next (.saveEvent event') r = d.state i := by
    cases r <;> rfl
  rw [hnext]
  rcases Exec.statement_cases hexec with ⟨hw, _⟩ | ⟨hw, _⟩
  . have hstep := Mailbag.Step.mark d.mailbag i event now hevent
    apply Relation.ReflTransGen.single
    unfold after mailbag
    dsimp only
    rw [Function.update_eq_self, hw, hlog, hevent']
    exact hstep
  . apply run_of_same _ hlog
    rw [hw]
    exact .refl _

/--
Every command that a courier may issue is a step of the mailbag.
-/
theorem run_exec {cmd : Cmd} {r : Except Err cmd.Resp} (hallowed : (d.state i).allowed cmd)
    (hexec : exec D i cmd o d.world.1 = some (r, w.1))
    (hlog : w.2 = d.world.2 ++ queueEvents i cmd o d.world.1)
    : d.mailbag.Run (d.after i w ((d.state i).next cmd r)).mailbag := by
  by_cases hoff : cmd.offQueue ∧ ∀ conditions, cmd ≠ .findTransaction conditions
  . have hkept := hoff.left.kept (s := d.state i) (.inr hoff.right)
    rw [hkept.right r]
    rw [hoff.left.queueEvents, List.append_nil] at hlog
    exact run_of_same (hoff.left.sameMail hoff.right hexec) hlog
  . cases cmd with
    | mock op =>
      simp only [exec, Option.some.injEq, Prod.mk.injEq] at hexec
      rcases hexec with ⟨hr, hw⟩
      subst hr
      cases op with
      | lpush queue item =>
        rcases hallowed with ⟨record, hhand, hqueue, hitem⟩
        subst hqueue hitem
        exact run_mockPush hhand hw.symm hlog
      | brpop queue =>
        rcases hallowed with ⟨hhand, hqueue⟩
        subst hqueue
        exact run_mockPop hhand hw.symm hlog
      | _ => exact absurd ⟨hallowed, by simp⟩ hoff
    | client op =>
      cases op with
      | lpush queue item =>
        rcases hallowed with ⟨record, hhand, hqueue, hitem⟩
        subst hqueue hitem
        exact run_clientPush hhand hexec hlog
      | brpop queue =>
        rcases hallowed with ⟨hhand, hqueue⟩
        subst hqueue
        exact run_clientPop hhand hexec hlog
      | _ => exact absurd ⟨hallowed, by simp⟩ hoff
    | findTransaction conditions =>
      exact run_findTransaction hallowed hexec (by simpa [queueEvents] using hlog)
    | findEvent id => exact run_findEvent hallowed hexec (by simpa [queueEvents] using hlog)
    | insertEvent event =>
      exact run_insertEvent hallowed hexec (by simpa [queueEvents] using hlog)
    | saveEvent event => exact run_saveEvent hallowed hexec (by simpa [queueEvents] using hlog)
    | _ => exact absurd ⟨hallowed, by simp⟩ hoff

theorem env_mailbag {e : EnvAct}
    (henv : ((machine D).observed queueEvents).env e d.world = some w)
    : Couriers.mailbag { d with world := w } = d.mailbag := by
  rw [Machine.observed_env] at henv
  rcases henv with ⟨henv, hlog⟩
  have hsame : d.world.1.SameMail w.1 := by
    cases e with
    | tick ms =>
      injection henv with henv
      rw [← henv]
      exact ⟨rfl, rfl, fun _ => rfl, rfl⟩
    | lose key =>
      injection henv with henv
      rw [← henv]
      exact ⟨rfl, rfl, fun _ => rfl, rfl⟩
    | fallBack inst =>
      injection henv with henv
      rw [← henv]
      exact ⟨rfl, rfl, fun _ => Exec.update_mem rfl, rfl⟩
    | settle n status =>
      simp only [envStep] at henv
      split at henv
      . split at henv
        . injection henv with henv
          rw [← henv]
          exact ⟨rfl, rfl, fun _ => rfl, rfl⟩
        . cases henv
      . cases henv
  unfold mailbag
  dsimp only
  rw [hlog]
  exact hsame.mailbag _ _

theorem crash_state (inst : Nat) : (Machine.Parties.crash d inst : Couriers D).state = d.state := by
  funext i
  simp [Machine.Parties.crash]

theorem run_crash (inst : Nat)
    : d.mailbag.Run (Couriers.mailbag (Machine.Parties.crash d inst)) := by
  have hstate := crash_state (d := d) inst
  apply Relation.ReflTransGen.single
  unfold mailbag
  rw [hstate]
  apply Mailbag.Step.forget (d.world.1.mailbag d.world.2 d.state)
  intro n
  simp only [Machine.Parties.crash, crashInst]
  by_cases hn : n = inst
  . subst hn
    rw [Function.update_self]
    exact .inr rfl
  . rw [Function.update_of_ne hn]
    exact .inl rfl

theorem run_of_step {d' : Couriers D}
    (hstep : ((machine D).observed queueEvents).PartyStep custodyProtocol d d')
    : d.mailbag.Run d'.mailbag := by
  cases hstep with
  | run i cmd o r w hallowed hexec =>
    rw [Machine.observed_exec] at hexec
    exact run_exec hallowed hexec.left hexec.right
  | env e w henv => rw [env_mailbag henv]
  | crash inst => exact run_crash inst

theorem answers {cmd : Cmd} {r : Except Err cmd.Resp} {w' : World}
    (hexec : exec D i cmd o d.world.1 = some (r, w')) : (d.state i).answers cmd r := by
  cases cmd with
  | mock op =>
    simp only [exec, Option.some.injEq, Prod.mk.injEq] at hexec
    rw [← hexec.left]
    trivial
  | client op =>
    cases r with
    | ok reply => trivial
    | error e =>
      rcases Exec.statement_fault hexec with ⟨_, _, hr⟩ | ⟨_, _, ⟨_, hr⟩ | ⟨_, hr⟩⟩
      . injection hr
      . cases hr
      . injection hr
  | insertEvent event =>
    rcases Exec.insertEvent_spec hexec with ⟨_, e, hr, _⟩ | ⟨_, _, _, hr | ⟨hr, _⟩⟩
    . rw [hr]
      trivial
    . rw [hr]
      rfl
    . rw [hr]
      trivial
  | findEvent id =>
    rcases Exec.findEvent_cases hexec with ⟨_, hr | ⟨e, hr⟩⟩ | ⟨event, hr, _, hid, _⟩
    . rw [hr]
      trivial
    . rw [hr]
      trivial
    . rw [hr]
      exact hid
  | _ => cases r <;> trivial

variable (D) in
theorem conforms (tasks : Pid → Task)
    : Machine.Conforms (M := (machine D).observed queueEvents) (P := custodyProtocol)
        (fun i => (tasks i).program D) (fun i => (tasks i).hand) (fun i => (tasks i).handover)
        (fun d => Mailbag.Inv tasks (mailbag d)) := by
  refine ⟨fun i => (tasks i).custody, fun _ => rfl, fun _ _ _ h => h, ?_, ?_⟩
  . intro d i cmd o r w _ _ hexec
    rw [Machine.observed_exec] at hexec
    exact answers hexec.left
  . intro d d' hinv hstep
    exact hinv.run (run_of_step hstep)

end Couriers

namespace Watched

variable {tasks : Pid → Task} {c : WatchedQueue D}

/--
The couriers who are about to start.
-/
def couriers (tasks : Pid → Task) (w : World × List QueueEvent) : Couriers D where
  world := w
  state := fun i => (tasks i).hand

theorem Start.mailbag (h : c.Start) : (couriers (D := D) tasks c.world).mailbag.Start tasks := by
  rcases h.system.world with ⟨stats, _, hworld⟩
  have hworld' : c.world.1 = World.start stats := hworld
  constructor
  all_goals
    simp only [Couriers.mailbag, couriers, World.mailbag, hworld', World.start]
  . simp
  . exact h.log
  . simp
  . simp

/--
The mailbag describes a state of the service: its tables and its queue are the same, and every call
that is through has in its hands what it should have.
-/
structure Kept (tasks : Pid → Task) (c : WatchedQueue D) (b : Mailbag) : Prop where
  mailbag : b = c.world.1.mailbag c.world.2 b.hand
  handover : ∀ i r, (c.pool i).result = some r → (tasks i).handover r (b.hand i)
  inv : b.Inv tasks

theorem Reachable.exists_mailbag (h : c.Reachable tasks) : ∃ b : Mailbag, Kept tasks c b := by
  rcases h with ⟨c₀, hstart, hrun⟩
  have hinv : (couriers (D := D) tasks c₀.world).mailbag.Inv tasks := hstart.mailbag.inv
  have hsim : Machine.Simulates (P := custodyProtocol) (fun i => (tasks i).hand)
      (fun i => (tasks i).handover) c₀ (couriers tasks c₀.world) := by
    refine ⟨rfl, fun i => ?_⟩
    rw [show c₀.pool i = .idle from hstart.system.idle i]
    rfl
  rcases hsim.run (Couriers.conforms D tasks) hinv hrun with ⟨d, hd, hsim'⟩
  refine ⟨Couriers.mailbag d, ?_, ?_, (Couriers.conforms D tasks).invariant hinv hd⟩
  . rw [hsim'.world]
    rfl
  . intro i r hr
    exact hsim'.result hr

end Watched

end PaymentOrchestration
