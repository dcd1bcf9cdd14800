import PaymentOrchestration.Webhooks.MailbagRefinement

/-!
This module is about what the acknowledgement of a webhook event promises: that its row is there and
that its id has been pushed on the queue.
-/

namespace PaymentOrchestration

open ReconciliationWorker

/--
The process is a delivery of the event.
-/
def delivers (tasks : Pid → Task) (gateway : GatewayProvider) (eventId : String) (i : Pid) : Prop :=
  ∃ event, tasks i = .ingest event ∧ event.gateway = gateway ∧ event.eventId = eventId

-- The id of a row and the event it is about.
def WebhookEvent.key (record : WebhookEvent) : String × GatewayProvider × String :=
  (record.id, record.gateway, record.eventId)

namespace Hand

def ofDelivery (hand : Hand) : Bool :=
  match hand with
  | .delivering _ | .repeated _ | .stored _ | .pushed _ => true
  | _ => false

variable {hand : Hand} {cmd : Cmd} {r : Except Err cmd.Resp}

/--
The hands of a delivery change with the insert and with the push only.
-/
theorem next_cases (hallowed : hand.allowed cmd)
    : hand.next cmd r = hand ∨
        (hand.ofDelivery = false ∧ (hand.next cmd r).ofDelivery = false) ∨
        (∃ event, cmd = .insertEvent event) ∨
        ∃ record, hand = .stored record ∧ hand.next cmd r = .pushed record ∧
          (cmd = .mock (.lpush queueName record.id) ∨
            cmd = .client (.lpush queueName record.id)) := by
  by_cases hoff : cmd.offQueue ∧ ∀ conditions, cmd ≠ .findTransaction conditions
  . exact .inl ((hoff.left.kept (.inr hoff.right)).right r)
  . cases cmd with
    | mock op =>
      cases op with
      | lpush queue item =>
        rcases hallowed with ⟨record, hhand, hqueue, hitem⟩
        subst hhand hqueue hitem
        rcases r with e | _ | length
        . exact .inl rfl
        . exact .inl rfl
        . exact .inr (.inr (.inr ⟨record, rfl, rfl, .inl rfl⟩))
      | brpop queue =>
        rcases hallowed with ⟨hhand, _⟩
        subst hhand
        rcases r with e | _ | _ | id
        . exact .inl rfl
        . exact .inl rfl
        . exact .inl rfl
        . exact .inr (.inl ⟨rfl, rfl⟩)
      | _ => exact absurd ⟨hallowed, by simp⟩ hoff
    | client op =>
      cases op with
      | lpush queue item =>
        rcases hallowed with ⟨record, hhand, hqueue, hitem⟩
        subst hhand hqueue hitem
        refine .inr (.inr (.inr ⟨record, rfl, ?_, .inr rfl⟩))
        cases r <;> rfl
      | brpop queue =>
        rcases hallowed with ⟨hhand, _⟩
        subst hhand
        rcases r with e | _ | id
        . exact .inl rfl
        . exact .inl rfl
        . exact .inr (.inl ⟨rfl, rfl⟩)
      | _ => exact absurd ⟨hallowed, by simp⟩ hoff
    | insertEvent event => exact .inr (.inr (.inl ⟨event, rfl⟩))
    | findEvent id =>
      have hhand : hand = .holding id := hallowed
      subst hhand
      rcases r with e | _ | event
      . exact .inl rfl
      . exact .inl rfl
      . exact .inr (.inl ⟨rfl, rfl⟩)
    | findTransaction conditions =>
      rcases hallowed with hhand | ⟨event, hhand⟩
      . subst hhand
        rcases r with e | _ | row <;> exact .inl rfl
      . subst hhand
        rcases r with e | _ | row
        . exact .inl rfl
        . exact .inl rfl
        . exact .inr (.inl ⟨rfl, rfl⟩)
    | saveEvent event' => cases r <;> exact .inl rfl
    | _ => exact absurd ⟨hallowed, by simp⟩ hoff

end Hand

namespace Mailbag

variable {tasks : Pid → Task} {b b' : Mailbag}

def keys (b : Mailbag) : List (String × GatewayProvider × String) :=
  b.records.map WebhookEvent.key

theorem mark_keys {i : Pid} {event : WebhookEvent} {now : Nat} (h : b.Table)
    (hhand : (b.hand i).event = some event)
    : (mark event now b.records).map WebhookEvent.key = b.keys := by
  rcases h.event i event hhand with ⟨e, he, heid, hgateway, heventId⟩
  apply Table.map_mark
  intro old hold hoid
  have heq := List.inj_on_of_nodup_map h.ids hold he (by rw [hoid, heid])
  subst heq
  unfold WebhookEvent.key
  rw [hgateway, heventId, heid]

/--
Rows and pushes stay.
-/
theorem Step.grows (h : b.Table) (hstep : b.Step b')
    : (∀ key ∈ b.keys, key ∈ b'.keys) ∧ ∀ event ∈ b.log, event ∈ b'.log := by
  cases hstep with
  | insert i event record hhand hrecord hid hpair hand hhand' =>
    refine ⟨fun key hkey => ?_, fun _ => id⟩
    simp only [keys, List.map_append, List.mem_append]
    exact .inl hkey
  | mark i event now hhand =>
    refine ⟨fun key hkey => ?_, fun _ => id⟩
    unfold keys
    rw [mark_keys h hhand]
    exact hkey
  | pushServer i record hhand | pushMemory i record hhand =>
    exact ⟨fun _ h => h, fun _ => List.mem_append_left _⟩
  | popServer i id hhand _ | popMemory i id hhand _ =>
    exact ⟨fun _ h => h, fun _ => List.mem_append_left _⟩
  | _ => exact ⟨fun _ => id, fun _ => id⟩

theorem Run.grows (h : b.Inv tasks) (hrun : b.Run b')
    : (∀ key ∈ b.keys, key ∈ b'.keys) ∧ ∀ event ∈ b.log, event ∈ b'.log := by
  induction hrun with
  | refl => exact ⟨fun _ => id, fun _ => id⟩
  | tail hrun hstep ih =>
    have hgrows := hstep.grows (h.run hrun).table
    refine ⟨fun key hkey => ?_, fun event hevent => ?_⟩
    . exact hgrows.left key (ih.left key hkey)
    . exact hgrows.right event (ih.right event hevent)

theorem Run.pushed {id : String} (h : b.Inv tasks) (hrun : b.Run b') (hpushed : b.Pushed id)
    : b'.Pushed id := by
  rcases hpushed with ⟨i, hi⟩
  exact ⟨i, (Run.grows h hrun).right _ hi⟩

end Mailbag

variable {D : Deployment} {tasks : Pid → Task}

/--
Only an insert adds a row.
-/
theorem Couriers.keys_of_exec {d : Couriers D} {i : Pid} {cmd : Cmd} {o : Oracle}
    {r : Except Err cmd.Resp} {w : World} (htable : d.mailbag.Table)
    (hallowed : (d.state i).allowed cmd) (hne : ∀ event, cmd ≠ .insertEvent event)
    (hexec : exec D i cmd o d.world.1 = some (r, w))
    : w.webhookEvents.map WebhookEvent.key = d.mailbag.keys := by
  by_cases hoff : cmd.offQueue ∧ ∀ conditions, cmd ≠ .findTransaction conditions
  . rw [(hoff.left.sameMail hoff.right hexec).records]
    rfl
  . cases cmd with
    | mock op =>
      simp only [exec, Option.some.injEq, Prod.mk.injEq] at hexec
      rw [← hexec.right]
      unfold Exec.mock
      dsimp only
      split <;> rfl
    | client op =>
      rcases Exec.statement_cases hexec with ⟨hw, _⟩ | ⟨hw, _⟩
      all_goals
        rw [hw]
        rfl
    | insertEvent event => exact absurd rfl (hne event)
    | findEvent id =>
      rcases Exec.findEvent_cases hexec with ⟨hw, _⟩ | ⟨_, _, _, _, hw⟩
      all_goals
        rw [hw]
        rfl
    | findTransaction conditions =>
      rcases Exec.findTransaction_cases hexec with ⟨_, hw⟩ | ⟨_, _, hw, _⟩
      all_goals
        rw [hw]
        rfl
    | saveEvent event' =>
      rcases hallowed with ⟨event, now, hevent, hevent'⟩
      rcases Exec.statement_cases hexec with ⟨hw, _⟩ | ⟨hw, _⟩
      . have hkeys : (Mailbag.mark event now d.mailbag.records).map WebhookEvent.key =
            d.mailbag.keys := Mailbag.mark_keys htable hevent
        rw [hw, hevent']
        exact hkeys
      . rw [hw]
        rfl
    | _ => exact absurd ⟨hallowed, by simp⟩ hoff

namespace Watched

variable {gateway : GatewayProvider} {eventId : String} {c : WatchedQueue D}

/--
The process has inserted its row, or tried to, and is not through.
-/
def Amid (c : WatchedQueue D) (i : Pid) : Prop :=
  (c.pool i).busy = true ∧ ∀ event k, c.pool i ≠ .running (.op (.insertEvent event) k)

/--
No delivery of the event leaves its row behind without a push: the answer to its insert is not lost,
its push takes effect, its instance does not go down in between, and no other delivery of the event
makes its insert in between.
-/
def Unbroken (tasks : Pid → Task) (gateway : GatewayProvider) (eventId : String)
    (c : WatchedQueue D) (a : ((machine D).observed queueEvents).Act) : Prop :=
  match a with
  | .run i o =>
    delivers tasks gateway eventId i → ∀ cmd k, c.pool i = .running (.op cmd k) →
      match cmd with
      | .insertEvent _ =>
        o.fault ≠ .after ∧ ∀ j, delivers tasks gateway eventId j → j ≠ i → ¬c.Amid j
      | .client (.lpush _ _) => o.fault ≠ .before
      | _ => True
  | .crash inst => ∀ i, delivers tasks gateway eventId i → i.inst = inst → ¬c.Amid i
  | _ => True

/--
What holds in a run without such a delivery.
-/
structure Sent (tasks : Pid → Task) (gateway : GatewayProvider) (eventId : String)
    (c : WatchedQueue D) (d : Couriers D) : Prop where
  inv : d.mailbag.Inv tasks
  -- the hands of a delivery are about its own event
  delivering : ∀ i event, (d.state i = .delivering event ∨ d.state i = .repeated event) →
    tasks i = .ingest event
  written : ∀ i record, (d.state i).written = some record →
    ∃ event, tasks i = .ingest event ∧ record.gateway = event.gateway ∧
      record.eventId = event.eventId
  alive : ∀ i record, d.state i = .stored record → delivers tasks gateway eventId i →
    c.pool i ≠ .dead
  -- every row is pushed or about to be
  sent : ∀ id, (id, gateway, eventId) ∈ d.mailbag.keys →
    d.mailbag.Pushed id ∨ ∃ i record, d.state i = .stored record ∧ record.id = id ∧
      delivers tasks gateway eventId i
  pushed : ∀ i record, d.state i = .pushed record → delivers tasks gateway eventId i →
    d.mailbag.Pushed record.id
  repeated : ∀ i event, d.state i = .repeated event → delivers tasks gateway eventId i →
    ∃ id, (id, gateway, eventId) ∈ d.mailbag.keys ∧ d.mailbag.Pushed id

namespace Sent

variable {c c' : WatchedQueue D} {d d' : Couriers D}

-- An action without an insert or a push.
theorem frame (h : Sent tasks gateway eventId c d) (hinv : d'.mailbag.Inv tasks)
    (hhand : ∀ j, d'.state j = d.state j ∨
      ((d.state j).ofDelivery = false ∧ (d'.state j).ofDelivery = false))
    (hkeys : d'.mailbag.keys = d.mailbag.keys)
    (hpushed : ∀ id, d.mailbag.Pushed id → d'.mailbag.Pushed id)
    (halive : ∀ i record, d'.state i = .stored record → delivers tasks gateway eventId i →
      c'.pool i ≠ .dead)
    : Sent tasks gateway eventId c' d' := by
  have hback : ∀ j, (d'.state j).ofDelivery = true → d'.state j = d.state j := by
    intro j hj
    rcases hhand j with heq | ⟨_, hnot⟩
    . exact heq
    . rw [hnot] at hj
      cases hj
  constructor
  . exact hinv
  . intro i event hi
    rw [hback i (by rcases hi with hi | hi <;> (rw [hi]; rfl))] at hi
    exact h.delivering i event hi
  . intro i record hi
    have hdelivery : (d'.state i).ofDelivery = true := by
      unfold Hand.written at hi
      split at hi
      . next heq => simp [heq, Hand.ofDelivery]
      . next heq => simp [heq, Hand.ofDelivery]
      . cases hi
    rw [hback i hdelivery] at hi
    exact h.written i record hi
  . exact halive
  . intro id hid
    rw [hkeys] at hid
    rcases h.sent id hid with hid | ⟨i, record, hi, hrecord⟩
    . exact .inl (hpushed id hid)
    . rcases hhand i with heq | ⟨hnot, _⟩
      . exact .inr ⟨i, record, by rw [heq, hi], hrecord⟩
      . rw [hi] at hnot
        cases hnot
  . intro i record hi hdelivers
    rw [hback i (by rw [hi]; rfl)] at hi
    exact hpushed _ (h.pushed i record hi hdelivers)
  . intro i event hi hdelivers
    rw [hback i (by rw [hi]; rfl)] at hi
    rcases h.repeated i event hi hdelivers with ⟨id, hid, hid'⟩
    exact ⟨id, by rw [hkeys]; exact hid, hpushed id hid'⟩

/--
A process that has only stored its row is amid its delivery.
-/
theorem amid_of_stored (h : Sent tasks gateway eventId c d)
    (hsim : Machine.Simulates (P := custodyProtocol) (fun i => (tasks i).hand)
      (fun i => (tasks i).handover) c d) {i : Pid} {record : WebhookEvent}
    (hi : d.state i = .stored record) (hdelivers : delivers tasks gateway eventId i) : c.Amid i := by
  have hfollows := hsim.follows i
  rcases hdelivers with ⟨event, htask, hpair⟩
  cases hproc : c.pool i with
  | idle =>
    rw [hproc] at hfollows
    have hstart : d.state i = (tasks i).hand := hfollows
    rw [hi, htask] at hstart
    cases hstart
  | dead => exact absurd hproc (h.alive i record hi ⟨event, htask, hpair⟩)
  | running p =>
    rw [hproc] at hfollows
    have hover : ∀ r, ¬(tasks i).handover r (d.state i) := by
      intro r hr
      rw [htask] at hr
      exact hr.left record hi
    cases p with
    | pure a => exact absurd hfollows (hover _)
    | throw e => exact absurd hfollows (hover _)
    | alt p q =>
      unfold Amid
      rw [hproc]
      exact ⟨rfl, by simp⟩
    | op cmd k =>
      unfold Amid
      rw [hproc]
      refine ⟨rfl, ?_⟩
      rintro event k' ⟨⟩
      have hallowed : d.state i = .delivering event := hfollows.left
      rw [hi] at hallowed
      cases hallowed

theorem delivers_of_task {i : Pid} {event : IncomingWebhook} (htask : tasks i = .ingest event)
    (hdelivers : delivers tasks gateway eventId i)
    : event.gateway = gateway ∧ event.eventId = eventId := by
  rcases hdelivers with ⟨event', htask', hpair⟩
  rw [htask] at htask'
  injection htask' with heq
  rw [heq]
  exact hpair

/--
One process gets something else into its hands. What is to be shown is only about this process and
about the rows that are new.
-/
theorem change {i : Pid} {hand : Hand} {w : World × List QueueEvent}
    (h : Sent tasks gateway eventId c d) (hinv : (d.after i w hand).mailbag.Inv tasks)
    (halive : ∀ j record, j ≠ i → d.state j = .stored record → delivers tasks gateway eventId j →
      c'.pool j ≠ .dead)
    (hrunning : c'.pool i ≠ .dead)
    (hkeys : ∀ key ∈ d.mailbag.keys, key ∈ (d.after i w hand).mailbag.keys)
    (hpushed : ∀ id, d.mailbag.Pushed id → (d.after i w hand).mailbag.Pushed id)
    (hdelivering : ∀ event, (hand = .delivering event ∨ hand = .repeated event) →
      tasks i = .ingest event)
    (hwritten : ∀ record, hand.written = some record →
      ∃ event, tasks i = .ingest event ∧ record.gateway = event.gateway ∧
        record.eventId = event.eventId)
    (hsent : ∀ id, (id, gateway, eventId) ∈ (d.after i w hand).mailbag.keys →
      ((id, gateway, eventId) ∈ d.mailbag.keys ∧
        ∀ record, d.state i = .stored record → record.id ≠ id) ∨
      (d.after i w hand).mailbag.Pushed id ∨
      ∃ record, hand = .stored record ∧ record.id = id ∧ delivers tasks gateway eventId i)
    (hpushed_self : ∀ record, hand = .pushed record → delivers tasks gateway eventId i →
      (d.after i w hand).mailbag.Pushed record.id)
    (hrepeated_self : ∀ event, hand = .repeated event → delivers tasks gateway eventId i →
      ∃ id, (id, gateway, eventId) ∈ (d.after i w hand).mailbag.keys ∧
        (d.after i w hand).mailbag.Pushed id)
    : Sent tasks gateway eventId c' (d.after i w hand) := by
  have hne : ∀ j, j ≠ i → (d.after i w hand).state j = d.state j := by
    intro j hj
    exact Function.update_of_ne hj _ _
  have hself : (d.after i w hand).state i = hand := by
    exact Function.update_self _ _ _
  -- Who else has stored the row still has.
  have hother : ∀ id, (id, gateway, eventId) ∈ d.mailbag.keys →
      (∀ record, d.state i = .stored record → record.id ≠ id) →
      (d.after i w hand).mailbag.Pushed id ∨
        ∃ j record, (d.after i w hand).state j = .stored record ∧ record.id = id ∧
          delivers tasks gateway eventId j := by
    intro id hid hi
    rcases h.sent id hid with hid | ⟨j, record, hj, hrecord, hdelivers⟩
    . exact .inl (hpushed id hid)
    . have hji : j ≠ i := by
        intro hji
        subst hji
        exact hi record hj hrecord
      exact .inr ⟨j, record, by rw [hne j hji, hj], hrecord, hdelivers⟩
  constructor
  . exact hinv
  . intro j event hj
    by_cases hji : j = i
    . subst hji
      rw [hself] at hj
      exact hdelivering event hj
    . rw [hne j hji] at hj
      exact h.delivering j event hj
  . intro j record hj
    by_cases hji : j = i
    . subst hji
      rw [hself] at hj
      exact hwritten record hj
    . rw [hne j hji] at hj
      exact h.written j record hj
  . intro j record hj hdelivers
    by_cases hji : j = i
    . subst hji
      exact hrunning
    . rw [hne j hji] at hj
      exact halive j record hji hj hdelivers
  . intro id hid
    rcases hsent id hid with ⟨hold, hi⟩ | hid | ⟨record, hi, hrecord⟩
    . exact hother id hold hi
    . exact .inl hid
    . exact .inr ⟨i, record, by rw [hself, hi], hrecord⟩
  . intro j record hj hdelivers
    by_cases hji : j = i
    . subst hji
      rw [hself] at hj
      exact hpushed_self record hj hdelivers
    . rw [hne j hji] at hj
      exact hpushed _ (h.pushed j record hj hdelivers)
  . intro j event hj hdelivers
    by_cases hji : j = i
    . subst hji
      rw [hself] at hj
      exact hrepeated_self event hj hdelivers
    . rw [hne j hji] at hj
      rcases h.repeated j event hj hdelivers with ⟨id, hid, hid'⟩
      exact ⟨id, hkeys _ hid, hpushed id hid'⟩

-- An answer that leaves the hands of all deliveries as they are.
theorem stay {i : Pid} {hand : Hand} {w : World × List QueueEvent}
    (h : Sent tasks gateway eventId c d) (hinv : (d.after i w hand).mailbag.Inv tasks)
    (hhand : hand = d.state i ∨ ((d.state i).ofDelivery = false ∧ hand.ofDelivery = false))
    (hkeys : (d.after i w hand).mailbag.keys = d.mailbag.keys)
    (hpushed : ∀ id, d.mailbag.Pushed id → (d.after i w hand).mailbag.Pushed id)
    (halive : ∀ j record, j ≠ i → d.state j = .stored record → delivers tasks gateway eventId j →
      c'.pool j ≠ .dead)
    (hrunning : c'.pool i ≠ .dead)
    : Sent tasks gateway eventId c' (d.after i w hand) := by
  apply h.frame hinv _ hkeys hpushed
  . intro j record hj hdelivers
    by_cases hji : j = i
    . subst hji
      exact hrunning
    . rw [show (d.after i w hand).state j = d.state j from Function.update_of_ne hji _ _] at hj
      exact halive j record hji hj hdelivers
  . intro j
    by_cases hji : j = i
    . subst hji
      rw [show (d.after j w hand).state j = hand from Function.update_self _ _ _]
      exact hhand
    . exact .inl (Function.update_of_ne hji _ _)

-- A push into the memory of the instance takes effect if it is answered.
theorem mem_of_mockPush {i : Pid} {o : Oracle} {record : WebhookEvent}
    {r : Except Err (Option Nat)} {w : World} (hi : d.state i = .stored record)
    (hnext : (d.state i).next (.mock (.lpush queueName record.id)) r = .pushed record)
    (hexec : exec D i (.mock (.lpush queueName record.id)) o d.world.1 = some (r, w))
    : .pushed i queueName record.id ∈
        queueEvents i (.mock (.lpush queueName record.id)) o d.world.1 := by
  cases hmode : (d.world.1.mem i.inst).isMockMode with
  | true => simp [queueEvents, hmode]
  | false =>
    have hr : r = .ok none := by
      have hanswer : r = .ok none ∧ w = d.world.1 := by
        simp only [exec, Exec.mock, hmode] at hexec
        simpa using hexec.symm
      exact hanswer.left
    subst hr
    rw [hi] at hnext
    cases hnext

theorem repel {i : Pid} {event : IncomingWebhook} {w : World × List QueueEvent}
    (h : Sent tasks gateway eventId c d) (hi : d.state i = .delivering event)
    (hworld : w.1 = d.world.1) (hlog : w.2 = d.world.2)
    (hinv : (d.after i w (.repeated event)).mailbag.Inv tasks)
    (halive : ∀ j record, j ≠ i → d.state j = .stored record → delivers tasks gateway eventId j →
      c'.pool j ≠ .dead)
    (hrunning : c'.pool i ≠ .dead)
    (hpair : (event.gateway, event.eventId) ∈
      d.world.1.webhookEvents.map (fun e => (e.gateway, e.eventId)))
    (halone : delivers tasks gateway eventId i → ∀ j record, d.state j = .stored record →
      ¬delivers tasks gateway eventId j)
    : Sent tasks gateway eventId c' (d.after i w (.repeated event)) := by
  have htask := h.delivering i event (.inl hi)
  have hbag : (d.after i w (.repeated event)).mailbag =
      d.mailbag.setHand i (.repeated event) := by
    rw [Couriers.mailbag_after, hworld, hlog]
    rfl
  have hkeys : (d.after i w (.repeated event)).mailbag.keys = d.mailbag.keys := by
    rw [hbag]
    rfl
  have hpushed : ∀ id, (d.after i w (.repeated event)).mailbag.Pushed id ↔ d.mailbag.Pushed id := by
    intro id
    rw [hbag]
    exact Iff.rfl
  apply h.change hinv halive hrunning
  . rw [hkeys]
    exact fun _ hkey => hkey
  . intro id hid
    exact (hpushed id).mpr hid
  . rintro event' (heq | heq)
    . cases heq
    . injection heq with heq
      rw [← heq]
      exact htask
  . simp [Hand.written]
  . intro id hid
    rw [hkeys] at hid
    exact .inl ⟨hid, by simp [hi]⟩
  . simp
  . -- The row it has run into is pushed, for nobody else is amid a delivery.
    intro event' _ hdelivers
    rcases delivers_of_task htask hdelivers with ⟨hgateway, heventId⟩
    rw [hgateway, heventId, List.mem_map] at hpair
    rcases hpair with ⟨record, hrecord, heq⟩
    have hkey : (record.id, gateway, eventId) ∈ d.mailbag.keys := by
      rw [← heq]
      exact List.mem_map_of_mem hrecord
    refine ⟨record.id, by rw [hkeys]; exact hkey, ?_⟩
    rw [hpushed]
    rcases h.sent record.id hkey with hid | ⟨j, record', hj, _, hdelivers'⟩
    . exact hid
    . exact absurd hdelivers' (halone hdelivers j record' hj)

theorem insert {i : Pid} {event : IncomingWebhook} {record : WebhookEvent} {hand : Hand}
    {w : World × List QueueEvent} (h : Sent tasks gateway eventId c d)
    (hi : d.state i = .delivering event) (hrecord : record = event.row record.id)
    (hworld : w.1 = { d.world.1 with webhookEvents := d.world.1.webhookEvents ++ [record] })
    (hlog : w.2 = d.world.2) (hinv : (d.after i w hand).mailbag.Inv tasks)
    (halive : ∀ j record, j ≠ i → d.state j = .stored record → delivers tasks gateway eventId j →
      c'.pool j ≠ .dead)
    (hrunning : c'.pool i ≠ .dead)
    (hhand : hand = .stored record ∨
      (hand = .delivering event ∧ ¬delivers tasks gateway eventId i))
    : Sent tasks gateway eventId c' (d.after i w hand) := by
  have htask := h.delivering i event (.inl hi)
  have hgateway : record.gateway = event.gateway := by
    rw [hrecord]
    rfl
  have heventId : record.eventId = event.eventId := by
    rw [hrecord]
    rfl
  have hkeys : (d.after i w hand).mailbag.keys = d.mailbag.keys ++ [record.key] := by
    rw [Couriers.mailbag_after, hworld]
    simp [Mailbag.keys, World.mailbag, Couriers.mailbag]
  have hpushed : ∀ id, (d.after i w hand).mailbag.Pushed id ↔ d.mailbag.Pushed id := by
    intro id
    rw [Couriers.mailbag_after, hlog]
    exact Iff.rfl
  apply h.change hinv halive hrunning
  . intro key hkey
    rw [hkeys]
    exact List.mem_append_left _ hkey
  . intro id hid
    exact (hpushed id).mpr hid
  . rintro event' (heq | heq)
    . rcases hhand with hhand | ⟨hhand, _⟩
      . rw [hhand] at heq
        cases heq
      . rw [hhand] at heq
        injection heq with heq
        rw [← heq]
        exact htask
    . rcases hhand with hhand | ⟨hhand, _⟩ <;> (rw [hhand] at heq; cases heq)
  . intro record' hwritten
    rcases hhand with hhand | ⟨hhand, _⟩
    . rw [hhand] at hwritten
      injection hwritten with hwritten
      subst hwritten
      exact ⟨event, htask, hgateway, heventId⟩
    . rw [hhand] at hwritten
      cases hwritten
  . intro id hid
    rw [hkeys, List.mem_append, List.mem_singleton] at hid
    rcases hid with hid | hid
    . exact .inl ⟨hid, by simp [hi]⟩
    . -- The new row is one of the event.
      simp only [WebhookEvent.key, Prod.mk.injEq] at hid
      rcases hid with ⟨hid, hg, he⟩
      have hdelivers : delivers tasks gateway eventId i := by
        exact ⟨event, htask, by rw [← hgateway, ← hg], by rw [← heventId, ← he]⟩
      rcases hhand with hhand | ⟨_, hnot⟩
      . exact .inr (.inr ⟨record, hhand, hid.symm, hdelivers⟩)
      . exact absurd hdelivers hnot
  . intro record' heq
    rcases hhand with hhand | ⟨hhand, _⟩ <;> (rw [hhand] at heq; cases heq)
  . intro event' heq
    rcases hhand with hhand | ⟨hhand, _⟩ <;> (rw [hhand] at heq; cases heq)

theorem push {i : Pid} {record : WebhookEvent} {w : World × List QueueEvent}
    (h : Sent tasks gateway eventId c d) (hi : d.state i = .stored record)
    (hkeys : (d.after i w (.pushed record)).mailbag.keys = d.mailbag.keys)
    (hlog : ∀ id, d.mailbag.Pushed id → (d.after i w (.pushed record)).mailbag.Pushed id)
    (hinv : (d.after i w (.pushed record)).mailbag.Inv tasks)
    (halive : ∀ j record, j ≠ i → d.state j = .stored record → delivers tasks gateway eventId j →
      c'.pool j ≠ .dead)
    (hrunning : c'.pool i ≠ .dead)
    (heffect : delivers tasks gateway eventId i →
      (d.after i w (.pushed record)).mailbag.Pushed record.id)
    : Sent tasks gateway eventId c' (d.after i w (.pushed record)) := by
  rcases h.written i record (by rw [hi]; rfl) with ⟨event, htask, hgateway, heventId⟩
  apply h.change hinv halive hrunning
  . rw [hkeys]
    exact fun _ hkey => hkey
  . exact hlog
  . rintro event' (heq | heq) <;> cases heq
  . intro record' heq
    injection heq with heq
    rw [← heq]
    exact ⟨event, htask, hgateway, heventId⟩
  . intro id hid
    rw [hkeys] at hid
    by_cases hrecord : record.id = id
    . subst hrecord
      apply Or.inr
      apply Or.inl
      apply heffect
      -- There is one row with this id, and it is one of the event.
      rcases h.inv.table.written i record (by rw [Couriers.mailbag]; simp [World.mailbag, hi, Hand.written])
        with ⟨e, he, heid, heg, hee⟩
      rcases List.mem_map.mp hid with ⟨e', he', hkey⟩
      simp only [WebhookEvent.key, Prod.mk.injEq] at hkey
      have heq := List.inj_on_of_nodup_map h.inv.table.ids he he' (by rw [heid, hkey.left])
      subst heq
      refine ⟨event, htask, ?_, ?_⟩
      . rw [← hgateway, ← heg, hkey.right.left]
      . rw [← heventId, ← hee, hkey.right.right]
    . refine .inl ⟨hid, ?_⟩
      intro record' heq
      rw [hi] at heq
      injection heq with heq
      rw [← heq]
      exact hrecord
  . intro record' heq hdelivers
    injection heq with heq
    rw [← heq]
    exact heffect hdelivers
  . intro event' heq
    cases heq

-- A process that starts or goes on is not dead, the others are as they were.
theorem alive_update {i j : Pid} {proc : Machine.Proc Cmd Cmd.Resp Err Reply}
    (hproc : proc ≠ .dead) (hj : j ≠ i → c.pool j ≠ .dead)
    : Function.update c.pool i proc j ≠ .dead := by
  by_cases hji : j = i
  . subst hji
    rw [Function.update_self]
    exact hproc
  . rw [Function.update_of_ne hji]
    exact hj hji

theorem silent {i : Pid} {p : Program Reply} (h : Sent tasks gateway eventId c d)
    : Sent tasks gateway eventId
        { c with pool := Function.update c.pool i (.running p) } d := by
  apply h.frame h.inv
  . exact fun _ => .inl rfl
  . rfl
  . exact fun _ hid => hid
  . intro j record hj hdelivers
    apply alive_update
    . simp
    . intro _
      exact h.alive j record hj hdelivers

theorem crash {inst : Nat} (h : Sent tasks gateway eventId c d)
    (hsim : Machine.Simulates (P := custodyProtocol) (fun i => (tasks i).hand)
      (fun i => (tasks i).handover) c d)
    (hamid : ∀ i, delivers tasks gateway eventId i → i.inst = inst → ¬c.Amid i)
    (hpool : ∀ i, c'.pool i = if i.inst = inst then (c.pool i).crash else c.pool i)
    : Sent tasks gateway eventId c' (Machine.Parties.crash d inst) := by
  have hstate := Couriers.crash_state (d := d) inst
  have hrun := Couriers.run_crash (d := d) inst
  apply h.frame (h.inv.run hrun)
  . intro j
    rw [hstate]
    exact .inl rfl
  . rfl
  . intro id hid
    exact Mailbag.Run.pushed h.inv hrun hid
  . intro j record hj hdelivers
    rw [hstate] at hj
    rw [hpool]
    split
    . next hinst => exact absurd (h.amid_of_stored hsim hj hdelivers) (hamid j hdelivers hinst)
    . exact h.alive j record hj hdelivers

theorem run {i : Pid} {o : Oracle} {cmd : Cmd} {k : Except Err cmd.Resp → Program Reply}
    {r : Except Err cmd.Resp} {w : World × List QueueEvent} (h : Sent tasks gateway eventId c d)
    (hsim : Machine.Simulates (P := custodyProtocol) (fun i => (tasks i).hand)
      (fun i => (tasks i).handover) c d)
    (hunbroken : Unbroken tasks gateway eventId c (.run i o))
    (hop : c.pool i = .running (.op cmd k)) (hallowed : (d.state i).allowed cmd)
    (hexec : exec D i cmd o d.world.1 = some (r, w.1))
    (hlog : w.2 = d.world.2 ++ queueEvents i cmd o d.world.1)
    : Sent tasks gateway eventId
        { world := w, pool := Function.update c.pool i (.running (k r)) }
        (d.after i w ((d.state i).next cmd r)) := by
  have hrun := Couriers.run_exec hallowed hexec hlog
  have hinv := h.inv.run hrun
  have hrunning : Function.update c.pool i (.running (k r)) i ≠ .dead := by
    rw [Function.update_self]
    simp
  have halive : ∀ j record, j ≠ i → d.state j = .stored record →
      delivers tasks gateway eventId j → Function.update c.pool i (.running (k r)) j ≠ .dead := by
    intro j record _ hj hdelivers
    apply alive_update
    . simp
    . intro _
      exact h.alive j record hj hdelivers
  have hmono : ∀ id, d.mailbag.Pushed id →
      (d.after i w ((d.state i).next cmd r)).mailbag.Pushed id := by
    intro id hid
    exact Mailbag.Run.pushed h.inv hrun hid
  by_cases hinsert : ∃ event, cmd = .insertEvent event
  . rcases hinsert with ⟨event, heq⟩
    subst heq
    have hi : d.state i = .delivering event := hallowed
    have hlog' : w.2 = d.world.2 := by
      simpa [queueEvents] using hlog
    rcases Exec.insertEvent_spec hexec with ⟨hworld, e, hr, hpair⟩ | ⟨hid, hpair, hworld, hr⟩
    . subst hr
      by_cases hunique : WebhooksService.isUniqueViolation e = true
      . have hnext : (d.state i).next (.insertEvent event) (.error e) = .repeated event := by
          simp [Hand.next, hunique]
        rw [hnext] at hinv ⊢
        apply h.repel hi hworld hlog' hinv halive hrunning (hpair hunique)
        intro hdelivers j record hj hdelivers'
        have hji : j ≠ i := by
          intro hji
          rw [hji, hi] at hj
          cases hj
        have halone := (hunbroken hdelivers _ k hop).right j hdelivers' hji
        exact halone (h.amid_of_stored hsim hj hdelivers')
      . apply h.stay hinv _ _ hmono halive hrunning
        . exact .inl (by simp [Hand.next, hunique])
        . rw [Couriers.mailbag_after, hworld]
          rfl
    . apply h.insert hi rfl hworld hlog' hinv halive hrunning
      rcases hr with hr | ⟨hr, hfault⟩
      . subst hr
        exact .inl rfl
      . subst hr
        refine .inr ⟨?_, ?_⟩
        . simpa [Hand.next, WebhooksService.isUniqueViolation, Exec.connectionError] using hi
        . intro hdelivers
          exact (hunbroken hdelivers _ k hop).left hfault
  . have hne : ∀ event, cmd ≠ .insertEvent event := by
      intro event heq
      exact hinsert ⟨event, heq⟩
    have hkeys : (d.after i w ((d.state i).next cmd r)).mailbag.keys = d.mailbag.keys := by
      exact Couriers.keys_of_exec h.inv.table hallowed hne hexec
    rcases Hand.next_cases (r := r) hallowed with hsame | ⟨hnot, hnot'⟩ | ⟨event, heq⟩ |
      ⟨record, hi, hnext, hcmd⟩
    . exact h.stay hinv (.inl hsame) hkeys hmono halive hrunning
    . exact h.stay hinv (.inr ⟨hnot, hnot'⟩) hkeys hmono halive hrunning
    . exact absurd heq (hne event)
    . rw [hnext] at hinv hkeys hmono ⊢
      apply h.push hi hkeys hmono hinv halive hrunning
      intro hdelivers
      refine ⟨i, ?_⟩
      have hmem : .pushed i queueName record.id ∈ w.2 := by
        rw [hlog]
        apply List.mem_append_right
        rcases hcmd with hcmd | hcmd
        . subst hcmd
          exact mem_of_mockPush hi hnext hexec
        . subst hcmd
          have hfault := hunbroken hdelivers _ k hop
          simp [queueEvents, hfault]
      exact hmem

end Sent

variable (D tasks gateway eventId) in
theorem conformsBy
    : Machine.ConformsBy (M := (machine D).observed queueEvents) (P := custodyProtocol)
        (fun i => (tasks i).program D) (fun i => (tasks i).hand) (fun i => (tasks i).handover)
        (Unbroken tasks gateway eventId) (Sent tasks gateway eventId) := by
  refine ⟨fun i => (tasks i).custody, fun _ => rfl, fun _ _ _ h => h, ?_, ?_⟩
  . intro c d i o cmd k r w hsim _ _ _ _ hexec
    rw [Machine.observed_exec] at hexec
    have hexec' := hexec.left
    rw [hsim.world] at hexec'
    exact Couriers.answers hexec'
  . intro a c c' d d' hsim h hunbroken hmoves _
    cases hmoves with
    | spawn i hidle => exact h.silent
    | left i p q halt => exact h.silent
    | right i p q halt => exact h.silent
    | run i o cmd k r w hop hallowed hexec =>
      rw [hsim.world, Machine.observed_exec] at hexec
      exact h.run hsim hunbroken hop hallowed hexec.left hexec.right
    | env e w henv =>
      rw [hsim.world] at henv
      have hbag := Couriers.env_mailbag henv
      apply h.frame
      . rw [hbag]
        exact h.inv
      . exact fun _ => .inl rfl
      . rw [hbag]
      . rw [hbag]
        exact fun _ hid => hid
      . exact h.alive
    | crash inst => exact h.crash hsim hunbroken (fun _ => rfl)

theorem Start.sent {c : WatchedQueue D} (h : c.Start)
    : Sent tasks gateway eventId c (couriers tasks c.world) := by
  have hbag : (couriers (D := D) tasks c.world).mailbag.Start tasks := h.mailbag
  have hhand : ∀ i, (couriers (D := D) tasks c.world).state i = (tasks i).hand := by
    intro i
    rfl
  constructor
  . exact hbag.inv
  . intro i event hi
    rw [hhand] at hi
    cases htask : tasks i with
    | ingest event' =>
      rw [htask] at hi
      rcases hi with hi | hi
      . injection hi with hi
        rw [hi]
      . cases hi
    | _ =>
      rw [htask] at hi
      rcases hi with hi | hi <;> cases hi
  . intro i record hi
    rw [hhand] at hi
    cases htask : tasks i <;> (rw [htask] at hi; cases hi)
  . intro i record hi
    rw [hhand] at hi
    cases htask : tasks i <;> (rw [htask] at hi; cases hi)
  . intro id hid
    unfold Mailbag.keys at hid
    rw [hbag.records] at hid
    cases hid
  . intro i record hi
    rw [hhand] at hi
    cases htask : tasks i <;> (rw [htask] at hi; cases hi)
  . intro i event hi
    rw [hhand] at hi
    cases htask : tasks i <;> (rw [htask] at hi; cases hi)

/--
The row of the event is there and its id has been pushed on the queue.
-/
def Queued (c : WatchedQueue D) (gateway : GatewayProvider) (eventId : String) : Prop :=
  ∃ record ∈ c.world.1.webhookEvents, (record.gateway = gateway ∧ record.eventId = eventId) ∧
    ∃ i, .pushed i queueName record.id ∈ c.world.2

theorem queued_of_keys {d : Couriers D} (hworld : c.world = d.world) {id : String}
    (hkey : (id, gateway, eventId) ∈ d.mailbag.keys) (hpushed : d.mailbag.Pushed id)
    : c.Queued gateway eventId := by
  rcases List.mem_map.mp hkey with ⟨record, hrecord, heq⟩
  simp only [WebhookEvent.key, Prod.mk.injEq] at heq
  rcases heq with ⟨hid, hpair⟩
  unfold Queued
  rw [hworld]
  refine ⟨record, hrecord, hpair, ?_⟩
  rw [hid]
  exact hpushed

/--
If no delivery of the event leaves its row behind without a push, then a delivery that is
acknowledged, as new or as a duplicate, says the truth: the event is queued.
-/
theorem acknowledged_is_queued (h : c.ReachableBy tasks (Unbroken tasks gateway eventId)) {i : Pid}
    (hdelivers : delivers tasks gateway eventId i) {duplicate : Bool}
    (hresult : (c.pool i).result = some (.ok (.duplicate duplicate)))
    : c.Queued gateway eventId := by
  rcases h with ⟨c₀, hstart, hrun⟩
  have hsim : Machine.Simulates (P := custodyProtocol) (fun i => (tasks i).hand)
      (fun i => (tasks i).handover) c₀ (couriers tasks c₀.world) := by
    refine ⟨rfl, fun i => ?_⟩
    rw [show c₀.pool i = .idle from hstart.system.idle i]
    rfl
  rcases hsim.runBy (conformsBy D tasks gateway eventId) hstart.sent hrun with ⟨d, hsim', hsent⟩
  have hhandover := hsim'.result hresult
  rcases hdelivers with ⟨event, htask, hgateway, heventId⟩
  rw [htask] at hhandover
  cases duplicate with
  | false =>
    rcases hhandover.right.left rfl with ⟨record, hi, hrecord⟩
    have hpushed := hsent.pushed i record hi ⟨event, htask, hgateway, heventId⟩
    rcases hsent.inv.table.written i record (by
      rw [show (Couriers.mailbag d).hand i = .pushed record from hi]
      rfl) with ⟨e, he, heid, heg, hee⟩
    apply queued_of_keys hsim'.world _ hpushed
    refine List.mem_map.mpr ⟨e, he, ?_⟩
    rw [WebhookEvent.key, heid, heg, hee, hrecord, ← hgateway, ← heventId]
    rfl
  | true =>
    have hi := hhandover.right.right rfl
    rcases hsent.repeated i event hi ⟨event, htask, hgateway, heventId⟩ with ⟨id, hkey, hpushed⟩
    exact queued_of_keys hsim'.world hkey hpushed

/--
The gateway delivers the event again only when its last delivery is over.
-/
def InTurn (tasks : Pid → Task) (gateway : GatewayProvider) (eventId : String)
    (c : WatchedQueue D) (a : ((machine D).observed queueEvents).Act) : Prop :=
  ∀ i, a = .spawn i → delivers tasks gateway eventId i →
    ∀ j, delivers tasks gateway eventId j → (c.pool j).busy = false

end Watched

namespace Scenario

-- Process 1 delivers the event and, when it must, process 2 delivers it again.
def redeliveries (i : Pid) : Task :=
  if i = ⟨0, 1⟩ ∨ i = ⟨0, 2⟩ then .ingest captured else .pollQueue

theorem eq_of_delivers {gateway : GatewayProvider} {eventId : String} {i : Pid}
    (h : delivers redeliveries gateway eventId i) : i = ⟨0, 1⟩ ∨ i = ⟨0, 2⟩ := by
  rcases h with ⟨event, htask, _⟩
  by_contra hne
  rw [redeliveries, if_neg hne] at htask
  cases htask

def inTurn (c : WatchedQueue deployment) (a : WatchedAct queueEvents) : Bool :=
  match a with
  | .spawn _ => !(c.pool ⟨0, 1⟩).busy && !(c.pool ⟨0, 2⟩).busy
  | _ => true

theorem inTurn_of_inTurn {c : WatchedQueue deployment} {a : WatchedAct queueEvents}
    (h : inTurn c a = true) : Watched.InTurn redeliveries .UPI "evt_1" c a := by
  intro i heq _ j hj
  subst heq
  simp only [inTurn, Bool.and_eq_true, Bool.not_eq_true'] at h
  rcases eq_of_delivers hj with hj | hj
  . rw [hj]
    exact h.left
  . rw [hj]
    exact h.right

-- Nothing goes wrong, and the deliveries do not overlap.
def smooth (c : WatchedQueue deployment) (a : WatchedAct queueEvents) : Bool :=
  match a with
  | .run i o =>
    o.fault = .none && (i = ⟨0, 1⟩ || !(c.pool ⟨0, 1⟩).busy) &&
      (i = ⟨0, 2⟩ || !(c.pool ⟨0, 2⟩).busy)
  | .crash _ => false
  | _ => true

theorem unbroken_of_smooth {c : WatchedQueue deployment} {a : WatchedAct queueEvents}
    (h : smooth c a = true) : Watched.Unbroken redeliveries .UPI "evt_1" c a := by
  cases a with
  | run i o =>
    simp only [smooth, Bool.and_eq_true, Bool.or_eq_true, decide_eq_true_eq,
      Bool.not_eq_true'] at h
    rcases h with ⟨⟨hfault, h₁⟩, h₂⟩
    intro _ cmd k _
    split
    . refine ⟨by simp [hfault], ?_⟩
      intro j hj hji hamid
      rcases eq_of_delivers hj with hj | hj
      . subst hj
        rcases h₁ with h₁ | h₁
        . exact hji h₁.symm
        . have hbusy := hamid.left
          rw [h₁] at hbusy
          cases hbusy
      . subst hj
        rcases h₂ with h₂ | h₂
        . exact hji h₂.symm
        . have hbusy := hamid.left
          rw [h₂] at hbusy
          cases hbusy
    . simp [hfault]
    . trivial
  | crash inst => cases h
  | _ => trivial

end Scenario

namespace Watched

open Scenario

/--
The event is delivered and delivered again, and both deliveries are acknowledged.
-/
theorem acknowledged_is_queued_again
    : ∃ c : WatchedQueue deployment,
        acknowledges ⟨0, 2⟩ true c = true ∧ c.Queued .UPI "evt_1" := by
  let acts : List Act := [.spawn ⟨0, 1⟩, .run ⟨0, 1⟩ { id := "record-1" }] ++ steps ⟨0, 1⟩ 2 ++
    [.spawn ⟨0, 2⟩, .run ⟨0, 2⟩ { id := "record-2" }]
  have hrun : (watchedOutcome smooth redeliveries (watched acts)).any
      (acknowledges ⟨0, 2⟩ true) = true := by
    decide +kernel
  rcases exists_watched (fun c a => unbroken_of_smooth) hrun with ⟨c, hc, hp⟩
  have hdelivers : delivers redeliveries .UPI "evt_1" ⟨0, 2⟩ := by
    exact ⟨captured, rfl, rfl, rfl⟩
  exact ⟨c, hp, acknowledged_is_queued hc hdelivers (result_of_acknowledges hp)⟩

/--
The push of the first delivery fails, so it is rejected. The second one is acknowledged as a
duplicate, and nobody has ever pushed the event.
-/
theorem acknowledged_unqueued
    : ∃ c : WatchedQueue deployment, c.ReachableBy redeliveries (InTurn redeliveries .UPI "evt_1") ∧
        (∃ e, (c.pool ⟨0, 1⟩).result = some (.error e)) ∧
        (c.pool ⟨0, 2⟩).result = some (.ok (.duplicate true)) ∧ ¬c.Queued .UPI "evt_1" := by
  let acts : List Act := [.spawn ⟨0, 1⟩, .run ⟨0, 1⟩ { id := "record-1" }] ++ steps ⟨0, 1⟩ 1 ++
    [.run ⟨0, 1⟩ { fault := .before }, .spawn ⟨0, 2⟩, .run ⟨0, 2⟩ { id := "record-2" }]
  let p (c : WatchedQueue deployment) : Bool :=
    throws ⟨0, 1⟩ c && (acknowledges ⟨0, 2⟩ true c && c.world.2.isEmpty)
  have hrun : (watchedOutcome inTurn redeliveries (watched acts)).any p = true := by
    decide +kernel
  rcases exists_watched (fun c a => inTurn_of_inTurn) hrun with ⟨c, hc, hp⟩
  simp only [p, Bool.and_eq_true] at hp
  rcases hp with ⟨hrejected, hack, hempty⟩
  refine ⟨c, hc, exists_thrown hrejected, result_of_acknowledges hack, ?_⟩
  rintro ⟨record, _, _, i, hi⟩
  rw [List.isEmpty_iff] at hempty
  rw [hempty] at hi
  cases hi

end Watched

end PaymentOrchestration
