import PaymentOrchestration.Party.Ground
import PaymentOrchestration.Webhooks.MailbagRefinement

/-!
This module is about what becomes of an event whose id a worker has popped: unless one of the
worker's steps fails the event is marked as processed, otherwise nobody has its id any more.
-/

namespace PaymentOrchestration

open ReconciliationWorker

namespace Calm

-- The id that a worker has popped.
def held (s : Calm) : Option String :=
  match s with
  | .holding id => some id
  | .loaded event => some event.id
  | .moving (some event) _ _ _ => some event.id
  | .done id => some id
  | _ => none

-- The id of an event that is known to be marked.
def through (s : Calm) : Option String :=
  match s with
  | .loaded event => if event.processed then some event.id else none
  | .done id => some id
  | _ => none

variable {s : Calm} {cmd : Cmd} {r : Except Err cmd.Resp}

theorem held_of_event {event : WebhookEvent} (h : s.event = some event)
    : s.held = some event.id := by
  unfold Calm.event at h
  split at h
  . injection h with h
    rw [h]
    rfl
  . rw [h]
    rfl
  . cases h

/--
A worker keeps the id it has popped.
-/
theorem next_held (hallowed : s.allowed cmd) (hanswers : s.answers cmd r)
    (hmock : ∀ queue, cmd ≠ .mock (.brpop queue)) (hclient : ∀ queue, cmd ≠ .client (.brpop queue))
    : (s.next cmd r).held = s.held := by
  have hturn := s.turn cmd r
  generalize s.next cmd r = s' at hturn ⊢
  cases hturn with
  | mock => exact absurd rfl (hmock _)
  | client => exact absurd rfl (hclient _)
  | found =>
    have hkey := hallowed.resolve_left (by simp)
    rcases hanswers.resolve_left (by simp) with ⟨event, hr, hid, _⟩
    injection hkey with hkey
    injection hr with hr
    injection hr with hr
    rw [hr, hkey, ← hid]
    rfl
  | marked h => exact (held_of_event h).symm
  | @drafted event => cases event <;> rfl
  | @committed event => cases event <;> rfl
  | _ => rfl

theorem next_through (hfind : ∀ id, cmd ≠ .findEvent id) (hsave : ∀ record, cmd ≠ .saveEvent record)
    {id : String} (h : (s.next cmd r).through = some id) : s.through = some id := by
  have hturn := s.turn cmd r
  generalize s.next cmd r = s' at hturn h
  cases hturn with
  | stay => exact h
  | found => exact absurd rfl (hfind _)
  | marked => exact absurd rfl (hsave _)
  | _ => cases h

/--
What is known to be marked is marked.
-/
def Marked (s : Calm) (w : World) : Prop :=
  ∀ id, s.through = some id → ∃ record ∈ w.webhookEvents, record.id = id ∧ record.processed = true

end Calm

/--
A mark stays, because nobody writes an event without one.
-/
theorem Touches.marked {i : Pid} {cmd : Cmd} {o : Oracle} {w w' : World} (h : Touches i cmd o w w')
    (hmarking : cmd.marking) {id : String}
    (hid : ∃ record ∈ w.webhookEvents, record.id = id ∧ record.processed = true)
    : ∃ record ∈ w'.webhookEvents, record.id = id ∧ record.processed = true := by
  rcases hid with ⟨record, hrecord, hid, hprocessed⟩
  rcases h.webhookEvents with heq | ⟨_, heq⟩ | ⟨event, hcmd, heq⟩
  . rw [heq]
    exact ⟨record, hrecord, hid, hprocessed⟩
  . rw [heq]
    exact ⟨record, List.mem_append_left _ hrecord, hid, hprocessed⟩
  . subst hcmd
    rw [heq]
    refine ⟨_, List.mem_map_of_mem hrecord, ?_⟩
    split
    . next hevent => exact ⟨by rw [← hevent, hid], hmarking⟩
    . exact ⟨hid, hprocessed⟩

namespace Calm

variable {D : Deployment} {s : Calm} {i : Pid} {o : Oracle} {w w' : World}

theorem allowed_marking {cmd : Cmd} (h : s.allowed cmd) : cmd.marking := by
  cases cmd with
  | saveEvent record => exact h.left
  | _ => trivial

theorem Marked.after (h : s.Marked w) {j : Pid} {cmd : Cmd} {r : Except Err cmd.Resp}
    (hmarking : cmd.marking) (hexec : exec D j cmd o w = some (r, w')) : s.Marked w' := by
  intro id hid
  exact (exec_touches hexec).marked hmarking (h id hid)

/--
A step of the worker itself marks what it is through with.
-/
theorem Marked.own (h : s.Marked w) (hs : s ≠ .free) {cmd : Cmd} {r : Except Err cmd.Resp}
    (hallowed : s.allowed cmd) (hperforms : Performs D cmd o)
    (hknown : ∀ event, s.event = some event → ∃ record ∈ w.webhookEvents, record.id = event.id)
    (hexec : exec D i cmd o w = some (r, w')) : (s.next cmd r).Marked w' := by
  have hmarking := allowed_marking hallowed
  by_cases hfind : ∃ id, cmd = .findEvent id
  . rcases hfind with ⟨id, hcmd⟩
    subst hcmd
    have hs := hallowed.resolve_left hs
    subst hs
    rcases Exec.findEvent_cases hexec with ⟨hw, hr | ⟨e, hr⟩⟩ | ⟨event, hr, hevent, _, hw⟩
    . subst hr
      intro id hid
      cases hid
    . subst hr
      intro id hid
      cases hid
    . subst hr
      intro id hid
      simp only [next, found, through] at hid
      split at hid
      . next hprocessed =>
        injection hid with hid
        exact ⟨event, by rw [hw]; exact hevent, hid, hprocessed⟩
      . cases hid
  . by_cases hsave : ∃ record, cmd = .saveEvent record
    . rcases hsave with ⟨record, hcmd⟩
      subst hcmd
      rcases hallowed with ⟨hprocessed, hevent⟩
      rcases hevent.resolve_left hs with ⟨event, hevent, hid⟩
      have hnext : s.next (.saveEvent record) r = .done event.id := by
        unfold Calm.event at hevent
        split at hevent
        . injection hevent with hevent
          subst hevent
          rfl
        . subst hevent
          rfl
        . cases hevent
      rcases hknown event hevent with ⟨old, hold, holdid⟩
      rcases Exec.statement_fault hexec with ⟨hfault, _⟩ | ⟨_, hw, _⟩
      . exact absurd hfault hperforms
      . rw [hnext, hw]
        rintro _ ⟨⟩
        refine ⟨record, List.mem_map.mpr ⟨old, hold, ?_⟩, hid, hprocessed⟩
        rw [if_pos (by rw [holdid, hid])]
    . intro id hid
      have hid' : s.through = some id := by
        apply next_through _ _ hid
        . intro key heq
          exact hfind ⟨key, heq⟩
        . intro record heq
          exact hsave ⟨record, heq⟩
      exact (exec_touches hexec).marked hmarking (h id hid')

end Calm

/-!
What an observer sees of a pop is what its caller is answered.
-/

section Pops

variable {D : Deployment} {i j : Pid} {o : Oracle} {w w' : World} {queue queue' id : String}

theorem popped_mock {r : Except Err (Option (Option String))}
    (hexec : exec D i (.mock (.brpop queue)) o w = some (r, w'))
    : .popped j queue' id ∈ queueEvents i (.mock (.brpop queue)) o w
        ↔
      (j = i ∧ queue' = queue) ∧ r = .ok (some (some id)) := by
  simp only [exec, Option.some.injEq, Prod.mk.injEq] at hexec
  rw [← hexec.left]
  simp only [queueEvents, Exec.mock]
  by_cases hmock : (w.mem i.inst).isMockMode = true
  . rw [if_pos hmock, if_pos hmock]
    cases hitem : (MockOp.run (.brpop queue) (w.mem i.inst).mockStore).1 with
    | none => simp
    | some item =>
      simp only [List.mem_singleton, QueueEvent.popped.injEq, Except.ok.injEq,
        Option.some.injEq]
      grind
  . rw [if_neg hmock, if_neg hmock]
    simp

theorem popped_client {r : Except Err (Option String)}
    (hexec : exec D i (.client (.brpop queue)) o w = some (r, w'))
    : .popped j queue' id ∈ queueEvents i (.client (.brpop queue)) o w
        ↔
      (j = i ∧ queue' = queue) ∧ r = .ok (some id) := by
  simp only [exec, Exec.client] at hexec
  simp only [queueEvents]
  rcases Exec.statement_fault hexec with ⟨hfault, _, hr⟩ | ⟨_, _, ⟨hfault, hr⟩ | ⟨hfault, hr⟩⟩
  . rw [hfault, if_neg (by simp), hr]
    simp
  . rw [hfault, if_pos rfl, hr]
    cases hitem : (ClientOp.run (.brpop queue) w.clock w.redis).1 with
    | none => simp
    | some item =>
      simp only [List.mem_singleton, QueueEvent.popped.injEq, Except.ok.injEq,
        Option.some.injEq]
      grind
  . rw [hfault, if_neg (by simp), hr]
    simp

theorem not_popped {cmd : Cmd} (hmock : ∀ queue, cmd ≠ .mock (.brpop queue))
    (hclient : ∀ queue, cmd ≠ .client (.brpop queue))
    (hfallback : ∀ queue, cmd ≠ .fallback (.brpop queue))
    : .popped j queue' id ∉ queueEvents i cmd o w := by
  unfold queueEvents
  split
  . split <;> simp
  . next queue => exact absurd rfl (hmock queue)
  . split <;> simp
  . next queue => exact absurd rfl (hclient queue)
  . simp
  . next queue => exact absurd rfl (hfallback queue)
  . simp

theorem pid_of_popped {cmd : Cmd} (h : .popped j queue' id ∈ queueEvents i cmd o w) : j = i := by
  unfold queueEvents at h
  split at h
  . split at h <;> simp at h
  . split at h
    . split at h
      . simp only [List.mem_singleton, QueueEvent.popped.injEq] at h
        exact h.left
      . cases h
    . cases h
  . split at h <;> simp at h
  . split at h
    . split at h
      . simp only [List.mem_singleton, QueueEvent.popped.injEq] at h
        exact h.left
      . cases h
    . cases h
  . simp at h
  . split at h
    . simp only [List.mem_singleton, QueueEvent.popped.injEq] at h
      exact h.left
    . cases h
  . cases h

end Pops

namespace Calm

theorem next_ne_free {s : Calm} {cmd : Cmd} {r : Except Err cmd.Resp} (hs : s ≠ .free)
    : s.next cmd r ≠ .free := by
  have hturn := s.turn cmd r
  generalize s.next cmd r = s' at hturn ⊢
  cases hturn with
  | stay => exact hs
  | _ => simp

theorem crash_held (s : Calm) : s.crash.held = s.held := by
  cases s with
  | moving event id seen draft => cases event <;> rfl
  | _ => rfl

theorem crash_through (s : Calm) : s.crash.through = s.through := by
  cases s <;> rfl

end Calm

namespace Watched

variable {D : Deployment} {tasks : Pid → Task} {i : Pid} {c c' : WatchedQueue D}

/--
No step of the process goes wrong: its statements are performed, the event it loads is legible, and
when it locks its payment what was open to the payment as the process has last seen it is still open.
-/
def Undisturbed (i : Pid) (c : WatchedQueue D) (a : ((machine D).observed queueEvents).Act) : Prop :=
  match a with
  | .run j o =>
    j = i → ∀ cmd k, c.pool i = .running (.op cmd k) →
      Performs D cmd o ∧
        (∀ id, cmd = .findEvent id → ∀ event ∈ c.world.1.webhookEvents, event.id = id →
          event.legible = true) ∧
        ∀ id, cmd = .selectForUpdate id → ∀ row ∈ c.world.1.ledger.transactions, row.id = id →
          ∀ seen, lastSeen i c.world.1.history = some seen →
            ∀ toState ∈ VALID_TRANSITIONS seen, toState ∈ VALID_TRANSITIONS row.currentState
  | _ => True

abbrev Followed (D : Deployment) := ((machine D).observed queueEvents).Parties calmProtocol

/--
What holds of the followed worker in a run in which none of its steps goes wrong.
-/
structure Tracked (tasks : Pid → Task) (i : Pid) (c : WatchedQueue D) (d : Followed D) : Prop where
  reachable : c.Reachable tasks
  others : ∀ j, j ≠ i → d.state j = .free
  watched : d.state i ≠ .free
  grounded : (d.state i).Grounded i c.world.1
  marked : (d.state i).Marked c.world.1
  held : ∀ id, .popped i queueName id ∈ c.world.2 ↔ (d.state i).held = some id

/--
An id that has been popped is that of a stored event.
-/
theorem Reachable.record_of_popped (h : c.Reachable tasks) {id : String}
    (hpopped : .popped i queueName id ∈ c.world.2)
    : ∃ record ∈ c.world.1.webhookEvents, record.id = id := by
  rcases h.exists_mailbag with ⟨b, hkept⟩
  have hlog : b.log = c.world.2 := by
    rw [hkept.mailbag]
    rfl
  have hrecords : b.records = c.world.1.webhookEvents := by
    rw [hkept.mailbag]
    rfl
  have hat : b.At id (.hand i) := by
    unfold Mailbag.At
    rw [hlog]
    exact hpopped
  have hknown := hkept.inv.queue.known id (hkept.inv.queue.traced id _ hat)
  rw [hrecords, List.mem_map] at hknown
  exact hknown

namespace Tracked

variable {d d' : Followed D}

-- The worker itself does not move.
theorem frame (h : Tracked tasks i c d) (hreachable : c'.Reachable tasks)
    (hstate : ∀ j, d'.state j = d.state j) (hgrounded : (d.state i).Grounded i c'.world.1)
    (hmarked : (d.state i).Marked c'.world.1)
    (hlog : ∀ id, .popped i queueName id ∈ c'.world.2 ↔ .popped i queueName id ∈ c.world.2)
    : Tracked tasks i c' d' := by
  constructor
  . exact hreachable
  . intro j hj
    rw [hstate]
    exact h.others j hj
  . rw [hstate]
    exact h.watched
  . rw [hstate]
    exact hgrounded
  . rw [hstate]
    exact hmarked
  . intro id
    rw [hstate, hlog]
    exact h.held id

theorem known (h : Tracked tasks i c d) {event : WebhookEvent}
    (hevent : (d.state i).event = some event)
    : ∃ record ∈ c.world.1.webhookEvents, record.id = event.id := by
  apply h.reachable.record_of_popped
  rw [h.held]
  exact Calm.held_of_event hevent

theorem answers (h : Tracked tasks i c d) {j : Pid} {o : Oracle} {cmd : Cmd}
    {k : Except Err cmd.Resp → Program Reply} {r : Except Err cmd.Resp} {w : World}
    (hundisturbed : Undisturbed i c (.run j o)) (hop : c.pool j = .running (.op cmd k))
    (hallowed : (d.state j).allowed cmd) (hexec : exec D j cmd o c.world.1 = some (r, w))
    : (d.state j).answers cmd r := by
  by_cases hj : j = i
  . subst hj
    rcases hundisturbed rfl cmd k hop with ⟨hperforms, hlegible, hopen⟩
    apply h.grounded.answers hallowed (fun _ => hperforms) _ _ (fun _ => hlegible) hexec
    . intro _ id hcmd row hrow hid
      subst hcmd
      rcases hallowed.resolve_left h.watched with ⟨event, seen, hs, _⟩
      have hgrounded := h.grounded
      rw [hs] at hgrounded ⊢
      exact hopen id rfl row hrow hid seen hgrounded.right.left
    . intro _ id hcmd
      subst hcmd
      apply h.reachable.record_of_popped
      rw [h.held, hallowed.resolve_left h.watched]
      rfl
  . exact .inl (h.others j hj)

/--
A step of another process.
-/
theorem other (h : Tracked tasks i c d) {j : Pid} (hj : j ≠ i) {o : Oracle} {cmd : Cmd}
    {r : Except Err cmd.Resp} (hreachable : c'.Reachable tasks)
    (hallowed : (d.state j).allowed cmd)
    (hexec : exec D j cmd o c.world.1 = some (r, c'.world.1))
    (hlog : c'.world.2 = c.world.2 ++ queueEvents j cmd o c.world.1)
    (hstate : d'.state = Function.update d.state j ((d.state j).next cmd r))
    : Tracked tasks i c' d' := by
  have hfree : (d.state j).next cmd r = d.state j := by
    rw [h.others j hj, Calm.next_free]
  rw [hfree, Function.update_eq_self] at hstate
  apply h.frame hreachable
  . intro k
    rw [hstate]
  . exact h.grounded.other hj hexec
  . exact h.marked.after (Calm.allowed_marking hallowed) hexec
  . intro id
    rw [hlog, List.mem_append]
    constructor
    . intro hid
      rcases hid with hid | hid
      . exact hid
      . exact absurd (pid_of_popped hid).symm hj
    . exact .inl

theorem held_own (h : Tracked tasks i c d) {o : Oracle} {cmd : Cmd} {r : Except Err cmd.Resp}
    {w : World} (hallowed : (d.state i).allowed cmd) (hanswers : (d.state i).answers cmd r)
    (hexec : exec D i cmd o c.world.1 = some (r, w)) (id : String)
    : .popped i queueName id ∈ c.world.2 ++ queueEvents i cmd o c.world.1
        ↔
      ((d.state i).next cmd r).held = some id := by
  rw [List.mem_append, h.held]
  by_cases hmock : ∃ queue, cmd = .mock (.brpop queue)
  . rcases hmock with ⟨queue, hcmd⟩
    subst hcmd
    rcases hallowed.resolve_left h.watched with ⟨hs, hqueue⟩
    subst hqueue
    rw [popped_mock hexec, hs]
    rcases r with e | _ | _ | item
    . simp [Calm.next, Calm.held]
    . simp [Calm.next, Calm.held]
    . simp [Calm.next, Calm.held]
    . simp [Calm.next, Calm.popped, Calm.held]
  . by_cases hclient : ∃ queue, cmd = .client (.brpop queue)
    . rcases hclient with ⟨queue, hcmd⟩
      subst hcmd
      rcases hallowed.resolve_left h.watched with ⟨hs, hqueue⟩
      subst hqueue
      rw [popped_client hexec, hs]
      rcases r with e | _ | item
      . simp [Calm.next, Calm.held]
      . simp [Calm.next, Calm.held]
      . simp [Calm.next, Calm.popped, Calm.held]
    . have hmock' : ∀ queue, cmd ≠ .mock (.brpop queue) := by
        intro queue heq
        exact hmock ⟨queue, heq⟩
      have hclient' : ∀ queue, cmd ≠ .client (.brpop queue) := by
        intro queue heq
        exact hclient ⟨queue, heq⟩
      have hnot : .popped i queueName id ∉ queueEvents i cmd o c.world.1 := by
        apply not_popped hmock' hclient'
        intro queue heq
        subst heq
        exact absurd (hallowed.resolve_left h.watched) (fun h => h)
      rw [Calm.next_held hallowed hanswers hmock' hclient']
      simp [hnot]

/--
A step of the worker itself.
-/
theorem own (h : Tracked tasks i c d) {o : Oracle} {cmd : Cmd}
    {k : Except Err cmd.Resp → Program Reply} {r : Except Err cmd.Resp}
    (hreachable : c'.Reachable tasks) (hundisturbed : Undisturbed i c (.run i o))
    (hop : c.pool i = .running (.op cmd k)) (hallowed : (d.state i).allowed cmd)
    (hexec : exec D i cmd o c.world.1 = some (r, c'.world.1))
    (hlog : c'.world.2 = c.world.2 ++ queueEvents i cmd o c.world.1)
    (hstate : d'.state = Function.update d.state i ((d.state i).next cmd r))
    : Tracked tasks i c' d' := by
  have hanswers := h.answers hundisturbed hop hallowed hexec
  have hself : d'.state i = (d.state i).next cmd r := by
    rw [hstate, Function.update_self]
  constructor
  . exact hreachable
  . intro j hj
    rw [hstate, Function.update_of_ne hj]
    exact h.others j hj
  . rw [hself]
    exact Calm.next_ne_free h.watched
  . rw [hself]
    exact h.grounded.own h.watched hallowed hanswers hexec
  . rw [hself]
    apply h.marked.own h.watched hallowed (hundisturbed rfl cmd k hop).left _ hexec
    intro event hevent
    exact h.known hevent
  . intro id
    rw [hself, hlog]
    exact h.held_own hallowed hanswers hexec id

theorem crash (h : Tracked tasks i c d) {inst : Nat} (hreachable : c'.Reachable tasks)
    (hworld : c'.world = (crashInst inst c.world.1, c.world.2))
    (hstate : ∀ j, d'.state j = if j.inst = inst then (d.state j).crash else d.state j)
    : Tracked tasks i c' d' := by
  constructor
  . exact hreachable
  . intro j hj
    rw [hstate, h.others j hj]
    split <;> rfl
  . rw [hstate]
    split
    . cases hs : d.state i with
      | free => exact absurd hs h.watched
      | _ => simp [Calm.crash]
    . exact h.watched
  . rw [hstate, hworld]
    exact h.grounded.crash inst
  . intro id hid
    have hid' : (d.state i).through = some id := by
      rw [hstate] at hid
      split at hid
      . rw [Calm.crash_through] at hid
        exact hid
      . exact hid
    rw [hworld]
    exact h.marked id hid'
  . intro id
    rw [hworld, h.held, hstate]
    split
    . rw [Calm.crash_held]
    . rfl

end Tracked

variable (D tasks i) in
theorem followed_conformsBy
    : Machine.ConformsBy (M := (machine D).observed queueEvents) (P := calmProtocol)
        (fun j => (tasks j).program D) (Task.followed tasks i) (Task.follows tasks i)
        (Undisturbed i) (Tracked tasks i) := by
  refine ⟨Task.followed_program tasks i, Task.followed_crash tasks i, Task.follows_crash tasks i,
    ?_, ?_⟩
  . intro c d j o cmd k r w _ h hundisturbed hop hallowed hexec
    rw [Machine.observed_exec] at hexec
    exact h.answers hundisturbed hop hallowed hexec.left
  . intro a c c' d d' hsim h hundisturbed hmoves _
    have hreachable := h.reachable.tail hmoves.act
    cases hmoves with
    | run j o cmd k r w hop hallowed hexec =>
      rw [Machine.observed_exec] at hexec
      by_cases hj : j = i
      . subst hj
        exact h.own hreachable hundisturbed hop hallowed hexec.left hexec.right rfl
      . exact h.other hj hreachable hallowed hexec.left hexec.right rfl
    | env e w henv =>
      rw [Machine.observed_env] at henv
      apply h.frame hreachable
      . exact fun _ => rfl
      . exact h.grounded.env henv.left
      . rcases henv with ⟨henv, _⟩
        intro id hid
        rw [(env_tables henv).webhookEvents]
        exact h.marked id hid
      . intro id
        rw [henv.right]
    | crash inst => exact h.crash hreachable rfl (fun _ => rfl)
    | _ =>
      apply h.frame hreachable
      . exact fun _ => rfl
      . exact h.grounded
      . exact h.marked
      . exact fun _ => Iff.rfl

theorem Start.tracked (h : c.Start) (hworker : tasks i = .pollQueue) {d : Followed D}
    (hstate : d.state = Task.followed tasks i) : Tracked tasks i c d := by
  have hself : d.state i = .polling := by
    rw [hstate, Task.followed, if_pos rfl, hworker]
    rfl
  constructor
  . exact ⟨c, h, .refl⟩
  . intro j hj
    rw [hstate]
    exact if_neg hj
  . rw [hself]
    simp
  . rw [hself]
    trivial
  . rw [hself]
    intro id hid
    cases hid
  . intro id
    rw [hself, h.log]
    simp [Calm.held]

def Processed (c : WatchedQueue D) (id : String) : Prop :=
  ∃ record ∈ c.world.1.webhookEvents, record.id = id ∧ record.processed = true

/--
The id is on the queue, that of the Redis server or that of an instance.
-/
def Waiting (c : WatchedQueue D) (id : String) : Prop :=
  id ∈ c.world.1.redis.lists queueName ∨
    ∃ inst, (c.world.1.mem inst).mockStore queueName = some (.raw id)

/--
If none of its steps goes wrong a worker that is through with an id leaves the event marked as
processed.
-/
theorem popped_not_lost (h : c.ReachableBy tasks (Undisturbed i)) (hworker : tasks i = .pollQueue)
    {id : String} (hpopped : .popped i queueName id ∈ c.world.2) {r : Except Err Reply}
    (hresult : (c.pool i).result = some r) : c.Processed id ∨ c.Waiting id := by
  rcases h with ⟨c₀, hstart, hrun⟩
  have hsim : Machine.Simulates (P := calmProtocol) (Task.followed tasks i) (Task.follows tasks i)
      c₀ { world := c₀.world, state := Task.followed tasks i } := by
    refine ⟨rfl, fun j => ?_⟩
    rw [show c₀.pool j = .idle from hstart.system.idle j]
    rfl
  rcases hsim.runBy (followed_conformsBy D tasks i) (hstart.tracked hworker rfl) hrun with
    ⟨d, hsim', htracked⟩
  have hcalmly := hsim'.result hresult rfl
  have hheld := (htracked.held id).mp hpopped
  rw [hworker] at hcalmly
  left
  apply htracked.marked
  rcases hcalmly with hs | ⟨event, hs, hprocessed⟩ | ⟨id', hs⟩
  . rw [hs] at hheld
    cases hheld
  . rw [hs] at hheld ⊢
    injection hheld with hheld
    rw [Calm.through, if_pos hprocessed, hheld]
  . rw [hs] at hheld ⊢
    exact hheld

/--
Nobody puts an id that has been popped on the queue again.
-/
theorem Reachable.not_waiting_of_popped (h : c.Reachable tasks) {id : String}
    (hpopped : .popped i queueName id ∈ c.world.2) : ¬c.Waiting id := by
  rcases h.exists_mailbag with ⟨b, hkept⟩
  have hhand : b.At id (.hand i) := by
    rw [hkept.mailbag]
    exact hpopped
  intro hwaiting
  rcases hwaiting with hserver | ⟨inst, hmemory⟩
  . have hat : b.At id .server := by
      rw [hkept.mailbag]
      exact hserver
    cases hkept.inv.queue.single id _ _ hhand hat
  . have hat : b.At id (.memory inst) := by
      rw [hkept.mailbag]
      exact hmemory
    cases hkept.inv.queue.single id _ _ hhand hat

end Watched

namespace Scenario

-- A webhook that names the payment by the key of its client.
def capturedKey : IncomingWebhook :=
  webhook "payment.captured" [("upi_txn_id", .str "upi-1"), ("idempotencyKey", .str "order-7")]

def undisturbed (i : Pid) (c : WatchedQueue deployment) (a : WatchedAct queueEvents) : Bool :=
  match a with
  | .run j o =>
    j ≠ i ||
      match c.pool i with
      | .running (.op cmd _) =>
        decide (Performs deployment cmd o) &&
          match cmd with
          | .findEvent id =>
            c.world.1.webhookEvents.all fun event => event.id ≠ id || event.legible
          | .selectForUpdate id =>
            c.world.1.ledger.transactions.all fun row =>
              row.id ≠ id ||
                match lastSeen i c.world.1.history with
                | some seen =>
                  (VALID_TRANSITIONS seen).all (· ∈ VALID_TRANSITIONS row.currentState)
                | none => true
          | _ => true
      | _ => true
  | _ => true

theorem undisturbed_of_undisturbed {i : Pid} {c : WatchedQueue deployment}
    {a : WatchedAct queueEvents} (h : undisturbed i c a = true) : Watched.Undisturbed i c a := by
  cases a with
  | run j o =>
    intro hj cmd k hop
    simp only [undisturbed, hj, ne_eq, not_true_eq_false, decide_false, Bool.false_or, hop,
      Bool.and_eq_true, decide_eq_true_eq] at h
    refine ⟨h.left, ?_, ?_⟩
    . intro id hcmd event hevent hid
      subst hcmd
      have hevent' := List.all_eq_true.mp h.right event hevent
      simpa [hid] using hevent'
    . intro id hcmd row hrow hid seen hseen toState hto
      subst hcmd
      have hrow' := h.right
      rw [List.all_eq_true] at hrow'
      have hrow' := hrow' row hrow
      simp only [hid, not_true_eq_false, decide_false, Bool.false_or, hseen,
        List.all_eq_true, decide_eq_true_eq] at hrow'
      exact hrow' toState hto
  | _ => trivial

def unprocessed (c : WatchedQueue deployment) : Bool :=
  c.world.1.webhookEvents.all (fun record => !record.processed)

def hasPopped (i : Pid) (id : String) (c : WatchedQueue deployment) : Bool :=
  c.world.2.any (· = .popped i queueName id)

theorem popped_of_hasPopped {i : Pid} {id : String} {c : WatchedQueue deployment}
    (h : hasPopped i id c = true) : .popped i queueName id ∈ c.world.2 := by
  rcases List.any_eq_true.mp h with ⟨event, hevent, heq⟩
  rw [decide_eq_true_eq] at heq
  rw [← heq]
  exact hevent

def rejected (i : Pid) (c : WatchedQueue deployment) : Bool :=
  match (c.pool i).result with
  | some (.error _) => true
  | _ => false

end Scenario

namespace Watched

open Scenario

/--
A worker takes the webhook of a captured payment from the queue and reconciles it.
-/
theorem popped_not_lost_reconciled
    : ∃ c : WatchedQueue deployment, commits ⟨0, 2⟩ .RECONCILED c.world.1 = true ∧
        (c.Processed "record-1" ∨ c.Waiting "record-1") := by
  let acts : List Act := upToCharge ⟨0, 0⟩ "txn-1" ++
    settle 0 (.answered (accepted "upi-1")) :: steps ⟨0, 0⟩ 12 ++ deliver ++
    .spawn ⟨0, 2⟩ :: steps ⟨0, 2⟩ 12
  let p (c : WatchedQueue deployment) : Bool :=
    commits ⟨0, 2⟩ .RECONCILED c.world.1 &&
      (hasPopped ⟨0, 2⟩ "record-1" c && (c.pool ⟨0, 2⟩).result.isSome)
  have hrun : (watchedOutcome (undisturbed ⟨0, 2⟩) (Scenario.tasks capturedKey)
      (watched acts)).any p = true := by
    decide +kernel
  rcases exists_watched (fun c a => undisturbed_of_undisturbed) hrun with ⟨c, hc, hp⟩
  simp only [p, Bool.and_eq_true] at hp
  rcases hp with ⟨hcommits, hpopped, hresult⟩
  rcases Option.isSome_iff_exists.mp hresult with ⟨r, hr⟩
  exact ⟨c, hcommits, popped_not_lost hc rfl (popped_of_hasPopped hpopped) hr⟩

/--
Nothing fails. `create` settles the payment between the worker's look at it and the worker's first
transition, which is rejected. The event is not marked, and nobody has its id any more.
-/
theorem popped_lost
    : ∃ c : WatchedQueue deployment, c.Reachable (Scenario.tasks capturedKey) ∧
        .popped ⟨0, 2⟩ queueName "record-1" ∈ c.world.2 ∧
        (∃ e, (c.pool ⟨0, 2⟩).result = some (.error e)) ∧
        ¬(c.Processed "record-1" ∨ c.Waiting "record-1") := by
  let acts : List Act := upToCharge ⟨0, 0⟩ "txn-1" ++ deliver ++
    .spawn ⟨0, 2⟩ :: steps ⟨0, 2⟩ 4 ++
    settle 0 (.answered (accepted "upi-1")) :: steps ⟨0, 0⟩ 8 ++ steps ⟨0, 2⟩ 3
  let p (c : WatchedQueue deployment) : Bool :=
    hasPopped ⟨0, 2⟩ "record-1" c && (Scenario.rejected ⟨0, 2⟩ c && unprocessed c)
  have hrun : (watchedOutcome (fun _ _ => true) (Scenario.tasks capturedKey)
      (watched acts)).any p = true := by
    decide +kernel
  rcases exists_watched (P := fun _ _ => True) (fun _ _ _ => trivial) hrun with ⟨c, hc, hp⟩
  simp only [p, Bool.and_eq_true] at hp
  rcases hp with ⟨hpopped, hrejected, hunprocessed⟩
  have hmem := popped_of_hasPopped hpopped
  refine ⟨c, hc.reachable, hmem, ?_, ?_⟩
  . unfold Scenario.rejected at hrejected
    split at hrejected
    . next e he => exact ⟨e, he⟩
    . cases hrejected
  . rintro (⟨record, hrecord, _, hprocessed⟩ | hwaiting)
    . have hnot := List.all_eq_true.mp hunprocessed record hrecord
      rw [hprocessed] at hnot
      cases hnot
    . exact hc.reachable.not_waiting_of_popped hmem hwaiting

end Watched

end PaymentOrchestration
