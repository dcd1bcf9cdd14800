import PaymentOrchestration.Redis.InMemory
import PaymentOrchestration.Webhooks.WebhooksService

/-!
This module is about the queue of webhook events in the in-memory store. The store has one place for
a key, so it is a queue only as long as no more than one id waits.
-/

namespace PaymentOrchestration

/-!
A first-in first-out queue.
-/

inductive QueueCall (ι : Type) where
  | push (id : ι)
  | pop

namespace QueueCall

variable {ι : Type}

-- The answer to a call and the queue after it, the front first.
def serve (call : QueueCall ι) (queue : List ι) : Option ι × List ι :=
  match call with
  | .push id => (none, queue ++ [id])
  | .pop => (queue.head?, queue.tail)

def serveAll (calls : List (QueueCall ι)) (queue : List ι) : List (Option ι) × List ι :=
  match calls with
  | [] => ([], queue)
  | call :: calls =>
    let r := serve call queue
    let rest := serveAll calls r.2
    (r.1 :: rest.1, rest.2)

def pushed (calls : List (QueueCall ι)) : List ι :=
  calls.filterMap fun call =>
    match call with
    | .push id => some id
    | .pop => none

/--
What has been popped and what still waits is what was there at first and what has been pushed, in
this order.
-/
theorem serveAll_conserves (calls : List (QueueCall ι)) (queue : List ι)
    : queue ++ pushed calls =
        (serveAll calls queue).1.filterMap (fun id => id) ++ (serveAll calls queue).2 := by
  induction calls generalizing queue with
  | nil => simp [pushed, serveAll]
  | cons call calls ih =>
    cases call with
    | push id =>
      have := ih (queue ++ [id])
      simpa [pushed, serveAll, serve] using this
    | pop =>
      cases queue with
      | nil => simpa [pushed, serveAll, serve] using ih []
      | cons id queue =>
        have := ih queue
        simp only [pushed, serveAll, serve, List.head?_cons, List.tail_cons] at this ⊢
        simpa using this

end QueueCall

namespace RedisService

open ReconciliationWorker (queueName)

variable {D : Deployment} {i : Pid} {w w' : World}

def queueProgram (call : QueueCall String) : Program (Option String) :=
  match call with
  | .push id => do
    WebhooksService.pushEvent id
    return none
  | .pop => RedisService.brpop queueName

def Queues (D : Deployment) (i : Pid) (call : QueueCall String) (w : World) (r : Option String)
    (w' : World) : Prop :=
  (machine D).Completes i Healthy (queueProgram call) w (.ok r) w'

-- The ids in the in-memory store of an instance.
def waiting (inst : Nat) (w : World) : List String :=
  match (w.mem inst).mockStore queueName with
  | some (.raw id) => [id]
  | _ => []

theorem alone_push (id : String) (hmem : (w.mem i.inst).isMockMode = true)
    : Alone D i (queueProgram (.push id))
        (fun r w' => r = none ∧ (w'.mem i.inst).isMockMode = true ∧ waiting i.inst w' = [id]) w := by
  apply Setting.Assures.bind
    (Φ := fun _ w' => (w'.mem i.inst).isMockMode = true ∧ waiting i.inst w' = [id])
  . apply Setting.Assures.bind
      (Φ := fun _ w' => (w'.mem i.inst).isMockMode = true ∧ waiting i.inst w' = [id])
    . apply @alone_mocked _ _ _ _ (.lpush queueName id) _ _ hmem
      simp [Alone, Setting.Assures, World.setStore, waiting, MockOp.run]
    . exact fun _ _ h => h
  . intro _ w' hw'
    exact ⟨rfl, hw'⟩

theorem alone_pop (hmem : (w.mem i.inst).isMockMode = true)
    : Alone D i (queueProgram .pop)
        (fun r w' => (w'.mem i.inst).isMockMode = true ∧
          (r = none ∧ waiting i.inst w' = waiting i.inst w ∧
              (waiting i.inst w = [] ∨ waiting i.inst w = [""]) ∨
            ∃ id, id ≠ "" ∧ r = some id ∧ waiting i.inst w = [id] ∧ waiting i.inst w' = [])) w := by
  apply @alone_mocked _ _ _ _ (.brpop queueName) _ _ hmem
  refine ⟨by simp [World.setStore], ?_⟩
  simp only [MockOp.run, waiting, World.setStore, Function.update_self]
  cases hitem : (w.mem i.inst).mockStore queueName with
  | none =>
    left
    simp [hitem]
  | some value =>
    cases value with
    | raw id =>
      by_cases hid : id = ""
      . left
        simp [hid, hitem]
      . right
        exact ⟨id, by simp [hid]⟩
    | _ =>
      left
      simp [hitem]

theorem Queues.push {id : String} {r : Option String} (h : Queues D i (.push id) w r w')
    (hmem : (w.mem i.inst).isMockMode = true)
    : r = none ∧ (w'.mem i.inst).isMockMode = true ∧ waiting i.inst w' = [id] := by
  rcases Machine.Completes.result h (alone_push id hmem) with ⟨r', hr, hw'⟩
  injection hr with hr
  rw [hr]
  exact hw'

theorem Queues.pop {r : Option String} (h : Queues D i .pop w r w')
    (hmem : (w.mem i.inst).isMockMode = true)
    : (w'.mem i.inst).isMockMode = true ∧
        (r = none ∧ waiting i.inst w' = waiting i.inst w ∧
            (waiting i.inst w = [] ∨ waiting i.inst w = [""]) ∨
          ∃ id, id ≠ "" ∧ r = some id ∧ waiting i.inst w = [id] ∧ waiting i.inst w' = []) := by
  rcases Machine.Completes.result h (alone_pop hmem) with ⟨r', hr, hw'⟩
  injection hr with hr
  rw [hr]
  exact hw'

theorem exists_queues (call : QueueCall String) (hmem : (w.mem i.inst).isMockMode = true)
    : ∃ r w', Queues D i call w r w' ∧ (w'.mem i.inst).isMockMode = true := by
  cases call with
  | push id =>
    rcases Machine.exists_completes (alone_push (D := D) id hmem) with ⟨r, w', h, _, hw', _⟩
    exact ⟨r, w', h, hw'⟩
  | pop =>
    rcases Machine.exists_completes (alone_pop (D := D) hmem) with ⟨r, w', h, hw', _⟩
    exact ⟨r, w', h, hw'⟩

/--
A push finds no other id waiting, and no pop meets the empty text.
-/
def spaced (call : QueueCall String) (queue : List String) : Prop :=
  match call with
  | .push _ => queue = []
  | .pop => queue.head? ≠ some ""

def nextQueue (call : QueueCall String) (queue : List String) : List String :=
  (call.serve queue).2

variable {calls : List (QueueCall String)} {answers : List (Option String)} {queue : List String}

/--
An id that is lost once stays lost: the store never catches up with the queue.
-/
theorem waiting_lt (h : Serially (Queues D i) w calls answers w')
    (hmem : (w.mem i.inst).isMockMode = true) (hlt : (waiting i.inst w).length < queue.length)
    (hanswers : answers = (QueueCall.serveAll calls queue).1)
    : (waiting i.inst w').length < (QueueCall.serveAll calls queue).2.length := by
  induction h generalizing queue with
  | nil w => exact hlt
  | cons hcall _ ih =>
    rename_i call _ calls _ _
    simp only [QueueCall.serveAll, List.cons.injEq] at hanswers ⊢
    rcases hanswers with ⟨hanswer, hanswers⟩
    cases call with
    | push id =>
      rcases hcall.push hmem with ⟨_, hmem', hwaiting⟩
      apply ih hmem' _ hanswers
      simp only [hwaiting, QueueCall.serve, List.length_append, List.length_singleton]
      omega
    | pop =>
      rcases hcall.pop hmem with ⟨hmem', ⟨hr, _, _⟩ | ⟨id, _, hr, hone, hnone⟩⟩
      . -- The queue has an id to answer with.
        rw [hr] at hanswer
        cases queue with
        | nil => simp at hlt
        | cons id queue => simp [QueueCall.serve] at hanswer
      . apply ih hmem' _ hanswers
        rw [hone] at hlt
        simp only [hnone, QueueCall.serve, List.length_nil, List.length_tail]
        simp only [List.length_singleton] at hlt
        omega

theorem queues_iff (h : Serially (Queues D i) w calls answers w')
    (hmem : (w.mem i.inst).isMockMode = true)
    : (answers = (QueueCall.serveAll calls (waiting i.inst w)).1 ∧
          waiting i.inst w' = (QueueCall.serveAll calls (waiting i.inst w)).2) ↔
        Throughout spaced nextQueue (waiting i.inst w) calls := by
  induction h with
  | nil w => exact ⟨fun _ => trivial, fun _ => ⟨rfl, rfl⟩⟩
  | cons hcall hcalls ih =>
    rename_i w w₁ w' call answer calls answers
    simp only [QueueCall.serveAll, List.cons.injEq, Throughout]
    cases call with
    | push id =>
      rcases hcall.push hmem with ⟨hr, hmem', hwaiting⟩
      cases hqueue : waiting i.inst w with
      | nil =>
        have hrest := ih hmem'
        rw [hwaiting] at hrest
        simp only [QueueCall.serve, spaced, nextQueue, List.nil_append, hr, true_and]
        exact hrest
      | cons old queue =>
        constructor
        . rintro ⟨⟨_, hanswers⟩, hleft⟩
          have hlt : (waiting i.inst w₁).length <
              ((QueueCall.push id).serve (old :: queue)).2.length := by
            simp [hwaiting, QueueCall.serve]
          have := waiting_lt hcalls hmem' hlt hanswers
          rw [hleft] at this
          exact absurd this (lt_irrefl _)
        . rintro ⟨hspaced, _⟩
          cases hspaced
    | pop =>
      rcases hcall.pop hmem with ⟨hmem', ⟨hr, hsame, hempty⟩ | ⟨id, hid, hr, hone, hnone⟩⟩
      . rcases hempty with hempty | hempty
        . have hrest := ih hmem'
          rw [hsame, hempty] at hrest
          rw [hempty]
          simp only [QueueCall.serve, spaced, nextQueue, List.head?_nil, List.tail_nil, hr,
            true_and]
          simpa using hrest
        . rw [hempty]
          simp [QueueCall.serve, spaced, hr]
      . have hrest := ih hmem'
        rw [hnone] at hrest
        rw [hone]
        simp only [QueueCall.serve, spaced, nextQueue, List.head?_cons, List.tail_cons, hr,
          true_and]
        simpa [hid] using hrest

-- An instance in its in-memory mode, with nothing stored.
def emptyStore (i : Pid) : World :=
  World.setStore i.inst (fun _ => none) (World.start [])

theorem emptyStore_mem (i : Pid) : ((emptyStore i).mem i.inst).isMockMode = true := by
  simp [emptyStore, World.setStore]

theorem waiting_emptyStore (i : Pid) : waiting i.inst (emptyStore i) = [] := by
  simp [emptyStore, World.setStore, waiting]

/--
The ids that were popped and those that still wait are the ids that were pushed, in their order, and
a pop answers with the id that has waited longest.
-/
def IsQueue (D : Deployment) (i : Pid) (calls : List (QueueCall String)) : Prop :=
  ∀ answers w, Serially (Queues D i) (emptyStore i) calls answers w →
    QueueCall.pushed calls = answers.filterMap (fun id => id) ++ waiting i.inst w ∧
      answers = (QueueCall.serveAll calls []).1

theorem isQueue_iff_serveAll (h : Serially (Queues D i) (emptyStore i) calls answers w)
    : (QueueCall.pushed calls = answers.filterMap (fun id => id) ++ waiting i.inst w ∧
          answers = (QueueCall.serveAll calls []).1) ↔
        Throughout spaced nextQueue [] calls := by
  have hiff := queues_iff h (emptyStore_mem i)
  rw [waiting_emptyStore] at hiff
  rw [← hiff]
  have hconserves := QueueCall.serveAll_conserves calls []
  rw [List.nil_append] at hconserves
  constructor
  . rintro ⟨hpushed, hanswers⟩
    refine ⟨hanswers, ?_⟩
    rw [hconserves, ← hanswers] at hpushed
    exact (List.append_cancel_left hpushed).symm
  . rintro ⟨hanswers, hleft⟩
    refine ⟨?_, hanswers⟩
    rw [hconserves, hanswers, hleft]

theorem exists_answers (D : Deployment) (i : Pid) (calls : List (QueueCall String))
    : ∃ answers w, Serially (Queues D i) (emptyStore i) calls answers w := by
  exact exists_serially (P := fun w => (w.mem i.inst).isMockMode = true)
    (fun call w hmem => exists_queues call hmem) (emptyStore_mem i) calls

/--
The in-memory store is a queue exactly as long as every push finds it empty.
-/
theorem memory_is_queue_iff (D : Deployment) (i : Pid) (calls : List (QueueCall String))
    : IsQueue D i calls ↔ Throughout spaced nextQueue [] calls := by
  constructor
  . intro hqueue
    rcases exists_answers D i calls with ⟨answers, w, h⟩
    exact (isQueue_iff_serveAll h).mp (hqueue answers w h)
  . intro hspaced answers w h
    exact (isQueue_iff_serveAll h).mpr hspaced

-- Two events arrive before the worker looks at the queue.
theorem memory_loses_id : ¬IsQueue Scenario.deployment ⟨0, 0⟩ [.push "event-1", .push "event-2"] := by
  intro hqueue
  rcases exists_answers Scenario.deployment ⟨0, 0⟩ [.push "event-1", .push "event-2"] with
    ⟨answers, w, h⟩
  have hspaced := (isQueue_iff_serveAll h).mp (hqueue answers w h)
  have hsecond : ["event-1"] = [] := hspaced.right.left
  cases hsecond

end RedisService

end PaymentOrchestration
