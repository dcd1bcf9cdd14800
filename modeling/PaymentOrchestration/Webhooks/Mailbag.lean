import PaymentOrchestration.Webhooks.Custody

/-!
This module contains the mailbag: the stored webhook events, the queue of their ids on the Redis
server and in the memory of the instances, and what the processes have in their hands. It is an
abstract model of the way of the events in which every event is in one place only.
-/

namespace PaymentOrchestration

open ReconciliationWorker

-- The events of the history that are about lookups.
def Event.isLookup (event : Event) : Bool :=
  match event with
  | .loaded _ _ => true
  | .read _ _ _ => true
  | _ => false

structure Mailbag where
  records : List WebhookEvent
  server : List String
  -- what an instance has under the name of the queue
  memory : Nat → Option Stored
  log : List QueueEvent
  lookups : List Event
  hand : Pid → Hand

namespace Mailbag

def setHand (b : Mailbag) (i : Pid) (hand : Hand) : Mailbag :=
  { b with hand := Function.update b.hand i hand }

-- The row is saved with its flag set.
def mark (event : WebhookEvent) (now : Nat) (records : List WebhookEvent) : List WebhookEvent :=
  records.map fun old =>
    if old.id = event.id then { event with processed := true, processedAt := some now } else old

inductive Step : Mailbag → Mailbag → Prop where
  -- An instance goes down with its memory.
  | forget (b : Mailbag) (memory : Nat → Option Stored)
      (hmemory : ∀ n, memory n = b.memory n ∨ memory n = none)
    : Step b { b with memory := memory }
  | insert (b : Mailbag) (i : Pid) (event : IncomingWebhook) (record : WebhookEvent)
      (hhand : b.hand i = .delivering event) (hrecord : record = event.row record.id)
      (hid : record.id ∉ b.records.map (·.id))
      (hpair : (event.gateway, event.eventId) ∉ b.records.map (fun e => (e.gateway, e.eventId)))
      (hand : Hand) (hhand' : hand = .stored record ∨ hand = .delivering event)
    : Step b { b.setHand i hand with records := b.records ++ [record] }
  | repel (b : Mailbag) (i : Pid) (event : IncomingWebhook) (hhand : b.hand i = .delivering event)
      (hpair : (event.gateway, event.eventId) ∈ b.records.map (fun e => (e.gateway, e.eventId)))
    : Step b (b.setHand i (.repeated event))
  | pushServer (b : Mailbag) (i : Pid) (record : WebhookEvent) (hhand : b.hand i = .stored record)
    : Step b
        { b.setHand i (.pushed record) with
          server := record.id :: b.server
          log := b.log ++ [.pushed i queueName record.id] }
  | pushMemory (b : Mailbag) (i : Pid) (record : WebhookEvent) (hhand : b.hand i = .stored record)
    : Step b
        { b.setHand i (.pushed record) with
          memory := Function.update b.memory i.inst (some (.raw record.id))
          log := b.log ++ [.pushed i queueName record.id] }
  | pushLost (b : Mailbag) (i : Pid) (record : WebhookEvent) (hhand : b.hand i = .stored record)
    : Step b (b.setHand i (.pushed record))
  | popServer (b : Mailbag) (i : Pid) (id : String) (hhand : b.hand i = .polling)
      (hlast : b.server.getLast? = some id)
    : Step b
        { b.setHand i (.holding id) with
          server := b.server.dropLast
          log := b.log ++ [.popped i queueName id] }
  | popLost (b : Mailbag)
    : Step b { b with server := b.server.dropLast }
  | popMemory (b : Mailbag) (i : Pid) (id : String) (hhand : b.hand i = .polling)
      (hmemory : b.memory i.inst = some (.raw id))
    : Step b
        { b.setHand i (.holding id) with
          memory := Function.update b.memory i.inst none
          log := b.log ++ [.popped i queueName id] }
  | load (b : Mailbag) (i : Pid) (event : WebhookEvent) (hhand : b.hand i = .holding event.id)
      (hevent : event ∈ b.records)
    : Step b
        { b.setHand i (.loaded event) with lookups := b.lookups ++ [.loaded i event] }
  | find (b : Mailbag) (i : Pid) (conditions : List TxnWhere) (row : Option Transaction)
      (hhand : b.hand i = .creating ∨ row = none ∧ ∃ event, b.hand i = .loaded event)
    : Step b { b with lookups := b.lookups ++ [.read i conditions row] }
  | drive (b : Mailbag) (i : Pid) (conditions : List TxnWhere) (row : Transaction)
      (event : WebhookEvent) (hhand : b.hand i = .loaded event)
    : Step b
        { b.setHand i (.driving event) with
          lookups := b.lookups ++ [.read i conditions (some row)] }
  | mark (b : Mailbag) (i : Pid) (event : WebhookEvent) (now : Nat)
      (hhand : (b.hand i).event = some event)
    : Step b { b with records := mark event now b.records }

abbrev Run : Mailbag → Mailbag → Prop :=
  Relation.ReflTransGen Step

/--
The mailbag of a service that has not started to work yet.
-/
structure Start (tasks : Pid → Task) (b : Mailbag) : Prop where
  records : b.records = []
  server : b.server = []
  memory : ∀ n, b.memory n = none
  log : b.log = []
  lookups : b.lookups = []
  hand : ∀ i, b.hand i = (tasks i).hand

/--
The places an id on its way through the queue can be in.
-/
inductive Place where
  | server
  | memory (inst : Nat)
  | hand (i : Pid)

def At (b : Mailbag) (id : String) (place : Place) : Prop :=
  match place with
  | .server => id ∈ b.server
  | .memory inst => b.memory inst = some (.raw id)
  | .hand i => .popped i queueName id ∈ b.log

def Pushed (b : Mailbag) (id : String) : Prop :=
  ∃ i, .pushed i queueName id ∈ b.log

def isPush (id : String) (event : QueueEvent) : Bool :=
  match event with
  | .pushed _ queue item => queue = queueName ∧ item = id
  | .popped _ _ _ => false

def isDrive (i : Pid) (event : Event) : Bool :=
  match event with
  | .read j _ (some _) => j = i
  | _ => false

/--
The table of events: what a process has inserted or loaded is in it.
-/
structure Table (b : Mailbag) : Prop where
  ids : (b.records.map (·.id)).Nodup
  pairs : (b.records.map (fun e => (e.gateway, e.eventId))).Nodup
  written : ∀ i record, (b.hand i).written = some record →
    ∃ e ∈ b.records, e.id = record.id ∧ e.gateway = record.gateway ∧ e.eventId = record.eventId
  event : ∀ i record, (b.hand i).event = some record →
    ∃ e ∈ b.records, e.id = record.id ∧ e.gateway = record.gateway ∧ e.eventId = record.eventId
  writer : ∀ i j record record', (b.hand i).written = some record →
    (b.hand j).written = some record' → record.id = record'.id → i = j

/--
The way through the queue: an id is pushed once, by the process that has inserted the row, and is in
one place from then on.
-/
structure Queue (b : Mailbag) : Prop where
  known : ∀ id, b.Pushed id → id ∈ b.records.map (·.id)
  fresh : ∀ i record, b.hand i = .stored record → ¬b.Pushed record.id
  once : ∀ id, (b.log.filter (isPush id)).length ≤ 1
  traced : ∀ id place, b.At id place → b.Pushed id
  single : ∀ id place place', b.At id place → b.At id place' → place = place'
  queued : b.server.Nodup

/--
What a process does with an event is up to the process that has popped its id.
-/
structure Desk (tasks : Pid → Task) (b : Mailbag) : Prop where
  held : ∀ i id, (b.hand i).held = some id → .popped i queueName id ∈ b.log
  load : ∀ i event, .loaded i event ∈ b.lookups → (b.hand i).event = some event
  drives : ∀ i, (∀ dto, tasks i ≠ .create dto) → (b.lookups.filter (isDrive i)).length ≤ 1
  idle : ∀ i, (∀ dto, tasks i ≠ .create dto) → (∀ event, b.hand i ≠ .driving event) →
    b.lookups.filter (isDrive i) = []
  creating : ∀ i, b.hand i = .creating ↔ ∃ dto, tasks i = .create dto

structure Inv (tasks : Pid → Task) (b : Mailbag) : Prop where
  table : b.Table
  queue : b.Queue
  desk : b.Desk tasks

variable {tasks : Pid → Task} {b b' : Mailbag}

@[simp]
theorem setHand_self {i : Pid} {hand : Hand} : (b.setHand i hand).hand i = hand := by
  simp [setHand]

theorem setHand_of_ne {i j : Pid} {hand : Hand} (h : j ≠ i)
    : (b.setHand i hand).hand j = b.hand j := by
  simp [setHand, h]

-- What a property of hands says about all of them if it says the same about the one that changes.
theorem setHand_proj {β : Type} (f : Hand → β) {i : Pid} {hand : Hand}
    (h : f hand = f (b.hand i)) (j : Pid) : f ((b.setHand i hand).hand j) = f (b.hand j) := by
  by_cases hj : j = i
  . subst hj
    rw [setHand_self, h]
  . rw [setHand_of_ne hj]

theorem Start.inv (h : b.Start tasks) : b.Inv tasks := by
  have hwritten : ∀ i, (b.hand i).written = none := by
    intro i
    rw [h.hand]
    cases tasks i <;> rfl
  have hevent : ∀ i, (b.hand i).event = none := by
    intro i
    rw [h.hand]
    cases tasks i <;> rfl
  have hheld : ∀ i, (b.hand i).held = none := by
    intro i
    rw [h.hand]
    cases tasks i <;> rfl
  constructor
  . constructor
    . simp [h.records]
    . simp [h.records]
    . simp [hwritten]
    . simp [hevent]
    . simp [hwritten]
  . constructor
    . simp [Pushed, h.log]
    . simp [Pushed, h.log]
    . simp [h.log]
    . intro id place hat
      cases place <;> simp [At, h.server, h.memory, h.log] at hat
    . intro id place place' hat
      cases place <;> simp [At, h.server, h.memory, h.log] at hat
    . simp [h.server]
  . constructor
    . simp [hheld]
    . simp [h.lookups]
    . simp [h.lookups]
    . simp [h.lookups]
    . intro i
      rw [h.hand]
      cases tasks i <;> simp [Task.hand]

namespace Table

-- A step that leaves the table and the events in the hands alone.
theorem frame (h : b.Table) (hrecords : b'.records = b.records)
    (hwritten : ∀ i, (b'.hand i).written = (b.hand i).written)
    (hevent : ∀ i record, (b'.hand i).event = some record →
      (b.hand i).event = some record ∨ record ∈ b.records) : b'.Table := by
  constructor
  . rw [hrecords]
    exact h.ids
  . rw [hrecords]
    exact h.pairs
  . intro i record hi
    rw [hrecords]
    rw [hwritten] at hi
    exact h.written i record hi
  . intro i record hi
    rw [hrecords]
    rcases hevent i record hi with hi | hmem
    . exact h.event i record hi
    . exact ⟨record, hmem, rfl, rfl, rfl⟩
  . intro i j record record' hi hj
    rw [hwritten] at hi hj
    exact h.writer i j record record' hi hj

theorem insert {i : Pid} {event : IncomingWebhook} {record : WebhookEvent} {hand : Hand}
    (h : b.Table) (hhand : b.hand i = .delivering event) (hrecord : record = event.row record.id)
    (hid : record.id ∉ b.records.map (·.id))
    (hpair : (event.gateway, event.eventId) ∉ b.records.map (fun e => (e.gateway, e.eventId)))
    (hhand' : hand = .stored record ∨ hand = .delivering event)
    : Table { b.setHand i hand with records := b.records ++ [record] } := by
  have hgateway : record.gateway = event.gateway := by
    rw [hrecord]
    rfl
  have heventId : record.eventId = event.eventId := by
    rw [hrecord]
    rfl
  -- Nobody has inserted a row with this id before.
  have hnew : ∀ j record', (b.hand j).written = some record' → record'.id ≠ record.id := by
    intro j record' hj heq
    rcases h.written j record' hj with ⟨e, he, heid, _⟩
    apply hid
    rw [← heq, ← heid]
    exact List.mem_map_of_mem he
  have hwritten : ∀ j record', ((b.setHand i hand).hand j).written = some record' →
      (j ≠ i ∧ (b.hand j).written = some record') ∨ (j = i ∧ record' = record) := by
    intro j record' hj
    by_cases hji : j = i
    . subst hji
      rw [setHand_self] at hj
      rcases hhand' with hhand' | hhand'
      . subst hhand'
        injection hj with hj
        exact .inr ⟨rfl, hj.symm⟩
      . subst hhand'
        cases hj
    . rw [setHand_of_ne hji] at hj
      exact .inl ⟨hji, hj⟩
  constructor
  . dsimp only
    rw [List.map_append, List.nodup_append]
    refine ⟨h.ids, by simp, ?_⟩
    simp only [List.map_cons, List.map_nil, List.mem_singleton]
    rintro x hx y rfl rfl
    exact hid hx
  . dsimp only
    rw [List.map_append, List.nodup_append]
    refine ⟨h.pairs, by simp, ?_⟩
    simp only [List.map_cons, List.map_nil, List.mem_singleton]
    rintro x hx y rfl rfl
    rw [hgateway, heventId] at hx
    exact hpair hx
  . intro j record' hj
    rcases hwritten j record' hj with ⟨_, hj⟩ | ⟨_, heq⟩
    . rcases h.written j record' hj with ⟨e, he, heq⟩
      exact ⟨e, by simp [he], heq⟩
    . subst heq
      exact ⟨record', by simp, rfl, rfl, rfl⟩
  . intro j record' hj
    have hevent : ((b.setHand i hand).hand j).event = (b.hand j).event := by
      apply setHand_proj Hand.event
      rw [hhand]
      rcases hhand' with hhand' | hhand'
      . rw [hhand']
        rfl
      . rw [hhand']
    dsimp only at hj
    rw [hevent] at hj
    rcases h.event j record' hj with ⟨e, he, heq⟩
    exact ⟨e, by simp [he], heq⟩
  . intro j k record₁ record₂ hj hk heq
    rcases hwritten j record₁ hj with ⟨_, hj'⟩ | ⟨hji, hj'⟩
    . rcases hwritten k record₂ hk with ⟨_, hk'⟩ | ⟨_, hk'⟩
      . exact h.writer j k record₁ record₂ hj' hk' heq
      . subst hk'
        exact absurd heq (hnew j record₁ hj')
    . rcases hwritten k record₂ hk with ⟨_, hk'⟩ | ⟨hki, _⟩
      . subst hj'
        exact absurd heq.symm (hnew k record₂ hk')
      . rw [hji, hki]

theorem map_mark {β : Type} (f : WebhookEvent → β) {event : WebhookEvent} {now : Nat}
    {records : List WebhookEvent}
    (hf : ∀ old ∈ records, old.id = event.id →
      f old = f { event with processed := true, processedAt := some now })
    : (Mailbag.mark event now records).map f = records.map f := by
  unfold Mailbag.mark
  rw [List.map_map]
  apply List.map_congr_left
  intro old hold
  rw [Function.comp_apply]
  split
  . next heq => exact (hf old hold heq).symm
  . rfl

/--
A row that is saved keeps its id and the event it is about.
-/
theorem mark {i : Pid} {event : WebhookEvent} {now : Nat} (h : b.Table)
    (hhand : (b.hand i).event = some event)
    : Table { b with records := mark event now b.records } := by
  rcases h.event i event hhand with ⟨e, he, heid, hgateway, heventId⟩
  have hsame : ∀ old ∈ b.records, old.id = event.id → old = e := by
    intro old hold hoid
    have hinj := List.inj_on_of_nodup_map h.ids
    exact hinj hold he (by rw [hoid, heid])
  have hids : (Mailbag.mark event now b.records).map (·.id) = b.records.map (·.id) := by
    apply map_mark
    intro old hold hoid
    exact hoid
  have hpairs : (Mailbag.mark event now b.records).map (fun e => (e.gateway, e.eventId)) =
      b.records.map (fun e => (e.gateway, e.eventId)) := by
    apply map_mark
    intro old hold hoid
    rw [hsame old hold hoid]
    simp [hgateway, heventId]
  have hkeeps : ∀ record : WebhookEvent, (∃ e ∈ b.records, e.id = record.id ∧
      e.gateway = record.gateway ∧ e.eventId = record.eventId) →
      ∃ e ∈ Mailbag.mark event now b.records, e.id = record.id ∧ e.gateway = record.gateway ∧
        e.eventId = record.eventId := by
    rintro record ⟨e', he', hid', hgateway', heventId'⟩
    refine ⟨_, List.mem_map_of_mem he', ?_⟩
    split
    . next heq =>
      have := hsame e' he' heq
      subst this
      refine ⟨?_, ?_, ?_⟩
      . rw [← hid', heid]
      . rw [← hgateway', hgateway]
      . rw [← heventId', heventId]
    . exact ⟨hid', hgateway', heventId'⟩
  constructor
  . dsimp only
    rw [hids]
    exact h.ids
  . dsimp only
    rw [hpairs]
    exact h.pairs
  . intro j record hj
    exact hkeeps record (h.written j record hj)
  . intro j record hj
    exact hkeeps record (h.event j record hj)
  . exact h.writer

theorem step (h : b.Table) (hstep : b.Step b') : b'.Table := by
  cases hstep with
  | insert i event record hhand hrecord hid hpair hand hhand' =>
    exact h.insert hhand hrecord hid hpair hhand'
  | mark i event now hhand => exact h.mark hhand
  | forget memory hmemory => exact h.frame rfl (fun _ => rfl) (fun _ _ => .inl)
  | popLost => exact h.frame rfl (fun _ => rfl) (fun _ _ => .inl)
  | find i conditions row hhand => exact h.frame rfl (fun _ => rfl) (fun _ _ => .inl)
  | load i event hhand hevent =>
    apply h.frame
    . rfl
    . apply setHand_proj Hand.written
      rw [hhand]
      rfl
    . intro j record hj
      by_cases hji : j = i
      . subst hji
        simp only [setHand_self] at hj
        injection hj with hj
        subst hj
        exact .inr hevent
      . simp only [setHand_of_ne hji] at hj
        exact .inl hj
  | drive i conditions row event hhand =>
    apply h.frame
    . rfl
    . apply setHand_proj Hand.written
      rw [hhand]
      rfl
    . intro j record hj
      rw [setHand_proj Hand.event (by rw [hhand]; rfl)] at hj
      exact .inl hj
  | pushServer i record hhand | pushMemory i record hhand | pushLost i record hhand =>
    apply h.frame
    . rfl
    . apply setHand_proj Hand.written
      rw [hhand]
      rfl
    . intro j record hj
      rw [setHand_proj Hand.event (by rw [hhand]; rfl)] at hj
      exact .inl hj
  | repel i event hhand _ =>
    apply h.frame
    . rfl
    . apply setHand_proj Hand.written
      rw [hhand]
      rfl
    . intro j record hj
      rw [setHand_proj Hand.event (by rw [hhand]; rfl)] at hj
      exact .inl hj
  | popServer i id hhand _ | popMemory i id hhand _ =>
    apply h.frame
    . rfl
    . apply setHand_proj Hand.written
      rw [hhand]
      rfl
    . intro j record hj
      rw [setHand_proj Hand.event (by rw [hhand]; rfl)] at hj
      exact .inl hj

end Table

namespace Queue

-- A step that moves no id and pushes none.
theorem frame (h : b.Queue) (hids : ∀ id ∈ b.records.map (·.id), id ∈ b'.records.map (·.id))
    (hlog : b'.log = b.log) (hat : ∀ id place, b'.At id place → b.At id place)
    (hserver : b'.server.Sublist b.server)
    (hfresh : ∀ i record, b'.hand i = .stored record →
      b.hand i = .stored record ∨ record.id ∉ b.records.map (·.id)) : b'.Queue := by
  have hpushed : ∀ id, b'.Pushed id ↔ b.Pushed id := by
    intro id
    simp only [Pushed, hlog]
  constructor
  . intro id hid
    rw [hpushed] at hid
    exact hids id (h.known id hid)
  . intro i record hi hid
    rw [hpushed] at hid
    rcases hfresh i record hi with hi | hnew
    . exact h.fresh i record hi hid
    . exact hnew (h.known _ hid)
  . rw [hlog]
    exact h.once
  . intro id place hplace
    rw [hpushed]
    exact h.traced id place (hat id place hplace)
  . intro id place place' hplace hplace'
    exact h.single id place place' (hat id place hplace) (hat id place' hplace')
  . exact h.queued.sublist hserver

theorem pushed_snoc {i : Pid} {item id : String}
    (hlog : b'.log = b.log ++ [.pushed i queueName item])
    : b'.Pushed id ↔ b.Pushed id ∨ id = item := by
  simp only [Pushed, hlog, List.mem_append, List.mem_singleton]
  grind

/--
A fresh id is pushed and comes to a first place.
-/
theorem push {i : Pid} {record : WebhookEvent} (h : b.Queue) (htable : b.Table)
    (hhand : b.hand i = .stored record) (place : Place) (hrecords : b'.records = b.records)
    (hlog : b'.log = b.log ++ [.pushed i queueName record.id])
    (hhand' : b'.hand = (b.setHand i (.pushed record)).hand)
    (hat : ∀ id p, b'.At id p → b.At id p ∨ (id = record.id ∧ p = place))
    (hserver : b'.server = b.server ∨ b'.server = record.id :: b.server) : b'.Queue := by
  have hfresh := h.fresh i record hhand
  have hnowhere : ∀ p, ¬b.At record.id p := by
    intro p hp
    exact hfresh (h.traced _ _ hp)
  constructor
  . intro id hid
    rw [hrecords]
    rcases (pushed_snoc hlog).mp hid with hid | hid
    . exact h.known id hid
    . subst hid
      rcases htable.written i record (by rw [hhand]; rfl) with ⟨e, he, heid, _⟩
      rw [← heid]
      exact List.mem_map_of_mem he
  . intro j record' hj hid
    have hji : j ≠ i := by
      intro hji
      subst hji
      rw [hhand', setHand_self] at hj
      cases hj
    rw [hhand', setHand_of_ne hji] at hj
    rcases (pushed_snoc hlog).mp hid with hid | hid
    . exact h.fresh j record' hj hid
    . -- Two processes have not inserted the same row.
      apply hji
      exact htable.writer j i record' record (by rw [hj]; rfl) (by rw [hhand]; rfl) hid
  . intro id
    rw [hlog, List.filter_append, List.length_append]
    by_cases hid : id = record.id
    . have hnone : b.log.filter (isPush id) = [] := by
        rw [List.filter_eq_nil_iff]
        intro event hevent hpush
        cases event with
        | pushed j queue item =>
          simp only [isPush, decide_eq_true_eq] at hpush
          rcases hpush with ⟨hqueue, hitem⟩
          subst hqueue hitem
          rw [hid] at hevent
          exact hfresh ⟨j, hevent⟩
        | popped j queue item => cases hpush
      rw [hnone]
      simpa using List.length_filter_le (isPush id) [.pushed i queueName record.id]
    . have hnone : [QueueEvent.pushed i queueName record.id].filter (isPush id) = [] := by
        simp [isPush, Ne.symm hid]
      rw [hnone]
      exact h.once id
  . intro id p hp
    rw [pushed_snoc hlog]
    rcases hat id p hp with hp | ⟨hid, _⟩
    . exact .inl (h.traced id p hp)
    . exact .inr hid
  . intro id p p' hp hp'
    rcases hat id p hp with hold | ⟨hid, hplace⟩
    . rcases hat id p' hp' with hold' | ⟨hid', _⟩
      . exact h.single id p p' hold hold'
      . subst hid'
        exact absurd hold (hnowhere p)
    . rcases hat id p' hp' with hold' | ⟨_, hplace'⟩
      . subst hid
        exact absurd hold' (hnowhere p')
      . rw [hplace, hplace']
  . rcases hserver with hserver | hserver
    . rw [hserver]
      exact h.queued
    . rw [hserver, List.nodup_cons]
      exact ⟨hnowhere .server, h.queued⟩

/--
An id goes from the queue to the process that pops it.
-/
theorem pop {i : Pid} {id : String} (h : b.Queue) (place : Place) (hplace : b.At id place)
    (hrecords : b'.records = b.records) (hlog : b'.log = b.log ++ [.popped i queueName id])
    (hhand' : b'.hand = (b.setHand i (.holding id)).hand)
    (hat : ∀ id' p, b'.At id' p →
      (b.At id' p ∧ ¬(id' = id ∧ p = place)) ∨ (id' = id ∧ p = .hand i))
    (hserver : b'.server.Sublist b.server) : b'.Queue := by
  have hpushed : ∀ id, b'.Pushed id ↔ b.Pushed id := by
    intro id
    simp [Pushed, hlog]
  constructor
  . intro id hid
    rw [hpushed] at hid
    rw [hrecords]
    exact h.known id hid
  . intro j record hj
    rw [hpushed]
    have hji : j ≠ i := by
      intro hji
      subst hji
      rw [hhand', setHand_self] at hj
      cases hj
    rw [hhand', setHand_of_ne hji] at hj
    exact h.fresh j record hj
  . intro id
    rw [hlog, List.filter_append]
    simpa [isPush] using h.once id
  . intro id' p hp
    rw [hpushed]
    rcases hat id' p hp with ⟨hp, _⟩ | ⟨hid, _⟩
    . exact h.traced id' p hp
    . rw [hid]
      exact h.traced id place hplace
  . intro id' p p' hp hp'
    rcases hat id' p hp with ⟨hold, hne⟩ | ⟨hid, hp⟩
    . rcases hat id' p' hp' with ⟨hold', _⟩ | ⟨hid, _⟩
      . exact h.single id' p p' hold hold'
      . subst hid
        exact absurd ⟨rfl, h.single id' p place hold hplace⟩ hne
    . rcases hat id' p' hp' with ⟨hold', hne⟩ | ⟨_, hp'⟩
      . subst hid
        exact absurd ⟨rfl, h.single id' p' place hold' hplace⟩ hne
      . rw [hp, hp']
  . exact h.queued.sublist hserver

-- A process that gets something else into its hands has no event that it has only stored.
theorem stored_of_setHand {i : Pid} {hand : Hand} (hhand : ∀ record, hand ≠ .stored record)
    (j : Pid) (record : WebhookEvent) (hj : (b.setHand i hand).hand j = .stored record)
    : b.hand j = .stored record ∨ record.id ∉ b.records.map (·.id) := by
  by_cases hji : j = i
  . subst hji
    rw [setHand_self] at hj
    exact absurd hj (hhand record)
  . rw [setHand_of_ne hji] at hj
    exact .inl hj

theorem mem_dropLast_of_nodup {l : List String} {id : String} (hnodup : l.Nodup)
    (hlast : l.getLast? = some id) : id ∉ l.dropLast := by
  rw [List.getLast?_eq_some_iff] at hlast
  rcases hlast with ⟨ys, hl⟩
  subst hl
  rw [List.dropLast_concat]
  intro hmem
  rw [List.nodup_append] at hnodup
  exact hnodup.right.right id hmem id (by simp) rfl

theorem step (h : b.Queue) (htable : b.Table) (hstep : b.Step b') : b'.Queue := by
  cases hstep with
  | forget memory hmemory =>
    apply h.frame
    . exact fun _ => id
    . rfl
    . intro id place hat
      cases place with
      | memory n =>
        rcases hmemory n with heq | heq
        . simpa [At, heq] using hat
        . simp [At, heq] at hat
      | _ => exact hat
    . exact .refl _
    . exact fun _ _ => .inl
  | insert i event record hhand hrecord hid hpair hand hhand' =>
    apply h.frame
    . intro id hid
      simp only [List.map_append, List.mem_append]
      exact .inl hid
    . rfl
    . intro id place hat
      cases place <;> exact hat
    . exact .refl _
    . intro j record' hj
      by_cases hji : j = i
      . subst hji
        simp only [setHand_self] at hj
        rcases hhand' with hhand' | hhand'
        . rw [hhand'] at hj
          injection hj with hj
          subst hj
          exact .inr hid
        . rw [hhand'] at hj
          cases hj
      . simp only [setHand_of_ne hji] at hj
        exact .inl hj
  | pushServer i record hhand =>
    apply h.push htable hhand .server
    . rfl
    . rfl
    . rfl
    . intro id p hp
      cases p with
      | server =>
        rcases List.mem_cons.mp hp with hp | hp
        . exact .inr ⟨hp, rfl⟩
        . exact .inl hp
      | memory n => exact .inl hp
      | hand j => exact .inl (by simpa [At] using hp)
    . exact .inr rfl
  | pushMemory i record hhand =>
    apply h.push htable hhand (.memory i.inst)
    . rfl
    . rfl
    . rfl
    . intro id p hp
      cases p with
      | server => exact .inl hp
      | memory n =>
        by_cases hn : n = i.inst
        . subst hn
          simp only [At, Function.update_self, Option.some.injEq, Stored.raw.injEq] at hp
          exact .inr ⟨hp.symm, rfl⟩
        . simp only [At, Function.update_of_ne hn] at hp
          exact .inl hp
      | hand j => exact .inl (by simpa [At] using hp)
    . exact .inl rfl
  | pushLost i record hhand | repel i record hhand _ =>
    apply h.frame
    . exact fun _ => id
    . rfl
    . intro id place hat
      cases place <;> exact hat
    . exact .refl _
    . exact stored_of_setHand (by simp)
  | popServer i id hhand hlast =>
    have hmem : id ∈ b.server := List.mem_of_getLast? hlast
    apply h.pop .server hmem
    . rfl
    . rfl
    . rfl
    . intro id' p hp
      cases p with
      | server =>
        refine .inl ⟨List.mem_of_mem_dropLast hp, ?_⟩
        rintro ⟨heq, _⟩
        subst heq
        exact mem_dropLast_of_nodup h.queued hlast hp
      | memory n => exact .inl ⟨hp, by simp⟩
      | hand j =>
        simp only [At, List.mem_append, List.mem_singleton, QueueEvent.popped.injEq] at hp
        rcases hp with hp | ⟨hji, _, heq⟩
        . exact .inl ⟨hp, by simp⟩
        . exact .inr ⟨heq, by rw [hji]⟩
    . exact List.dropLast_sublist _
  | popLost =>
    apply h.frame
    . exact fun _ => id
    . rfl
    . intro id place hat
      cases place with
      | server => exact List.mem_of_mem_dropLast hat
      | _ => exact hat
    . exact List.dropLast_sublist _
    . exact fun _ _ => .inl
  | popMemory i id hhand hmemory =>
    apply h.pop (.memory i.inst) hmemory
    . rfl
    . rfl
    . rfl
    . intro id' p hp
      cases p with
      | server => exact .inl ⟨hp, by simp⟩
      | memory n =>
        by_cases hn : n = i.inst
        . subst hn
          simp [At] at hp
        . simp only [At, Function.update_of_ne hn] at hp
          refine .inl ⟨hp, ?_⟩
          rintro ⟨_, heq⟩
          injection heq with heq
          exact hn heq
      | hand j =>
        simp only [At, List.mem_append, List.mem_singleton, QueueEvent.popped.injEq] at hp
        rcases hp with hp | ⟨hji, _, heq⟩
        . exact .inl ⟨hp, by simp⟩
        . exact .inr ⟨heq, by rw [hji]⟩
    . exact .refl _
  | load i event hhand hevent =>
    apply h.frame
    . exact fun _ => id
    . rfl
    . intro id place hat
      cases place <;> exact hat
    . exact .refl _
    . exact stored_of_setHand (by simp)
  | find i conditions row hhand =>
    apply h.frame
    . exact fun _ => id
    . rfl
    . intro id place hat
      cases place <;> exact hat
    . exact .refl _
    . exact fun _ _ => .inl
  | drive i conditions row event hhand =>
    apply h.frame
    . exact fun _ => id
    . rfl
    . intro id place hat
      cases place <;> exact hat
    . exact .refl _
    . exact stored_of_setHand (by simp)
  | mark i event now hhand =>
    apply h.frame
    . intro id hid
      dsimp only
      rw [Table.map_mark (·.id) (fun _ _ hold => hold)]
      exact hid
    . rfl
    . intro id place hat
      cases place <;> exact hat
    . exact .refl _
    . exact fun _ _ => .inl

end Queue

namespace Desk

-- A step without a lookup. Only a process that has not loaded an event changes its hands.
theorem frame (h : b.Desk tasks) (hlog : ∀ e ∈ b.log, e ∈ b'.log) (hlookups : b'.lookups = b.lookups)
    (hhand : ∀ j, b'.hand j = b.hand j ∨
      ((b.hand j).event = none ∧ (b'.hand j = .creating ↔ b.hand j = .creating) ∧
        ∀ id, (b'.hand j).held = some id → .popped j queueName id ∈ b'.log)) : b'.Desk tasks := by
  constructor
  . intro j id hj
    rcases hhand j with heq | ⟨_, _, hheld⟩
    . rw [heq] at hj
      exact hlog _ (h.held j id hj)
    . exact hheld id hj
  . intro j event hmem
    rw [hlookups] at hmem
    have hevent := h.load j event hmem
    rcases hhand j with heq | ⟨hnone, _⟩
    . rw [heq]
      exact hevent
    . rw [hnone] at hevent
      cases hevent
  . intro j hj
    rw [hlookups]
    exact h.drives j hj
  . intro j hj hdriving
    rw [hlookups]
    apply h.idle j hj
    intro event heq
    rcases hhand j with heq' | ⟨hnone, _⟩
    . exact hdriving event (by rw [heq', heq])
    . rw [heq] at hnone
      cases hnone
  . intro j
    rw [← h.creating]
    rcases hhand j with heq | ⟨_, hiff, _⟩
    . rw [heq]
    . exact hiff

-- The hands of one process change before it has loaded an event.
theorem hand_of_setHand {i : Pid} {hand : Hand} {log : List QueueEvent}
    (hevent : (b.hand i).event = none) (hne : hand = .creating ↔ b.hand i = .creating)
    (hheld : ∀ id, hand.held = some id → .popped i queueName id ∈ log) (j : Pid)
    : (b.setHand i hand).hand j = b.hand j ∨
        ((b.hand j).event = none ∧ ((b.setHand i hand).hand j = .creating ↔ b.hand j = .creating) ∧
          ∀ id, ((b.setHand i hand).hand j).held = some id → .popped j queueName id ∈ log) := by
  by_cases hji : j = i
  . subst hji
    rw [setHand_self]
    exact .inr ⟨hevent, hne, hheld⟩
  . exact .inl (setHand_of_ne hji)

theorem loaded {i : Pid} {event : WebhookEvent} (h : b.Desk tasks)
    (hhand : b.hand i = .holding event.id)
    : Desk tasks { b.setHand i (.loaded event) with lookups := b.lookups ++ [.loaded i event] } := by
  constructor
  . intro j id hj
    by_cases hji : j = i
    . subst hji
      simp only [setHand_self] at hj
      exact h.held j id (by rw [hhand]; exact hj)
    . simp only [setHand_of_ne hji] at hj
      exact h.held j id hj
  . intro j event' hmem
    simp only [List.mem_append, List.mem_singleton, Event.loaded.injEq] at hmem
    rcases hmem with hmem | ⟨hji, heq⟩
    . have hevent := h.load j event' hmem
      by_cases hji : j = i
      . subst hji
        rw [hhand] at hevent
        cases hevent
      . simp only [setHand_of_ne hji]
        exact hevent
    . subst hji heq
      simp only [setHand_self]
      rfl
  . intro j hj
    rw [List.filter_append]
    simpa [isDrive] using h.drives j hj
  . intro j hj hdriving
    rw [List.filter_append]
    simp only [isDrive, Bool.false_eq_true, not_false_eq_true, List.filter_cons_of_neg,
      List.filter_nil, List.append_nil]
    apply h.idle j hj
    intro event' heq
    by_cases hji : j = i
    . subst hji
      rw [hhand] at heq
      cases heq
    . exact hdriving event' (by simp only [setHand_of_ne hji]; exact heq)
  . intro j
    rw [← h.creating]
    by_cases hji : j = i
    . subst hji
      simp [hhand]
    . simp only [setHand_of_ne hji]

theorem looked {i : Pid} {conditions : List TxnWhere} {row : Option Transaction}
    (h : b.Desk tasks) (hhand : b.hand i = .creating ∨ row = none)
    : Desk tasks { b with lookups := b.lookups ++ [.read i conditions row] } := by
  have hfilter : ∀ j, (∀ dto, tasks j ≠ .create dto) →
      (b.lookups ++ [Event.read i conditions row]).filter (isDrive j) =
        b.lookups.filter (isDrive j) := by
    intro j hj
    rw [List.filter_append, List.append_right_eq_self, List.filter_eq_nil_iff]
    intro event hevent
    rw [List.mem_singleton] at hevent
    subst hevent
    rcases hhand with hhand | hrow
    . rcases (h.creating i).mp hhand with ⟨dto, htask⟩
      cases row with
      | none => simp [isDrive]
      | some row =>
        simp only [isDrive, decide_eq_true_eq]
        intro hij
        subst hij
        exact hj dto htask
    . subst hrow
      simp [isDrive]
  constructor
  . exact h.held
  . intro j event hmem
    simp only [List.mem_append, List.mem_singleton, reduceCtorEq, or_false] at hmem
    exact h.load j event hmem
  . intro j hj
    dsimp only
    rw [hfilter j hj]
    exact h.drives j hj
  . intro j hj hdriving
    dsimp only
    rw [hfilter j hj]
    exact h.idle j hj hdriving
  . exact h.creating

theorem driven {i : Pid} {conditions : List TxnWhere} {row : Transaction} {event : WebhookEvent}
    (h : b.Desk tasks) (hhand : b.hand i = .loaded event)
    : Desk tasks
        { b.setHand i (.driving event) with
          lookups := b.lookups ++ [.read i conditions (some row)] } := by
  have hfilter : ∀ j, j ≠ i →
      (b.lookups ++ [Event.read i conditions (some row)]).filter (isDrive j) =
        b.lookups.filter (isDrive j) := by
    intro j hji
    rw [List.filter_append]
    simp [isDrive, hji.symm]
  constructor
  . intro j id hj
    by_cases hji : j = i
    . subst hji
      simp only [setHand_self] at hj
      exact h.held j id (by rw [hhand]; exact hj)
    . simp only [setHand_of_ne hji] at hj
      exact h.held j id hj
  . intro j event' hmem
    simp only [List.mem_append, List.mem_singleton, reduceCtorEq, or_false] at hmem
    have hevent := h.load j event' hmem
    by_cases hji : j = i
    . subst hji
      simp only [setHand_self]
      rw [hhand] at hevent
      exact hevent
    . simp only [setHand_of_ne hji]
      exact hevent
  . intro j hj
    dsimp only
    by_cases hji : j = i
    . -- So far it was not driving anything.
      subst hji
      rw [List.filter_append, h.idle j hj (by simp [hhand])]
      simpa using List.length_filter_le (isDrive j) [.read j conditions (some row)]
    . rw [hfilter j hji]
      exact h.drives j hj
  . intro j hj hdriving
    have hji : j ≠ i := by
      intro hji
      subst hji
      exact hdriving event (by simp)
    dsimp only
    rw [hfilter j hji]
    apply h.idle j hj
    intro event' heq
    exact hdriving event' (by simp only [setHand_of_ne hji]; exact heq)
  . intro j
    rw [← h.creating]
    by_cases hji : j = i
    . subst hji
      simp [hhand]
    . simp only [setHand_of_ne hji]

theorem step (h : b.Desk tasks) (hstep : b.Step b') : b'.Desk tasks := by
  cases hstep with
  | forget memory hmemory => exact h.frame (fun _ => id) rfl (fun _ => .inl rfl)
  | insert i event record hhand hrecord hid hpair hand hhand' =>
    apply h.frame
    . exact fun _ => id
    . rfl
    . apply hand_of_setHand
      . rw [hhand]
        rfl
      . rcases hhand' with hhand' | hhand' <;> simp [hhand', hhand]
      . rcases hhand' with hhand' | hhand' <;> simp [hhand', Hand.held]
  | pushServer i record hhand | pushMemory i record hhand | pushLost i record hhand
  | repel i record hhand _ =>
    apply h.frame
    . intro e he
      simp [setHand, he]
    . rfl
    . apply hand_of_setHand
      . rw [hhand]
        rfl
      . simp [hhand]
      . simp [Hand.held]
  | popServer i id hhand _ | popMemory i id hhand _ =>
    apply h.frame
    . intro e he
      simp [he]
    . rfl
    . apply hand_of_setHand
      . rw [hhand]
        rfl
      . simp [hhand]
      . simp [Hand.held]
  | popLost => exact h.frame (fun _ => id) rfl (fun _ => .inl rfl)
  | load i event hhand hevent => exact h.loaded hhand
  | find i conditions row hhand =>
    apply h.looked
    rcases hhand with hhand | ⟨hrow, _⟩
    . exact .inl hhand
    . exact .inr hrow
  | drive i conditions row event hhand => exact h.driven hhand
  | mark i event now hhand => exact h.frame (fun _ => id) rfl (fun _ => .inl rfl)

end Desk

theorem Inv.step (h : b.Inv tasks) (hstep : b.Step b') : b'.Inv tasks := by
  exact ⟨h.table.step hstep, h.queue.step h.table hstep, h.desk.step hstep⟩

theorem Inv.run (h : b.Inv tasks) (hrun : b.Run b') : b'.Inv tasks := by
  induction hrun with
  | refl => exact h
  | tail _ hstep ih => exact ih.step hstep

end Mailbag

end PaymentOrchestration
