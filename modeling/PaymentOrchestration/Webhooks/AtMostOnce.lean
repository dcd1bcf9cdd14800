import PaymentOrchestration.Webhooks.MailbagRefinement

/-!
This module is about the effect of a webhook event that is delivered again and again: there is one
record of it, its id goes through the queue once and one worker acts on it once.
-/

namespace PaymentOrchestration

open ReconciliationWorker

/--
The event is a lookup that has found a payment, made by a worker that has loaded the record `id`. It
is where `driveToReconciled` starts for the record.
-/
def startsDrive (history : List Event) (id : String) (event : Event) : Bool :=
  match event with
  | .read i _ (some _) =>
    history.any fun
      | .loaded j record => j = i ∧ record.id = id
      | _ => false
  | _ => false

theorem startsDrive_iff {history : List Event} {id : String} {event : Event}
    : startsDrive history id event = true
        ↔
      ∃ i conditions row record, event = .read i conditions (some row) ∧
        .loaded i record ∈ history ∧ record.id = id := by
  unfold startsDrive
  split
  . next i conditions row =>
    rw [List.any_eq_true]
    constructor
    . rintro ⟨e, he, hloaded⟩
      split at hloaded
      . next j record =>
        rw [decide_eq_true_eq] at hloaded
        rcases hloaded with ⟨hj, hid⟩
        subst hj
        exact ⟨j, conditions, row, record, rfl, he, hid⟩
      . cases hloaded
    . rintro ⟨i', conditions', row', record, heq, hmem, hid⟩
      injection heq with hi
      subst hi
      exact ⟨_, hmem, by simp [hid]⟩
  . next hne =>
    constructor
    . intro h
      cases h
    . rintro ⟨i, conditions, row, record, heq, _⟩
      exact absurd heq (hne i conditions row)

namespace Mailbag

variable {tasks : Pid → Task} {b : Mailbag}

-- A process that has loaded a record is the one that has popped its id.
theorem Inv.at_hand (h : b.Inv tasks) {i : Pid} {record : WebhookEvent}
    (hloaded : .loaded i record ∈ b.lookups)
    : b.At record.id (.hand i) ∧ ∀ dto, tasks i ≠ .create dto := by
  have hevent := h.desk.load i record hloaded
  have hheld : (b.hand i).held = some record.id := by
    unfold Hand.event at hevent
    split at hevent
    . next event hhand =>
      injection hevent with hevent
      subst hevent
      rw [hhand]
      rfl
    . next event hhand =>
      injection hevent with hevent
      subst hevent
      rw [hhand]
      rfl
    . cases hevent
  refine ⟨h.desk.held i record.id hheld, ?_⟩
  intro dto htask
  rw [(h.desk.creating i).mpr ⟨dto, htask⟩] at hevent
  cases hevent

end Mailbag

namespace Watched

variable {D : Deployment} {tasks : Pid → Task} {c : WatchedQueue D}

theorem mem_lookups {w : World} {i : Pid} {record : WebhookEvent}
    (h : .loaded i record ∈ w.history) : .loaded i record ∈ w.history.filter Event.isLookup := by
  rw [List.mem_filter]
  exact ⟨h, rfl⟩

/--
The record of an event is acted on at most once.
-/
theorem Kept.drives_le_one {b : Mailbag} (h : Kept tasks c b) (id : String)
    : (c.world.1.history.filter (startsDrive c.world.1.history id)).length ≤ 1 := by
  have hlookups : b.lookups = c.world.1.history.filter Event.isLookup := by
    rw [h.mailbag]
    rfl
  cases hfilter : c.world.1.history.filter (startsDrive c.world.1.history id) with
  | nil => simp
  | cons event events =>
    have hevent : event ∈ c.world.1.history.filter (startsDrive c.world.1.history id) := by
      rw [hfilter]
      simp
    rw [List.mem_filter, startsDrive_iff] at hevent
    rcases hevent with ⟨_, i, _, _, record, _, hloaded, hid⟩
    have hat := h.inv.at_hand (by rw [hlookups]; exact mem_lookups hloaded)
    -- Whoever else acts on the record is the same process.
    have hsub : ∀ e ∈ c.world.1.history, startsDrive c.world.1.history id e = true →
        (Event.isLookup e && Mailbag.isDrive i e) = true := by
      intro e _ he
      rw [startsDrive_iff] at he
      rcases he with ⟨j, _, _, record', heq, hloaded', hid'⟩
      subst heq
      have hat' := h.inv.at_hand (by rw [hlookups]; exact mem_lookups hloaded')
      rw [hid'] at hat'
      rw [hid] at hat
      have hplace := h.inv.queue.single id _ _ hat.left hat'.left
      injection hplace with hij
      simp [Event.isLookup, Mailbag.isDrive, hij]
    have hdrives := h.inv.desk.drives i hat.right
    rw [hlookups, List.filter_filter] at hdrives
    rw [← hfilter, ← List.countP_eq_length_filter]
    rw [← List.countP_eq_length_filter] at hdrives
    apply Nat.le_trans _ hdrives
    apply List.countP_mono_left
    intro e he hdrive
    have := hsub e he hdrive
    rw [Bool.and_comm]
    exact this

theorem Kept.records_le_one {b : Mailbag} (h : Kept tasks c b) (gateway : GatewayProvider)
    (eventId : String)
    : (c.world.1.webhookEvents.filter
        (fun e => e.gateway = gateway ∧ e.eventId = eventId)).length ≤ 1 := by
  have hrecords : b.records = c.world.1.webhookEvents := by
    rw [h.mailbag]
    rfl
  have hpairs := h.inv.table.pairs
  rw [hrecords] at hpairs
  rw [← List.countP_eq_length_filter]
  have hcount := List.nodup_iff_count_le_one.mp hpairs (gateway, eventId)
  rw [List.count, List.countP_map] at hcount
  apply Nat.le_trans _ hcount
  apply List.countP_mono_left
  intro e _ he
  simpa using he

theorem Kept.news_unique {b : Mailbag} (h : Kept tasks c b) {i j : Pid}
    {event event' : IncomingWebhook} (hi : tasks i = .ingest event) (hj : tasks j = .ingest event')
    (hgateway : event.gateway = event'.gateway) (heventId : event.eventId = event'.eventId)
    (hri : (c.pool i).result = some (.ok (.duplicate false)))
    (hrj : (c.pool j).result = some (.ok (.duplicate false))) : i = j := by
  have hhi := h.handover i _ hri
  have hhj := h.handover j _ hrj
  rw [hi] at hhi
  rw [hj] at hhj
  rcases hhi.right.left rfl with ⟨record, hrecord, heq⟩
  rcases hhj.right.left rfl with ⟨record', hrecord', heq'⟩
  have hw : (b.hand i).written = some record := by
    rw [hrecord]
    rfl
  have hw' : (b.hand j).written = some record' := by
    rw [hrecord']
    rfl
  apply h.inv.table.writer i j record record' hw hw'
  -- Both have inserted a row for the pair, and there is only one.
  rcases h.inv.table.written i record hw with ⟨e, he, hid, hg, hid'⟩
  rcases h.inv.table.written j record' hw' with ⟨e', he', hid₁, hg₁, hid₂⟩
  have hinj := List.inj_on_of_nodup_map h.inv.table.pairs he he' (by
    rw [hg, hid', hg₁, hid₂, heq, heq']
    simp [IncomingWebhook.row, hgateway, heventId])
  rw [← hid, ← hid₁, hinj]

/--
However often an event is delivered, whatever fails and however the deliveries and the workers
interleave: it is recorded at most once, reported as new at most once, pushed at most once and acted
on at most once.
-/
theorem webhook_at_most_once (h : c.Reachable tasks) (gateway : GatewayProvider) (eventId : String)
    : (c.world.1.webhookEvents.filter
          (fun e => e.gateway = gateway ∧ e.eventId = eventId)).length ≤ 1 ∧
        (∀ i j event event', tasks i = .ingest event → tasks j = .ingest event' →
          (event.gateway, event.eventId) = (gateway, eventId) →
          (event'.gateway, event'.eventId) = (gateway, eventId) →
          (c.pool i).result = some (.ok (.duplicate false)) →
          (c.pool j).result = some (.ok (.duplicate false)) → i = j) ∧
        ∀ record ∈ c.world.1.webhookEvents,
          (record.gateway, record.eventId) = (gateway, eventId) →
            (c.world.2.filter (Mailbag.isPush record.id)).length ≤ 1 ∧
            (c.world.1.history.filter (startsDrive c.world.1.history record.id)).length ≤ 1 := by
  rcases h.exists_mailbag with ⟨b, hkept⟩
  refine ⟨hkept.records_le_one gateway eventId, ?_, ?_⟩
  . intro i j event event' hi hj hpair hpair' hri hrj
    rw [Prod.mk.injEq] at hpair hpair'
    apply hkept.news_unique hi hj _ _ hri hrj
    . rw [hpair.left, hpair'.left]
    . rw [hpair.right, hpair'.right]
  . intro record _ _
    refine ⟨?_, hkept.drives_le_one record.id⟩
    have hlog : b.log = c.world.2 := by
      rw [hkept.mailbag]
      rfl
    rw [← hlog]
    exact hkept.inv.queue.once record.id

open Scenario in
/--
The event is delivered twice at the same time, and a worker marks its record as processed.
-/
theorem webhook_at_most_once_redelivered
    : ∃ c : WatchedQueue deployment,
        (acknowledges ⟨0, 1⟩ false c = true ∧ acknowledges ⟨0, 2⟩ true c = true) ∧
          (c.world.1.webhookEvents.filter
              (fun e => e.gateway = .UPI ∧ e.eventId = "evt_1")).length ≤ 1 ∧
          ∀ record ∈ c.world.1.webhookEvents,
            (record.gateway, record.eventId) = (.UPI, "evt_1") →
              (c.world.2.filter (Mailbag.isPush record.id)).length ≤ 1 ∧
              (c.world.1.history.filter
                (startsDrive c.world.1.history record.id)).length ≤ 1 := by
  let acts : List Act := [.spawn ⟨0, 1⟩, .spawn ⟨0, 2⟩, .run ⟨0, 1⟩ { id := "record-1" },
    .run ⟨0, 2⟩ { id := "record-2" }] ++ steps ⟨0, 1⟩ 2 ++ [.spawn ⟨0, 0⟩] ++ steps ⟨0, 0⟩ 6
  have hrun : (watchedOutcome (fun _ _ => true) deliveries
      (watched acts)).any
        (fun c : WatchedQueue deployment => acknowledges ⟨0, 1⟩ false c && acknowledges ⟨0, 2⟩ true c) = true := by
    decide +kernel
  rcases exists_watched (P := fun _ _ => True) (fun _ _ _ => trivial) hrun with ⟨c, hc, hp⟩
  rw [Bool.and_eq_true] at hp
  have h := webhook_at_most_once hc.reachable .UPI "evt_1"
  exact ⟨c, hp, h.left, h.right.right⟩

end Watched

end PaymentOrchestration
