import PaymentOrchestration.Concurrency.Protocol
import PaymentOrchestration.Party.Ground
import PaymentOrchestration.Scenario
import PaymentOrchestration.Webhooks.MailbagRefinement
import PaymentOrchestration.Webhooks.WebhooksController

/-!
This module is about deliveries to the webhook endpoints that are taken for a duplicate. The unique
index compares the gateway and the event id, and the handlers make up an event id when the body has
none.
-/

namespace PaymentOrchestration

open Machine Protocol WebhooksController

structure Delivery where
  gateway : GatewayProvider
  request : WebhookRequest

namespace WebhooksController

/--
What the body itself says the event is called.
-/
def identifier (gateway : GatewayProvider) (body : Json) : Option Json :=
  match gateway with
  | .STRIPE => coalesce (body.field "id") none
  | .RAZORPAY | .UPI => coalesce (body.field "id") (coalesce (body.field "event_id") none)
  | .PAYU => coalesce (body.field "mihpayid") (coalesce (body.field "txnid") none)

-- The event type or the status.
def kind (gateway : GatewayProvider) (body : Json) : Option Json :=
  match gateway with
  | .STRIPE => coalesce (body.field "type") none
  | .RAZORPAY | .UPI => coalesce (body.field "event") none
  | .PAYU => coalesce (body.field "status") none

/--
Both bodies carry an identifier, it is the same one, and they agree in the type or status.
-/
structure SameNotice (D : Deployment) (gateway : GatewayProvider) (body body' : Json) : Prop where
  identifier : ∃ x y, identifier gateway body = some x ∧ identifier gateway body' = some y ∧
    D.bind x = D.bind y
  kind : (kind gateway body).map D.bind = (kind gateway body').map D.bind

end WebhooksController

section Deliveries

variable (D : Deployment) (R : Signing)

def Delivery.verified (delivery : Delivery) : Bool :=
  WebhooksController.verified D R delivery.gateway delivery.request

def Delivery.event (delivery : Delivery) : IncomingWebhook :=
  eventOf D delivery.gateway delivery.request.body true

def Delivery.program (delivery : Delivery) : Program Ack :=
  receive D R delivery.gateway delivery.request

abbrev Inbox := (machine D).Config Ack

variable (deliveries : Pid → Delivery)

/--
The state `c` is reached by some run of the deliveries.
-/
def Inbox.Reachable (c : Inbox D) : Prop :=
  ∃ (c₀ : Inbox D) (gatewayStats : List GatewayStats), (∀ i, c₀.pool i = .idle) ∧
    c₀.world = World.start gatewayStats ∧
    (machine D).Run (fun i => (deliveries i).program D R) c₀ c

/--
A delivery that is answered as a duplicate is one: another delivery of the same event is on record.
-/
def Inbox.DropsOnlyRedeliveries (c : Inbox D) : Prop :=
  ∀ i, (c.pool i).result = some (.ok (.received true)) →
    ∃ j record, j ≠ i ∧ record ∈ c.world.webhookEvents ∧
      record = ((deliveries j).event D).row record.id ∧
      (deliveries j).gateway = (deliveries i).gateway ∧
      SameNotice D (deliveries i).gateway (deliveries j).request.body (deliveries i).request.body

/--
The event gets as far as the unique index.
-/
def Delivery.Filed (delivery : Delivery) : Prop :=
  delivery.verified D R = true ∧ Exec.IncomingWebhook.fits D (delivery.event D) = true

/--
The event ids that the handlers make of the bodies tell different events of a gateway apart. A
duplicate whose id cannot be written as a text is not answered.
-/
def ToldApart : Prop :=
  ∀ i j, i ≠ j → (deliveries i).Filed D R → (deliveries j).Filed D R →
    ((deliveries i).event D).convertible = true →
    (deliveries j).gateway = (deliveries i).gateway →
    ((deliveries j).event D).eventId = ((deliveries i).event D).eventId →
    SameNotice D (deliveries i).gateway (deliveries j).request.body (deliveries i).request.body

end Deliveries

/-!
How far a delivery has got.
-/

inductive Filing where
  | refused
  | waiting (event : IncomingWebhook)
  -- The row may be there, it need not.
  | handled
  | repelled (event : IncomingWebhook)

namespace Filing

def allowed (filing : Filing) (cmd : Cmd) : Prop :=
  match cmd with
  | .insertEvent event => filing = .waiting event
  | .mock (.lpush _ _) | .client (.lpush _ _) => filing = .handled
  | _ => False

def answers (_ : Filing) (cmd : Cmd) (r : Except Err cmd.Resp) : Prop :=
  match cmd, r with
  | .mock _, .error _ => False
  | .client _, .error e => e = Exec.redisError
  | _, _ => True

def next (filing : Filing) (cmd : Cmd) (r : Except Err cmd.Resp) : Filing :=
  match cmd, r with
  | .insertEvent event, .error e =>
    if WebhooksService.isUniqueViolation e then .repelled event else .handled
  | .insertEvent _, .ok _ => .handled
  | _, _ => filing

end Filing

@[reducible]
def filingProtocol : Protocol Cmd Cmd.Resp Err where
  State := Filing
  allowed := Filing.allowed
  answers := Filing.answers
  next := Filing.next
  crash := id

namespace Delivery

variable {D : Deployment} {R : Signing}

variable (D R) in
def filing (delivery : Delivery) : Filing :=
  if delivery.verified D R then .waiting (delivery.event D) else .refused

variable (D) in
-- How a delivery may end.
def filed (delivery : Delivery) (r : Except Err Ack) (filing : Filing) : Prop :=
  r = .ok (.received true) →
    filing = .repelled (delivery.event D) ∧ (delivery.event D).convertible = true

theorem wp_pushEvent {id : String}
    : filingProtocol.wp (WebhooksService.pushEvent id)
        (fun r s => s = .handled ∧ ∀ e, r = .error e → e = Exec.redisError) .handled := by
  unfold WebhooksService.pushEvent RedisService.lpush
  rw [Prog.bind_def, wp_bind, Prog.bind_def, wp_bind]
  apply Protocol.wp_perform.mpr
  refine ⟨rfl, fun r hr => ?_⟩
  rcases r with e | _ | length
  . cases hr
  . dsimp only
    apply Protocol.wp_perform.mpr
    refine ⟨rfl, fun r hr => ?_⟩
    cases r with
    | error e =>
      refine ⟨rfl, ?_⟩
      rintro _ ⟨⟩
      exact hr
    | ok length => exact ⟨rfl, by simp⟩
  . exact ⟨rfl, by simp⟩

theorem wp_program (delivery : Delivery)
    : filingProtocol.wp (delivery.program D R) (delivery.filed D) (delivery.filing D R) := by
  unfold program receive filing Delivery.verified
  dsimp only
  cases hverified : WebhooksController.verified D R delivery.gateway delivery.request with
  | false =>
    rintro ⟨⟩
  | true =>
    unfold WebhooksService.ingest
    rw [if_neg (by simp), if_pos rfl, Prog.bind_def, wp_bind, Prog.tryCatch_def, wp_tryCatch,
      Prog.bind_def, wp_bind]
    apply Protocol.wp_perform.mpr
    refine ⟨rfl, fun r _ => ?_⟩
    cases r with
    | error e =>
      dsimp only
      split
      . next hunique =>
        split
        . next hconvertible =>
          intro _
          simp only [Filing.next, hunique, if_true]
          exact ⟨rfl, hconvertible⟩
        . rintro ⟨⟩
      . rintro ⟨⟩
    | ok record =>
      dsimp only
      rw [Prog.bind_def, wp_bind]
      apply wp_mono wp_pushEvent
      rintro r s ⟨_, hr⟩
      cases r with
      | ok _ => rintro ⟨⟩
      | error e =>
        rw [hr e rfl]
        rintro ⟨⟩

end Delivery

-- An event that does not fit gets no further than to the check of its columns.
theorem insertEvent_fits {D : Deployment} {event : IncomingWebhook} {o : Oracle} {w w' : World}
    {r : Except Err WebhookEvent} (h : Exec.insertEvent D event o w = some (r, w'))
    : Exec.IncomingWebhook.fits D event = true ∨ r = .error Exec.dataException := by
  unfold Exec.insertEvent at h
  split at h
  . cases h
  . split at h
    . injection h with h
      injection h with hr _
      exact .inr hr.symm
    . next hfits => exact .inl (by simpa using hfits)

namespace Inbox

variable {D : Deployment} {R : Signing} {deliveries : Pid → Delivery}

abbrev Files (D : Deployment) :=
  (machine D).Parties filingProtocol

/--
The rows come from deliveries that are through with their insert, and a delivery is repelled by the
row of another one.
-/
structure Inv (D : Deployment) (R : Signing) (deliveries : Pid → Delivery) (d : Files D) : Prop where
  records : ∀ record ∈ d.world.webhookEvents, ∃ j, d.state j = .handled ∧
    (deliveries j).Filed D R ∧ record = ((deliveries j).event D).row record.id
  waiting : ∀ i event, d.state i = .waiting event →
    event = (deliveries i).event D ∧ (deliveries i).verified D R = true
  repelled : ∀ i event, d.state i = .repelled event → (deliveries i).Filed D R ∧
    event = (deliveries i).event D ∧
    ∃ record ∈ d.world.webhookEvents, record.gateway = event.gateway ∧
      record.eventId = event.eventId

namespace Inv

variable {d : Files D}

theorem of_sameEvents (h : Inv D R deliveries d) {w : World}
    (hw : w.webhookEvents = d.world.webhookEvents)
    : Inv D R deliveries { d with world := w } := by
  refine ⟨?_, h.waiting, ?_⟩
  . dsimp only
    rw [hw]
    exact h.records
  . dsimp only
    rw [hw]
    exact h.repelled

theorem handle (h : Inv D R deliveries d) (i : Pid)
    : Inv D R deliveries ⟨d.world, Function.update d.state i .handled⟩ := by
  refine ⟨?_, ?_, ?_⟩
  . intro record hrecord
    rcases h.records record hrecord with ⟨j, hj, hrest⟩
    refine ⟨j, ?_, hrest⟩
    dsimp only
    rw [Function.update_apply]
    split
    . rfl
    . exact hj
  . intro j event' hj
    dsimp only at hj
    rw [Function.update_apply] at hj
    split at hj
    . cases hj
    . exact h.waiting j event' hj
  . intro j event' hj
    dsimp only at hj
    rw [Function.update_apply] at hj
    split at hj
    . cases hj
    . exact h.repelled j event' hj

theorem store (h : Inv D R deliveries d) {i : Pid} {event : IncomingWebhook} {id : String}
    (hstate : d.state i = .waiting event) (hfits : Exec.IncomingWebhook.fits D event = true)
    : Inv D R deliveries
        ⟨{ d.world with webhookEvents := d.world.webhookEvents ++ [event.row id] },
          Function.update d.state i .handled⟩ := by
  have hhandle := h.handle i
  rcases h.waiting i event hstate with ⟨hevent, hverified⟩
  refine ⟨?_, hhandle.waiting, ?_⟩
  . intro record hrecord
    rw [List.mem_append, List.mem_singleton] at hrecord
    rcases hrecord with hrecord | hrecord
    . exact hhandle.records record hrecord
    . subst hrecord hevent
      exact ⟨i, Function.update_self _ _ _, ⟨hverified, hfits⟩, rfl⟩
  . intro j event' hj
    rcases hhandle.repelled j event' hj with ⟨hfiled, hevent', record, hrecord, hkey⟩
    exact ⟨hfiled, hevent', record, List.mem_append_left _ hrecord, hkey⟩

theorem repel (h : Inv D R deliveries d) {i : Pid} {event : IncomingWebhook}
    (hstate : d.state i = .waiting event) (hfits : Exec.IncomingWebhook.fits D event = true)
    (hpair : (event.gateway, event.eventId) ∈
      d.world.webhookEvents.map (fun e => (e.gateway, e.eventId)))
    : Inv D R deliveries ⟨d.world, Function.update d.state i (.repelled event)⟩ := by
  rcases h.waiting i event hstate with ⟨hevent, hverified⟩
  refine ⟨?_, ?_, ?_⟩
  . intro record hrecord
    rcases h.records record hrecord with ⟨j, hj, hrest⟩
    refine ⟨j, ?_, hrest⟩
    dsimp only
    rw [Function.update_of_ne]
    . exact hj
    . intro heq
      rw [heq, hstate] at hj
      cases hj
  . intro j event' hj
    dsimp only at hj
    rw [Function.update_apply] at hj
    split at hj
    . cases hj
    . exact h.waiting j event' hj
  . intro j event' hj
    dsimp only at hj
    rw [Function.update_apply] at hj
    split at hj
    . next heq =>
      injection hj with hj
      subst hj heq hevent
      rw [List.mem_map] at hpair
      rcases hpair with ⟨record, hrecord, hkey⟩
      rw [Prod.mk.injEq] at hkey
      exact ⟨⟨hverified, hfits⟩, rfl, record, hrecord, hkey⟩
    . exact h.repelled j event' hj

theorem insert (h : Inv D R deliveries d) {i : Pid} {event : IncomingWebhook} {o : Oracle}
    {r : Except Err WebhookEvent} {w : World} (hstate : d.state i = .waiting event)
    (hexec : Exec.insertEvent D event o d.world = some (r, w))
    : Inv D R deliveries
        ⟨w, Function.update d.state i ((d.state i).next (.insertEvent event) r)⟩ := by
  have hfits := insertEvent_fits hexec
  rcases Exec.insertEvent_spec hexec with ⟨hw, e, hr, hpair⟩ | ⟨_, _, hw, hr⟩
  . subst hw hr
    simp only [Filing.next]
    split
    . next hunique =>
      apply h.repel hstate _ (hpair hunique)
      rcases hfits with hfits | hlong
      . exact hfits
      . injection hlong with hlong
        rw [hlong] at hunique
        cases hunique
    . exact h.handle i
  . subst hw
    rcases hr with hr | ⟨hr, _⟩
    . subst hr
      exact h.store hstate (hfits.resolve_right (by simp))
    . subst hr
      exact h.store hstate (hfits.resolve_right (by simp [Exec.connectionError, Exec.dataException]))

end Inv

theorem conforms
    : (machine D).Conforms (fun i => (deliveries i).program D R)
        (fun i => (deliveries i).filing D R) (fun i => (deliveries i).filed D)
        (Inv D R deliveries) where
  program := fun i => (deliveries i).wp_program
  crash_start := fun _ => rfl
  crash_fin := fun _ _ _ h => h
  answers := by
    intro d i cmd o r w _ hallowed hexec
    cases cmd with
    | mock op =>
      simp only [exec, Option.some.injEq, Prod.mk.injEq] at hexec
      rw [← hexec.left]
      trivial
    | client op =>
      cases r with
      | ok _ => trivial
      | error e =>
        rcases Exec.statement_cases hexec with ⟨_, hr | hr⟩ | ⟨_, hr⟩
        . cases hr
        . injection hr
        . injection hr
    | _ => trivial
  step := by
    intro d d' hinv hstep
    cases hstep with
    | run i cmd o r w hallowed hexec =>
      cases cmd with
      | insertEvent event => exact hinv.insert hallowed hexec
      | mock op =>
        have hnext : filingProtocol.next (d.state i) (.mock op) r = d.state i := by cases r <;> rfl
        rw [hnext, Function.update_eq_self]
        apply hinv.of_sameEvents
        simp only [exec, Option.some.injEq, Prod.mk.injEq] at hexec
        rw [← hexec.right]
        unfold Exec.mock
        dsimp only
        split <;> rfl
      | client op =>
        have hnext : filingProtocol.next (d.state i) (.client op) r = d.state i := by cases r <;> rfl
        rw [hnext, Function.update_eq_self]
        apply hinv.of_sameEvents
        rcases Exec.statement_cases hexec with ⟨hw, _⟩ | ⟨hw, _⟩
        all_goals
          rw [hw]
      | _ => exact hallowed.elim
    | env e w henv => exact hinv.of_sameEvents (env_tables henv).webhookEvents
    | crash n =>
      have hcrash : d.crash n = { d with world := crashInst n d.world } := by
        simp [Parties.crash]
      rw [hcrash]
      exact hinv.of_sameEvents rfl

theorem Reachable.exists_inv {c : Inbox D} (h : c.Reachable D R deliveries)
    : ∃ d : Files D, c.world = d.world ∧ Inv D R deliveries d ∧
        ∀ i, (c.pool i).result = some (.ok (.received true)) →
          d.state i = .repelled ((deliveries i).event D) ∧
            ((deliveries i).event D).convertible = true := by
  rcases h with ⟨c₀, gatewayStats, hidle, hworld, hrun⟩
  let d₀ : Files D := ⟨c₀.world, fun i => (deliveries i).filing D R⟩
  have hsim : Simulates (fun i => (deliveries i).filing D R) (fun i => (deliveries i).filed D) c₀
      d₀ := by
    refine ⟨rfl, fun i => ?_⟩
    rw [hidle i]
    rfl
  have hinv : Inv D R deliveries d₀ := by
    have hfiling : ∀ i, d₀.state i = .refused ∨ d₀.state i = .waiting ((deliveries i).event D) ∧
        (deliveries i).verified D R = true := by
      intro i
      change (deliveries i).filing D R = _ ∨ (deliveries i).filing D R = _ ∧ _
      unfold Delivery.filing
      split
      . next hverified => exact .inr ⟨rfl, hverified⟩
      . exact .inl rfl
    refine ⟨?_, ?_, ?_⟩
    . intro record hrecord
      rw [show d₀.world = c₀.world from rfl, hworld] at hrecord
      cases hrecord
    . intro i event hi
      rcases hfiling i with hi' | ⟨hi', hverified⟩
      all_goals
        rw [hi] at hi'
      . cases hi'
      . injection hi' with heq
        exact ⟨heq, hverified⟩
    . intro i event hi
      rcases hfiling i with hi' | ⟨hi', _⟩
      all_goals
        rw [hi] at hi'
        cases hi'
  rcases hsim.run conforms hinv hrun with ⟨d, hrun', hsim'⟩
  refine ⟨d, hsim'.world, conforms.invariant hinv hrun', ?_⟩
  intro i hi
  exact hsim'.result hi rfl

/--
What is told apart is not dropped.
-/
theorem Reachable.dropsOnlyRedeliveries {c : Inbox D} (h : c.Reachable D R deliveries)
    (happart : ToldApart D R deliveries) : c.DropsOnlyRedeliveries D deliveries := by
  rcases h.exists_inv with ⟨d, hworld, hinv, hresult⟩
  intro i hi
  rcases hresult i hi with ⟨hrepelled, hconvertible⟩
  rcases hinv.repelled i _ hrepelled with ⟨hfiled, _, record, hrecord, hgateway, heventId⟩
  rcases hinv.records record hrecord with ⟨j, hj, hfiled', heq⟩
  have hne : j ≠ i := by
    intro hji
    rw [hji, hrepelled] at hj
    cases hj
  have hevent : ((deliveries j).event D).gateway = ((deliveries i).event D).gateway := by
    rw [heq] at hgateway
    exact hgateway
  have hid : ((deliveries j).event D).eventId = ((deliveries i).event D).eventId := by
    rw [heq] at heventId
    exact heventId
  have hof : ∀ delivery : Delivery, (delivery.event D).gateway = delivery.gateway := by
    intro delivery
    unfold Delivery.event eventOf
    cases delivery.gateway <;> rfl
  rw [hof, hof] at hevent
  have hsame := happart i j hne.symm hfiled hfiled' hconvertible hevent hid
  refine ⟨j, record, hne, ?_, heq, hevent, hsame⟩
  rw [hworld]
  exact hrecord

/-!
Two deliveries that get one event id, one after the other.
-/

theorem program_eq {delivery : Delivery} (h : delivery.verified D R = true)
    : ∃ k, delivery.program D R = .op (.insertEvent (delivery.event D)) k ∧
        ((delivery.event D).convertible = true →
          k (.error Exec.uniqueViolation) = .pure (.received true)) := by
  have hverified : verified D R delivery.gateway delivery.request = true := h
  unfold Delivery.program receive
  simp only [hverified]
  refine ⟨_, rfl, fun hconvertible => ?_⟩
  change Prog.bind (if (delivery.event D).convertible = true then (pure true : Program Bool)
    else throw .cannotConvert) (fun duplicate => pure (Ack.received duplicate)) =
      .pure (Ack.received true)
  rw [if_pos hconvertible]
  rfl

theorem exists_duplicate {i j : Pid} (hne : i ≠ j) (hi : (deliveries i).Filed D R)
    (hj : (deliveries j).Filed D R) (hconvertible : ((deliveries i).event D).convertible = true)
    (hgateway : ((deliveries j).event D).gateway = ((deliveries i).event D).gateway)
    (heventId : ((deliveries j).event D).eventId = ((deliveries i).event D).eventId)
    : ∃ c : Inbox D, c.Reachable D R deliveries ∧
        (c.pool i).result = some (.ok (.received true)) ∧
        c.world.webhookEvents = [((deliveries j).event D).row "1"] := by
  rcases program_eq hi.left with ⟨ki, hki, hduplicate⟩
  rcases program_eq hj.left with ⟨kj, hkj, _⟩
  have hduplicate := hduplicate hconvertible
  let row := ((deliveries j).event D).row "1"
  let w : World := { World.start [] with webhookEvents := [row] }
  let c₀ : Inbox D := ⟨World.start [], fun _ => .idle⟩
  let c₁ : Inbox D := ⟨c₀.world, Function.update c₀.pool j (.running ((deliveries j).program D R))⟩
  let c₂ : Inbox D := ⟨w, Function.update c₁.pool j (.running (kj (.ok row)))⟩
  let c₃ : Inbox D := ⟨w, Function.update c₂.pool i (.running ((deliveries i).program D R))⟩
  let c₄ : Inbox D := ⟨w, Function.update c₃.pool i
    (.running (ki (.error Exec.uniqueViolation)))⟩
  have hrecord : exec D j (.insertEvent ((deliveries j).event D)) { id := "1" } (World.start []) =
      some (.ok row, w) := by
    simp [exec, Exec.insertEvent, hj.right, World.start, Exec.statement, row, w]
  have hrepel : exec D i (.insertEvent ((deliveries i).event D)) { id := "2" } w =
      some (.error Exec.uniqueViolation, w) := by
    simp [exec, Exec.insertEvent, hi.right, row, w, IncomingWebhook.row, hgateway, heventId]
  have h₁ : (machine D).act (fun i => (deliveries i).program D R) (.spawn j) c₀ = some c₁ := by
    simp [act, c₀, c₁]
  have h₂ : (machine D).act (fun i => (deliveries i).program D R) (.run j { id := "1" }) c₁ =
      some c₂ := by
    simp [act, c₀, c₁, c₂, hkj, hrecord]
  have h₃ : (machine D).act (fun i => (deliveries i).program D R) (.spawn i) c₂ = some c₃ := by
    simp [act, c₀, c₁, c₂, c₃, hne]
  have h₄ : (machine D).act (fun i => (deliveries i).program D R) (.run i { id := "2" }) c₃ =
      some c₄ := by
    simp [act, c₂, c₃, c₄, hki, hrepel]
  refine ⟨c₄, ⟨c₀, [], fun _ => rfl, rfl, ?_⟩, ?_, rfl⟩
  . exact (((Relation.ReflTransGen.single ⟨_, trivial, h₁⟩).tail ⟨_, trivial, h₂⟩).tail
      ⟨_, trivial, h₃⟩).tail ⟨_, trivial, h₄⟩
  . simp [c₄, hduplicate, Proc.result]

theorem body_of_row {delivery delivery' : Delivery} {id id' : String}
    (h : (delivery.event D).row id = (delivery'.event D).row id')
    : delivery.request.body = delivery'.request.body := by
  have hpayload : ∀ delivery : Delivery, (delivery.event D).payload = delivery.request.body := by
    intro delivery
    unfold Delivery.event eventOf
    cases delivery.gateway <;> rfl
  rw [← hpayload, ← hpayload]
  exact congrArg WebhookEvent.payload h

end Inbox

variable {D : Deployment} {R : Signing} {deliveries : Pid → Delivery}

/--
Deduplication drops redeliveries only if, and only if, the event ids that the handlers make of the
bodies tell different events apart.
-/
theorem drops_only_redeliveries_iff
    : (∀ c : Inbox D, c.Reachable D R deliveries → c.DropsOnlyRedeliveries D deliveries) ↔
        ToldApart D R deliveries := by
  constructor
  . intro h i j hne hi hj hconvertible hgateway heventId
    have hof : ∀ delivery : Delivery, (delivery.event D).gateway = delivery.gateway := by
      intro delivery
      unfold Delivery.event eventOf
      cases delivery.gateway <;> rfl
    have hgateways : ((deliveries j).event D).gateway = ((deliveries i).event D).gateway := by
      rw [hof, hof]
      exact hgateway
    rcases Inbox.exists_duplicate hne hi hj hconvertible hgateways heventId with
      ⟨c, hc, hresult, hrecords⟩
    rcases h c hc i hresult with ⟨k, record, _, hrecord, heq, _, hsame⟩
    rw [hrecords, List.mem_singleton] at hrecord
    rw [hrecord] at heq
    rw [Inbox.body_of_row heq]
    exact hsame
  . intro happart c hc
    exact hc.dropsOnlyRedeliveries happart

namespace Scenario

-- The endpoint has a placeholder for its secret, so none of this is called.
def signing : Signing where
  base64 := id
  sha512 := id
  toLowerCase := id
  toText := fun _ => ""
  hmacSha256 := fun _ body => body

-- PayU tells about one payment twice.
def payuNotice (status : String) : Delivery where
  gateway := .PAYU
  request :=
    { body := .obj [("mihpayid", .str "403993"), ("txnid", .str "order-7"), ("status", .str status)]
      rawBody := none
      header := fun _ => none }

def notices (i : Pid) : Delivery :=
  if i.num = 0 then payuNotice "pending" else payuNotice "success"

end Scenario

open Scenario in
/--
The payment has succeeded, and the notice about it is dropped because of an earlier one that said
that it was pending.
-/
theorem second_status_dropped
    : ¬∀ c : Inbox deployment, c.Reachable deployment signing notices →
        c.DropsOnlyRedeliveries deployment notices := by
  intro h
  have hfiled : ∀ i, (notices i).Filed deployment signing := by
    intro i
    unfold notices
    split <;> exact ⟨rfl, by decide⟩
  have hne : (⟨0, 1⟩ : Pid) ≠ ⟨0, 0⟩ := by decide
  rcases Inbox.exists_duplicate hne (hfiled _) (hfiled _) rfl rfl rfl with
    ⟨c, hc, hresult, hrecords⟩
  rcases h c hc _ hresult with ⟨k, record, _, hrecord, heq, _, hsame⟩
  rw [hrecords, List.mem_singleton] at hrecord
  rw [hrecord] at heq
  have hkind := hsame.kind
  rw [← Inbox.body_of_row heq] at hkind
  exact absurd hkind (by decide)

end PaymentOrchestration
