import PaymentOrchestration.Gateways.RoutingEngine
import PaymentOrchestration.System

/-!
This module contains a small deployment whose runs can be computed.
-/

namespace PaymentOrchestration

namespace Scenario

def deployment : Deployment where
  env := fun name => if name = "NODE_ENV" then some "test" else none
  score := RoutingEngine.exactScore
  bindText := fun _ => ""
  jsonb := fun _ => true

abbrev Act := (machine deployment).Act

def start : System deployment where
  world := World.start seedStats
  pool := fun _ => .idle

theorem start_start : start.Start := by
  refine ⟨fun _ => rfl, seedStats, ?_, rfl⟩
  decide

def outcome (tasks : Pid → Task) (acts : List Act) : Option (System deployment) :=
  (machine deployment).runActs (fun i => (tasks i).program deployment) acts start

theorem exists_reachable {tasks : Pid → Task} {acts : List Act} {p : System deployment → Bool}
    (h : (outcome tasks acts).any p = true)
    : ∃ c : System deployment, c.Reachable deployment tasks ∧ p c = true := by
  rcases Machine.exists_run_of_runActs h with ⟨c, hrun, hp⟩
  exact ⟨c, ⟨start, start_start, hrun⟩, hp⟩

def outcomeIf (check : System deployment → Act → Bool) (tasks : Pid → Task) (acts : List Act)
    : Option (System deployment) :=
  (machine deployment).runActsIf (fun i => (tasks i).program deployment) check acts start

theorem exists_reachableBy {P : System deployment → Act → Prop}
    {check : System deployment → Act → Bool} (hcheck : ∀ c a, check c a = true → P c a)
    {tasks : Pid → Task} {acts : List Act} {p : System deployment → Bool}
    (h : (outcomeIf check tasks acts).any p = true)
    : ∃ c : System deployment, c.ReachableBy deployment tasks P ∧ p c = true := by
  rcases Machine.exists_runBy_of_runActsIf (fun c a _ => hcheck c a) h with ⟨c, hrun, hp⟩
  exact ⟨c, ⟨start, start_start, hrun⟩, hp⟩

def order : CreateTransactionDto where
  idempotencyKey := "order-7"
  merchantId := "shop"
  amount := 1015
  currency := "USD"

-- Process `i` takes its next `n` steps, and nothing goes wrong.
def steps (i : Pid) (n : Nat) : List Act :=
  List.replicate n (.run i {})

-- A call of `create` up to the point where its first charge has been sent.
def upToCharge (i : Pid) (id : String) : List Act :=
  .spawn i :: steps i 4 ++ [.run i { id := id }] ++ steps i 15

-- What the sandbox of a gateway answers when it accepts a payment.
def accepted (gatewayTxnId : String) : GatewayChargeResponse where
  success := true
  gatewayTxnId := some (some gatewayTxnId)
  rawResponse := .null
  error := none
  latencyMs := 5

def declined (error : String) : GatewayChargeResponse where
  success := false
  gatewayTxnId := some none
  rawResponse := .null
  error := some error
  latencyMs := 5

-- Process 0 creates the payment, 1 delivers a webhook about it and 2 works on the queue.
def tasks (event : IncomingWebhook) (i : Pid) : Task :=
  match i.num with
  | 0 => .create order
  | 1 => .ingest event
  | _ => .pollQueue

def webhook (eventType : String) (fields : List (String × Json)) : IncomingWebhook where
  gateway := .UPI
  eventId := "evt_1"
  eventType := eventType
  payload := .obj fields
  signatureVerified := true

-- The webhook is stored and queued.
def deliver : List Act :=
  [.spawn ⟨0, 1⟩, .run ⟨0, 1⟩ { id := "record-1" }] ++ steps ⟨0, 1⟩ 2

def settle (n : Nat) (status : ChargeStatus) : Act :=
  .env (.settle n status)

def loads (i : Pid) (eventType : String) (w : World) : Bool :=
  w.history.any fun event =>
    match event with
    | .loaded j event => j = i ∧ event.eventType = eventType
    | _ => false

def commits (i : Pid) (toState : TransactionState) (w : World) : Bool :=
  w.history.any fun event =>
    match event with
    | .committed j audit => j = i ∧ audit.toState = toState
    | _ => false

def returns (i : Pid) (state : TransactionState) (c : System deployment) : Bool :=
  match (c.pool i).result with
  | some (.ok (.transaction t)) => t.currentState = state
  | _ => false

theorem exists_returned {i : Pid} {state : TransactionState} {c : System deployment}
    (h : returns i state c = true)
    : ∃ t, (c.pool i).result = some (.ok (.transaction t)) ∧ t.currentState = state := by
  unfold returns at h
  split at h
  . next t ht => exact ⟨t, ht, of_decide_eq_true h⟩
  . cases h

theorem exists_loaded {i : Pid} {eventType : String} {w : World} (h : loads i eventType w = true)
    : ∃ event, .loaded i event ∈ w.history ∧ event.eventType = eventType := by
  simp only [loads, List.any_eq_true] at h
  rcases h with ⟨event, hevent, h⟩
  cases event with
  | loaded j event =>
    simp only [decide_eq_true_eq] at h
    rcases h with ⟨hj, htype⟩
    subst hj
    exact ⟨event, hevent, htype⟩
  | _ => cases h

theorem exists_committed {i : Pid} {toState : TransactionState} {w : World}
    (h : commits i toState w = true)
    : ∃ audit, .committed i audit ∈ w.history ∧ audit.toState = toState := by
  simp only [commits, List.any_eq_true] at h
  rcases h with ⟨event, hevent, h⟩
  cases event with
  | committed j audit =>
    simp only [decide_eq_true_eq] at h
    rcases h with ⟨hj, hto⟩
    subst hj
    exact ⟨audit, hevent, hto⟩
  | _ => cases h

end Scenario

end PaymentOrchestration
