import PaymentOrchestration.Transactions.TransactionsService
import PaymentOrchestration.Webhooks.WebhooksService

/-!
This module contains the whole service: any number of calls of `create`, of deliveries of webhooks
and of rounds of the reconciliation worker, on any number of instances.
-/

namespace PaymentOrchestration

inductive Task where
  | create (dto : CreateTransactionDto)
  | ingest (event : IncomingWebhook)
  | pollQueue

inductive Reply where
  | transaction (transaction : Transaction)
  | duplicate (duplicate : Bool)
  | done

def Task.program (D : Deployment) (task : Task) : Program Reply :=
  match task with
  | .create dto => do return .transaction (← TransactionsService.create D dto)
  | .ingest event => do return .duplicate (← WebhooksService.ingest event)
  | .pollQueue => do
    ReconciliationWorker.pollQueue D
    return .done

/--
The world of a freshly migrated database and a fresh Redis. The migration seeds `gateway_stats`,
which may have been edited by hand since.
-/
def World.start (gatewayStats : List GatewayStats) : World where
  clock := 0
  redis := ⟨fun _ => none, fun _ => []⟩
  mem := fun _ => ⟨false, fun _ => none⟩
  ledger := ⟨[], [], fun _ => none, fun _ => none⟩
  webhookEvents := []
  gatewayStats := gatewayStats
  charges := []
  history := []

-- The rows the migration inserts.
def seedStats : List GatewayStats :=
  [(.STRIPE, 290), (.RAZORPAY, 200), (.PAYU, 190), (.UPI, 50)].map fun (gateway, costBps) =>
    ⟨gateway, 0, 0, 0, costBps, .CLOSED, 0⟩

abbrev System (D : Deployment) := (machine D).Config Reply

/--
A service that has not started to work yet.
-/
structure System.Start (D : Deployment) (c : System D) : Prop where
  idle : ∀ i, c.pool i = .idle
  -- the primary key of `gateway_stats`
  world : ∃ gatewayStats, (gatewayStats.map GatewayStats.gateway).Nodup ∧
    c.world = World.start gatewayStats

/--
`tasks` says what each process does. The state `c` is reached by some run of all of them.
-/
def System.Reachable (D : Deployment) (tasks : Pid → Task) (c : System D) : Prop :=
  ∃ c₀ : System D, c₀.Start ∧ (machine D).Run (fun i => (tasks i).program D) c₀ c

theorem System.Reachable.tail {D : Deployment} {tasks : Pid → Task} {c c' : System D}
    (h : c.Reachable D tasks) {a : (machine D).Act}
    (hact : (machine D).act (fun i => (tasks i).program D) a c = some c') : c'.Reachable D tasks := by
  rcases h with ⟨c₀, hstart, hrun⟩
  exact ⟨c₀, hstart, hrun.tail ⟨a, trivial, hact⟩⟩

/--
The state `c` is reached by a run all of whose actions are admitted by `P`.
-/
def System.ReachableBy (D : Deployment) (tasks : Pid → Task)
    (P : System D → (machine D).Act → Prop) (c : System D) : Prop :=
  ∃ c₀ : System D, c₀.Start ∧ (machine D).RunBy (fun i => (tasks i).program D) P c₀ c

theorem System.ReachableBy.reachable {D : Deployment} {tasks : Pid → Task}
    {P : System D → (machine D).Act → Prop} {c : System D} (h : c.ReachableBy D tasks P)
    : c.Reachable D tasks := by
  rcases h with ⟨c₀, hstart, hrun⟩
  exact ⟨c₀, hstart, hrun.run⟩

theorem System.ReachableBy.trans {D : Deployment} {tasks : Pid → Task}
    {P : System D → (machine D).Act → Prop} {c c' : System D} (h : c.ReachableBy D tasks P)
    (hrun : (machine D).RunBy (fun i => (tasks i).program D) P c c')
    : c'.ReachableBy D tasks P := by
  rcases h with ⟨c₀, hstart, hrun₀⟩
  exact ⟨c₀, hstart, hrun₀.trans hrun⟩

/--
What holds at the start and is kept by every admitted action that is taken from a state that can be
reached holds whenever only such actions are taken.
-/
theorem System.ReachableBy.induction {D : Deployment} {tasks : Pid → Task}
    {P : System D → (machine D).Act → Prop} {Q : System D → Prop} {c : System D}
    (h : c.ReachableBy D tasks P) (hstart : ∀ c, c.Start → Q c)
    (hstep : ∀ c c' a, c.ReachableBy D tasks P → Q c → P c a →
      (machine D).act (fun i => (tasks i).program D) a c = some c' → Q c') : Q c := by
  rcases h with ⟨c₀, hc₀, hrun⟩
  induction hrun with
  | refl => exact hstart c₀ hc₀
  | tail hrun hact ih =>
    rcases hact with ⟨a, hP, hact⟩
    exact hstep _ _ a ⟨c₀, hc₀, hrun⟩ ih hP hact

end PaymentOrchestration
