import PaymentOrchestration.Concurrency.Observed
import PaymentOrchestration.Scenario

/-!
This module contains the whole service together with an observer of its commands.
-/

namespace PaymentOrchestration

variable {Ω : Type} {D : Deployment}

abbrev Watched (D : Deployment) (sees : Pid → Cmd → Oracle → World → List Ω) :=
  ((machine D).observed sees).Config Reply

namespace Watched

variable {sees : Pid → Cmd → Oracle → World → List Ω}

def system (c : Watched D sees) : System D where
  world := c.world.1
  pool := c.pool

/--
The observer comes when the service has not started to work yet.
-/
structure Start (c : Watched D sees) : Prop where
  system : c.system.Start
  log : c.world.2 = []

def Reachable (tasks : Pid → Task) (c : Watched D sees) : Prop :=
  ∃ c₀ : Watched D sees, c₀.Start ∧
    ((machine D).observed sees).Run (fun i => (tasks i).program D) c₀ c

/--
The state `c` is reached by a run all of whose actions are admitted by `P`.
-/
def ReachableBy (tasks : Pid → Task)
    (P : Watched D sees → ((machine D).observed sees).Act → Prop) (c : Watched D sees) : Prop :=
  ∃ c₀ : Watched D sees, c₀.Start ∧
    ((machine D).observed sees).RunBy (fun i => (tasks i).program D) P c₀ c

variable {tasks : Pid → Task} {c : Watched D sees}

theorem ReachableBy.reachable {P : Watched D sees → ((machine D).observed sees).Act → Prop}
    (h : c.ReachableBy tasks P) : c.Reachable tasks := by
  rcases h with ⟨c₀, hstart, hrun⟩
  exact ⟨c₀, hstart, hrun.run⟩

theorem Reachable.tail (h : c.Reachable tasks) {a : ((machine D).observed sees).Act}
    {c' : Watched D sees}
    (hact : ((machine D).observed sees).act (fun i => (tasks i).program D) a c = some c')
    : c'.Reachable tasks := by
  rcases h with ⟨c₀, hstart, hrun⟩
  exact ⟨c₀, hstart, hrun.tail ⟨a, trivial, hact⟩⟩

theorem Reachable.system (h : c.Reachable tasks) : c.system.Reachable D tasks := by
  rcases h with ⟨c₀, hstart, hrun⟩
  exact ⟨c₀.system, hstart.system, Machine.run_unobserved hrun⟩

/--
Whatever the service can reach it can reach under observation.
-/
theorem exists_reachable {c : System D} (h : c.Reachable D tasks)
    : ∃ c' : Watched D sees, c'.system = c ∧ c'.Reachable tasks := by
  rcases h with ⟨c₀, hstart, hrun⟩
  let c₁ : Watched D sees := ⟨(c₀.world, []), c₀.pool⟩
  have hrun₁ : (machine D).Run (fun i => (tasks i).program D) c₁.unobserved c := hrun
  rcases Machine.exists_run_observed hrun₁ with ⟨c', hc', hrun'⟩
  exact ⟨c', hc', c₁, ⟨hstart, rfl⟩, hrun'⟩

end Watched

namespace Scenario

variable {sees : Pid → Cmd → Oracle → World → List Ω} {tasks : Pid → Task}

variable (sees) in
abbrev WatchedAct := ((machine deployment).observed sees).Act

variable (sees) in
def watchedStart : Watched deployment sees where
  world := (World.start seedStats, [])
  pool := fun _ => .idle

theorem watchedStart_start : (watchedStart sees).Start := by
  exact ⟨start_start, rfl⟩

def watchedOutcome (check : Watched deployment sees → WatchedAct sees → Bool)
    (tasks : Pid → Task) (acts : List (WatchedAct sees)) : Option (Watched deployment sees) :=
  ((machine deployment).observed sees).runActsIf (fun i => (tasks i).program deployment) check acts
    (watchedStart sees)

theorem exists_watched {P : Watched deployment sees → WatchedAct sees → Prop}
    {check : Watched deployment sees → WatchedAct sees → Bool}
    (hcheck : ∀ c a, check c a = true → P c a) {acts : List (WatchedAct sees)}
    {p : Watched deployment sees → Bool} (h : (watchedOutcome check tasks acts).any p = true)
    : ∃ c : Watched deployment sees, c.ReachableBy tasks P ∧ p c = true := by
  rcases Machine.exists_runBy_of_runActsIf (fun c a _ => hcheck c a) h with ⟨c, hrun, hp⟩
  exact ⟨c, ⟨watchedStart sees, watchedStart_start, hrun⟩, hp⟩

-- The same run under observation.
def watched (acts : List Act) : List (WatchedAct sees) :=
  acts.map Machine.Act.observed

def throws (i : Pid) (c : Watched deployment sees) : Bool :=
  match (c.pool i).result with
  | some (.error _) => true
  | _ => false

theorem exists_thrown {i : Pid} {c : Watched deployment sees} (h : throws i c = true)
    : ∃ e, (c.pool i).result = some (.error e) := by
  unfold throws at h
  split at h
  . next e he => exact ⟨e, he⟩
  . cases h

def acknowledges (i : Pid) (duplicate : Bool) (c : Watched deployment sees) : Bool :=
  match (c.pool i).result with
  | some (.ok (.duplicate b)) => b = duplicate
  | _ => false

theorem result_of_acknowledges {i : Pid} {duplicate : Bool} {c : Watched deployment sees}
    (h : acknowledges i duplicate c = true)
    : (c.pool i).result = some (.ok (.duplicate duplicate)) := by
  unfold acknowledges at h
  split at h
  . next b hb =>
    rw [decide_eq_true_eq] at h
    rw [hb, h]
  . cases h

-- The delivered event of the runs below, and who delivers it.
def captured : IncomingWebhook :=
  webhook "payment.captured" [("upi_txn_id", .str "upi-1")]

def deliveries (i : Pid) : Task :=
  if i.num = 0 then .pollQueue else .ingest captured

end Scenario

end PaymentOrchestration
