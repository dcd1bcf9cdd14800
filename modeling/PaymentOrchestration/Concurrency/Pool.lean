import Mathlib.Logic.Relation
import PaymentOrchestration.Concurrency.Program

/-!
This module contains the interleaving semantics of a pool of programs over one shared world: any
process may take the next step, the environment may change the world between any two steps and a
node may go down with the processes it runs.
-/

/--
A shared world and what commands do to it. Everything a command does not decide by itself is given
by an oracle, so that a run can be computed from the list of its actions.
-/
structure Machine (Cmd : Type) (Resp : Cmd → Type) (ε : Type) where
  World : Type
  Pid : Type
  Node : Type
  Oracle : Type
  Env : Type
  [decEqPid : DecidableEq Pid]
  [decEqNode : DecidableEq Node]
  node : Pid → Node
  /-- `none` where the command cannot be answered that way in this world. -/
  exec : Pid → (c : Cmd) → Oracle → World → Option (Except ε (Resp c) × World)
  env : Env → World → Option World
  crash : Node → World → World

namespace Machine

variable {Cmd : Type} {Resp : Cmd → Type} {ε : Type} {α : Type}

instance (M : Machine Cmd Resp ε) : DecidableEq M.Pid := M.decEqPid

instance (M : Machine Cmd Resp ε) : DecidableEq M.Node := M.decEqNode

inductive Proc (Cmd : Type) (Resp : Cmd → Type) (ε : Type) (α : Type) where
  | idle
  | running (p : Prog Cmd Resp ε α)
  | dead

namespace Proc

/--
What a process has finished with.
-/
def result (proc : Proc Cmd Resp ε α) : Option (Except ε α) :=
  match proc with
  | .running (.pure a) => some (.ok a)
  | .running (.throw e) => some (.error e)
  | _ => none

/--
The process has commands or branches ahead of it.
-/
def busy (proc : Proc Cmd Resp ε α) : Bool :=
  match proc with
  | .running (.op _ _) => true
  | .running (.alt _ _) => true
  | _ => false

/--
A process that has finished has answered its caller, nothing of it is lost when its node goes down.
-/
def crash (proc : Proc Cmd Resp ε α) : Proc Cmd Resp ε α :=
  match proc with
  | .running (.op _ _) => .dead
  | .running (.alt _ _) => .dead
  | _ => proc

end Proc

structure Config (M : Machine Cmd Resp ε) (α : Type) where
  world : M.World
  pool : M.Pid → Proc Cmd Resp ε α

inductive Act (M : Machine Cmd Resp ε) where
  | spawn (i : M.Pid)
  | run (i : M.Pid) (o : M.Oracle)
  | left (i : M.Pid)
  | right (i : M.Pid)
  | env (e : M.Env)
  | crash (n : M.Node)

variable (M : Machine Cmd Resp ε) (program : M.Pid → Prog Cmd Resp ε α)

/--
Perform one action. Process `i` runs `program i`.
-/
def act (a : M.Act) (c : M.Config α) : Option (M.Config α) :=
  match a with
  | .spawn i =>
    match c.pool i with
    | .idle => some { c with pool := Function.update c.pool i (.running (program i)) }
    | _ => none
  | .run i o =>
    match c.pool i with
    | .running (.op cmd k) =>
      match M.exec i cmd o c.world with
      | some (r, w) => some { world := w, pool := Function.update c.pool i (.running (k r)) }
      | none => none
    | _ => none
  | .left i =>
    match c.pool i with
    | .running (.alt p _) => some { c with pool := Function.update c.pool i (.running p) }
    | _ => none
  | .right i =>
    match c.pool i with
    | .running (.alt _ q) => some { c with pool := Function.update c.pool i (.running q) }
    | _ => none
  | .env e =>
    match M.env e c.world with
    | some w => some { c with world := w }
    | none => none
  | .crash n =>
    some {
      world := M.crash n c.world
      pool := fun i => if M.node i = n then (c.pool i).crash else c.pool i
    }

/--
Perform a list of actions, one after the other.
-/
def runActs (acts : List M.Act) (c : M.Config α) : Option (M.Config α) :=
  match acts with
  | [] => some c
  | a :: acts =>
    match M.act program a c with
    | some c => runActs acts c
    | none => none

/--
Perform a list of actions as long as `check` admits them.
-/
def runActsIf (check : M.Config α → M.Act → Bool) (acts : List M.Act) (c : M.Config α)
    : Option (M.Config α) :=
  match acts with
  | [] => some c
  | a :: acts =>
    if check c a then
      match M.act program a c with
      | some c => runActsIf check acts c
      | none => none
    else
      none

/--
One step of the pool by an action that `P` admits.
-/
def Step (P : M.Config α → M.Act → Prop) (c c' : M.Config α) : Prop :=
  ∃ a, P c a ∧ M.act program a c = some c'

abbrev RunBy (P : M.Config α → M.Act → Prop) : M.Config α → M.Config α → Prop :=
  Relation.ReflTransGen (M.Step program P)

/--
`c'` is reached from `c` by a run, of any length and interleaving.
-/
abbrev Run : M.Config α → M.Config α → Prop :=
  M.RunBy program (fun _ _ => True)

variable {M} {program}

theorem Step.mono {P Q : M.Config α → M.Act → Prop} {c c' : M.Config α} (h : ∀ c a, P c a → Q c a)
    (hstep : M.Step program P c c') : M.Step program Q c c' := by
  rcases hstep with ⟨a, hP, hact⟩
  exact ⟨a, h c a hP, hact⟩

theorem RunBy.run {P : M.Config α → M.Act → Prop} {c c' : M.Config α}
    (h : M.RunBy program P c c') : M.Run program c c' := by
  apply Relation.ReflTransGen.mono _ _ _ h
  intro _ _ hstep
  exact hstep.mono (by simp)

/--
Every action of a run is taken between two parts of the run.
-/
theorem RunBy.between {P : M.Config α → M.Act → Prop} {c c' : M.Config α}
    (h : M.RunBy program P c c')
    : M.RunBy program
        (fun c₁ a => P c₁ a ∧ M.RunBy program P c c₁ ∧
          ∀ c₂, M.act program a c₁ = some c₂ → M.RunBy program P c₂ c')
        c c' := by
  induction h with
  | refl => exact .refl
  | @tail c₁ c₂ hrun hstep ih =>
    apply Relation.ReflTransGen.tail
    . apply Relation.ReflTransGen.mono _ _ _ ih
      intro _ _ hstep'
      apply hstep'.mono
      intro c₃ a ha
      refine ⟨ha.left, ha.right.left, fun c₄ hact => ?_⟩
      exact (ha.right.right c₄ hact).tail hstep
    . rcases hstep with ⟨a, ha, hact⟩
      refine ⟨a, ⟨ha, hrun, fun c₃ hact' => ?_⟩, hact⟩
      rw [hact] at hact'
      injection hact' with hact'
      subst hact'
      exact .refl

/--
What an action does to the world.
-/
theorem act_world {a : M.Act} {c c' : M.Config α} (h : M.act program a c = some c')
    : c'.world = c.world ∨
        (∃ i o cmd k r, a = .run i o ∧ c.pool i = .running (.op cmd k) ∧
          M.exec i cmd o c.world = some (r, c'.world)) ∨
        (∃ e, a = .env e ∧ M.env e c.world = some c'.world) ∨
        ∃ n, a = .crash n ∧ c'.world = M.crash n c.world := by
  cases a with
  | run i o =>
    simp only [act] at h
    split at h
    . next cmd k hop =>
      split at h
      . next r w hexec =>
        injection h with h
        subst h
        exact .inr (.inl ⟨i, o, cmd, k, r, rfl, hop, hexec⟩)
      . cases h
    . cases h
  | env e =>
    simp only [act] at h
    split at h
    . next w henv =>
      injection h with h
      subst h
      exact .inr (.inr (.inl ⟨e, rfl, henv⟩))
    . cases h
  | crash n =>
    injection h with h
    subst h
    exact .inr (.inr (.inr ⟨n, rfl, rfl⟩))
  | _ =>
    simp only [act] at h
    split at h
    . injection h with h
      subst h
      exact .inl rfl
    . cases h

theorem run_of_runActs {acts : List M.Act} {c c' : M.Config α}
    (h : M.runActs program acts c = some c') : M.Run program c c' := by
  induction acts generalizing c with
  | nil =>
    simp only [runActs, Option.some.injEq] at h
    rw [h]
  | cons a acts ih =>
    unfold runActs at h
    split at h
    . next c₁ hact =>
      apply Relation.ReflTransGen.head _ (ih h)
      exact ⟨a, trivial, hact⟩
    . simp at h

/--
A run that can be computed witnesses that what it ends in is reachable.
-/
theorem exists_run_of_runActs {acts : List M.Act} {c : M.Config α} {p : M.Config α → Bool}
    (h : (M.runActs program acts c).any p = true) : ∃ c', M.Run program c c' ∧ p c' = true := by
  cases hrun : M.runActs program acts c with
  | none => simp [hrun] at h
  | some c' =>
    refine ⟨c', run_of_runActs hrun, ?_⟩
    simpa [hrun] using h

theorem runBy_of_runActsIf {P : M.Config α → M.Act → Prop} {check : M.Config α → M.Act → Bool}
    {acts : List M.Act} (hcheck : ∀ c, ∀ a ∈ acts, check c a = true → P c a) {c c' : M.Config α}
    (h : M.runActsIf program check acts c = some c') : M.RunBy program P c c' := by
  induction acts generalizing c with
  | nil =>
    simp only [runActsIf, Option.some.injEq] at h
    rw [h]
  | cons a acts ih =>
    unfold runActsIf at h
    split at h
    . next ha =>
      split at h
      . next c₁ hact =>
        have hrest := ih (fun c a ha => hcheck c a (List.mem_cons_of_mem _ ha)) h
        apply Relation.ReflTransGen.head _ hrest
        exact ⟨a, hcheck c a List.mem_cons_self ha, hact⟩
      . cases h
    . cases h

theorem exists_runBy_of_runActsIf {P : M.Config α → M.Act → Prop}
    {check : M.Config α → M.Act → Bool} {acts : List M.Act}
    (hcheck : ∀ c, ∀ a ∈ acts, check c a = true → P c a) {c : M.Config α} {p : M.Config α → Bool}
    (h : (M.runActsIf program check acts c).any p = true)
    : ∃ c', M.RunBy program P c c' ∧ p c' = true := by
  cases hrun : M.runActsIf program check acts c with
  | none => simp [hrun] at h
  | some c' =>
    refine ⟨c', runBy_of_runActsIf hcheck hrun, ?_⟩
    simpa [hrun] using h

/--
Only a process that has not started yet is idle.
-/
theorem act_idle {a : M.Act} {c c' : M.Config α} (h : M.act program a c = some c') (i : M.Pid)
    : c'.pool i = .idle ↔ c.pool i = .idle ∧ a ≠ .spawn i := by
  cases a with
  | spawn j =>
    simp only [act] at h
    split at h
    . injection h with h
      subst h
      by_cases hj : i = j
      . simp [hj]
      . simp [hj, Ne.symm hj]
    . cases h
  | run j o =>
    simp only [act] at h
    split at h
    . next cmd k hop =>
      split at h
      . injection h with h
        subst h
        by_cases hj : i = j
        . subst hj
          simp [hop]
        . simp [hj]
      . cases h
    . cases h
  | left j =>
    simp only [act] at h
    split at h
    . next hop =>
      injection h with h
      subst h
      by_cases hj : i = j
      . subst hj
        simp [hop]
      . simp [hj]
    . cases h
  | right j =>
    simp only [act] at h
    split at h
    . next hop =>
      injection h with h
      subst h
      by_cases hj : i = j
      . subst hj
        simp [hop]
      . simp [hj]
    . cases h
  | env e =>
    simp only [act] at h
    split at h
    . injection h with h
      subst h
      simp
    . cases h
  | crash n =>
    injection h with h
    subst h
    dsimp only
    split
    . cases hproc : c.pool i with
      | running p => cases p <;> simp [Proc.crash]
      | _ => simp [Proc.crash]
    . simp

/--
Only a process that has been started and has not gone down gets busy.
-/
theorem act_busy {a : M.Act} {c c' : M.Config α} (h : M.act program a c = some c') {i : M.Pid}
    (hbusy : (c'.pool i).busy = true)
    : ((c.pool i).busy = true ∧ a ≠ .crash (M.node i)) ∨ a = .spawn i := by
  cases a with
  | spawn j =>
    simp only [act] at h
    split at h
    . injection h with h
      subst h
      by_cases hj : i = j
      . exact .inr (by rw [hj])
      . left
        simpa [hj] using hbusy
    . cases h
  | run j o =>
    simp only [act] at h
    split at h
    . next cmd k hop =>
      split at h
      . injection h with h
        subst h
        left
        by_cases hj : i = j
        . subst hj
          simp [hop, Proc.busy]
        . simpa [hj] using hbusy
      . cases h
    . cases h
  | left j =>
    simp only [act] at h
    split at h
    . next hop =>
      injection h with h
      subst h
      left
      by_cases hj : i = j
      . subst hj
        simp [hop, Proc.busy]
      . simpa [hj] using hbusy
    . cases h
  | right j =>
    simp only [act] at h
    split at h
    . next hop =>
      injection h with h
      subst h
      left
      by_cases hj : i = j
      . subst hj
        simp [hop, Proc.busy]
      . simpa [hj] using hbusy
    . cases h
  | env e =>
    simp only [act] at h
    split at h
    . injection h with h
      subst h
      exact .inl ⟨hbusy, by simp⟩
    . cases h
  | crash n =>
    injection h with h
    subst h
    left
    dsimp only at hbusy
    split at hbusy
    . cases hproc : c.pool i with
      | running p => cases p <;> simp [hproc, Proc.crash, Proc.busy] at hbusy
      | _ => simp [hproc, Proc.crash, Proc.busy] at hbusy
    . next hnode =>
      refine ⟨hbusy, ?_⟩
      intro heq
      injection heq with heq
      exact hnode heq.symm

/--
A run starts finitely many processes.
-/
theorem RunBy.exists_started {P : M.Config α → M.Act → Prop} {c c' : M.Config α}
    (hidle : ∀ i, c.pool i = .idle) (h : M.RunBy program P c c')
    : ∃ started : List M.Pid, started.Nodup ∧ ∀ i, i ∈ started ↔ c'.pool i ≠ .idle := by
  induction h with
  | refl => exact ⟨[], List.nodup_nil, by simp [hidle]⟩
  | @tail c₁ c₂ _ hstep ih =>
    rcases ih with ⟨started, hnodup, hstarted⟩
    rcases hstep with ⟨a, _, hact⟩
    by_cases hspawn : ∃ i, a = .spawn i ∧ c₁.pool i = .idle
    . rcases hspawn with ⟨i, ha, hi⟩
      refine ⟨i :: started, ?_, ?_⟩
      . rw [List.nodup_cons, hstarted]
        exact ⟨fun h => h hi, hnodup⟩
      . intro j
        have hj := act_idle hact j
        rw [ha, Ne, Act.spawn.injEq] at hj
        rw [List.mem_cons, hstarted, Ne, Ne, hj]
        grind
    . refine ⟨started, hnodup, ?_⟩
      intro j
      have hj := act_idle hact j
      rw [hstarted]
      grind

theorem runActsIf_idle {check : M.Config α → M.Act → Bool} {acts : List M.Act} {c c' : M.Config α}
    (h : M.runActsIf program check acts c = some c') (i : M.Pid)
    : c'.pool i = .idle ↔ c.pool i = .idle ∧ .spawn i ∉ acts := by
  induction acts generalizing c with
  | nil =>
    simp only [runActsIf, Option.some.injEq] at h
    simp [h]
  | cons a acts ih =>
    unfold runActsIf at h
    split at h
    . split at h
      . next c₁ hact =>
        rw [ih h, act_idle hact i, List.mem_cons]
        grind
      . cases h
    . cases h

end Machine
