import PaymentOrchestration.Concurrency.Pool

/-!
This module contains machines with an observer: their world also has a log of what the observer saw
of the commands so far. Nothing that runs on the machine can tell the difference.
-/

namespace Machine

variable {Cmd : Type} {Resp : Cmd → Type} {ε : Type} {α Ω : Type}

/--
`sees` is what the observer notes when a command is answered in the given world.
-/
@[reducible]
def observed (M : Machine Cmd Resp ε) (sees : M.Pid → Cmd → M.Oracle → M.World → List Ω)
    : Machine Cmd Resp ε where
  World := M.World × List Ω
  Pid := M.Pid
  Node := M.Node
  Oracle := M.Oracle
  Env := M.Env
  decEqPid := M.decEqPid
  decEqNode := M.decEqNode
  node := M.node
  exec := fun i cmd o w =>
    match M.exec i cmd o w.1 with
    | some (r, w') => some (r, w', w.2 ++ sees i cmd o w.1)
    | none => none
  env := fun e w =>
    match M.env e w.1 with
    | some w' => some (w', w.2)
    | none => none
  crash := fun n w => (M.crash n w.1, w.2)

variable {M : Machine Cmd Resp ε} {sees : M.Pid → Cmd → M.Oracle → M.World → List Ω}
  {program : M.Pid → Prog Cmd Resp ε α}

-- The same pool without its observer.
def Config.unobserved (c : (M.observed sees).Config α) : M.Config α where
  world := c.world.1
  pool := c.pool

def Act.unobserved (a : (M.observed sees).Act) : M.Act :=
  match a with
  | .spawn i => .spawn i
  | .run i o => .run i o
  | .left i => .left i
  | .right i => .right i
  | .env e => .env e
  | .crash n => .crash n

def Act.observed (a : M.Act) : (M.observed sees).Act :=
  match a with
  | .spawn i => .spawn i
  | .run i o => .run i o
  | .left i => .left i
  | .right i => .right i
  | .env e => .env e
  | .crash n => .crash n

theorem observed_exec {i : M.Pid} {cmd : Cmd} {o : M.Oracle} {w w' : M.World × List Ω}
    {r : Except ε (Resp cmd)}
    : (M.observed sees).exec i cmd o w = some (r, w')
        ↔
      M.exec i cmd o w.1 = some (r, w'.1) ∧ w'.2 = w.2 ++ sees i cmd o w.1 := by
  dsimp only
  cases hexec : M.exec i cmd o w.1 with
  | none => simp
  | some res =>
    rcases res with ⟨r', w₁⟩
    rcases w' with ⟨w₂, log⟩
    simp only [Option.some.injEq, Prod.mk.injEq]
    grind

variable (sees) in
theorem observed_env {e : M.Env} {w w' : M.World × List Ω}
    : (M.observed sees).env e w = some w' ↔ M.env e w.1 = some w'.1 ∧ w'.2 = w.2 := by
  dsimp only
  cases henv : M.env e w.1 with
  | none => simp
  | some w₁ =>
    rcases w' with ⟨w₂, log⟩
    simp only [Option.some.injEq, Prod.mk.injEq]
    grind

theorem act_unobserved {a : (M.observed sees).Act} {c c' : (M.observed sees).Config α}
    (h : (M.observed sees).act program a c = some c')
    : M.act program a.unobserved c.unobserved = some c'.unobserved := by
  cases a with
  | run i o =>
    simp only [act] at h
    simp only [Act.unobserved, act, Config.unobserved]
    split at h
    . next cmd k hop =>
      split at h
      . next r w hexec =>
        rw [observed_exec] at hexec
        injection h with h
        subst h
        simp [hexec.left]
      . cases h
    . cases h
  | env e =>
    simp only [act] at h
    simp only [Act.unobserved, act, Config.unobserved]
    split at h
    . next w henv =>
      have henv' := (observed_env sees).mp henv
      injection h with h
      subst h
      simp [henv'.left]
    . cases h
  | crash n =>
    injection h with h
    subst h
    rfl
  | _ =>
    simp only [act] at h
    simp only [Act.unobserved, act, Config.unobserved]
    split at h
    . next hpool =>
      injection h with h
      subst h
      simp
    . cases h

/--
The log only grows.
-/
theorem act_log {a : (M.observed sees).Act} {c c' : (M.observed sees).Config α}
    (h : (M.observed sees).act program a c = some c') : c.world.2 <+: c'.world.2 := by
  rcases act_world h with hworld | ⟨i, o, cmd, k, r, _, _, hexec⟩ | ⟨e, _, henv⟩ | ⟨n, _, hworld⟩
  . exact ⟨[], (List.append_nil _).trans (congrArg Prod.snd hworld.symm)⟩
  . rw [(observed_exec.mp hexec).right]
    exact List.prefix_append _ _
  . exact ⟨[], (List.append_nil _).trans ((observed_env sees).mp henv).right.symm⟩
  . have hlog : c'.world.2 = c.world.2 := by rw [hworld]
    exact ⟨[], (List.append_nil _).trans hlog.symm⟩

theorem run_log {P : (M.observed sees).Config α → (M.observed sees).Act → Prop}
    {c c' : (M.observed sees).Config α} (h : (M.observed sees).RunBy program P c c')
    : c.world.2 <+: c'.world.2 := by
  induction h with
  | refl => exact List.prefix_rfl
  | tail _ hstep ih =>
    rcases hstep with ⟨a, _, hact⟩
    exact ih.trans (act_log hact)

/--
What is reached under observation is reached without it.
-/
theorem run_unobserved {c c' : (M.observed sees).Config α}
    (h : (M.observed sees).Run program c c') : M.Run program c.unobserved c'.unobserved := by
  induction h with
  | refl => exact .refl
  | tail _ hstep ih =>
    rcases hstep with ⟨a, _, hact⟩
    exact ih.tail ⟨a.unobserved, trivial, act_unobserved hact⟩

theorem exists_act_observed {a : M.Act} {c : (M.observed sees).Config α} {c' : M.Config α}
    (h : M.act program a c.unobserved = some c')
    : ∃ c'' : (M.observed sees).Config α, c''.unobserved = c' ∧
        (M.observed sees).act program a.observed c = some c'' := by
  rcases c with ⟨⟨w, log⟩, pool⟩
  cases a with
  | run i o =>
    simp only [act, Config.unobserved] at h
    split at h
    . next cmd k hop =>
      split at h
      . next r w' hexec =>
        injection h with h
        subst h
        refine ⟨⟨(w', log ++ sees i cmd o w), Function.update pool i (.running (k r))⟩, rfl, ?_⟩
        simp [Act.observed, act, hop, hexec]
      . cases h
    . cases h
  | env e =>
    simp only [act, Config.unobserved] at h
    split at h
    . next w' henv =>
      injection h with h
      subst h
      refine ⟨⟨(w', log), pool⟩, rfl, ?_⟩
      simp [Act.observed, act, henv]
    . cases h
  | crash n =>
    injection h with h
    subst h
    exact ⟨_, rfl, rfl⟩
  | _ =>
    simp only [act, Config.unobserved] at h
    split at h
    . next hpool =>
      injection h with h
      subst h
      refine ⟨⟨(w, log), _⟩, rfl, ?_⟩
      simp only [Act.observed, act, hpool]
      rfl
    . cases h

/--
Every run can be observed.
-/
theorem exists_run_observed {c₀ : (M.observed sees).Config α} {c : M.Config α}
    (h : M.Run program c₀.unobserved c)
    : ∃ c' : (M.observed sees).Config α, c'.unobserved = c ∧
        (M.observed sees).Run program c₀ c' := by
  induction h with
  | refl => exact ⟨c₀, rfl, .refl⟩
  | tail _ hstep ih =>
    rcases ih with ⟨c₁, hc₁, hrun⟩
    rcases hstep with ⟨a, _, hact⟩
    rw [← hc₁] at hact
    rcases exists_act_observed hact with ⟨c₂, hc₂, hact'⟩
    exact ⟨c₂, hc₂, hrun.tail ⟨a.observed, trivial, hact'⟩⟩

end Machine
