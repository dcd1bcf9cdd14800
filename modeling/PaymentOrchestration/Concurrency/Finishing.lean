import PaymentOrchestration.Concurrency.Pool

/-!
This module is about pools whose processes can all be brought to their ends. A process may have to
wait for others, so it is enough that whatever it asks for can be answered after some more steps.
-/

namespace Machine

variable {Cmd : Type} {Resp : Cmd → Type} {ε : Type} {α : Type} {M : Machine Cmd Resp ε}
  {program : M.Pid → Prog Cmd Resp ε α}

/--
Processes take steps, and nothing else happens.
-/
def Act.IsStep (a : M.Act) : Prop :=
  match a with
  | .run _ _ | .left _ | .right _ => True
  | _ => False

variable (program) in
/--
From a `Good` state every command can be answered in the end, by steps that `A` admits.
-/
structure Serving (A : M.Config α → M.Act → Prop) (Good : M.Config α → Prop) : Prop where
  isStep : ∀ c a, A c a → a.IsStep
  left : ∀ c i, A c (.left i)
  keeps : ∀ c c' a, Good c → A c a → M.act program a c = some c' → Good c'
  serve : ∀ c i cmd k, Good c → c.pool i = .running (.op cmd k) →
    ∃ c' r, M.RunBy program A c c' ∧ c'.pool i = .running (k r)

variable {A : M.Config α → M.Act → Prop} {Good : M.Config α → Prop} {c c' : M.Config α} {i : M.Pid}

-- A process that runs stays on, whoever takes the step.
theorem act_running {a : M.Act} (ha : a.IsStep) (hact : M.act program a c = some c')
    {p : Prog Cmd Resp ε α} (hp : c.pool i = .running p) : ∃ p', c'.pool i = .running p' := by
  have hupdate : ∀ j q, ∃ p', Function.update c.pool j (.running q) i = .running p' := by
    intro j q
    by_cases hi : i = j
    . subst hi
      exact ⟨q, Function.update_self _ _ _⟩
    . exact ⟨p, by rw [Function.update_of_ne hi, hp]⟩
  cases a with
  | run j o =>
    simp only [act] at hact
    split at hact
    . split at hact
      . injection hact with hact
        subst hact
        exact hupdate _ _
      . cases hact
    . cases hact
  | left j =>
    simp only [act] at hact
    split at hact
    . injection hact with hact
      subst hact
      exact hupdate _ _
    . cases hact
  | right j =>
    simp only [act] at hact
    split at hact
    . injection hact with hact
      subst hact
      exact hupdate _ _
    . cases hact
  | _ => exact ha.elim

namespace Serving

theorem good (h : Serving program A Good) (hgood : Good c) (hrun : M.RunBy program A c c')
    : Good c' := by
  induction hrun with
  | refl => exact hgood
  | tail _ hstep ih =>
    rcases hstep with ⟨a, ha, hact⟩
    exact h.keeps _ _ a ih ha hact

theorem running (h : Serving program A Good) (hrun : M.RunBy program A c c')
    {p : Prog Cmd Resp ε α} (hp : c.pool i = .running p) : ∃ p', c'.pool i = .running p' := by
  induction hrun with
  | refl => exact ⟨p, hp⟩
  | tail _ hstep ih =>
    rcases ih with ⟨p', hp'⟩
    rcases hstep with ⟨a, ha, hact⟩
    exact act_running (h.isStep _ a ha) hact hp'

theorem busy (h : Serving program A Good) (hrun : M.RunBy program A c c')
    (hbusy : (c'.pool i).busy = true) : (c.pool i).busy = true := by
  induction hrun with
  | refl => exact hbusy
  | tail _ hstep ih =>
    rcases hstep with ⟨a, ha, hact⟩
    rcases act_busy hact hbusy with hbusy' | hspawn
    . exact ih hbusy'.left
    . subst hspawn
      exact (h.isStep _ _ ha).elim

/--
A process that runs can be brought to its end. The induction is on what it has still to do.
-/
theorem exists_through (h : Serving program A Good) (hgood : Good c) {p : Prog Cmd Resp ε α}
    (hp : c.pool i = .running p)
    : ∃ c', M.RunBy program A c c' ∧ (c'.pool i).busy = false := by
  induction p generalizing c with
  | pure a => exact ⟨c, .refl, by rw [hp]; rfl⟩
  | throw e => exact ⟨c, .refl, by rw [hp]; rfl⟩
  | op cmd k ih =>
    rcases h.serve c i cmd k hgood hp with ⟨c₁, r, hrun, hp₁⟩
    rcases ih r (h.good hgood hrun) hp₁ with ⟨c₂, hrun', hthrough⟩
    exact ⟨c₂, hrun.trans hrun', hthrough⟩
  | alt p q ihp _ =>
    let c₁ : M.Config α := { c with pool := Function.update c.pool i (.running p) }
    have hact : M.act program (.left i) c = some c₁ := by
      simp only [act, hp, c₁]
    have hgood₁ : Good c₁ := h.keeps c c₁ (.left i) hgood (h.left c i) hact
    rcases ihp hgood₁ (Function.update_self _ _ _) with ⟨c₂, hrun, hthrough⟩
    exact ⟨c₂, Relation.ReflTransGen.head ⟨.left i, h.left c i, hact⟩ hrun, hthrough⟩

theorem exists_all_through (h : Serving program A Good) {pids : List M.Pid} (hgood : Good c)
    (hpids : ∀ i, (c.pool i).busy = true → i ∈ pids)
    : ∃ c', M.RunBy program A c c' ∧ ∀ i, (c'.pool i).busy = false := by
  induction pids generalizing c with
  | nil =>
    refine ⟨c, .refl, fun i => ?_⟩
    cases hbusy : (c.pool i).busy with
    | false => rfl
    | true => cases hpids i hbusy
  | cons j pids ih =>
    have hfirst : ∃ c₁, M.RunBy program A c c₁ ∧ (c₁.pool j).busy = false := by
      cases hproc : c.pool j with
      | running p => exact h.exists_through hgood hproc
      | idle => exact ⟨c, .refl, by rw [hproc]; rfl⟩
      | dead => exact ⟨c, .refl, by rw [hproc]; rfl⟩
    rcases hfirst with ⟨c₁, hrun, hj⟩
    have hpids₁ : ∀ i, (c₁.pool i).busy = true → i ∈ pids := by
      intro i hbusy
      have hmem := hpids i (h.busy hrun hbusy)
      rw [List.mem_cons] at hmem
      rcases hmem with hi | hi
      . subst hi
        rw [hj] at hbusy
        cases hbusy
      . exact hi
    rcases ih (h.good hgood hrun) hpids₁ with ⟨c₂, hrun', hthrough⟩
    exact ⟨c₂, hrun.trans hrun', hthrough⟩

/--
All processes that run can be brought to their ends.
-/
theorem exists_finished (h : Serving program A Good) {pids : List M.Pid} (hgood : Good c)
    (hpids : ∀ i, (c.pool i).busy = true → i ∈ pids)
    : ∃ c', M.RunBy program A c c' ∧
        ∀ i p, c.pool i = .running p → ∃ r, (c'.pool i).result = some r := by
  rcases h.exists_all_through hgood hpids with ⟨c', hrun, hthrough⟩
  refine ⟨c', hrun, fun i p hp => ?_⟩
  rcases h.running hrun hp with ⟨p', hp'⟩
  have hbusy := hthrough i
  rw [hp'] at hbusy ⊢
  cases p' with
  | pure a => exact ⟨_, rfl⟩
  | throw e => exact ⟨_, rfl⟩
  | op cmd k => cases hbusy
  | alt p q => cases hbusy

end Serving

end Machine
