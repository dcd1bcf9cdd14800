import PaymentOrchestration.Books.Effects

/-!
This module is about runs in which every lookup of a payment returns a row of a certain kind.
-/

namespace PaymentOrchestration

variable {P : List Event → Pid → List TxnWhere → Transaction → Prop} {history : List Event}

/--
`P` holds of every lookup in the history that has found a row, and of what has happened before it.
-/
def Finds (P : List Event → Pid → List TxnWhere → Transaction → Prop) (history : List Event)
    : Prop :=
  ∀ (h₁ h₂ : List Event) (i : Pid) (conditions : List TxnWhere) (t : Transaction),
    history = h₁ ++ .read i conditions (some t) :: h₂ → P h₁ i conditions t

theorem Finds.of_append {events : List Event} (h : Finds P (history ++ events))
    : Finds P history := by
  intro h₁ h₂ i conditions t heq
  apply h h₁ (h₂ ++ events)
  simp [heq]

theorem Finds.snoc (h : Finds P history) {event : Event}
    (hevent : ∀ i conditions t, event = .read i conditions (some t) → P history i conditions t)
    : Finds P (history ++ [event]) := by
  intro h₁ h₂ i conditions t heq
  rcases List.eq_nil_or_concat h₂ with hnil | ⟨h₂', last, hconcat⟩
  . rw [hnil] at heq
    rcases List.append_inj' heq rfl with ⟨hhistory, hlast⟩
    injection hlast with hlast
    subst hhistory
    exact hevent i conditions t hlast
  . rw [hconcat, List.concat_eq_append, ← List.cons_append, ← List.append_assoc] at heq
    exact h h₁ h₂' i conditions t (List.append_inj' heq rfl).left

theorem Finds.append (h : Finds P history) {events : List Event}
    (hevents : ∀ i conditions row, .read i conditions row ∉ events)
    : Finds P (history ++ events) := by
  induction events generalizing history with
  | nil => simpa using h
  | cons event events ih =>
    have hsnoc : Finds P (history ++ [event]) := by
      apply h.snoc
      intro i conditions t heq
      exact absurd (by simp [heq]) (hevents i conditions (some t))
    have := ih hsnoc (fun i conditions row hmem => hevents i conditions row (by simp [hmem]))
    rwa [List.append_assoc] at this

namespace System

variable {D : Deployment} {tasks : Pid → Task}

/--
If the action looks up a payment, `P` holds of what has happened before, the process, the conditions
and the row that it finds.
-/
def Lookups (P : List Event → Pid → List TxnWhere → Transaction → Prop) (c : System D)
    (a : (machine D).Act) : Prop :=
  match a with
  | .run i o =>
    ∀ conditions k t, c.pool i = .running (.op (.findTransaction conditions) k) →
      (matching D conditions c.world.ledger.transactions)[o.pick]? = some t →
      P c.world.history i conditions t
  | _ => True

-- A check for `Lookups` that can be computed.
def lookups (p : List Event → Pid → List TxnWhere → Transaction → Bool) (c : System D)
    (a : (machine D).Act) : Bool :=
  match a with
  | .run i o =>
    match c.pool i with
    | .running (.op (.findTransaction conditions) _) =>
      ((matching D conditions c.world.ledger.transactions)[o.pick]?).all
        (p c.world.history i conditions)
    | _ => true
  | _ => true

theorem lookups_of_check {p : List Event → Pid → List TxnWhere → Transaction → Bool}
    (hp : ∀ history i conditions t, p history i conditions t = true → P history i conditions t)
    (c : System D) (a : (machine D).Act) (h : lookups p c a = true) : c.Lookups P a := by
  cases a with
  | run i o =>
    intro conditions k t hop hpick
    simp only [lookups, hop, hpick, Option.all_some] at h
    exact hp _ _ _ _ h
  | _ => trivial

-- An action only adds to the history, and no more than one lookup.
theorem Lookups.act {c c' : System D} {a : (machine D).Act} (h : c.Lookups P a)
    (hact : (machine D).act (fun i => (tasks i).program D) a c = some c')
    : (∃ i conditions row, c'.world.history = c.world.history ++ [.read i conditions row] ∧
          ∀ t, row = some t → P c.world.history i conditions t) ∨
        ∃ events, c'.world.history = c.world.history ++ events ∧
          ∀ j conditions row, .read j conditions row ∉ events := by
  rcases Machine.act_world hact with hsame | ⟨i, o, cmd, k, r, ha, hop, hexec⟩ | ⟨e, ha, henv⟩ |
    ⟨inst, _, hcrash⟩
  . exact .inr ⟨[], by simp [hsame]⟩
  . subst ha
    rcases exec_history hexec with ⟨conditions, row, hcmd, hhistory, hpick⟩ | hother
    . subst hcmd
      refine .inl ⟨i, conditions, row, hhistory, ?_⟩
      intro t ht
      exact h conditions k t hop (hpick.symm.trans ht)
    . exact .inr hother
  . refine .inr ⟨[], ?_, by simp⟩
    cases e with
    | settle n status =>
      simp only [envStep] at henv
      split at henv
      . split at henv
        . injection henv with henv
          simp [← henv]
        . cases henv
      . cases henv
    | _ =>
      injection henv with henv
      simp [← henv]
  . exact .inr ⟨[], by simp [hcrash, crashInst]⟩

theorem finds_of_run {c₀ c : System D} (h₀ : c₀.world.history = [])
    (hrun : (machine D).RunBy (fun i => (tasks i).program D) (Lookups P) c₀ c)
    : Finds P c.world.history := by
  induction hrun with
  | refl =>
    intro h₁ h₂ i conditions t heq
    simp [h₀] at heq
  | tail _ hstep ih =>
    rcases hstep with ⟨a, ha, hact⟩
    rcases ha.act hact with ⟨i, conditions, row, hnew, hrow⟩ | ⟨events, hnew, hnone⟩
    . rw [hnew]
      apply ih.snoc
      intro j conditions' t heq
      injection heq with hj hconditions ht
      subst hj hconditions
      exact hrow t ht
    . rw [hnew]
      exact ih.append hnone

theorem ReachableBy.finds {c : System D} (h : c.ReachableBy D tasks (Lookups P))
    : Finds P c.world.history := by
  rcases h with ⟨c₀, hstart, hrun⟩
  rcases hstart.world with ⟨_, _, hworld⟩
  exact finds_of_run (by simp [hworld, World.start]) hrun

end System

end PaymentOrchestration
