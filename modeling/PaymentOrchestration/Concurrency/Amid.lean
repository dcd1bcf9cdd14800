import PaymentOrchestration.Concurrency.Alone
import PaymentOrchestration.Concurrency.Issues

/-!
This module contains programs that run on a machine from their start to their end while nothing but
the environment takes steps in between.
-/

namespace Machine

variable {Cmd : Type} {Resp : Cmd → Type} {ε : Type} {α : Type}

variable (M : Machine Cmd Resp ε) (i : M.Pid) (B : M.World → M.Env → Prop)
  (A : M.World → Cmd → M.Oracle → Prop)

/--
The environment changes the world by actions that `B` admits.
-/
abbrev Drifts : M.World → M.World → Prop :=
  Relation.ReflTransGen (fun w w' => ∃ e, B w e ∧ M.env e w = some w')

/--
Process `i` runs the program from world `w` until it ends with `r`, and leaves world `w'` behind. `A`
says how the world may decide what it decides on its own.
-/
def CompletesAmid (p : Prog Cmd Resp ε α) (w : M.World) (r : Except ε α) (w' : M.World) : Prop :=
  match p with
  | .pure a => r = .ok a ∧ w' = w
  | .throw e => r = .error e ∧ w' = w
  | .op c k => ∃ w₁ o x w₂, M.Drifts B w w₁ ∧ A w₁ c o ∧ M.exec i c o w₁ = some (x, w₂) ∧
    CompletesAmid (k x) w₂ r w'
  | .alt p q => CompletesAmid p w r w' ∨ CompletesAmid q w r w'

-- Unless `total` holds, nothing is said about whether the program ends.
def amid (total : Prop) : Setting Cmd Resp ε M.World where
  ready := fun w c => total →
    ∃ w₁ o x w₂, M.Drifts B w w₁ ∧ A w₁ c o ∧ M.exec i c o w₁ = some (x, w₂)
  answer := fun w c x w₂ => ∃ w₁ o, M.Drifts B w w₁ ∧ A w₁ c o ∧ M.exec i c o w₁ = some (x, w₂)

variable {M} {i} {B} {A} {G : M.World → M.World → Prop} {Φ : α → M.World → Prop} {w w' : M.World}
  {total : Prop}

theorem CompletesAmid.result {p : Prog Cmd Resp ε α} {r : Except ε α}
    (h : M.CompletesAmid i B A p w r w') (hp : (M.amid i B A total).Assures Eq G p Φ w)
    : ∃ a, r = .ok a ∧ Φ a w' := by
  induction p generalizing w with
  | pure a =>
    rcases h with ⟨hr, hw'⟩
    subst hr hw'
    exact ⟨a, rfl, hp⟩
  | throw e => exact hp.elim
  | op c k ih =>
    rcases h with ⟨w₁, o, x, w₂, hdrifts, ho, hexec, h⟩
    exact ih x h ((hp w rfl).right x w₂ ⟨w₁, o, hdrifts, ho, hexec⟩).right
  | alt p q ihp ihq =>
    rcases h with h | h
    . exact ihp h hp.left
    . exact ihq h hp.right

/--
A sequence of two programs is run by running the first one and then, if that has returned, the second
one.
-/
theorem CompletesAmid.bind {β : Type} {p : Prog Cmd Resp ε β} {f : β → Prog Cmd Resp ε α}
    {r : Except ε α} (h : M.CompletesAmid i B A (p.bind f) w r w')
    : ∃ r₁ w₁, M.CompletesAmid i B A p w r₁ w₁ ∧
        ((∃ b, r₁ = .ok b ∧ M.CompletesAmid i B A (f b) w₁ r w') ∨
          ∃ e, r₁ = .error e ∧ r = .error e) := by
  induction p generalizing w with
  | pure b => exact ⟨.ok b, w, ⟨rfl, rfl⟩, .inl ⟨b, rfl, h⟩⟩
  | throw e => exact ⟨.error e, w, ⟨rfl, rfl⟩, .inr ⟨e, rfl, h.left⟩⟩
  | op c k ih =>
    rcases h with ⟨w₁, o, x, w₂, hdrifts, ho, hexec, h⟩
    rcases ih x h with ⟨r₁, w₃, hk, hcases⟩
    exact ⟨r₁, w₃, ⟨w₁, o, x, w₂, hdrifts, ho, hexec, hk⟩, hcases⟩
  | alt p q ihp ihq =>
    rcases h with h | h
    . rcases ihp h with ⟨r₁, w₁, hp, hcases⟩
      exact ⟨r₁, w₁, .inl hp, hcases⟩
    . rcases ihq h with ⟨r₁, w₁, hq, hcases⟩
      exact ⟨r₁, w₁, .inr hq, hcases⟩

theorem CompletesAmid.perform {c : Cmd} {r : Except ε (Resp c)}
    (h : M.CompletesAmid i B A (Prog.perform c) w r w')
    : ∃ w₁ o, M.Drifts B w w₁ ∧ A w₁ c o ∧ M.exec i c o w₁ = some (r, w') := by
  rcases h with ⟨w₁, o, x, w₂, hdrifts, ho, hexec, h⟩
  cases x with
  | ok a =>
    rcases h with ⟨hr, hw'⟩
    subst hr hw'
    exact ⟨w₁, o, hdrifts, ho, hexec⟩
  | error e =>
    rcases h with ⟨hr, hw'⟩
    subst hr hw'
    exact ⟨w₁, o, hdrifts, ho, hexec⟩

theorem drifts_keeps {β : Type} {f : M.World → β}
    (hB : ∀ w e w', B w e → M.env e w = some w' → f w' = f w) (h : M.Drifts B w w')
    : f w' = f w := by
  induction h with
  | refl => rfl
  | tail _ hstep ih =>
    rcases hstep with ⟨e, he, henv⟩
    rw [hB _ e _ he henv, ih]

/--
What neither the environment nor any command of the program changes is the same at the end.
-/
theorem CompletesAmid.keeps {β : Type} {f : M.World → β} {C : Cmd → Prop}
    {p : Prog Cmd Resp ε α} {r : Except ε α}
    (hB : ∀ w e w', B w e → M.env e w = some w' → f w' = f w)
    (hC : ∀ w c o x w', C c → M.exec i c o w = some (x, w') → f w' = f w)
    (hp : p.Issues C) (h : M.CompletesAmid i B A p w r w') : f w' = f w := by
  induction p generalizing w with
  | pure a => rw [h.right]
  | throw e => rw [h.right]
  | op c k ih =>
    rcases h with ⟨w₁, o, x, w₂, hdrifts, _, hexec, h⟩
    rw [ih x (hp.right x trivial).right h, hC w₁ c o x w₂ hp.left hexec, drifts_keeps hB hdrifts]
  | alt p q ihp ihq =>
    rcases h with h | h
    . exact ihp hp.left h
    . exact ihq hp.right h

theorem exists_completesAmid {p : Prog Cmd Resp ε α}
    (hp : (M.amid i B A True).Assures Eq G p Φ w)
    : ∃ a w', M.CompletesAmid i B A p w (.ok a) w' := by
  induction p generalizing w with
  | pure a => exact ⟨a, w, rfl, rfl⟩
  | throw e => exact hp.elim
  | op c k ih =>
    rcases hp w rfl with ⟨hready, hall⟩
    rcases hready trivial with ⟨w₁, o, x, w₂, hdrifts, ho, hexec⟩
    rcases ih x (hall x w₂ ⟨w₁, o, hdrifts, ho, hexec⟩).right with ⟨a, w', hk⟩
    exact ⟨a, w', w₁, o, x, w₂, hdrifts, ho, hexec, hk⟩
  | alt p q ihp ihq =>
    rcases ihp hp.left with ⟨a, w', h⟩
    exact ⟨a, w', .inl h⟩

end Machine
