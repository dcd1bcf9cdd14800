import PaymentOrchestration.Concurrency.Amid

/-!
This module is about programs that always end, with a result or with an exception.
-/

namespace Setting

variable {Cmd : Type} {Resp : Cmd → Type} {ε : Type} {S S' : Type} {α β : Type}

variable (T : Setting Cmd Resp ε S)

/--
From `s` the program runs to its end with nobody else around, and what it ends with is in `Q`.
-/
def Meets (p : Prog Cmd Resp ε α) (Q : Except ε α → S → Prop) (s : S) : Prop :=
  match p with
  | .pure a => Q (.ok a) s
  | .throw e => Q (.error e) s
  | .op c k => T.ready s c ∧ ∀ x s₁, T.answer s c x s₁ → Meets (k x) Q s₁
  | .alt p q => Meets p Q s ∧ Meets q Q s

/--
The program does not throw.
-/
abbrev Returns (p : Prog Cmd Resp ε α) (Φ : α → S → Prop) (s : S) : Prop :=
  T.Meets p (fun r s => ∃ a, r = .ok a ∧ Φ a s) s

variable {T} {Q Q' : Except ε α → S → Prop} {s : S} {p : Prog Cmd Resp ε α}

namespace Meets

theorem mono (hp : T.Meets p Q s) (h : ∀ r s, Q r s → Q' r s) : T.Meets p Q' s := by
  induction p generalizing s with
  | pure a => exact h _ _ hp
  | throw e => exact h _ _ hp
  | op c k ih => exact ⟨hp.left, fun x s₁ hx => ih x (hp.right x s₁ hx)⟩
  | alt p q ihp ihq => exact ⟨ihp hp.left, ihq hp.right⟩

theorem bind {q : Prog Cmd Resp ε β} {f : β → Prog Cmd Resp ε α} {P : Except ε β → S → Prop}
    (hq : T.Meets q P s) (hf : ∀ b s, P (.ok b) s → T.Meets (f b) Q s)
    (herror : ∀ e s, P (.error e) s → Q (.error e) s) : T.Meets (q.bind f) Q s := by
  induction q generalizing s with
  | pure b => exact hf b s hq
  | throw e => exact herror e s hq
  | op c k ih => exact ⟨hq.left, fun x s₁ hx => ih x (hq.right x s₁ hx)⟩
  | alt p q ihp ihq => exact ⟨ihp hq.left, ihq hq.right⟩

theorem tryCatch {handler : ε → Prog Cmd Resp ε α} {P : Except ε α → S → Prop}
    (hp : T.Meets p P s) (hok : ∀ a s, P (.ok a) s → Q (.ok a) s)
    (herror : ∀ e s, P (.error e) s → T.Meets (handler e) Q s)
    : T.Meets (p.tryCatch handler) Q s := by
  induction p generalizing s with
  | pure a => exact hok a s hp
  | throw e => exact herror e s hp
  | op c k ih => exact ⟨hp.left, fun x s₁ hx => ih x (hp.right x s₁ hx)⟩
  | alt p q ihp ihq => exact ⟨ihp hp.left, ihq hp.right⟩

theorem perform_iff {c : Cmd} {Q : Except ε (Resp c) → S → Prop}
    : T.Meets (Prog.perform c) Q s ↔ T.ready s c ∧ ∀ x s₁, T.answer s c x s₁ → Q x s₁ := by
  constructor
  . rintro ⟨hready, h⟩
    refine ⟨hready, fun x s₁ hx => ?_⟩
    cases x with
    | ok a => exact h _ s₁ hx
    | error e => exact h _ s₁ hx
  . rintro ⟨hready, h⟩
    refine ⟨hready, fun x s₁ hx => ?_⟩
    cases x with
    | ok a => exact h _ s₁ hx
    | error e => exact h _ s₁ hx

theorem pure {a : α} (h : Q (.ok a) s) : T.Meets (.pure a) Q s := by
  exact h

/--
A setting that is simulated by another one. `C` is what the program may issue.
-/
theorem carry {T' : Setting Cmd Resp ε S'} {R : S → S' → Prop} {C : Cmd → Prop}
    {G : S' → S' → Prop} {Φ : α → S' → Prop} {s' : S'}
    (hstep : ∀ s s' c, R s s' → C c → T'.ready s' c →
      T.ready s c ∧ ∀ x s₁, T.answer s c x s₁ → ∃ s₁', T'.answer s' c x s₁' ∧ R s₁ s₁')
    (hC : p.Issues C) (hp : T'.Assures Eq G p Φ s') (hR : R s s')
    : T.Returns p (fun a s => ∃ s', R s s' ∧ Φ a s') s := by
  induction p generalizing s s' with
  | pure a => exact ⟨a, rfl, s', hR, hp⟩
  | throw e => exact hp.elim
  | op c k ih =>
    rcases hp s' rfl with ⟨hready, hall⟩
    rcases hstep s s' c hR hC.left hready with ⟨hready', hanswer⟩
    refine ⟨hready', fun x s₁ hx => ?_⟩
    rcases hanswer x s₁ hx with ⟨s₁', hx', hR'⟩
    exact ih x (hC.right x trivial).right (hall x s₁' hx').right hR'
  | alt p q ihp ihq => exact ⟨ihp hC.left hp.left hR, ihq hC.right hp.right hR⟩

/--
A program that keeps to a protocol without ever leaving its state and that does not throw. `J` is
what holds meanwhile.
-/
theorem of_within {P : Protocol Cmd Resp ε} {σ : P.State} {J : S → Prop} {Φ : α → Prop}
    (hstep : ∀ s c, J s → P.allowed σ c →
      T.ready s c ∧ ∀ x s₁, T.answer s c x s₁ → P.answers σ c x ∧ J s₁)
    (hp : P.Within σ p Φ (fun _ => False)) (hs : J s)
    : T.Returns p (fun a s => Φ a ∧ J s) s := by
  induction p generalizing s with
  | pure a => exact ⟨a, rfl, hp, hs⟩
  | throw e => exact hp.elim
  | op c k ih =>
    rcases hstep s c hs hp.left with ⟨hready, hanswer⟩
    refine ⟨hready, fun x s₁ hx => ?_⟩
    rcases hanswer x s₁ hx with ⟨hx', hs₁⟩
    exact ih x (hp.right x hx').right hs₁
  | alt p q ihp ihq => exact ⟨ihp hp.left hs, ihq hp.right hs⟩

end Meets

end Setting

namespace Machine

variable {Cmd : Type} {Resp : Cmd → Type} {ε : Type} {α : Type} {M : Machine Cmd Resp ε} {i : M.Pid}
  {B : M.World → M.Env → Prop} {A : M.World → Cmd → M.Oracle → Prop} {total : Prop}
  {Q : Except ε α → M.World → Prop} {p : Prog Cmd Resp ε α} {r : Except ε α} {w w' : M.World}

end Machine
