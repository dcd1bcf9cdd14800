import Mathlib.Data.List.Basic

/-!
This module contains the automaton of a circuit breaker. It knows nothing of what the breaker
protects nor of where its state is kept.
-/

namespace Breaker

/--
How many failures in a row trip the breaker, and for how long it then lets nothing through.
-/
structure Settings where
  threshold : Nat
  cooldown : Nat

inductive Phase where
  | closed
  | tripped (since : Nat)
  | probing
  deriving DecidableEq

def Phase.isTripped (phase : Phase) : Bool :=
  match phase with
  | .tripped _ => true
  | _ => false

structure State where
  failures : Nat
  phase : Phase

def State.start : State where
  failures := 0
  phase := .closed

/--
What the breaker is told: how a call went, or that somebody asks whether calls may go through.
-/
inductive Input where
  | success
  | failure
  | probe
  deriving DecidableEq

variable (S : Settings)

def step (b : State) (now : Nat) (input : Input) : State :=
  match input with
  | .success => ⟨0, .closed⟩
  | .failure =>
    if S.threshold ≤ b.failures + 1 ∧ ¬b.phase.isTripped then
      ⟨b.failures + 1, .tripped now⟩
    else
      ⟨b.failures + 1, b.phase⟩
  | .probe =>
    match b.phase with
    | .tripped since => if since + S.cooldown ≤ now then ⟨0, .probing⟩ else b
    | _ => b

def run (b : State) (inputs : List (Nat × Input)) : State :=
  inputs.foldl (fun b x => step S b x.1 x.2) b

variable {S} {b : State}

theorem run_append (xs ys : List (Nat × Input)) : run S b (xs ++ ys) = run S (run S b xs) ys := by
  exact List.foldl_append

@[simp]
theorem run_nil : run S b [] = b := by
  rfl

@[simp]
theorem run_cons (x : Nat × Input) (xs : List (Nat × Input))
    : run S b (x :: xs) = run S (step S b x.1 x.2) xs := by
  rfl

variable (S) in
/--
The breaker is tripped exactly when it has seen enough failures in a row.
-/
def Sound (b : State) : Prop :=
  b.phase.isTripped ↔ S.threshold ≤ b.failures

theorem Sound.start (hthreshold : 0 < S.threshold) : Sound S .start := by
  simp [Sound, State.start, Phase.isTripped]
  omega

theorem Sound.step (hthreshold : 0 < S.threshold) (hb : Sound S b) (now : Nat) (input : Input)
    : Sound S (step S b now input) := by
  cases input with
  | success =>
    simp [Sound, Breaker.step, Phase.isTripped]
    omega
  | failure =>
    simp only [Sound, Breaker.step] at hb ⊢
    split
    . next h => simp [Phase.isTripped, h.left]
    . next h =>
      rw [not_and_not_right] at h
      constructor
      . intro htripped
        have := hb.mp htripped
        dsimp only
        omega
      . exact h
  | probe =>
    simp only [Breaker.step]
    split
    . split
      . simp [Sound, Phase.isTripped]
        omega
      . exact hb
    . exact hb

theorem Sound.run (hthreshold : 0 < S.threshold) (hb : Sound S b) (inputs : List (Nat × Input))
    : Sound S (run S b inputs) := by
  induction inputs generalizing b with
  | nil => exact hb
  | cons x inputs ih => exact ih (hb.step hthreshold x.1 x.2)

theorem tripped_step (hb : ¬b.phase.isTripped) {now : Nat} {input : Input}
    (h : (step S b now input).phase.isTripped) : (step S b now input).phase = .tripped now := by
  cases input with
  | success => cases h
  | failure =>
    simp only [step] at h ⊢
    split
    . rfl
    . next hcount =>
      rw [if_neg hcount] at h
      exact absurd h hb
  | probe =>
    cases hphase : b.phase with
    | tripped since => simp [hphase, Phase.isTripped] at hb
    | _ => simp [step, hphase, Phase.isTripped] at h

/--
A tripped breaker stays tripped until a call succeeds or its cooldown is over.
-/
theorem tripped_run {since : Nat} (hb : b.phase = .tripped since) {inputs : List (Nat × Input)}
    (hsuccess : ∀ x ∈ inputs, x.2 ≠ .success)
    (hprobe : ∀ x ∈ inputs, x.2 = .probe → x.1 < since + S.cooldown)
    : (run S b inputs).phase = .tripped since := by
  induction inputs generalizing b with
  | nil => exact hb
  | cons x inputs ih =>
    rcases x with ⟨now, input⟩
    have hstep : (step S b now input).phase = .tripped since := by
      cases input with
      | success => exact absurd rfl (hsuccess _ List.mem_cons_self)
      | failure => simp [step, hb, Phase.isTripped]
      | probe =>
        have := hprobe _ List.mem_cons_self rfl
        simp only [step, hb]
        rw [if_neg (by omega)]
        exact hb
    exact ih hstep (fun x hx => hsuccess x (List.mem_cons_of_mem _ hx))
      (fun x hx => hprobe x (List.mem_cons_of_mem _ hx))

end Breaker
