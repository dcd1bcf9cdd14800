import PaymentOrchestration.Concurrency.Protocol

/-!
This module contains the complete runs of a single program, given by the commands it issues and the
answers it gets.
-/

namespace Prog

variable {Cmd : Type} {Resp : Cmd → Type} {ε : Type} {α : Type}

/--
The program ends in `r` after it has issued the commands in `log`. `A` says which answers a command
may get.
-/
def Ends (A : (c : Cmd) → Except ε (Resp c) → Prop) (p : Prog Cmd Resp ε α)
    (log : List ((c : Cmd) × Except ε (Resp c))) (r : Except ε α) : Prop :=
  match p with
  | .pure a => log = [] ∧ r = .ok a
  | .throw e => log = [] ∧ r = .error e
  | .op c k => ∃ a log', A c a ∧ log = ⟨c, a⟩ :: log' ∧ (k a).Ends A log' r
  | .alt p q => p.Ends A log r ∨ q.Ends A log r

end Prog

namespace Protocol

variable {Cmd : Type} {Resp : Cmd → Type} {ε : Type} {α : Type}

variable (P : Protocol Cmd Resp ε)

-- The state of a party after the commands in `log`.
def after (s : P.State) (log : List ((c : Cmd) × Except ε (Resp c))) : P.State :=
  log.foldl (fun s entry => P.next s entry.1 entry.2) s

variable {P} {A : (c : Cmd) → Except ε (Resp c) → Prop}

/--
What a program is proved to end in holds of all its complete runs.
-/
theorem wp_ends (hA : ∀ s c a, A c a → P.answers s c a) {p : Prog Cmd Resp ε α}
    {Q : Except ε α → P.State → Prop} {s : P.State} (hwp : P.wp p Q s)
    {log : List ((c : Cmd) × Except ε (Resp c))} {r : Except ε α} (hends : p.Ends A log r)
    : Q r (P.after s log) := by
  induction p generalizing s log with
  | pure a =>
    rcases hends with ⟨hlog, hr⟩
    subst hlog hr
    exact hwp
  | throw e =>
    rcases hends with ⟨hlog, hr⟩
    subst hlog hr
    exact hwp
  | op c k ih =>
    rcases hends with ⟨a, log', ha, hlog, hends⟩
    subst hlog
    exact ih a (hwp.right a (hA s c a ha)) hends
  | alt p q ihp ihq =>
    rcases hends with hends | hends
    . exact ihp hwp.left hends
    . exact ihq hwp.right hends

end Protocol
