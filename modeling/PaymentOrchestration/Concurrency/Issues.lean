import PaymentOrchestration.Concurrency.Protocol

/-!
This module is about the commands a program may issue at all, whatever it is answered.
-/

variable {Cmd : Type} {Resp : Cmd → Type} {ε : Type} {α β : Type}

namespace Protocol

-- The party may issue any command in `A` at any time.
def only (A : Cmd → Prop) : Protocol Cmd Resp ε where
  State := Unit
  allowed := fun _ c => A c
  answers := fun _ _ _ => True
  next := fun s _ _ => s
  crash := id

end Protocol

namespace Prog

/--
Every command of the program is in `A`.
-/
def Issues (A : Cmd → Prop) (p : Prog Cmd Resp ε α) : Prop :=
  (Protocol.only A).Steady () p (fun _ => True)

namespace Issues

variable {A B : Cmd → Prop} {p : Prog Cmd Resp ε α}

theorem pure (a : α) : (Prog.pure a : Prog Cmd Resp ε α).Issues A := by
  trivial

theorem throw (e : ε) : (Prog.throw e : Prog Cmd Resp ε α).Issues A := by
  trivial

theorem perform {c : Cmd} (h : A c) : (Prog.perform c : Prog Cmd Resp ε (Resp c)).Issues A := by
  apply Protocol.steady_perform
  . exact h
  . intro r _
    exact ⟨rfl, fun _ _ => trivial⟩

theorem bind {f : α → Prog Cmd Resp ε β} (hp : p.Issues A) (hf : ∀ a, (f a).Issues A)
    : (p.bind f).Issues A := by
  apply Protocol.Steady.bind hp
  intro a _
  exact hf a

theorem tryCatch {handler : ε → Prog Cmd Resp ε α} (hp : p.Issues A)
    (hh : ∀ e, (handler e).Issues A) : (p.tryCatch handler).Issues A := by
  exact Protocol.Steady.tryCatch hp hh

theorem all {f : β → Prog Cmd Resp ε α} {l : List β} (h : ∀ b ∈ l, (f b).Issues A)
    : (Prog.all (l.map f)).Issues A := by
  apply Protocol.Steady.mono (Protocol.steady_all h)
  intro _ _
  trivial

theorem mono (h : ∀ c, A c → B c) (hp : p.Issues A) : p.Issues B := by
  induction p with
  | pure a => trivial
  | throw e => trivial
  | op c k ih => exact ⟨h c hp.left, fun r hr => ⟨rfl, ih r (hp.right r hr).right⟩⟩
  | alt p q ihp ihq => exact ⟨ihp hp.left, ihq hp.right⟩

/--
A program that issues no other commands than those that leave the state of a party alone is steady.
-/
theorem steady {P : Protocol Cmd Resp ε} {s : P.State}
    (h : ∀ c, A c → P.allowed s c ∧ ∀ r, P.answers s c r → P.next s c r = s) (hp : p.Issues A)
    : P.Steady s p (fun _ => True) := by
  induction p with
  | pure a => trivial
  | throw e => trivial
  | op c k ih =>
    refine ⟨(h c hp.left).left, fun r hr => ?_⟩
    exact ⟨(h c hp.left).right r hr, ih r (hp.right r trivial).right⟩
  | alt p q ihp ihq => exact ⟨ihp hp.left, ihq hp.right⟩

/--
What holds of a program under one protocol holds under another, if the two have the commands it
issues in common and the answers of the second are answers of the first.
-/
theorem carry (P P' : Protocol Cmd Resp ε) {R : P.State → P'.State → Prop}
    (hR : ∀ c s s', A c → R s s' → P.allowed s c → P'.allowed s' c ∧
      ∀ r, P'.answers s' c r → P.answers s c r ∧ R (P.next s c r) (P'.next s' c r))
    (hp : p.Issues A) {Q : Except ε α → P.State → Prop} {s : P.State} {s' : P'.State}
    (hs : R s s') (hwp : P.wp p Q s) : P'.wp p (fun r t' => ∃ t, R t t' ∧ Q r t) s' := by
  induction p generalizing s s' with
  | pure a => exact ⟨s, hs, hwp⟩
  | throw e => exact ⟨s, hs, hwp⟩
  | op c k ih =>
    have hc := hR c s s' hp.left hs hwp.left
    refine ⟨hc.left, fun r hr => ?_⟩
    rcases hc.right r hr with ⟨hanswers, hnext⟩
    exact ih r (hp.right r trivial).right hnext (hwp.right r hanswers)
  | alt p q ihp ihq => exact ⟨ihp hp.left hs hwp.left, ihq hp.right hs hwp.right⟩

end Issues

end Prog
