import Mathlib.Data.List.Forall2
import PaymentOrchestration.Concurrency.Pool

/-!
This module contains protocols: abstract descriptions of what one party may do to the shared world.
A program is checked against a protocol on its own, with no other party in sight. What holds of the
world is then proved once, for any parties that keep to the protocol.
-/

/--
A protocol for one party. The state of a party says how far it has got, it exists in proofs only.
-/
structure Protocol (Cmd : Type) (Resp : Cmd → Type) (ε : Type) where
  State : Type
  allowed : State → Cmd → Prop
  /-- The answers that the world may give to an allowed command. -/
  answers : State → (c : Cmd) → Except ε (Resp c) → Prop
  next : State → (c : Cmd) → Except ε (Resp c) → State
  crash : State → State

namespace Protocol

variable {Cmd : Type} {Resp : Cmd → Type} {ε : Type} {α β γ : Type}

variable (P : Protocol Cmd Resp ε)

/--
From state `s` the program keeps to the protocol and ends in a result and a state that satisfy `Q`.
-/
def wp (p : Prog Cmd Resp ε α) (Q : Except ε α → P.State → Prop) (s : P.State) : Prop :=
  match p with
  | .pure a => Q (.ok a) s
  | .throw e => Q (.error e) s
  | .op c k => P.allowed s c ∧ ∀ r, P.answers s c r → wp (k r) Q (P.next s c r)
  | .alt p q => wp p Q s ∧ wp q Q s

variable {P} {Q Q' : Except ε α → P.State → Prop} {s : P.State}

@[simp]
theorem wp_pure {a : α} : P.wp (.pure a) Q s ↔ Q (.ok a) s := by
  rfl

@[simp]
theorem wp_throw {e : ε} : P.wp (.throw e) Q s ↔ Q (.error e) s := by
  rfl

@[simp]
theorem wp_op {c : Cmd} {k : Except ε (Resp c) → Prog Cmd Resp ε α}
    : P.wp (.op c k) Q s ↔
        P.allowed s c ∧ ∀ r, P.answers s c r → P.wp (k r) Q (P.next s c r) := by
  rfl

@[simp]
theorem wp_alt {p q : Prog Cmd Resp ε α} : P.wp (.alt p q) Q s ↔ P.wp p Q s ∧ P.wp q Q s := by
  rfl

theorem wp_mono {p : Prog Cmd Resp ε α} (hwp : P.wp p Q s) (h : ∀ r s, Q r s → Q' r s)
    : P.wp p Q' s := by
  induction p generalizing s with
  | pure a => exact h _ _ hwp
  | throw e => exact h _ _ hwp
  | op c k ih => exact ⟨hwp.left, fun r hr => ih r (hwp.right r hr)⟩
  | alt p q ihp ihq => exact ⟨ihp hwp.left, ihq hwp.right⟩

@[simp]
theorem wp_bind {p : Prog Cmd Resp ε β} {f : β → Prog Cmd Resp ε α}
    : P.wp (p.bind f) Q s
        ↔
      P.wp p (fun r s =>
        match r with
        | .ok b => P.wp (f b) Q s
        | .error e => Q (.error e) s) s := by
  induction p generalizing s with
  | pure b => simp [Prog.bind]
  | throw e => simp [Prog.bind]
  | op c k ih => simp [Prog.bind, ih]
  | alt p q ihp ihq => simp [Prog.bind, ihp, ihq]

@[simp]
theorem wp_tryCatch {p : Prog Cmd Resp ε α} {handler : ε → Prog Cmd Resp ε α}
    : P.wp (p.tryCatch handler) Q s
        ↔
      P.wp p (fun r s =>
        match r with
        | .ok a => Q (.ok a) s
        | .error e => P.wp (handler e) Q s) s := by
  induction p generalizing s with
  | pure b => simp [Prog.tryCatch]
  | throw e => simp [Prog.tryCatch]
  | op c k ih => simp [Prog.tryCatch, ih]
  | alt p q ihp ihq => simp [Prog.tryCatch, ihp, ihq]

theorem wp_perform {c : Cmd} {Q : Except ε (Resp c) → P.State → Prop}
    : P.wp (Prog.perform c) Q s
        ↔
      P.allowed s c ∧ ∀ r, P.answers s c r → Q r (P.next s c r) := by
  simp only [Prog.perform, wp_op]
  constructor
  . rintro ⟨hallowed, h⟩
    refine ⟨hallowed, fun r hr => ?_⟩
    cases r <;> exact h _ hr
  . rintro ⟨hallowed, h⟩
    refine ⟨hallowed, fun r hr => ?_⟩
    cases r <;> exact h _ hr

variable (P) in
/--
Every command of the program is allowed in state `s` and leaves the party in it. The program returns
what satisfies `Φ` and throws what satisfies `T`. Such programs can run at the same time on behalf of
one party.
-/
def Within (s : P.State) (p : Prog Cmd Resp ε α) (Φ : α → Prop) (T : ε → Prop) : Prop :=
  match p with
  | .pure a => Φ a
  | .throw e => T e
  | .op c k => P.allowed s c ∧ ∀ r, P.answers s c r → P.next s c r = s ∧ Within s (k r) Φ T
  | .alt p q => Within s p Φ T ∧ Within s q Φ T

section Within

variable {Φ : α → Prop} {Ψ : β → Prop} {T T' : ε → Prop}

theorem Within.mono {p : Prog Cmd Resp ε α} {Φ' : α → Prop} (hp : P.Within s p Φ T)
    (hΦ : ∀ a, Φ a → Φ' a) (hT : ∀ e, T e → T' e) : P.Within s p Φ' T' := by
  induction p with
  | pure a => exact hΦ a hp
  | throw e => exact hT e hp
  | op c k ih => exact ⟨hp.left, fun r hr => ⟨(hp.right r hr).left, ih r (hp.right r hr).right⟩⟩
  | alt p q ihp ihq => exact ⟨ihp hp.left, ihq hp.right⟩

theorem Within.bind {p : Prog Cmd Resp ε α} {f : α → Prog Cmd Resp ε β}
    (hp : P.Within s p Φ T) (hf : ∀ a, Φ a → P.Within s (f a) Ψ T)
    : P.Within s (p.bind f) Ψ T := by
  induction p with
  | pure a => exact hf a hp
  | throw e => exact hp
  | op c k ih => exact ⟨hp.left, fun r hr => ⟨(hp.right r hr).left, ih r (hp.right r hr).right⟩⟩
  | alt p q ihp ihq => exact ⟨ihp hp.left, ihq hp.right⟩

theorem Within.tryCatch {p : Prog Cmd Resp ε α} {handler : ε → Prog Cmd Resp ε α}
    (hp : P.Within s p Φ T) (hh : ∀ e, T e → P.Within s (handler e) Φ T')
    : P.Within s (p.tryCatch handler) Φ T' := by
  induction p with
  | pure a => exact hp
  | throw e => exact hh e hp
  | op c k ih => exact ⟨hp.left, fun r hr => ⟨(hp.right r hr).left, ih r (hp.right r hr).right⟩⟩
  | alt p q ihp ihq => exact ⟨ihp hp.left, ihq hp.right⟩

theorem within_perform {c : Cmd} {Φ : Resp c → Prop} (hallowed : P.allowed s c)
    (h : ∀ r, P.answers s c r → P.next s c r = s ∧ (∀ a, r = .ok a → Φ a) ∧ ∀ e, r = .error e → T e)
    : P.Within s (Prog.perform c) Φ T := by
  refine ⟨hallowed, fun r hr => ⟨(h r hr).left, ?_⟩⟩
  cases r with
  | ok a => exact (h _ hr).right.left a rfl
  | error e => exact (h _ hr).right.right e rfl

theorem Within.reject {p : Prog Cmd Resp ε α} {e : ε} (hp : P.Within s p Φ T) (he : T e)
    : P.Within s (p.reject e) Ψ T := by
  induction p with
  | pure a => exact he
  | throw e' => exact he
  | op c k ih =>
    refine ⟨he, hp.left, fun r hr => ?_⟩
    exact ⟨(hp.right r hr).left, ih r (hp.right r hr).right⟩
  | alt p q ihp ihq => exact ⟨ihp hp.left, ihq hp.right⟩

theorem Within.letRight {q : Prog Cmd Resp ε β} {step : Prog Cmd Resp ε β → Prog Cmd Resp ε γ}
    {Χ : γ → Prop} (hq : P.Within s q Ψ T)
    (hstep : ∀ q, P.Within s q Ψ T → P.Within s (step q) Χ T)
    : P.Within s (q.letRight step) Χ T := by
  induction q with
  | pure b => exact hstep _ hq
  | throw e => exact ⟨hq, hstep _ hq⟩
  | op d l ih =>
    refine ⟨hstep _ hq, hq.left, fun r hr => ?_⟩
    exact ⟨(hq.right r hr).left, ih r (hq.right r hr).right⟩
  | alt p q ihp ihq => exact ⟨ihp hq.left, ihq hq.right⟩

theorem Within.both {p : Prog Cmd Resp ε α} {q : Prog Cmd Resp ε β} (hp : P.Within s p Φ T)
    (hq : P.Within s q Ψ T) : P.Within s (p.both q) (fun r => Φ r.1 ∧ Ψ r.2) T := by
  induction p generalizing q with
  | pure a => exact hq.bind (fun b hb => ⟨hp, hb⟩)
  | throw e => exact hq.reject hp
  | op c k ih =>
    apply hq.letRight
    intro q hq
    refine ⟨hp.left, fun r hr => ?_⟩
    exact ⟨(hp.right r hr).left, ih r (hp.right r hr).right hq⟩
  | alt p p' ihp ihp' => exact ⟨ihp hp.left hq, ihp' hp.right hq⟩

theorem within_all {f : β → Prog Cmd Resp ε α} {Φ : β → α → Prop} {l : List β}
    (h : ∀ b ∈ l, P.Within s (f b) (Φ b) T)
    : P.Within s (Prog.all (l.map f)) (fun as => List.Forall₂ Φ l as) T := by
  induction l with
  | nil => exact .nil
  | cons b l ih =>
    have hb : P.Within s (f b) (Φ b) T := h b (by simp)
    have hl := ih (fun b hb => h b (by simp [hb]))
    apply (hb.both hl).bind
    rintro ⟨a, as⟩ ⟨ha, has⟩
    exact .cons ha has

theorem Within.wp {p : Prog Cmd Resp ε α} (hp : P.Within s p Φ T) (hok : ∀ a, Φ a → Q (.ok a) s)
    (herror : ∀ e, T e → Q (.error e) s) : P.wp p Q s := by
  induction p with
  | pure a => exact hok a hp
  | throw e => exact herror e hp
  | op c k ih =>
    refine ⟨hp.left, fun r hr => ?_⟩
    rcases hp.right r hr with ⟨hnext, hk⟩
    rw [hnext]
    exact ih r hk
  | alt p q ihp ihq => exact ⟨ihp hp.left, ihq hp.right⟩

end Within

variable (P) in
/--
Every command of the program is allowed in state `s` and leaves the party in it, whatever it throws.
-/
def Steady (s : P.State) (p : Prog Cmd Resp ε α) (Φ : α → Prop) : Prop :=
  match p with
  | .pure a => Φ a
  | .throw _ => True
  | .op c k => P.allowed s c ∧ ∀ r, P.answers s c r → P.next s c r = s ∧ Steady s (k r) Φ
  | .alt p q => Steady s p Φ ∧ Steady s q Φ

theorem steady_iff {p : Prog Cmd Resp ε α} {Φ : α → Prop}
    : P.Steady s p Φ ↔ P.Within s p Φ (fun _ => True) := by
  induction p with
  | pure a => rfl
  | throw e => rfl
  | op c k ih => simp only [Steady, Within, ih]
  | alt p q ihp ihq => simp only [Steady, Within, ihp, ihq]

theorem Steady.mono {p : Prog Cmd Resp ε α} {Φ Ψ : α → Prop} (hp : P.Steady s p Φ)
    (h : ∀ a, Φ a → Ψ a) : P.Steady s p Ψ := by
  rw [steady_iff] at hp ⊢
  exact hp.mono h (fun _ h => h)

theorem Steady.bind {p : Prog Cmd Resp ε α} {f : α → Prog Cmd Resp ε β} {Φ : α → Prop}
    {Ψ : β → Prop} (hp : P.Steady s p Φ) (hf : ∀ a, Φ a → P.Steady s (f a) Ψ)
    : P.Steady s (p.bind f) Ψ := by
  rw [steady_iff] at hp ⊢
  apply hp.bind
  intro a ha
  exact steady_iff.mp (hf a ha)

theorem Steady.tryCatch {p : Prog Cmd Resp ε α} {handler : ε → Prog Cmd Resp ε α} {Φ : α → Prop}
    (hp : P.Steady s p Φ) (hh : ∀ e, P.Steady s (handler e) Φ)
    : P.Steady s (p.tryCatch handler) Φ := by
  rw [steady_iff] at hp ⊢
  apply hp.tryCatch
  intro e _
  exact steady_iff.mp (hh e)

theorem steady_perform {c : Cmd} {Φ : Resp c → Prop} (hallowed : P.allowed s c)
    (h : ∀ r, P.answers s c r → P.next s c r = s ∧ ∀ a, r = .ok a → Φ a)
    : P.Steady s (Prog.perform c) Φ := by
  rw [steady_iff]
  apply within_perform hallowed
  intro r hr
  exact ⟨(h r hr).left, (h r hr).right, fun _ _ => trivial⟩

theorem steady_all {f : β → Prog Cmd Resp ε α} {Φ : β → α → Prop} {l : List β}
    (h : ∀ b ∈ l, P.Steady s (f b) (Φ b))
    : P.Steady s (Prog.all (l.map f)) (fun as => List.Forall₂ Φ l as) := by
  rw [steady_iff]
  apply within_all
  intro b hb
  exact steady_iff.mp (h b hb)

theorem Steady.wp {p : Prog Cmd Resp ε α} {Φ : α → Prop} (hp : P.Steady s p Φ)
    (hok : ∀ a, Φ a → Q (.ok a) s) (herror : ∀ e, Q (.error e) s) : P.wp p Q s := by
  rw [steady_iff] at hp
  exact hp.wp hok (fun e _ => herror e)

end Protocol

/-!
A pool whose programs keep to a protocol is simulated by a system of parties that have no program
at all, only a state of the protocol.
-/

namespace Machine

variable {Cmd : Type} {Resp : Cmd → Type} {ε : Type} {α : Type}

variable (M : Machine Cmd Resp ε) (P : Protocol Cmd Resp ε)

structure Parties where
  world : M.World
  state : M.Pid → P.State

variable {M} {P} in
def Parties.crash (c : M.Parties P) (n : M.Node) : M.Parties P where
  world := M.crash n c.world
  state := fun i => if M.node i = n then P.crash (c.state i) else c.state i

inductive PartyStep : M.Parties P → M.Parties P → Prop where
  | run {c : M.Parties P} (i : M.Pid) (cmd : Cmd) (o : M.Oracle) (r : Except ε (Resp cmd))
      (w : M.World) (hallowed : P.allowed (c.state i) cmd)
      (hexec : M.exec i cmd o c.world = some (r, w))
    : PartyStep c { world := w, state := Function.update c.state i (P.next (c.state i) cmd r) }
  | env {c : M.Parties P} (e : M.Env) (w : M.World) (henv : M.env e c.world = some w)
    : PartyStep c { c with world := w }
  | crash {c : M.Parties P} (n : M.Node) : PartyStep c (c.crash n)

abbrev PartyRun : M.Parties P → M.Parties P → Prop :=
  Relation.ReflTransGen (M.PartyStep P)

/--
How far the process has got is described by the state of its party.
-/
def Follows (s₀ : P.State) (fin : Except ε α → P.State → Prop) (proc : Proc Cmd Resp ε α)
    (s : P.State) : Prop :=
  match proc with
  | .idle => s = s₀
  | .running p => P.wp p fin s
  | .dead => True

variable {M} {P}

/--
The programs keep to the protocol, and every answer the world gives to parties that satisfy `Inv`
is one that the protocol admits.
-/
structure Conforms (program : M.Pid → Prog Cmd Resp ε α) (s₀ : M.Pid → P.State)
    (fin : M.Pid → Except ε α → P.State → Prop) (Inv : M.Parties P → Prop) : Prop where
  program : ∀ i, P.wp (program i) (fin i) (s₀ i)
  crash_start : ∀ i, P.crash (s₀ i) = s₀ i
  crash_fin : ∀ i r s, fin i r s → fin i r (P.crash s)
  answers : ∀ (c : M.Parties P) i cmd o r w, Inv c → P.allowed (c.state i) cmd →
    M.exec i cmd o c.world = some (r, w) → P.answers (c.state i) cmd r
  step : ∀ c c' : M.Parties P, Inv c → M.PartyStep P c c' → Inv c'

variable {program : M.Pid → Prog Cmd Resp ε α} {s₀ : M.Pid → P.State}
  {fin : M.Pid → Except ε α → P.State → Prop} {Inv : M.Parties P → Prop}

theorem Conforms.invariant (h : Conforms program s₀ fin Inv) {c c' : M.Parties P} (hinv : Inv c)
    (hrun : M.PartyRun P c c') : Inv c' := by
  induction hrun with
  | refl => exact hinv
  | tail _ hstep ih => exact h.step _ _ ih hstep

/--
The pool `c` is described by the parties `d`.
-/
structure Simulates (s₀ : M.Pid → P.State) (fin : M.Pid → Except ε α → P.State → Prop)
    (c : M.Config α) (d : M.Parties P) : Prop where
  world : c.world = d.world
  follows : ∀ i, Follows P (s₀ i) (fin i) (c.pool i) (d.state i)

theorem Simulates.of_update {c : M.Config α} {d : M.Parties P} (hsim : Simulates s₀ fin c d)
    {i : M.Pid} {w : M.World} {proc : Proc Cmd Resp ε α} {s : P.State}
    (hi : Follows P (s₀ i) (fin i) proc s)
    : Simulates s₀ fin { world := w, pool := Function.update c.pool i proc }
        { world := w, state := Function.update d.state i s } := by
  refine ⟨rfl, fun j => ?_⟩
  by_cases hj : j = i
  . subst hj
    simpa using hi
  . simpa [hj] using hsim.follows j

theorem Simulates.of_silent {c : M.Config α} {d : M.Parties P} (hsim : Simulates s₀ fin c d)
    {i : M.Pid} {proc : Proc Cmd Resp ε α} (hi : Follows P (s₀ i) (fin i) proc (d.state i))
    : Simulates s₀ fin { c with pool := Function.update c.pool i proc } d := by
  have := hsim.of_update (w := c.world) hi
  rw [Function.update_eq_self] at this
  exact ⟨hsim.world, this.follows⟩

/--
A process that is through has kept its promise.
-/
theorem Simulates.result {c : M.Config α} {d : M.Parties P} (hsim : Simulates s₀ fin c d)
    {i : M.Pid} {r : Except ε α} (hr : (c.pool i).result = some r) : fin i r (d.state i) := by
  have hfollows := hsim.follows i
  unfold Proc.result at hr
  split at hr
  . next a hproc =>
    injection hr with hr
    subst hr
    rw [hproc] at hfollows
    exact hfollows
  . next e hproc =>
    injection hr with hr
    subst hr
    rw [hproc] at hfollows
    exact hfollows
  . cases hr

theorem Follows.crash (hstart : ∀ i, P.crash (s₀ i) = s₀ i)
    (hfin : ∀ i r s, fin i r s → fin i r (P.crash s)) {i : M.Pid} {proc : Proc Cmd Resp ε α}
    {s : P.State} (hfollows : Follows P (s₀ i) (fin i) proc s)
    : Follows P (s₀ i) (fin i) proc.crash (P.crash s) := by
  cases proc with
  | idle =>
    simp only [Follows] at hfollows
    simp [Proc.crash, Follows, hfollows, hstart]
  | dead => simp [Proc.crash, Follows]
  | running p =>
    cases p with
    | pure a => exact hfin i _ _ hfollows
    | throw e => exact hfin i _ _ hfollows
    | op c k => simp [Proc.crash, Follows]
    | alt p q => simp [Proc.crash, Follows]

variable (program) in
/--
One action of the pool together with what it does to the parties.
-/
inductive Moves : M.Act → M.Config α → M.Parties P → M.Config α → M.Parties P → Prop where
  | spawn {c : M.Config α} {d : M.Parties P} (i : M.Pid) (hidle : c.pool i = .idle)
    : Moves (.spawn i) c d { c with pool := Function.update c.pool i (.running (program i)) } d
  | run {c : M.Config α} {d : M.Parties P} (i : M.Pid) (o : M.Oracle) (cmd : Cmd)
      (k : Except ε (Resp cmd) → Prog Cmd Resp ε α) (r : Except ε (Resp cmd)) (w : M.World)
      (hop : c.pool i = .running (.op cmd k)) (hallowed : P.allowed (d.state i) cmd)
      (hexec : M.exec i cmd o c.world = some (r, w))
    : Moves (.run i o) c d
        { world := w, pool := Function.update c.pool i (.running (k r)) }
        { world := w, state := Function.update d.state i (P.next (d.state i) cmd r) }
  | left {c : M.Config α} {d : M.Parties P} (i : M.Pid) (p q : Prog Cmd Resp ε α)
      (halt : c.pool i = .running (.alt p q))
    : Moves (.left i) c d { c with pool := Function.update c.pool i (.running p) } d
  | right {c : M.Config α} {d : M.Parties P} (i : M.Pid) (p q : Prog Cmd Resp ε α)
      (halt : c.pool i = .running (.alt p q))
    : Moves (.right i) c d { c with pool := Function.update c.pool i (.running q) } d
  | env {c : M.Config α} {d : M.Parties P} (e : M.Env) (w : M.World)
      (henv : M.env e c.world = some w)
    : Moves (.env e) c d { c with world := w } { d with world := w }
  | crash {c : M.Config α} {d : M.Parties P} (n : M.Node)
    : Moves (.crash n) c d
        { world := M.crash n c.world
          pool := fun i => if M.node i = n then (c.pool i).crash else c.pool i }
        (d.crash n)

theorem Simulates.moves (hprogram : ∀ i, P.wp (program i) (fin i) (s₀ i))
    (hstart : ∀ i, P.crash (s₀ i) = s₀ i) (hfin : ∀ i r s, fin i r s → fin i r (P.crash s))
    {c c' : M.Config α} {d : M.Parties P} (hsim : Simulates s₀ fin c d) {a : M.Act}
    (hact : M.act program a c = some c')
    (hanswers : ∀ i o cmd k r w, a = .run i o → c.pool i = .running (.op cmd k) →
      P.allowed (d.state i) cmd → M.exec i cmd o c.world = some (r, w) →
      P.answers (d.state i) cmd r)
    : ∃ d', Moves program a c d c' d' ∧ Simulates s₀ fin c' d' := by
  cases a with
  | spawn i =>
    have hi := hsim.follows i
    simp only [Machine.act] at hact
    split at hact
    . next hidle =>
      simp only [hidle, Follows] at hi
      injection hact with hact
      subst hact
      refine ⟨d, .spawn i hidle, hsim.of_silent ?_⟩
      simpa [Follows, hi] using hprogram i
    . simp at hact
  | run i o =>
    have hi := hsim.follows i
    simp only [Machine.act] at hact
    split at hact
    . next cmd k hop =>
      simp only [hop, Follows, Protocol.wp_op] at hi
      split at hact
      . next r w hexec =>
        injection hact with hact
        subst hact
        have hr := hanswers i o cmd k r w rfl hop hi.left hexec
        exact ⟨_, .run i o cmd k r w hop hi.left hexec, hsim.of_update (hi.right r hr)⟩
      . simp at hact
    . simp at hact
  | left i =>
    have hi := hsim.follows i
    simp only [Machine.act] at hact
    split at hact
    . next p q halt =>
      simp only [halt, Follows, Protocol.wp_alt] at hi
      injection hact with hact
      subst hact
      exact ⟨d, .left i p q halt, hsim.of_silent hi.left⟩
    . simp at hact
  | right i =>
    have hi := hsim.follows i
    simp only [Machine.act] at hact
    split at hact
    . next p q halt =>
      simp only [halt, Follows, Protocol.wp_alt] at hi
      injection hact with hact
      subst hact
      exact ⟨d, .right i p q halt, hsim.of_silent hi.right⟩
    . simp at hact
  | env e =>
    simp only [Machine.act] at hact
    split at hact
    . next w henv =>
      injection hact with hact
      subst hact
      exact ⟨_, .env e w henv, ⟨rfl, hsim.follows⟩⟩
    . simp at hact
  | crash n =>
    injection hact with hact
    subst hact
    refine ⟨_, .crash n, ?_, fun i => ?_⟩
    . simp [Parties.crash, hsim.world]
    . simp only [Parties.crash]
      split
      . exact (hsim.follows i).crash hstart hfin
      . exact hsim.follows i

theorem Moves.partyRun {c c' : M.Config α} {d d' : M.Parties P} {a : M.Act}
    (hworld : c.world = d.world) (h : Moves program a c d c' d') : M.PartyRun P d d' := by
  cases h with
  | run i o cmd k r w hop hallowed hexec =>
    rw [hworld] at hexec
    exact .single (.run i cmd o r w hallowed hexec)
  | env e w henv =>
    rw [hworld] at henv
    exact .single (.env e w henv)
  | crash n => exact .single (.crash n)
  | _ => exact .refl

theorem Moves.act {c c' : M.Config α} {d d' : M.Parties P} {a : M.Act}
    (h : Moves program a c d c' d') : M.act program a c = some c' := by
  cases h with
  | spawn i hidle => simp [Machine.act, hidle]
  | run i o cmd k r w hop hallowed hexec => simp [Machine.act, hop, hexec]
  | left i p q halt => simp [Machine.act, halt]
  | right i p q halt => simp [Machine.act, halt]
  | env e w henv => simp [Machine.act, henv]
  | crash n => rfl

theorem Simulates.act (h : Conforms program s₀ fin Inv) {c c' : M.Config α} {d : M.Parties P}
    (hsim : Simulates s₀ fin c d) (hinv : Inv d) {a : M.Act} (hact : M.act program a c = some c')
    : ∃ d', M.PartyRun P d d' ∧ Simulates s₀ fin c' d' := by
  have hmoves := hsim.moves h.program h.crash_start h.crash_fin hact
  rcases hmoves (by
    intro i o cmd k r w _ _ hallowed hexec
    rw [hsim.world] at hexec
    exact h.answers d i cmd o r w hinv hallowed hexec) with ⟨d', hmoves, hsim'⟩
  exact ⟨d', hmoves.partyRun hsim.world, hsim'⟩

/--
Every run of the pool is a run of the parties.
-/
theorem Simulates.run (h : Conforms program s₀ fin Inv) {c c' : M.Config α} {d : M.Parties P}
    (hsim : Simulates s₀ fin c d) (hinv : Inv d) (hrun : M.Run program c c')
    : ∃ d', M.PartyRun P d d' ∧ Simulates s₀ fin c' d' := by
  induction hrun with
  | refl => exact ⟨d, .refl, hsim⟩
  | tail _ hstep ih =>
    rcases ih with ⟨d₁, hrun₁, hsim₁⟩
    rcases hstep with ⟨a, _, hact⟩
    rcases hsim₁.act h (h.invariant hinv hrun₁) hact with ⟨d₂, hrun₂, hsim₂⟩
    exact ⟨d₂, hrun₁.trans hrun₂, hsim₂⟩

/--
The programs keep to the protocol in every run whose actions are admitted by `A`. `J` is what holds
of the pool and its parties together.
-/
structure ConformsBy (programs : M.Pid → Prog Cmd Resp ε α) (s₀ : M.Pid → P.State)
    (fin : M.Pid → Except ε α → P.State → Prop) (A : M.Config α → M.Act → Prop)
    (J : M.Config α → M.Parties P → Prop) : Prop where
  program : ∀ i, P.wp (programs i) (fin i) (s₀ i)
  crash_start : ∀ i, P.crash (s₀ i) = s₀ i
  crash_fin : ∀ i r s, fin i r s → fin i r (P.crash s)
  answers : ∀ (c : M.Config α) (d : M.Parties P) i o cmd k r w, Simulates s₀ fin c d → J c d →
    A c (.run i o) → c.pool i = .running (.op cmd k) → P.allowed (d.state i) cmd →
    M.exec i cmd o c.world = some (r, w) → P.answers (d.state i) cmd r
  step : ∀ a (c c' : M.Config α) (d d' : M.Parties P), Simulates s₀ fin c d → J c d → A c a →
    Moves programs a c d c' d' → Simulates s₀ fin c' d' → J c' d'

theorem Simulates.runBy {A : M.Config α → M.Act → Prop} {J : M.Config α → M.Parties P → Prop}
    (h : ConformsBy program s₀ fin A J) {c c' : M.Config α} {d : M.Parties P}
    (hsim : Simulates s₀ fin c d) (hJ : J c d) (hrun : M.RunBy program A c c')
    : ∃ d', Simulates s₀ fin c' d' ∧ J c' d' := by
  induction hrun with
  | refl => exact ⟨d, hsim, hJ⟩
  | @tail c₁ c₂ _ hstep ih =>
    rcases ih with ⟨d₁, hsim₁, hJ₁⟩
    rcases hstep with ⟨a, ha, hact⟩
    have hmoves := hsim₁.moves h.program h.crash_start h.crash_fin hact
    rcases hmoves (by
      intro i o cmd k r w heq hop hallowed hexec
      rw [heq] at ha
      exact h.answers c₁ d₁ i o cmd k r w hsim₁ hJ₁ ha hop hallowed hexec) with ⟨d₂, hmoves, hsim₂⟩
    exact ⟨d₂, hsim₂, h.step a c₁ c₂ d₁ d₂ hsim₁ hJ₁ ha hmoves hsim₂⟩

end Machine
