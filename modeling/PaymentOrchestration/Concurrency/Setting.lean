import Mathlib.Data.List.Forall2
import PaymentOrchestration.Concurrency.Program

/-!
This module is about programs whose surroundings change while they run. Such a program is described
by what it relies on and by what it guarantees, so that the parts of `Promise.all` can be described
one by one.
-/

/--
What a program runs in: whether a command can be issued, and how it may be answered.
-/
structure Setting (Cmd : Type) (Resp : Cmd → Type) (ε : Type) (S : Type) where
  ready : S → Cmd → Prop
  answer : S → (c : Cmd) → Except ε (Resp c) → S → Prop

namespace Setting

variable {Cmd : Type} {Resp : Cmd → Type} {ε : Type} {S : Type} {α β γ : Type}

variable (T : Setting Cmd Resp ε S)

/--
From `s` the program runs to its end and never throws, as long as others change the state by `R`
only. It changes the state by `G`, and what it ends with is in `Φ`.
-/
def Assures (R G : S → S → Prop) (p : Prog Cmd Resp ε α) (Φ : α → S → Prop) (s : S) : Prop :=
  match p with
  | .pure a => Φ a s
  | .throw _ => False
  | .op c k => ∀ s₁, R s s₁ →
      T.ready s₁ c ∧ ∀ x s₂, T.answer s₁ c x s₂ → G s₁ s₂ ∧ Assures R G (k x) Φ s₂
  | .alt p q => Assures R G p Φ s ∧ Assures R G q Φ s

variable {T} {R G : S → S → Prop} {Φ Φ' : α → S → Prop} {s s' : S}

namespace Assures

theorem mono {R' G' : S → S → Prop} {p : Prog Cmd Resp ε α} (hp : T.Assures R G p Φ s)
    (hR : ∀ s s', R' s s' → R s s') (hG : ∀ s s', G s s' → G' s s') (hΦ : ∀ a s, Φ a s → Φ' a s)
    : T.Assures R' G' p Φ' s := by
  induction p generalizing s with
  | pure a => exact hΦ a s hp
  | throw e => exact hp.elim
  | op c k ih =>
    intro s₁ hs₁
    rcases hp s₁ (hR s s₁ hs₁) with ⟨hready, hall⟩
    refine ⟨hready, fun x s₂ hanswer => ?_⟩
    rcases hall x s₂ hanswer with ⟨hguar, hk⟩
    exact ⟨hG s₁ s₂ hguar, ih x hk⟩
  | alt p q ihp ihq => exact ⟨ihp hp.left, ihq hp.right⟩

/--
What is known of the state stays known while others run.
-/
theorem later (htrans : ∀ s₁ s₂ s₃, R s₁ s₂ → R s₂ s₃ → R s₁ s₃)
    (hstable : ∀ a s s', R s s' → Φ a s → Φ a s') {p : Prog Cmd Resp ε α}
    (hp : T.Assures R G p Φ s) (hs : R s s') : T.Assures R G p Φ s' := by
  induction p with
  | pure a => exact hstable a s s' hs hp
  | throw e => exact hp.elim
  | op c k ih =>
    intro s₁ hs₁
    exact hp s₁ (htrans s s' s₁ hs hs₁)
  | alt p q ihp ihq => exact ⟨ihp hp.left, ihq hp.right⟩

theorem bind {p : Prog Cmd Resp ε α} {f : α → Prog Cmd Resp ε β} {Ψ : β → S → Prop}
    (hp : T.Assures R G p Φ s) (hf : ∀ a s, Φ a s → T.Assures R G (f a) Ψ s)
    : T.Assures R G (p.bind f) Ψ s := by
  induction p generalizing s with
  | pure a => exact hf a s hp
  | throw e => exact hp.elim
  | op c k ih =>
    intro s₁ hs₁
    rcases hp s₁ hs₁ with ⟨hready, hall⟩
    refine ⟨hready, fun x s₂ hanswer => ?_⟩
    rcases hall x s₂ hanswer with ⟨hguar, hk⟩
    exact ⟨hguar, ih x hk⟩
  | alt p q ihp ihq => exact ⟨ihp hp.left, ihq hp.right⟩

theorem tryCatch {p : Prog Cmd Resp ε α} {handler : ε → Prog Cmd Resp ε α}
    (hp : T.Assures R G p Φ s) : T.Assures R G (p.tryCatch handler) Φ s := by
  induction p generalizing s with
  | pure a => exact hp
  | throw e => exact hp.elim
  | op c k ih =>
    intro s₁ hs₁
    rcases hp s₁ hs₁ with ⟨hready, hall⟩
    refine ⟨hready, fun x s₂ hanswer => ?_⟩
    rcases hall x s₂ hanswer with ⟨hguar, hk⟩
    exact ⟨hguar, ih x hk⟩
  | alt p q ihp ihq => exact ⟨ihp hp.left, ihq hp.right⟩

theorem perform {c : Cmd} {Φ : Resp c → S → Prop}
    (h : ∀ s₁, R s s₁ →
      T.ready s₁ c ∧ ∀ x s₂, T.answer s₁ c x s₂ → G s₁ s₂ ∧ ∃ a, x = .ok a ∧ Φ a s₂)
    : T.Assures R G (Prog.perform c) Φ s := by
  intro s₁ hs₁
  rcases h s₁ hs₁ with ⟨hready, hall⟩
  refine ⟨hready, fun x s₂ hanswer => ?_⟩
  rcases hall x s₂ hanswer with ⟨hguar, a, ha, hΦ⟩
  subst ha
  exact ⟨hguar, hΦ⟩

/--
A command whose answer and effect are known for every state in which others may leave it.
-/
theorem relying {c : Cmd} {Φ : Resp c → S → Prop}
    (h : ∀ s₁, R s s₁ →
      T.Assures Eq (fun _ _ => True) (Prog.perform c) (fun a s₂ => G s₁ s₂ ∧ Φ a s₂) s₁)
    : T.Assures R G (Prog.perform c) Φ s := by
  apply perform
  intro s₁ hs₁
  rcases h s₁ hs₁ s₁ rfl with ⟨hready, hall⟩
  refine ⟨hready, fun x s₂ hanswer => ?_⟩
  have hx := (hall x s₂ hanswer).right
  cases x with
  | ok a => exact ⟨hx.left, a, rfl, hx.right⟩
  | error e => exact hx.elim

/--
The steps of the program add up, if nobody else takes one.
-/
theorem change (hrefl : ∀ s, G s s) (htrans : ∀ s₁ s₂ s₃, G s₁ s₂ → G s₂ s₃ → G s₁ s₃)
    {p : Prog Cmd Resp ε α} (hp : T.Assures Eq G p Φ s)
    : T.Assures Eq G p (fun a s' => Φ a s' ∧ G s s') s := by
  induction p generalizing s with
  | pure a => exact ⟨hp, hrefl s⟩
  | throw e => exact hp.elim
  | op c k ih =>
    intro s₁ hs₁
    subst hs₁
    rcases hp s rfl with ⟨hready, hall⟩
    refine ⟨hready, fun x s₂ hanswer => ?_⟩
    rcases hall x s₂ hanswer with ⟨hguar, hk⟩
    refine ⟨hguar, (ih x hk).mono (fun _ _ h => h) (fun _ _ h => h) ?_⟩
    intro a s' ha
    exact ⟨ha.left, htrans s s₂ s' hguar ha.right⟩
  | alt p q ihp ihq => exact ⟨ihp hp.left, ihq hp.right⟩

/-!
Promises that run at the same time. What one of them guarantees the other has to rely on, and what
it ends with has to stay true.
-/

variable {Ψ : β → S → Prop} {R' G' : S → S → Prop}

theorem letRight {q : Prog Cmd Resp ε β} {step : Prog Cmd Resp ε β → Prog Cmd Resp ε γ}
    {Θ : γ → S → Prop} (hRrefl : ∀ s, R s s) (hRtrans : ∀ s₁ s₂ s₃, R s₁ s₂ → R s₂ s₃ → R s₁ s₃)
    (hG' : ∀ s s', G' s s' → R s s')
    (hstep : ∀ q s', R s s' → T.Assures R' G' q Ψ s' →
      T.Assures (fun s s' => R s s' ∧ R' s s') (fun s s' => G s s' ∨ G' s s') (step q) Θ s')
    (hq : T.Assures R' G' q Ψ s)
    : T.Assures (fun s s' => R s s' ∧ R' s s') (fun s s' => G s s' ∨ G' s s') (q.letRight step) Θ
        s := by
  induction q generalizing s with
  | pure b => exact hstep _ s (hRrefl s) hq
  | throw e => exact hq.elim
  | op d l ih =>
    refine ⟨hstep _ s (hRrefl s) hq, fun s₁ hs₁ => ?_⟩
    rcases hq s₁ hs₁.right with ⟨hready, hall⟩
    refine ⟨hready, fun x s₂ hanswer => ?_⟩
    rcases hall x s₂ hanswer with ⟨hguar, hl⟩
    refine ⟨.inr hguar, ih x (fun q s' hs' hq => ?_) hl⟩
    exact hstep q s' (hRtrans s s₁ s' hs₁.left (hRtrans s₁ s₂ s' (hG' s₁ s₂ hguar) hs')) hq
  | alt p q ihp ihq => exact ⟨ihp hstep hq.left, ihq hstep hq.right⟩

theorem both (hRrefl : ∀ s, R s s) (hRtrans : ∀ s₁ s₂ s₃, R s₁ s₂ → R s₂ s₃ → R s₁ s₃)
    (hR'trans : ∀ s₁ s₂ s₃, R' s₁ s₂ → R' s₂ s₃ → R' s₁ s₃)
    (hG : ∀ s s', G s s' → R' s s') (hG' : ∀ s s', G' s s' → R s s')
    (hΦ : ∀ a s s', R s s' → Φ a s → Φ a s') (hΨ : ∀ b s s', R' s s' → Ψ b s → Ψ b s')
    {p : Prog Cmd Resp ε α} {q : Prog Cmd Resp ε β} (hp : T.Assures R G p Φ s)
    (hq : T.Assures R' G' q Ψ s)
    : T.Assures (fun s s' => R s s' ∧ R' s s') (fun s s' => G s s' ∨ G' s s') (p.both q)
        (fun r s => Φ r.1 s ∧ Ψ r.2 s) s := by
  induction p generalizing q s with
  | pure a =>
    -- The left promise has its result, which has to survive the rest of the right one.
    induction q generalizing s with
    | pure b => exact ⟨hp, hq⟩
    | throw e => exact hq.elim
    | op d l ih =>
      intro s₁ hs₁
      rcases hq s₁ hs₁.right with ⟨hready, hall⟩
      refine ⟨hready, fun x s₂ hanswer => ?_⟩
      rcases hall x s₂ hanswer with ⟨hguar, hl⟩
      have hs₂ := hRtrans s s₁ s₂ hs₁.left (hG' s₁ s₂ hguar)
      exact ⟨.inr hguar, ih x (hΦ a s s₂ hs₂ hp) hl⟩
    | alt p q ihp ihq => exact ⟨ihp hp hq.left, ihq hp hq.right⟩
  | throw e => exact hp.elim
  | op c k ih =>
    apply letRight hRrefl hRtrans hG' _ hq
    intro q s' hs' hq s₁ hs₁
    rcases hp s₁ (hRtrans s s' s₁ hs' hs₁.left) with ⟨hready, hall⟩
    refine ⟨hready, fun x s₂ hanswer => ?_⟩
    rcases hall x s₂ hanswer with ⟨hguar, hk⟩
    have hs₂ := hR'trans s' s₁ s₂ hs₁.right (hG s₁ s₂ hguar)
    exact ⟨.inl hguar, ih x hk (hq.later hR'trans hΨ hs₂)⟩
  | alt p p' ihp ihp' => exact ⟨ihp hp.left hq, ihp' hp.right hq⟩

theorem forall₂_imp_of_mem {P Q : β → α → Prop} {l : List β} {as : List α}
    (h : ∀ b ∈ l, ∀ a, P b a → Q b a) (has : List.Forall₂ P l as) : List.Forall₂ Q l as := by
  induction has with
  | nil => exact .nil
  | cons hab _ ih => exact .cons (h _ (by simp) _ hab) (ih (fun b hb => h b (by simp [hb])))

/--
`R b` is what the promise about `b` relies on and `G b` what it guarantees.
-/
theorem all {f : β → Prog Cmd Resp ε α} {R G : β → S → S → Prop} {Φ : β → α → S → Prop}
    (hrefl : ∀ b s, R b s s) (htrans : ∀ b s₁ s₂ s₃, R b s₁ s₂ → R b s₂ s₃ → R b s₁ s₃)
    (hΦ : ∀ b a s s', R b s s' → Φ b a s → Φ b a s') {l : List β}
    (hG : l.Pairwise (fun b b' => ∀ s s', (G b s s' → R b' s s') ∧ (G b' s s' → R b s s')))
    (h : ∀ b ∈ l, T.Assures (R b) (G b) (f b) (Φ b) s)
    : T.Assures (fun s s' => ∀ b ∈ l, R b s s') (fun s s' => ∃ b ∈ l, G b s s')
        (Prog.all (l.map f)) (fun as s => List.Forall₂ (fun b a => Φ b a s) l as) s := by
  induction l with
  | nil => exact .nil
  | cons b l ih =>
    rw [List.pairwise_cons] at hG
    have hb := h b (by simp)
    have hl := ih hG.right (fun b hb => h b (by simp [hb]))
    have hrely : ∀ s s', (∃ b' ∈ l, G b' s s') → R b s s' := by
      rintro s s' ⟨b', hb', hs⟩
      exact (hG.left b' hb' s s').right hs
    have hstable : ∀ (as : List α) s s', (∀ b ∈ l, R b s s') →
        List.Forall₂ (fun b a => Φ b a s) l as → List.Forall₂ (fun b a => Φ b a s') l as := by
      intro as s s' hs
      exact forall₂_imp_of_mem (fun b hb a => hΦ b a s s' (hs b hb))
    have hboth := both (hrefl b) (htrans b)
      (fun s₁ s₂ s₃ h h' b hb => htrans b s₁ s₂ s₃ (h b hb) (h' b hb))
      (fun s s' hs b' hb' => (hG.left b' hb' s s').left hs) hrely (hΦ b) hstable hb hl
    apply Assures.bind (Φ := fun r s => Φ b r.1 s ∧ List.Forall₂ (fun b a => Φ b a s) l r.2)
    . apply hboth.mono
      . intro s s' hs
        exact ⟨hs b (by simp), fun b hb => hs b (by simp [hb])⟩
      . rintro s s' (hs | ⟨b', hb', hs⟩)
        . exact ⟨b, by simp, hs⟩
        . exact ⟨b', by simp [hb'], hs⟩
      . exact fun _ _ hr => hr
    . rintro ⟨a, as⟩ s ⟨ha, has⟩
      exact .cons ha has

end Assures

end Setting
