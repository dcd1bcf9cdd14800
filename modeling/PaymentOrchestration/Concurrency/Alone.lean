import PaymentOrchestration.Concurrency.Pool
import PaymentOrchestration.Concurrency.Setting

/-!
This module contains programs that run on a machine from their start to their end without another
process in between.
-/

namespace Machine

variable {Cmd : Type} {Resp : Cmd → Type} {ε : Type} {α : Type}

variable (M : Machine Cmd Resp ε) (i : M.Pid) (A : M.Oracle → Prop)

/--
Process `i` runs the program in world `w` until it ends with `r`, and leaves world `w'` behind. `A`
is what the world may decide on its own.
-/
def Completes (p : Prog Cmd Resp ε α) (w : M.World) (r : Except ε α) (w' : M.World) : Prop :=
  match p with
  | .pure a => r = .ok a ∧ w' = w
  | .throw e => r = .error e ∧ w' = w
  | .op c k => ∃ o x w₁, A o ∧ M.exec i c o w = some (x, w₁) ∧ Completes (k x) w₁ r w'
  | .alt p q => Completes p w r w' ∨ Completes q w r w'

def setting : Setting Cmd Resp ε M.World where
  ready := fun w c => ∃ o x w', A o ∧ M.exec i c o w = some (x, w')
  answer := fun w c x w' => ∃ o, A o ∧ M.exec i c o w = some (x, w')

variable {M} {i} {A} {G : M.World → M.World → Prop} {Φ : α → M.World → Prop} {w w' : M.World}

theorem Completes.result {p : Prog Cmd Resp ε α} {r : Except ε α}
    (h : M.Completes i A p w r w') (hp : (M.setting i A).Assures Eq G p Φ w)
    : ∃ a, r = .ok a ∧ Φ a w' := by
  induction p generalizing w with
  | pure a =>
    rcases h with ⟨hr, hw'⟩
    subst hr hw'
    exact ⟨a, rfl, hp⟩
  | throw e => exact hp.elim
  | op c k ih =>
    rcases h with ⟨o, x, w₁, ho, hexec, h⟩
    exact ih x h (((hp w rfl).right x w₁ ⟨o, ho, hexec⟩).right)
  | alt p q ihp ihq =>
    rcases h with h | h
    . exact ihp h hp.left
    . exact ihq h hp.right

theorem exists_completes {p : Prog Cmd Resp ε α} (hp : (M.setting i A).Assures Eq G p Φ w)
    : ∃ a w', M.Completes i A p w (.ok a) w' ∧ Φ a w' := by
  induction p generalizing w with
  | pure a => exact ⟨a, w, ⟨rfl, rfl⟩, hp⟩
  | throw e => exact hp.elim
  | op c k ih =>
    rcases hp w rfl with ⟨⟨o, x, w₁, ho, hexec⟩, hall⟩
    rcases ih x (hall x w₁ ⟨o, ho, hexec⟩).right with ⟨a, w', hk, ha⟩
    exact ⟨a, w', ⟨o, x, w₁, ho, hexec, hk⟩, ha⟩
  | alt p q ihp ihq =>
    rcases ihp hp.left with ⟨a, w', h, ha⟩
    exact ⟨a, w', .inl h, ha⟩

def ofExcept (r : Except ε α) : Prog Cmd Resp ε α :=
  match r with
  | .ok a => .pure a
  | .error e => .throw e

/--
The program that completes runs in a pool in which no other process takes a step meanwhile.
-/
theorem Completes.runBy {programs : M.Pid → Prog Cmd Resp ε α} {p : Prog Cmd Resp ε α}
    {c : M.Config α} {r : Except ε α} (hi : c.pool i = .running p)
    (h : M.Completes i A p c.world r w')
    : M.RunBy programs (fun _ a => (∃ o, A o ∧ a = .run i o) ∨ a = .left i ∨ a = .right i) c
        ⟨w', Function.update c.pool i (.running (ofExcept r))⟩ := by
  induction p generalizing c with
  | pure a =>
    rcases h with ⟨hr, hw'⟩
    subst hr hw'
    rw [show Proc.running (ofExcept (.ok a)) = c.pool i from hi.symm, Function.update_eq_self]
  | throw e =>
    rcases h with ⟨hr, hw'⟩
    subst hr hw'
    rw [show Proc.running (ofExcept (.error e)) = c.pool i from hi.symm, Function.update_eq_self]
  | op cmd k ih =>
    rcases h with ⟨o, x, w₁, ho, hexec, h⟩
    let c₁ : M.Config α := ⟨w₁, Function.update c.pool i (.running (k x))⟩
    have hact : M.act programs (.run i o) c = some c₁ := by simp [act, hi, hexec, c₁]
    have hrun := ih x (c := c₁) (by simp [c₁]) h
    rw [show Function.update c₁.pool i _ = Function.update c.pool i (.running (ofExcept r)) by
      simp [c₁]] at hrun
    exact hrun.head ⟨.run i o, .inl ⟨o, ho, rfl⟩, hact⟩
  | alt p q ihp ihq =>
    rcases h with h | h
    . let c₁ : M.Config α := ⟨c.world, Function.update c.pool i (.running p)⟩
      have hact : M.act programs (.left i) c = some c₁ := by simp [act, hi, c₁]
      have hrun := ihp (c := c₁) (by simp [c₁]) h
      rw [show Function.update c₁.pool i _ = Function.update c.pool i (.running (ofExcept r)) by
        simp [c₁]] at hrun
      exact hrun.head ⟨.left i, .inr (.inl rfl), hact⟩
    . let c₁ : M.Config α := ⟨c.world, Function.update c.pool i (.running q)⟩
      have hact : M.act programs (.right i) c = some c₁ := by simp [act, hi, c₁]
      have hrun := ihq (c := c₁) (by simp [c₁]) h
      rw [show Function.update c₁.pool i _ = Function.update c.pool i (.running (ofExcept r)) by
        simp [c₁]] at hrun
      exact hrun.head ⟨.right i, .inr (.inr rfl), hact⟩

end Machine

/-!
Calls that are made one after the other.
-/

section Serially

variable {κ α S S' T : Type}

inductive Serially (makes : κ → S → α → S → Prop) : S → List κ → List α → S → Prop where
  | nil (s : S) : Serially makes s [] [] s
  | cons {s s₁ s' : S} {k : κ} {a : α} {ks : List κ} {as : List α} (h : makes k s a s₁)
      (hs : Serially makes s₁ ks as s') : Serially makes s (k :: ks) (a :: as) s'

/--
Every call is a good one in the state that the calls before it have led to.
-/
def Throughout (good : κ → T → Prop) (next : κ → T → T) (t : T) (ks : List κ) : Prop :=
  match ks with
  | [] => True
  | k :: ks => good k t ∧ Throughout good next (next k t) ks

variable {makes : κ → S → α → S → Prop} {makes' : κ → S' → α → S' → Prop} {s s₁ : S} {s' s₁' : S'}
  {ks : List κ} {as as' : List α} {good : κ → T → Prop} {next : κ → T → T} {t : T}

theorem exists_serially {P : S → Prop} (hmakes : ∀ k s, P s → ∃ a s₁, makes k s a s₁ ∧ P s₁)
    (hs : P s) (ks : List κ) : ∃ as s₁, Serially makes s ks as s₁ := by
  induction ks generalizing s with
  | nil => exact ⟨[], s, .nil s⟩
  | cons k ks ih =>
    rcases hmakes k s hs with ⟨a, s₁, ha, hs₁⟩
    rcases ih hs₁ with ⟨as, s₂, h⟩
    exact ⟨a :: as, s₂, .cons ha h⟩

/--
Two services answer alike as long as each call is a good one, and the first bad call shows the
difference.
-/
theorem Serially.eq_iff {R : T → S → S' → Prop}
    (hstep : ∀ t k s s' a a' s₁ s₁', R t s s' → makes k s a s₁ → makes' k s' a' s₁' →
      (a = a' ↔ good k t) ∧ (good k t → R (next k t) s₁ s₁'))
    (h : Serially makes s ks as s₁) (h' : Serially makes' s' ks as' s₁') (hR : R t s s')
    : as = as' ↔ Throughout good next t ks := by
  induction h generalizing s' as' t with
  | nil s =>
    cases h'
    exact ⟨fun _ => trivial, fun _ => rfl⟩
  | cons hk _ ih =>
    cases h' with
    | cons hk' h' =>
      rcases hstep _ _ _ _ _ _ _ _ hR hk hk' with ⟨hanswer, hnext⟩
      rw [List.cons.injEq]
      constructor
      . rintro ⟨ha, has⟩
        have hgood := hanswer.mp ha
        exact ⟨hgood, (ih h' (hnext hgood)).mp has⟩
      . rintro ⟨hgood, hrest⟩
        exact ⟨hanswer.mpr hgood, (ih h' (hnext hgood)).mpr hrest⟩

end Serially
