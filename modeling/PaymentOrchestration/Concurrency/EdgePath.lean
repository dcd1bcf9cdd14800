import Mathlib.Algebra.GroupWithZero.Nat
import Mathlib.Data.List.Basic

/-!
This module contains paths through a transition relation that are given by their edges, as a log of
transitions gives them.
-/

variable {α : Type} {R : α → α → Prop}

variable (R) in
/--
The edges lead from `s` to `s'`, every one of them is in `R` and starts where the one before ends.
-/
def EdgePath (s : α) (edges : List (α × α)) (s' : α) : Prop :=
  match edges with
  | [] => s = s'
  | (a, b) :: edges => a = s ∧ R a b ∧ EdgePath b edges s'

namespace EdgePath

theorem append_iff {s s' : α} {e₁ e₂ : List (α × α)}
    : EdgePath R s (e₁ ++ e₂) s' ↔ ∃ m, EdgePath R s e₁ m ∧ EdgePath R m e₂ s' := by
  induction e₁ generalizing s with
  | nil => simp [EdgePath]
  | cons e e₁ ih =>
    rcases e with ⟨a, b⟩
    simp only [List.cons_append, EdgePath, ih]
    grind

theorem snoc {s a b : α} {edges : List (α × α)} (h : EdgePath R s edges a) (hR : R a b)
    : EdgePath R s (edges ++ [(a, b)]) b := by
  rw [append_iff]
  exact ⟨a, h, rfl, hR, rfl⟩

theorem eq_or_mem {s s' : α} {edges : List (α × α)} (h : EdgePath R s edges s')
    : s' = s ∨ ∃ e ∈ edges, e.2 = s' := by
  induction edges generalizing s with
  | nil => exact .inl h.symm
  | cons e edges ih =>
    rcases e with ⟨a, b⟩
    rcases h with ⟨_, _, h⟩
    rcases ih h with heq | ⟨e, he, heq⟩
    . exact .inr ⟨(a, b), by simp, heq.symm⟩
    . exact .inr ⟨e, List.mem_cons_of_mem _ he, heq⟩

/--
A path that has entered a closed set stays in it.
-/
theorem mem_of_closed {S : α → Prop} (hclosed : ∀ a b, S a → R a b → S b) {s s' : α}
    {edges : List (α × α)} (h : EdgePath R s edges s') (hs : S s)
    : S s' ∧ ∀ e ∈ edges, S e.2 := by
  induction edges generalizing s with
  | nil =>
    simp only [EdgePath] at h
    subst h
    exact ⟨hs, by simp⟩
  | cons e edges ih =>
    rcases e with ⟨a, b⟩
    rcases h with ⟨ha, hR, h⟩
    subst ha
    have hb := hclosed _ _ hs hR
    rcases ih h hb with ⟨hs', hedges⟩
    refine ⟨hs', ?_⟩
    intro e he
    rcases List.mem_cons.mp he with he | he
    . rw [he]
      exact hb
    . exact hedges e he

-- What comes after an edge to `x` is a path from `x`.
theorem after {s s' : α} {e₁ e₂ : List (α × α)} {x : α × α} (h : EdgePath R s (e₁ ++ x :: e₂) s')
    : EdgePath R x.2 e₂ s' := by
  rw [append_iff] at h
  rcases h with ⟨m, _, _, _, h⟩
  exact h

/--
A state is entered once if everything after it is in a closed set without it.
-/
theorem length_filter_le_one [DecidableEq α] {S : α → Prop} {x : α}
    (hclosed : ∀ a b, S a → R a b → S b) (hx : ∀ b, R x b → S b) (hne : ¬S x) {s s' : α}
    {edges : List (α × α)} (h : EdgePath R s edges s')
    : (edges.filter (·.2 = x)).length ≤ 1 := by
  induction edges generalizing s with
  | nil => simp
  | cons e edges ih =>
    rcases e with ⟨a, b⟩
    rcases h with ⟨_, _, h⟩
    rw [List.filter_cons]
    split
    . next hb =>
      rw [decide_eq_true_eq] at hb
      dsimp only at hb
      subst hb
      -- The rest of the path starts at `x` and never comes back.
      have hrest : edges.filter (·.2 = b) = [] := by
        rw [List.filter_eq_nil_iff]
        intro e he
        rw [decide_eq_true_eq]
        intro heq
        cases edges with
        | nil => cases he
        | cons e' edges =>
          rcases e' with ⟨a', b'⟩
          rcases h with ⟨ha', hR, h⟩
          subst ha'
          have hb' := hx _ hR
          rcases List.mem_cons.mp he with he | he
          . rw [he] at heq
            rw [← heq] at hne
            exact hne hb'
          . have := (h.mem_of_closed hclosed hb').right e he
            rw [heq] at this
            exact hne this
      simp [hrest]
    . exact ih h

theorem end_unique {s x y : α} {edges : List (α × α)} (h : EdgePath R s edges x)
    (h' : EdgePath R s edges y) : x = y := by
  induction edges generalizing s with
  | nil =>
    simp only [EdgePath] at h h'
    rw [← h, ← h']
  | cons e edges ih =>
    rcases e with ⟨a, b⟩
    exact ih h.right.right h'.right.right

/--
What a path goes on with after the path `e₁` is a path from where that one ends.
-/
theorem rest {s m s' : α} {e₁ e₂ : List (α × α)} (h : EdgePath R s (e₁ ++ e₂) s')
    (h₁ : EdgePath R s e₁ m) : EdgePath R m e₂ s' := by
  rw [append_iff] at h
  rcases h with ⟨m', h₁', h₂⟩
  rw [h₁.end_unique h₁']
  exact h₂

theorem rel_of_mem {s s' : α} {edges : List (α × α)} (h : EdgePath R s edges s') {e : α × α}
    (he : e ∈ edges) : R e.1 e.2 := by
  induction edges generalizing s with
  | nil => cases he
  | cons e' edges ih =>
    rcases h with ⟨_, hR, h⟩
    rcases List.mem_cons.mp he with he | he
    . subst he
      exact hR
    . exact ih h he

theorem and {S : α × α → Prop} {s s' : α} {edges : List (α × α)} (h : EdgePath R s edges s')
    (hedges : ∀ e ∈ edges, S e) : EdgePath (fun a b => R a b ∧ S (a, b)) s edges s' := by
  induction edges generalizing s with
  | nil => exact h
  | cons e edges ih =>
    rcases h with ⟨ha, hR, h⟩
    have hrest := ih h (fun e he => hedges e (List.mem_cons_of_mem _ he))
    exact ⟨ha, ⟨hR, hedges e (by simp)⟩, hrest⟩

/--
If every edge takes `f` from one end to the other, up to what `v` and `w` say it is worth, then
so does the path.
-/
theorem sum_eq {f : α → Nat} {v w : α × α → Nat} {s s' : α} {edges : List (α × α)}
    (h : EdgePath R s edges s') (hrank : ∀ e ∈ edges, f e.1 + v e = w e + f e.2)
    : f s + (edges.map v).sum = (edges.map w).sum + f s' := by
  induction edges generalizing s with
  | nil =>
    simp only [EdgePath] at h
    subst h
    simp
  | cons e edges ih =>
    rcases e with ⟨a, b⟩
    rcases h with ⟨ha, _, h⟩
    subst ha
    have hedge : f a + v (a, b) = w (a, b) + f b := hrank (a, b) (by simp)
    have hedges := ih h (fun e he => hrank e (List.mem_cons_of_mem _ he))
    simp only [List.map_cons, List.sum_cons]
    omega

end EdgePath
