import Mathlib.Data.List.Basic

/-!
This module contains logs in which every entry of one kind has an entry of its own that came before
it, as an answer has its request.
-/

variable {α : Type} {p : α → Bool} {m : α → α → Prop} {l : List α}

theorem eq_take_append_drop {n : ℕ} {x : α} (h : l[n]? = some x)
    : l = l.take n ++ x :: l.drop (n + 1) := by
  rcases List.getElem?_eq_some_iff.mp h with ⟨hlt, hx⟩
  rw [← hx, List.getElem_cons_drop, List.take_append_drop]

variable (p m) in
/--
Every `p` in the log comes after an entry that matches it, with no other `p` in between.
-/
def Preceded (l : List α) : Prop :=
  ∀ e₁ x e₂, l = e₁ ++ x :: e₂ → p x = true →
    ∃ e₃ y e₄, e₁ = e₃ ++ y :: e₄ ∧ m y x ∧ ∀ z ∈ e₄, p z = false

namespace Preceded

theorem of_append {l' : List α} (h : Preceded p m (l ++ l')) : Preceded p m l := by
  intro e₁ x e₂ heq hx
  apply h e₁ x (e₂ ++ l') _ hx
  simp [heq]

theorem snoc {x : α} (h : Preceded p m l)
    (hx : p x = true → ∃ e₃ y e₄, l = e₃ ++ y :: e₄ ∧ m y x ∧ ∀ z ∈ e₄, p z = false)
    : Preceded p m (l ++ [x]) := by
  intro e₁ x' e₂ heq hpx
  rcases List.eq_nil_or_concat e₂ with he₂ | ⟨e₂', z, he₂⟩
  . subst he₂
    rcases List.append_inj' heq rfl with ⟨hl, hlast⟩
    injection hlast with hlast
    subst hl hlast
    exact hx hpx
  . rw [List.concat_eq_append] at he₂
    subst he₂
    have hl : l ++ [x] = (e₁ ++ x' :: e₂') ++ [z] := by
      simpa using heq
    exact h e₁ x' e₂' (List.append_inj' hl rfl).left hpx

theorem mono {p' : α → Bool} (h : Preceded p m l) (hp : ∀ x, p' x = true → p x = true)
    : Preceded p' m l := by
  intro e₁ x e₂ heq hx
  rcases h e₁ x e₂ heq (hp x hx) with ⟨e₃, y, e₄, heq, hy, he₄⟩
  refine ⟨e₃, y, e₄, heq, hy, ?_⟩
  intro z hz
  by_contra hpz
  have := hp z (by simpa using hpz)
  rw [he₄ z hz] at this
  cases this

/--
It is enough to look at a part of the log that has all entries of the one kind.
-/
theorem of_filter {q : α → Bool} (hq : ∀ x ∈ l, p x = true → q x = true)
    (h : Preceded p m (l.filter q)) : Preceded p m l := by
  intro e₁ x e₂ heq hx
  have hqx : q x = true := hq x (by simp [heq]) hx
  have hfilter : l.filter q = e₁.filter q ++ x :: e₂.filter q := by
    rw [heq, List.filter_append, List.filter_cons_of_pos hqx]
  rcases h _ x _ hfilter hx with ⟨e₃, y, e₄, heq₁, hy, he₄⟩
  rcases List.filter_eq_append_iff.mp heq₁ with ⟨e₃', e₅, hsplit, _, he₅⟩
  rcases List.filter_eq_cons_iff.mp he₅ with ⟨e₆, e₇, hsplit', _, _, he₇⟩
  refine ⟨e₃' ++ e₆, y, e₇, ?_, hy, ?_⟩
  . rw [hsplit, hsplit']
    simp
  . intro z hz
    by_contra hpz
    have hqz : q z = true := by
      apply hq z
      . simp [heq, hsplit, hsplit', hz]
      . simpa using hpz
    have hmem : z ∈ e₄ := by
      rw [← he₇, List.mem_filter]
      exact ⟨hz, hqz⟩
    exact hpz (he₄ z hmem)

/--
There are no more entries of the one kind than of the other.
-/
theorem countP_le {q : α → Bool} (hmatch : ∀ y x, p x = true → m y x → q y = true ∧ p y = false)
    (h : Preceded p m l) : l.countP p ≤ l.countP q := by
  induction hn : l.length using Nat.strongRecOn generalizing l with
  | _ n ih =>
    rcases List.eq_nil_or_concat l with hl | ⟨l', x, hl⟩
    . subst hl
      simp
    . rw [List.concat_eq_append] at hl
      subst hl
      have hl' : Preceded p m l' := h.of_append
      have hcount := ih l'.length (by simp at hn; omega) hl' rfl
      rw [List.countP_append, List.countP_append]
      by_cases hx : p x = true
      . -- The entry that matches `x` is the last one that counts.
        rcases h l' x [] rfl hx with ⟨e₃, y, e₄, heq, hy, he₄⟩
        subst heq
        rcases hmatch y x hx hy with ⟨hq, hp⟩
        have he₃ : Preceded p m e₃ := hl'.of_append
        have hcount' := ih e₃.length (by simp at hn; omega) he₃ rfl
        have hzero : e₄.countP p = 0 := by
          rw [List.countP_eq_zero]
          intro z hz
          simp [he₄ z hz]
        simp only [List.countP_append, List.countP_cons, List.countP_nil, hx, hq, hp, hzero]
        simp
        omega
      . simp only [List.countP_cons, List.countP_nil, hx]
        simp
        omega

/--
The position of the entry that matches the one at position `n`.
-/
theorem exists_position (h : Preceded p m l)
    : ∃ f : ℕ → ℕ, ∀ n x, l[n]? = some x → p x = true →
        f n < n ∧ (∃ y, l[f n]? = some y ∧ m y x) ∧
        ∀ k z, f n < k → k < n → l[k]? = some z → p z = false := by
  have hpos : ∀ n : ℕ, ∃ k : ℕ, ∀ x, l[n]? = some x → p x = true →
      k < n ∧ (∃ y, l[k]? = some y ∧ m y x) ∧
      ∀ k' z, k < k' → k' < n → l[k']? = some z → p z = false := by
    intro n
    by_cases hn : ∃ x, l[n]? = some x ∧ p x = true
    . rcases hn with ⟨x, hx, hpx⟩
      have hlt : n < l.length := (List.getElem?_eq_some_iff.mp hx).choose
      have hsplit := eq_take_append_drop hx
      rcases h _ _ _ hsplit hpx with ⟨e₃, y, e₄, heq, hy, he₄⟩
      have hlen : n = e₃.length + 1 + e₄.length := by
        have := congrArg List.length heq
        simp only [List.length_take, List.length_append, List.length_cons] at this
        omega
      rw [heq] at hsplit
      refine ⟨e₃.length, ?_⟩
      intro x' hx' _
      rw [hx] at hx'
      injection hx' with hx'
      subst hx'
      refine ⟨by omega, ⟨y, ?_, hy⟩, ?_⟩
      . rw [hsplit]
        simp
      . intro k z hk hkn hz
        apply he₄
        rw [hsplit, List.getElem?_append_left (by simp; omega),
          List.getElem?_append_right (by omega)] at hz
        rw [List.getElem?_cons] at hz
        split at hz
        . omega
        . exact List.mem_of_getElem? hz
    . refine ⟨0, fun x hx hpx => absurd ⟨x, hx, hpx⟩ hn⟩
  choose f hf using hpos
  exact ⟨f, hf⟩

end Preceded
