import Mathlib.Order.Interval.Set.UnorderedInterval

/-!
This module contains smoothed averages: an average moves to somewhere between itself and the next
sample.
-/

namespace Smoothing

variable {α : Type} {f : α → α → α}

/--
A distance that does not grow, and shrinks as long as it is more than `d`, ends up at `d` or less.
-/
theorem foldl_near {μ : α → Nat} {x : α} {d : Nat} (hmono : ∀ a, μ (f a x) ≤ μ a)
    (hstrict : ∀ a, d < μ a → μ (f a x) < μ a) {a : α} {xs : List α} (hxs : ∀ y ∈ xs, y = x)
    (hlength : μ a ≤ d + xs.length) : μ (xs.foldl f a) ≤ d := by
  induction xs generalizing a with
  | nil => simpa using hlength
  | cons y ys ih =>
    have hy : y = x := hxs y (by simp)
    subst hy
    apply ih (fun z hz => hxs z (by simp [hz]))
    rw [List.length_cons] at hlength
    by_cases h : d < μ a
    . have := hstrict a h
      omega
    . have := hmono a
      omega

variable [LinearOrder α]

/--
The new average is between the old one and the sample.
-/
def Between (f : α → α → α) : Prop :=
  ∀ a x, f a x ∈ Set.uIcc a x

theorem Between.le (hf : Between f) (a x : α) : f a x ≤ a ∨ f a x ≤ x := by
  rcases Set.mem_uIcc.mp (hf a x) with h | h
  . exact .inr h.right
  . exact .inl h.right

theorem Between.ge (hf : Between f) (a x : α) : a ≤ f a x ∨ x ≤ f a x := by
  rcases Set.mem_uIcc.mp (hf a x) with h | h
  . exact .inl h.left
  . exact .inr h.left

/--
An average never exceeds all of its samples.
-/
theorem Between.exists_le (hf : Between f) (a : α) (xs : List α)
    : ∃ x ∈ a :: xs, xs.foldl f a ≤ x := by
  induction xs generalizing a with
  | nil => exact ⟨a, by simp, le_refl a⟩
  | cons y ys ih =>
    rcases ih (f a y) with ⟨x, hx, hle⟩
    rw [List.foldl_cons]
    rcases List.mem_cons.mp hx with rfl | hx
    . rcases hf.le a y with h | h
      . exact ⟨a, by simp, hle.trans h⟩
      . exact ⟨y, by simp, hle.trans h⟩
    . exact ⟨x, by simp [hx], hle⟩

theorem Between.exists_ge (hf : Between f) (a : α) (xs : List α)
    : ∃ x ∈ a :: xs, x ≤ xs.foldl f a := by
  induction xs generalizing a with
  | nil => exact ⟨a, by simp, le_refl a⟩
  | cons y ys ih =>
    rcases ih (f a y) with ⟨x, hx, hle⟩
    rw [List.foldl_cons]
    rcases List.mem_cons.mp hx with rfl | hx
    . rcases hf.ge a y with h | h
      . exact ⟨a, by simp, h.trans hle⟩
      . exact ⟨y, by simp, h.trans hle⟩
    . exact ⟨x, by simp [hx], hle⟩

end Smoothing
