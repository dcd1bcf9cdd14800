import Mathlib.Data.List.Sort

/-!
This module is about the stable sort by descending keys: where an element of a list ends up, and
what becomes of its place when its key grows.
-/

namespace StableSort

variable {α β : Type} [LinearOrder β] {key key' : α → β} {l s : List α} {a b x : α}

def descending (key : α → β) (l : List α) : List α :=
  l.insertionSort (fun a b => key b ≤ key a)

/--
The place of `a` is before the one of `b`: it has the larger key, or it came first.
-/
def Before (key : α → β) (l : List α) (a b : α) : Prop :=
  key b < key a ∨ key a = key b ∧ [a, b].Sublist l

theorem descending_perm (key : α → β) (l : List α) : (descending key l).Perm l := by
  exact List.perm_insertionSort _ l

theorem pair_sublist_or (ha : a ∈ l) (hb : b ∈ l) (hne : a ≠ b)
    : [a, b].Sublist l ∨ [b, a].Sublist l := by
  induction l with
  | nil => cases ha
  | cons c l ih =>
    rw [List.mem_cons] at ha hb
    rcases ha with ha | ha
    . subst ha
      rcases hb with hb | hb
      . exact absurd hb.symm hne
      . exact .inl (.cons_cons a (List.singleton_sublist.mpr hb))
    . rcases hb with hb | hb
      . subst hb
        exact .inr (.cons_cons b (List.singleton_sublist.mpr ha))
      . rcases ih ha hb with h | h
        . exact .inl (.cons c h)
        . exact .inr (.cons c h)

theorem not_pair_sublist (hl : l.Nodup) (h : [a, b].Sublist l) : ¬[b, a].Sublist l := by
  intro h'
  induction l with
  | nil => cases h
  | cons c l ih =>
    rw [List.nodup_cons] at hl
    cases h with
    | cons _ h =>
      cases h' with
      | cons _ h' => exact ih hl.right h h'
      | cons_cons _ _ => exact hl.left (h.subset (by simp))
    | cons_cons _ h =>
      cases h' with
      | cons _ h' => exact hl.left (h'.subset (by simp))
      | cons_cons _ _ => exact hl.left (h.subset (by simp))

theorem Before.asymm (hl : l.Nodup) (h : Before key l a b) : ¬Before key l b a := by
  intro h'
  rcases h with h | ⟨heq, h⟩
  . rcases h' with h' | ⟨heq, _⟩
    . exact lt_asymm h h'
    . exact h.ne heq
  . rcases h' with h' | ⟨_, h'⟩
    . exact h'.ne heq
    . exact not_pair_sublist hl h h'

theorem pairwise_descending (hl : l.Nodup) : (descending key l).Pairwise (Before key l) := by
  have hnodup : (descending key l).Nodup := (descending_perm key l).nodup_iff.mpr hl
  have hsorted : (descending key l).Pairwise (fun a b => key b ≤ key a) := by
    have : Std.Total (fun a b => key b ≤ key a) := ⟨fun a b => le_total (key b) (key a)⟩
    have : IsTrans α (fun a b => key b ≤ key a) := ⟨fun _ _ _ h h' => h'.trans h⟩
    exact List.pairwise_insertionSort _ l
  rw [List.pairwise_iff_forall_sublist]
  intro a b hab
  have hle := List.pairwise_iff_forall_sublist.mp hsorted hab
  rcases hle.lt_or_eq with hlt | heq
  . exact .inl hlt
  . refine .inr ⟨heq.symm, ?_⟩
    have hmem : ∀ c ∈ [a, b], c ∈ l := by
      intro c hc
      rw [← (descending_perm key l).mem_iff]
      exact hab.subset hc
    have hne : a ≠ b := by
      have := hnodup.sublist hab
      simpa using this
    rcases pair_sublist_or (hmem a (by simp)) (hmem b (by simp)) hne with h | h
    . exact h
    -- The sort keeps the order of elements with the same key.
    . have hkept : [b, a].Sublist (descending key l) := List.pair_sublist_insertionSort heq.ge h
      exact absurd hkept (not_pair_sublist hnodup hab)

theorem eq_descending (hl : l.Nodup) (hperm : s.Perm l) (hs : s.Pairwise (Before key l))
    : s = descending key l := by
  apply List.Perm.eq_of_pairwise _ hs (pairwise_descending hl)
    (hperm.trans (descending_perm key l).symm)
  intro a b _ _ h h'
  exact absurd h' (h.asymm hl)

theorem filter_descending (hl : l.Nodup) (p : α → Bool)
    : (descending key l).filter p = descending key (l.filter p) := by
  apply eq_descending (hl.filter p) ((descending_perm key l).filter p)
  have hpairs : ((descending key l).filter p).Pairwise (Before key l) :=
    (pairwise_descending hl).filter p
  apply hpairs.imp_of_mem
  intro a b ha hb h
  rw [List.mem_filter] at ha hb
  rcases h with h | ⟨heq, h⟩
  . exact .inl h
  . refine .inr ⟨heq, ?_⟩
    have hfilter := h.filter p
    simpa [ha.right, hb.right] using hfilter

theorem descending_congr (h : ∀ a ∈ l, key' a = key a)
    : descending key' l = descending key l := by
  have hmap := List.map_insertionSort (r := fun a b => key' b ≤ key' a)
    (s := fun a b => key b ≤ key a) id l (by
      intro a ha b hb
      rw [h a ha, h b hb]
      rfl)
  simpa [descending] using hmap

/--
Whatever the key of `x` is, the other elements keep their order.
-/
theorem filter_ne_descending [DecidableEq α] (hl : l.Nodup)
    (h : ∀ a ∈ l, a ≠ x → key' a = key a)
    : (descending key' l).filter (· ≠ x) = (descending key l).filter (· ≠ x) := by
  rw [filter_descending hl, filter_descending hl]
  apply descending_congr
  intro a ha
  rw [List.mem_filter, decide_eq_true_eq] at ha
  exact h a ha.left ha.right

/--
The position of an element in a list is the number of those that belong before it.
-/
theorem idxOf_eq_countP [DecidableEq α] {R : α → α → Prop} [DecidableRel R]
    (hasymm : ∀ a b, R a b → ¬R b a) (hs : s.Pairwise R) (hx : x ∈ s)
    : s.idxOf x = s.countP (fun a => R a x) := by
  induction s with
  | nil => cases hx
  | cons a s ih =>
    rw [List.pairwise_cons] at hs
    by_cases ha : a = x
    . subst ha
      have hself : ¬R a a := fun h => hasymm a a h h
      have hrest : s.countP (fun b => R b a) = 0 := by
        rw [List.countP_eq_zero]
        intro b hb
        simpa using hasymm a b (hs.left b hb)
      simp [hself, hrest]
    . have hmem : x ∈ s := (List.mem_cons.mp hx).resolve_left (Ne.symm ha)
      rw [List.idxOf_cons_ne _ ha, ih hs.right hmem]
      simp [hs.left x hmem]

theorem idxOf_descending_le [DecidableEq α] (hl : l.Nodup)
    (h : ∀ a ∈ l, a ≠ x → key' a = key a) (hx : key x ≤ key' x)
    : (descending key' l).idxOf x ≤ (descending key l).idxOf x := by
  classical
  by_cases hmem : x ∈ l
  . rw [idxOf_eq_countP (fun _ _ hab => hab.asymm hl) (pairwise_descending hl)
        ((descending_perm key' l).mem_iff.mpr hmem),
      idxOf_eq_countP (fun _ _ hab => hab.asymm hl) (pairwise_descending hl)
        ((descending_perm key l).mem_iff.mpr hmem),
      (descending_perm key' l).countP_eq, (descending_perm key l).countP_eq]
    apply List.countP_mono_left
    intro a ha hbefore
    rw [decide_eq_true_eq] at hbefore ⊢
    -- Who is before `x` now has been before it all along.
    have hne : a ≠ x := by
      intro heq
      subst heq
      exact hbefore.asymm hl hbefore
    have hkey := h a ha hne
    rcases hbefore with hlt | ⟨heq, hpair⟩
    . rw [hkey] at hlt
      exact .inl (hx.trans_lt hlt)
    . rw [hkey] at heq
      rcases (hx.trans_eq heq.symm).lt_or_eq with hlt | hsame
      . exact .inl hlt
      . exact .inr ⟨hsame.symm, hpair⟩
  . have hnot : ∀ k : α → β, (descending k l).idxOf x = l.length := by
      intro k
      rw [List.idxOf_eq_length ((descending_perm k l).mem_iff.not.mpr hmem),
        (descending_perm k l).length_eq]
    rw [hnot, hnot]

end StableSort
