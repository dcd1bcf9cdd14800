import Mathlib.Algebra.GroupWithZero.Nat
import Mathlib.Data.List.Infix

/-!
This module contains the operations of `String.prototype` the source uses, and how the parts of a
joined text are found again: by splitting it, or by the separators that each of them contains.
-/

namespace PaymentOrchestration

def startsWith (s start : String) : Bool :=
  start.toList <+: s.toList

def endsWith (s suffix : String) : Bool :=
  suffix.toList <:+ s.toList

def includes (s infx : String) : Bool :=
  infx.toList <:+: s.toList

def split (s : String) (separator : Char) : List String :=
  (s.toList.splitOn separator).map String.ofList

def separators (separator : Char) (s : String) : Nat :=
  s.toList.count separator

section Join

variable {α : Type} [DecidableEq α] {c : α} {x y r s : List α} {xs ys : List (List α)}

/--
Two texts up to a separator are the same if they contain the same number of separators themselves.
-/
theorem append_cons_inj_of_count (hcount : x.count c = y.count c)
    (h : x ++ c :: r = y ++ c :: s) : x = y ∧ r = s := by
  induction x generalizing y with
  | nil =>
    cases y with
    | nil => exact ⟨rfl, List.tail_eq_of_cons_eq h⟩
    | cons b y =>
      injection h with hb _
      simp [hb] at hcount
  | cons a x ih =>
    cases y with
    | nil =>
      injection h with ha _
      simp [ha] at hcount
    | cons b y =>
      injection h with hab h
      subst hab
      rw [List.count_cons, List.count_cons] at hcount
      rcases ih (Nat.add_right_cancel hcount) h with ⟨hxy, hrs⟩
      exact ⟨by rw [hxy], hrs⟩

theorem intercalate_inj_of_count (hcount : xs.map (List.count c) = ys.map (List.count c))
    (h : [c].intercalate xs = [c].intercalate ys) : xs = ys := by
  induction xs generalizing ys with
  | nil => exact (List.map_eq_nil_iff.mp hcount.symm).symm
  | cons x xs ih =>
    cases ys with
    | nil => cases hcount
    | cons y ys =>
      injection hcount with hhead htail
      by_cases hxs : xs = []
      . have hys : ys = [] := by
          rw [hxs] at htail
          exact List.map_eq_nil_iff.mp htail.symm
        subst hxs hys
        simpa using h
      . have hys : ys ≠ [] := by
          intro hys
          rw [hys] at htail
          exact hxs (List.map_eq_nil_iff.mp htail)
        rw [List.intercalate_cons_of_ne_nil hxs, List.intercalate_cons_of_ne_nil hys] at h
        simp only [List.append_assoc, List.singleton_append] at h
        rcases append_cons_inj_of_count hhead h with ⟨hxy, hrest⟩
        rw [hxy, ih htail hrest]

theorem count_intercalate (hxs : xs ≠ [])
    : ([c].intercalate xs).count c + 1 = (xs.map (List.count c)).sum + xs.length := by
  induction xs with
  | nil => exact absurd rfl hxs
  | cons x xs ih =>
    by_cases htail : xs = []
    . simp [htail]
    . rw [List.intercalate_cons_of_ne_nil htail]
      simp only [List.count_append, List.count_singleton_self, List.map_cons, List.sum_cons,
        List.length_cons]
      have := ih htail
      omega

end Join

/--
A joined text determines its parts if it is known how many separators each of them contains.
-/
theorem join_inj_of_separators {xs ys : List String}
    (hseparators : xs.map (separators '|') = ys.map (separators '|'))
    (h : "|".intercalate xs = "|".intercalate ys) : xs = ys := by
  have hlists : xs.map String.toList = ys.map String.toList := by
    apply intercalate_inj_of_count (c := '|')
    . rw [List.map_map, List.map_map]
      exact hseparators
    . have := congrArg String.toList h
      simpa using this
  exact List.map_injective_iff.mpr (fun _ _ => String.ext) hlists

theorem separators_join {xs : List String} (hxs : xs ≠ [])
    : separators '|' ("|".intercalate xs) + 1 = (xs.map (separators '|')).sum + xs.length := by
  have hlists : xs.map String.toList ≠ [] := by simpa using hxs
  have hcount := count_intercalate (c := '|') hlists
  rw [List.map_map, List.length_map] at hcount
  unfold separators
  rw [String.toList_intercalate]
  exact hcount

theorem split_join {xs : List String} {separator : Char} (hxs : xs ≠ [])
    (hfree : ∀ x ∈ xs, separator ∉ x.toList)
    : split ((String.singleton separator).intercalate xs) separator = xs := by
  unfold split
  rw [String.toList_intercalate, String.toList_singleton, List.splitOn_intercalate]
  . simp
  . simpa using hfree
  . simpa using hxs

theorem startsWith_pair_iff {key name value : String} (hkey : '=' ∉ key.toList)
    (hname : '=' ∉ name.toList)
    : startsWith (key ++ "=" ++ value) (name ++ "=") = true ↔ key = name := by
  unfold startsWith
  rw [decide_eq_true_iff]
  simp only [String.toList_append]
  constructor
  . rintro ⟨rest, hrest⟩
    have hcount : name.toList.count '=' = key.toList.count '=' := by
      rw [List.count_eq_zero_of_not_mem hname, List.count_eq_zero_of_not_mem hkey]
    simp only [List.append_assoc] at hrest
    exact (String.ext (append_cons_inj_of_count hcount hrest).left).symm
  . rintro rfl
    exact List.prefix_append ..

end PaymentOrchestration
