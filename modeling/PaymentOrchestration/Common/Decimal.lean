import Mathlib.Algebra.Order.Field.Rat
import Mathlib.Data.List.Basic
import Mathlib.Data.List.SplitOn

/-!
This module contains decimal texts: how a number is written with a fixed number of digits behind
the point, and how it is read again.
-/

namespace Decimal

-- At least one digit stands before the point.
def padded (places n : Nat) : List Char :=
  let digits := Nat.toDigits 10 n
  List.replicate (places + 1 - digits.length) '0' ++ digits

/--
The digits of `n`, the last `places` of them behind the point.
-/
def fixed (places n : Nat) : String :=
  let digits := padded places n
  String.ofList (digits.take (digits.length - places) ++
    '.' :: digits.drop (digits.length - places))

def readDigits (digits : List Char) : Option Nat :=
  if digits ≠ [] ∧ digits.all Char.isDigit then
    some (Nat.ofDigitChars 10 digits 0)
  else
    none

/--
What a text says if it is digits with at most one point between them.
-/
def read (text : String) : Option ℚ :=
  match text.toList.splitOn '.' with
  | [whole] => (readDigits whole).map fun n => (n : ℚ)
  | [whole, behind] =>
    if whole ≠ [] ∧ behind ≠ [] then
      (readDigits (whole ++ behind)).map fun n => (n : ℚ) / 10 ^ behind.length
    else
      none
  | _ => none

theorem padded_zero (n : Nat) : padded 0 n = Nat.toDigits 10 n := by
  have hlength : 0 + 1 - (Nat.toDigits 10 n).length = 0 := by
    have := Nat.length_toDigits_pos (b := 10) (n := n)
    omega
  rw [padded, hlength, List.replicate_zero, List.nil_append]

theorem isDigit_of_mem_padded {places n : Nat} {c : Char} (h : c ∈ padded places n)
    : c.isDigit = true := by
  unfold padded at h
  rw [List.mem_append] at h
  rcases h with h | h
  . rw [List.eq_of_mem_replicate h]
    rfl
  . exact Nat.isDigit_of_mem_toDigits (by omega) (by omega) h

theorem lt_length_padded (places n : Nat) : places < (padded places n).length := by
  have := Nat.length_toDigits_pos (b := 10) (n := n)
  simp only [padded, List.length_append, List.length_replicate]
  omega

theorem ofDigitChars_padded (places n : Nat) : Nat.ofDigitChars 10 (padded places n) 0 = n := by
  unfold padded
  rw [Nat.ofDigitChars_append, Nat.ofDigitChars_replicate_zero, Nat.mul_zero,
    Nat.ofDigitChars_ten_toDigits]

theorem readDigits_padded (places n : Nat) : readDigits (padded places n) = some n := by
  have hne : padded places n ≠ [] := by
    apply List.ne_nil_of_length_pos
    have := lt_length_padded places n
    omega
  have hdigits : (padded places n).all Char.isDigit = true := by
    rw [List.all_eq_true]
    intro c
    exact isDigit_of_mem_padded
  unfold readDigits
  rw [if_pos ⟨hne, hdigits⟩, ofDigitChars_padded]

theorem readDigits_toDigits (n : Nat) : readDigits (Nat.toDigits 10 n) = some n := by
  rw [← padded_zero]
  exact readDigits_padded 0 n

theorem not_mem_of_digits {digits : List Char} (h : ∀ c ∈ digits, c.isDigit = true)
    : '.' ∉ digits := by
  intro hmem
  exact absurd (h '.' hmem) (by decide)

/--
What is written with a point is read as the number with the point.
-/
theorem read_fixed {places : Nat} (n : Nat) (hplaces : 0 < places)
    : read (fixed places n) = some ((n : ℚ) / 10 ^ places) := by
  have hlt := lt_length_padded places n
  let whole := (padded places n).take ((padded places n).length - places)
  let behind := (padded places n).drop ((padded places n).length - places)
  have hsplit : (fixed places n).toList.splitOn '.' = [whole, behind] := by
    have hparts : (fixed places n).toList = ['.'].intercalate [whole, behind] := by
      simp [fixed, whole, behind, List.intercalate]
    rw [hparts, List.splitOn_intercalate]
    . intro part hpart
      apply not_mem_of_digits
      intro c hc
      have hmem : c ∈ padded places n := by
        rcases List.mem_pair.mp hpart with hpart | hpart
        . exact List.mem_of_mem_take (hpart ▸ hc)
        . exact List.mem_of_mem_drop (hpart ▸ hc)
      exact isDigit_of_mem_padded hmem
    . simp
  have hwhole : whole ≠ [] := by
    apply List.ne_nil_of_length_pos
    rw [List.length_take]
    omega
  have hlength : behind.length = places := by
    rw [List.length_drop]
    omega
  have hbehind : behind ≠ [] := by
    apply List.ne_nil_of_length_pos
    omega
  unfold read
  rw [hsplit]
  dsimp only
  rw [if_pos ⟨hwhole, hbehind⟩, List.take_append_drop, readDigits_padded, hlength]
  rfl

theorem read_toString (n : Nat) : read (toString n) = some (n : ℚ) := by
  have hsplit : (toString n).toList.splitOn '.' = [Nat.toDigits 10 n] := by
    have hparts : (toString n).toList = ['.'].intercalate [Nat.toDigits 10 n] := by
      simp [List.intercalate]
    rw [hparts, List.splitOn_intercalate]
    . intro part hpart
      rw [List.mem_singleton.mp hpart]
      apply not_mem_of_digits
      intro c hc
      exact Nat.isDigit_of_mem_toDigits (by omega) (by omega) hc
    . simp
  unfold read
  rw [hsplit]
  dsimp only
  rw [readDigits_toDigits]
  rfl

end Decimal
