import Mathlib.Algebra.Order.Floor.Semifield
import Mathlib.Data.Int.Log
import Mathlib.Data.Rat.Floor
import Mathlib.Tactic.Linarith
import Mathlib.Tactic.LinearCombination
import Mathlib.Tactic.NormNum
import Mathlib.Tactic.Positivity
import PaymentOrchestration.Common.Decimal

/-!
This module contains numbers of 53 bits: how far the rounded result of an operation is from the
exact one, when the text of such a number shows the quotient it was rounded from, and when a
weighted sum is not rounded across a half.
-/

namespace Binary64

-- How far the numbers of 53 bits are apart at `x`.
def ulp (x : ℚ) : ℚ :=
  2 ^ (Int.log 2 x - 52)

-- The nearest whole number, half way the even one.
def roundEven (q : ℚ) : Int :=
  if q - ⌊q⌋ < 1 / 2 then
    ⌊q⌋
  else if 1 / 2 < q - ⌊q⌋ then
    ⌊q⌋ + 1
  else if ⌊q⌋ % 2 = 0 then
    ⌊q⌋
  else
    ⌊q⌋ + 1

/--
The number of 53 bits that stands for `x`, which is not negative and neither too large nor too
small for it.
-/
def round (x : ℚ) : ℚ :=
  roundEven (x / ulp x) * ulp x

def add (x y : ℚ) : ℚ :=
  round (x + y)

def mul (x y : ℚ) : ℚ :=
  round (x * y)

-- `Math.round`, half way the larger one.
def mathRound (x : ℚ) : Nat :=
  ⌊x + 1 / 2⌋₊

-- The two multiples of `unit` around `n`, the nearer one first, half way the even one.
def neighbours (n unit : Nat) : List Nat :=
  let down := n / unit * unit
  let up := down + unit
  if n - down < up - n ∨ (n - down = up - n ∧ n / unit % 2 = 0) then
    [down, up]
  else
    [up, down]

/--
What is shown of a whole number of 53 bits: the fewest leading digits that still tell it from the
other numbers of 53 bits, and zeros after them.
-/
def shortest (n : Nat) : Nat :=
  let size := (Nat.toDigits 10 n).length
  let candidates := (List.range size).flatMap fun i => neighbours n (10 ^ (size - 1 - i))
  (candidates.find? fun m : Nat => round m = round n).getD n

-- One digit before the point and no zeros at the end.
def exponential (n : Nat) : String :=
  let digits := Nat.toDigits 10 n
  let behind := ((digits.drop 1).reverse.dropWhile (· = '0')).reverse
  let point := if behind = [] then [] else ['.']
  String.ofList (digits.take 1 ++ point ++ behind ++ "e+".toList) ++ toString (digits.length - 1)

/--
`toString` of a whole number of 53 bits. Below `2 ^ 53` every digit is needed.
-/
def numberText (n : Nat) : String :=
  if n < 2 ^ 53 then
    toString n
  else if shortest n < 10 ^ 21 then
    toString (shortest n)
  else
    exponential (shortest n)

/--
`toFixed` of a number that is not negative: the nearest text, half way the larger one. From
`10 ^ 21` on it is `toString`.
-/
def toFixed (x : ℚ) (places : Nat) : String :=
  if x < 10 ^ 21 then
    Decimal.fixed places ⌊x * 10 ^ places + 1 / 2⌋₊
  else
    numberText ⌊x⌋₊

theorem numberText_of_lt {n : Nat} (h : n < 2 ^ 53) : numberText n = toString n := by
  rw [numberText, if_pos h]

-- The next smaller double ends in `6848`, the next larger one in `7232`.
example : numberText (2 ^ 60) = "1152921504606847000" := by
  decide +kernel

theorem ulp_pos (x : ℚ) : 0 < ulp x := by
  exact zpow_pos (by norm_num) _

theorem ulp_le {x : ℚ} {k : Nat} (hx : 0 ≤ x) (h : x < 2 ^ (k + 1))
    : ulp x ≤ 2 ^ ((k : Int) - 52) := by
  have hlog : Int.log 2 x ≤ k := by
    rcases hx.eq_or_lt with hzero | hpos
    . rw [← hzero, Int.log_zero_right]
      exact k.cast_nonneg
    . exact Int.lt_add_one_iff.mp ((Int.lt_zpow_iff_log_lt (by omega) hpos).mp (by exact_mod_cast h))
  exact zpow_le_zpow_right₀ (by norm_num) (by omega)

theorem abs_roundEven_sub_le (q : ℚ) : |(roundEven q : ℚ) - q| ≤ 1 / 2 := by
  have hfloor := Int.floor_le q
  have hlt := Int.lt_floor_add_one q
  rw [abs_le]
  unfold roundEven
  split
  . constructor <;> linarith
  . split
    . push_cast
      constructor <;> linarith
    . split
      . constructor <;> linarith
      . push_cast
        constructor <;> linarith

theorem abs_round_sub_le (x : ℚ) : |round x - x| ≤ ulp x / 2 := by
  have hpos := ulp_pos x
  have hscaled : round x - x = (roundEven (x / ulp x) - x / ulp x) * ulp x := by
    rw [sub_mul, div_mul_cancel₀ x hpos.ne']
    rfl
  calc |round x - x|
    _ = |(roundEven (x / ulp x) : ℚ) - x / ulp x| * ulp x := by
      rw [hscaled, abs_mul, abs_of_pos hpos]
    _ ≤ 1 / 2 * ulp x :=
      mul_le_mul_of_nonneg_right (abs_roundEven_sub_le _) hpos.le
    _ = ulp x / 2 := by
      ring

theorem abs_round_sub_le_of_lt {x : ℚ} {k : Nat} (hx : 0 ≤ x) (h : x < 2 ^ (k + 1))
    : |round x - x| ≤ 2 ^ ((k : Int) - 53) := by
  have hhalf : (2 : ℚ) ^ ((k : Int) - 52) = 2 ^ ((k : Int) - 53) * 2 := by
    rw [← zpow_add_one₀ (by norm_num)]
    congr 1
    ring
  have := abs_round_sub_le x
  have := ulp_le hx h
  linarith

theorem lt_of_ulp_lt_one {x : ℚ} (h : ulp x < 1) : x < 2 ^ 52 := by
  by_contra hnot
  have hle : (2 : ℚ) ^ (52 : Int) ≤ x := by exact_mod_cast not_lt.mp hnot
  have hlog := Int.log_mono_right (b := 2) (by norm_num) hle
  have hself : Int.log 2 ((2 : ℚ) ^ (52 : Int)) = 52 := Int.log_zpow (b := 2) (by omega) 52
  have hone : (1 : ℚ) ≤ ulp x := one_le_zpow₀ (by norm_num) (by omega)
  linarith

/--
As long as the numbers of 53 bits are closer than the texts, the text of the quotient `n / 10 ^ p`
shows `n`.
-/
theorem toFixed_round {places n : Nat}
    (h : ulp (n / 10 ^ places) * 10 ^ places < 1)
    : toFixed (round (n / 10 ^ places)) places = Decimal.fixed places n := by
  have hpow : (0 : ℚ) < 10 ^ places := by positivity
  have herror := abs_le.mp (abs_round_sub_le (n / 10 ^ places))
  have hexact : (n : ℚ) / 10 ^ places * 10 ^ places = n := div_mul_cancel₀ _ hpow.ne'
  have hlow := mul_le_mul_of_nonneg_right herror.left hpow.le
  have hhigh := mul_le_mul_of_nonneg_right herror.right hpow.le
  rw [sub_mul, hexact] at hlow hhigh
  have hsmall : round (n / 10 ^ places) < 10 ^ 21 := by
    have hunit : ulp (n / 10 ^ places) < 1 := by
      have hone : (1 : ℚ) ≤ 10 ^ places := one_le_pow₀ (by norm_num)
      have hle := mul_le_mul_of_nonneg_left hone (ulp_pos (n / 10 ^ places)).le
      linarith
    have := lt_of_ulp_lt_one hunit
    linarith
  rw [toFixed, if_pos hsmall]
  congr 1
  have hn : (0 : ℚ) ≤ n := n.cast_nonneg
  rw [Nat.floor_eq_iff (by linarith)]
  constructor <;> linarith

/-!
Which way a rounded result may be off.
-/

theorem le_roundEven {q : ℚ} {z : Int} (h : (z : ℚ) - 1 / 2 < q) : z ≤ roundEven q := by
  have herror := (abs_le.mp (abs_roundEven_sub_le q)).left
  have hlt : (z : ℚ) - 1 < roundEven q := by linarith
  have hlt : z - 1 < roundEven q := by exact_mod_cast hlt
  omega

theorem ulp_mono {x y : ℚ} (hx : 0 < x) (h : x ≤ y) : ulp x ≤ ulp y := by
  have hlog : Int.log 2 x ≤ Int.log 2 y := Int.log_mono_right hx h
  exact zpow_le_zpow_right₀ (by norm_num) (by omega)

theorem ulp_mul (x : ℚ) : ulp x * 2 ^ 52 = 2 ^ Int.log 2 x := by
  unfold ulp
  rw [zpow_sub₀ (by norm_num)]
  norm_num

theorem ulp_mul_le {x : ℚ} (hx : 0 < x) : ulp x * 2 ^ 52 ≤ x := by
  rw [ulp_mul]
  exact_mod_cast Int.zpow_log_le_self (b := 2) (by norm_num) hx

/--
A number of 53 bits that is next to the exact result is not passed by.
-/
theorem le_round {x y : ℚ} (hgrid : ∃ z : Int, y = z * ulp x) (h : y - x < ulp x / 2)
    : y ≤ round x := by
  rcases hgrid with ⟨z, hz⟩
  have hpos := ulp_pos x
  have hquotient : (z : ℚ) - 1 / 2 < x / ulp x := by
    rw [lt_div_iff₀ hpos, sub_mul, ← hz]
    linarith
  have hle : (z : ℚ) ≤ roundEven (x / ulp x) := by exact_mod_cast le_roundEven hquotient
  rw [hz]
  exact mul_le_mul_of_nonneg_right hle hpos.le

theorem ulp_mul_le_round {x : ℚ} (hx : 0 < x) : ulp x * 2 ^ 52 ≤ round x := by
  apply le_round
  . exact ⟨2 ^ 52, by push_cast; ring⟩
  . have := ulp_mul_le hx
    have := ulp_pos x
    linarith

theorem ulp_le_ulp_round {x : ℚ} (hx : 0 < x) : ulp x ≤ ulp (round x) := by
  have hle := ulp_mul_le_round hx
  rw [ulp_mul] at hle
  have hlog := Int.log_mono_right (b := 2) (zpow_pos (by norm_num) (Int.log 2 x)) hle
  have hself : Int.log 2 ((2 : ℚ) ^ Int.log 2 x) = Int.log 2 x :=
    Int.log_zpow (b := 2) (by omega) (Int.log 2 x)
  rw [hself] at hlog
  exact zpow_le_zpow_right₀ (by norm_num) (by omega)

-- A number with digits behind the point only as far as the numbers of 53 bits reach.
theorem exists_grid {x : ℚ} (hx : 0 < x) (h : x < 2 ^ 51) : ∃ n : Nat, (n : ℚ) * ulp x * 2 = 1 := by
  have hlog : Int.log 2 x < 51 := by
    exact (Int.lt_zpow_iff_log_lt (by omega) hx).mp (by exact_mod_cast h)
  refine ⟨2 ^ (51 - Int.log 2 x).toNat, ?_⟩
  have hexponent : ((51 - Int.log 2 x).toNat : Int) = 51 - Int.log 2 x := Int.toNat_of_nonneg (by omega)
  unfold ulp
  push_cast
  rw [← zpow_natCast, hexponent, ← zpow_add₀ (by norm_num)]
  have hsum : 51 - Int.log 2 x + (Int.log 2 x - 52) = -1 := by ring
  rw [hsum]
  norm_num

/--
A number that exceeds a number of fifths by a tenth is not rounded to less than a fifth below that.
-/
theorem roundEven_fifths {m : Int} {q : ℚ} (h : (m : ℚ) / 5 + 1 / 10 < q)
    : (m : ℚ) / 5 - 1 / 5 ≤ roundEven q := by
  have hdiv : ((5 * (m / 5) + m % 5 : Int) : ℚ) = m := by rw [Int.mul_ediv_add_emod]
  push_cast at hdiv
  by_cases hsmall : m % 5 ≤ 1
  . have hrest : ((m % 5 : Int) : ℚ) ≤ 1 := by exact_mod_cast hsmall
    have hrest' : (0 : ℚ) ≤ (m % 5 : Int) := by exact_mod_cast Int.emod_nonneg m (by omega)
    have hle : m / 5 ≤ roundEven q := le_roundEven (by linarith)
    have hle : ((m / 5 : Int) : ℚ) ≤ roundEven q := by exact_mod_cast hle
    linarith
  . have hrest : (2 : ℚ) ≤ (m % 5 : Int) := by
      have : 2 ≤ m % 5 := by omega
      exact_mod_cast this
    have hrest' : ((m % 5 : Int) : ℚ) ≤ 4 := by
      have : m % 5 ≤ 4 := by omega
      exact_mod_cast this
    have hle : m / 5 + 1 ≤ roundEven q := by
      apply le_roundEven
      push_cast
      linarith
    have hle : ((m / 5 + 1 : Int) : ℚ) ≤ roundEven q := by exact_mod_cast hle
    push_cast at hle
    linarith

/--
A constant of the source that stands for `m` tenths and is a bit larger.
-/
structure Tenths (m : Nat) (c : ℚ) : Prop where
  pos : 0 < c
  excess : c / 2 ^ 52 / 10 < c - m / 10

/--
A whole number times such a constant is never rounded down by more than a fifth.
-/
theorem Tenths.le_round {n m : Nat} {c : ℚ} (h : Tenths m c) (hn : 0 < n) (hbound : n * c < 2 ^ 51)
    : n * m / 10 - ulp (n * c) / 5 ≤ round (n * c) := by
  have hn' : (0 : ℚ) < n := by exact_mod_cast hn
  have hpos : 0 < n * c := mul_pos hn' h.pos
  have hulp := ulp_pos (n * c)
  rcases exists_grid hpos hbound with ⟨k, hk⟩
  have hk' : (0 : ℚ) < 2 * k := by
    by_contra hnot
    nlinarith
  -- In units of the last place `n * m / 10` is a number of fifths, and the excess is a tenth.
  have hfifths : (n : ℚ) * m / 10 = (n * m * k : Nat) / 5 * ulp (n * c) := by
    push_cast
    linear_combination (-(n : ℚ) * m / 10) * hk
  have hquotient : n * c / ulp (n * c) = 2 * k * (n * c) := by
    rw [div_eq_iff hulp.ne']
    linear_combination (-(n * c)) * hk
  have hlow : ((n * m * k : Nat) : ℚ) / 5 + 1 / 10 < n * c / ulp (n * c) := by
    have hexcess' := mul_lt_mul_of_pos_left (mul_lt_mul_of_pos_left h.excess hn') hk'
    have hunit := mul_le_mul_of_nonneg_left (ulp_mul_le hpos) hk'.le
    rw [hquotient]
    push_cast
    linarith
  rw [← Int.cast_natCast] at hlow
  have hround := roundEven_fifths hlow
  rw [Int.cast_natCast] at hround
  have hscaled := mul_le_mul_of_nonneg_right hround hulp.le
  unfold round
  rw [hfifths]
  linarith

theorem round_nonneg {x : ℚ} (hx : 0 ≤ x) : 0 ≤ round x := by
  apply le_round
  . exact ⟨0, by norm_num⟩
  . have := ulp_pos x
    linarith

theorem round_pos {x : ℚ} (hx : 0 < x) : 0 < round x := by
  have hle : ulp x * 2 ^ 52 ≤ round x := ulp_mul_le_round hx
  have := ulp_pos x
  linarith

theorem round_le_two_mul {x : ℚ} (hx : 0 ≤ x) : round x ≤ 2 * x := by
  rcases hx.eq_or_lt with hzero | hpos
  . subst hzero
    decide +kernel
  . have := (abs_le.mp (abs_round_sub_le x)).right
    have := ulp_mul_le hpos
    have := ulp_pos x
    linarith

-- The share of a summand, which may be missing.
theorem Tenths.le_round_of_ulp {n m : Nat} {c w : ℚ} (h : Tenths m c) (hbound : n * c < 2 ^ 51)
    (hw : 0 < w) (hulp : 0 < n → ulp (n * c) ≤ w) : n * m / 10 - w / 5 ≤ round (n * c) := by
  rcases Nat.eq_zero_or_pos n with hzero | hpos
  . subst hzero
    have hnonneg : (0 : ℚ) ≤ round ((0 : Nat) * c) := round_nonneg (by norm_num)
    push_cast at hnonneg ⊢
    linarith
  . have := h.le_round hpos hbound
    have := hulp hpos
    linarith

/--
A weighted sum of whole numbers that is a whole number and a half is not rounded to less.
-/
theorem le_round_weighted {n n' m m' : Nat} {c c' : ℚ} (h : Tenths m c) (h' : Tenths m' c')
    (hn : 0 < n) (hbound : n * c < 2 ^ 49) (hbound' : n' * c' < 2 ^ 49) {z : Int}
    (hz : ((n : ℚ) * m + n' * m') / 10 = z / 2)
    : ((n : ℚ) * m + n' * m') / 10 ≤ round (round (n * c) + round (n' * c')) := by
  have hpos : 0 < n * c := mul_pos (by exact_mod_cast hn) h.pos
  have hnonneg : 0 ≤ n' * c' := mul_nonneg n'.cast_nonneg h'.pos.le
  have hfirst := round_pos hpos
  have hsecond := round_nonneg hnonneg
  have hsum : 0 < round (n * c) + round (n' * c') := by linarith
  let w := ulp (round (n * c) + round (n' * c'))
  have hw : 0 < w := ulp_pos _
  have hulp : ulp (n * c) ≤ w := by
    calc ulp (n * c)
      _ ≤ ulp (round (n * c)) := ulp_le_ulp_round hpos
      _ ≤ w := ulp_mono hfirst (by linarith)
  have hulp' : 0 < n' → ulp (n' * c') ≤ w := by
    intro hn'
    have hpos' : 0 < n' * c' := mul_pos (by exact_mod_cast hn') h'.pos
    calc ulp (n' * c')
      _ ≤ ulp (round (n' * c')) := ulp_le_ulp_round hpos'
      _ ≤ w := ulp_mono (round_pos hpos') (by linarith)
  have hlow := h.le_round_of_ulp (by linarith) hw fun _ => hulp
  have hlow' := h'.le_round_of_ulp (by linarith) hw hulp'
  have hhigh := round_le_two_mul hpos.le
  have hhigh' := round_le_two_mul hnonneg
  rcases exists_grid hsum (by linarith) with ⟨k, hk⟩
  apply le_round
  . refine ⟨z * k, ?_⟩
    rw [hz]
    push_cast
    linear_combination (-(z : ℚ) / 2) * hk
  . linarith

end Binary64
