import PaymentOrchestration.Breaker.Latency
import PaymentOrchestration.Common.Binary64

/-!
This module shows that the average latency is not affected by how the doubles round: they give the
same average as exact arithmetic, for all numbers the column can hold.
-/

namespace PaymentOrchestration

namespace RoutingEngine

-- `avgLatencyMs * 0.9 + latencyMs * 0.1` as the language computes it
def weighted (avgLatencyMs latencyMs : Nat) : ℚ :=
  Binary64.add (Binary64.mul avgLatencyMs (Binary64.round (9 / 10)))
    (Binary64.mul latencyMs (Binary64.round (1 / 10)))

-- `Math.round(avgLatencyMs * 0.9 + latencyMs * 0.1)` as the language computes it.
def smoothDouble (avgLatencyMs latencyMs : Nat) : Nat :=
  if avgLatencyMs = 0 then
    latencyMs
  else
    Binary64.mathRound (weighted avgLatencyMs latencyMs)

theorem round_nine_tenths : Binary64.round (9 / 10) = 8106479329266893 / 2 ^ 53 := by
  decide +kernel

theorem round_one_tenth : Binary64.round (1 / 10) = 7205759403792794 / 2 ^ 56 := by
  decide +kernel

theorem tenths_nine : Binary64.Tenths 9 (Binary64.round (9 / 10)) := by
  rw [round_nine_tenths]
  constructor <;> norm_num

theorem tenths_one : Binary64.Tenths 1 (Binary64.round (1 / 10)) := by
  rw [round_one_tenth]
  constructor <;> norm_num

theorem abs_weighted_sub_lt {avg latency : Nat} (havg : avg < 2 ^ 31) (hlatency : latency < 2 ^ 31)
    : |weighted avg latency - (9 * avg + latency : Nat) / 10| < 1 / 100 := by
  have ha : (avg : ℚ) < 2 ^ 31 := by exact_mod_cast havg
  have hl : (latency : ℚ) < 2 ^ 31 := by exact_mod_cast hlatency
  have ha' : (0 : ℚ) ≤ avg := avg.cast_nonneg
  have hl' : (0 : ℚ) ≤ latency := latency.cast_nonneg
  unfold weighted Binary64.add Binary64.mul
  rw [round_nine_tenths, round_one_tenth]
  have hfirst := Binary64.abs_round_sub_le_of_lt (x := avg * (8106479329266893 / 2 ^ 53)) (k := 30)
    (by positivity) (by linarith)
  have hsecond := Binary64.abs_round_sub_le_of_lt (x := latency * (7205759403792794 / 2 ^ 56))
    (k := 30) (by positivity) (by linarith)
  have hx := Binary64.round_nonneg (x := avg * (8106479329266893 / 2 ^ 53)) (by positivity)
  have hy := Binary64.round_nonneg (x := latency * (7205759403792794 / 2 ^ 56)) (by positivity)
  rw [abs_le] at hfirst hsecond
  norm_num at hfirst hsecond hx hy
  have hsum := Binary64.abs_round_sub_le_of_lt (k := 32) (add_nonneg hx hy) (by norm_num; linarith)
  rw [abs_le] at hsum
  rw [abs_lt]
  norm_num at hsum ⊢
  constructor <;> linarith

-- Half way between two whole numbers the doubles do not come out below.
theorem le_weighted {avg latency : Nat} (havg : avg < 2 ^ 31) (hlatency : latency < 2 ^ 31)
    (hpos : 0 < avg) (hhalf : (9 * avg + latency + 5) % 10 = 0)
    : ((9 * avg + latency : Nat) : ℚ) / 10 ≤ weighted avg latency := by
  have ha : (avg : ℚ) < 2 ^ 31 := by exact_mod_cast havg
  have hl : (latency : ℚ) < 2 ^ 31 := by exact_mod_cast hlatency
  rcases Nat.dvd_of_mod_eq_zero hhalf with ⟨q, hq⟩
  have hq' : (9 * avg + latency + 5 : ℚ) = 10 * q := by exact_mod_cast hq
  have hz : ((avg : ℚ) * (9 : Nat) + latency * (1 : Nat)) / 10 = ((2 * q - 1 : Int) : ℚ) / 2 := by
    push_cast
    linarith
  have hle := Binary64.le_round_weighted tenths_nine tenths_one hpos
    (by rw [round_nine_tenths]; linarith) (by rw [round_one_tenth]; linarith) hz
  unfold weighted Binary64.add Binary64.mul
  push_cast at hle ⊢
  linarith

/--
The doubles are off by little, and never to the wrong side of a half.
-/
theorem smoothDouble_eq_smooth {avg latency : Nat} (havg : avg < 2 ^ 31) (hlatency : latency < 2 ^ 31)
    : smoothDouble avg latency = smooth avg latency := by
  unfold smoothDouble smooth
  split
  . rfl
  . next hzero =>
    have herror := abs_lt.mp (abs_weighted_sub_lt havg hlatency)
    have hdiv : (10 * ((9 * avg + latency + 5) / 10 : Nat) + ((9 * avg + latency + 5) % 10 : Nat) : ℚ) =
        (9 * avg + latency : Nat) + 5 := by
      exact_mod_cast Nat.div_add_mod (9 * avg + latency + 5) 10
    have hlast : (((9 * avg + latency + 5) % 10 : Nat) : ℚ) ≤ 9 := by
      have := Nat.mod_lt (9 * avg + latency + 5) (by omega : 0 < 10)
      exact_mod_cast Nat.le_of_lt_succ this
    have hlow : (((9 * avg + latency + 5) / 10 : Nat) : ℚ) ≤ weighted avg latency + 1 / 2 := by
      by_cases hhalf : (9 * avg + latency + 5) % 10 = 0
      . have hle := le_weighted havg hlatency (Nat.pos_of_ne_zero hzero) hhalf
        rw [hhalf, Nat.cast_zero] at hdiv
        linarith
      . have hone : (1 : ℚ) ≤ ((9 * avg + latency + 5) % 10 : Nat) := by
          exact_mod_cast Nat.pos_of_ne_zero hhalf
        linarith
    unfold Binary64.mathRound
    rw [Nat.floor_eq_iff (le_trans (Nat.cast_nonneg _) hlow)]
    exact ⟨hlow, by linarith⟩

theorem smooth_lt {bound avg latency : Nat} (havg : avg < bound) (hlatency : latency < bound)
    : smooth avg latency < bound := by
  have hmem : smooth avg latency ∈ Set.uIcc avg latency := smooth_between avg latency
  rw [Set.mem_uIcc] at hmem
  omega

theorem foldl_smoothDouble {avg : Nat} {samples : List Nat} (havg : avg < 2 ^ 31)
    (h : ∀ sample ∈ samples, sample < 2 ^ 31)
    : samples.foldl smoothDouble avg = samples.foldl smooth avg := by
  induction samples generalizing avg with
  | nil => rw [List.foldl_nil, List.foldl_nil]
  | cons sample samples ih =>
    have hsample : sample < 2 ^ 31 := h sample List.mem_cons_self
    rw [List.foldl_cons, List.foldl_cons, smoothDouble_eq_smooth havg hsample]
    exact ih (smooth_lt havg hsample) fun later hlater => h later (List.mem_cons_of_mem sample hlater)

end RoutingEngine

variable {D : Deployment} {g : GatewayProvider} {w₀ w : World} {log : List Measurement} {avg : Nat}

open RoutingEngine

/--
The average is the one that the doubles give, as long as the latencies fit into the column.
-/
theorem average_in_doubles (hstart : w₀.averageOf g = some avg) (h : Recordings D w₀ log w)
    (havg : avg < 2 ^ 31) (hlatencies : ∀ latency ∈ latencies g log, latency < 2 ^ 31)
    : w.averageOf g = some ((latencies g log).foldl smoothDouble avg) := by
  rw [foldl_smoothDouble havg hlatencies]
  exact h.averageOf hstart

open Scenario in
theorem average_in_doubles_measured
    : quick.averageOf .UPI = some ([400, 90].foldl smoothDouble 0) := by
  have hlatencies : latencies .UPI measured = [400, 90] := by
    rfl
  rw [← hlatencies]
  apply average_in_doubles (g := .UPI) rfl recordings_measured (by norm_num)
  rw [hlatencies]
  decide

end PaymentOrchestration
