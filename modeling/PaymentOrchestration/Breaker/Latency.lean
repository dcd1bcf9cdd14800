import Mathlib.Data.Nat.Dist
import Mathlib.Order.Lattice.Nat
import PaymentOrchestration.Books.Effects
import PaymentOrchestration.Breaker.Serial
import PaymentOrchestration.Common.Smoothing
import PaymentOrchestration.Concurrency.Amid
import PaymentOrchestration.Party.Ground

/-!
This module is about the average latency of a gateway over a sequence of recorded outcomes. The
average stays among the latencies it was made of, and goes towards a latency that does not change any
more.
-/

namespace PaymentOrchestration

open RoutingEngine

namespace RoutingEngine

theorem smooth_between : Smoothing.Between smooth := by
  intro avg sample
  unfold smooth
  split
  . exact Set.right_mem_uIcc
  . rw [Set.mem_uIcc]
    omega

theorem dist_smooth_le (avg sample : Nat)
    : Nat.dist (smooth avg sample) sample ≤ Nat.dist avg sample := by
  unfold Nat.dist smooth
  split <;> omega

-- The rounding holds back an average that is at most 5 away.
theorem dist_smooth_lt {avg sample : Nat} (h : 5 < Nat.dist avg sample)
    : Nat.dist (smooth avg sample) sample < Nat.dist avg sample := by
  unfold Nat.dist at h ⊢
  unfold smooth
  split <;> omega

theorem smooth_eq_zero {avg sample : Nat} (h : smooth avg sample = 0) : avg = 0 ∧ sample = 0 := by
  unfold smooth at h
  split at h <;> omega

theorem foldl_smooth_eq_zero {avg : Nat} {samples : List Nat} (h : samples.foldl smooth avg = 0)
    : avg = 0 ∧ ∀ sample ∈ samples, sample = 0 := by
  induction samples generalizing avg with
  | nil => simpa using h
  | cons sample samples ih =>
    rcases ih h with ⟨hsmooth, hsamples⟩
    rcases smooth_eq_zero hsmooth with ⟨havg, hsample⟩
    exact ⟨havg, by simpa [hsample] using hsamples⟩

-- The first sample is the average.
theorem foldl_smooth_start {samples : List Nat} (h : samples ≠ [])
    : (∃ low ∈ samples, low ≤ samples.foldl smooth 0) ∧
        ∃ high ∈ samples, samples.foldl smooth 0 ≤ high := by
  cases samples with
  | nil => exact absurd rfl h
  | cons sample samples =>
    exact ⟨smooth_between.exists_ge sample samples, smooth_between.exists_le sample samples⟩

end RoutingEngine

/--
A call that records the outcome of a charge.
-/
inductive Recording where
  | success (gateway : GatewayProvider) (latencyMs : Nat)
  | failure (gateway : GatewayProvider) (latencyMs : Nat)

namespace Recording

def program (recording : Recording) : Program Unit :=
  match recording with
  | .success gateway latencyMs => recordSuccess gateway latencyMs
  | .failure gateway latencyMs => recordFailure gateway latencyMs

/--
The latency that the call takes into account for the gateway.
-/
def sample (g : GatewayProvider) (recording : Recording) : Option Nat :=
  match recording with
  | .success gateway latencyMs => if gateway = g then some latencyMs else none
  | .failure gateway latencyMs => if gateway = g ∧ latencyMs > 0 then some latencyMs else none

end Recording

/--
A program that returns, whatever the environment does meanwhile and whichever statements fail.
-/
def Returns (D : Deployment) (i : Pid) {α : Type} (p : Program α) (w : World) (a : α) (w' : World)
    : Prop :=
  (machine D).CompletesAmid i (fun _ _ => True) (fun _ _ _ => True) p w (.ok a) w'

/--
One recording of a sequence, with the worlds before and after it.
-/
structure Measurement where
  recording : Recording
  before : World
  after : World

/--
The recordings follow each other without overlapping. Between two of them anything may happen that
leaves the statistics alone.
-/
inductive Recordings (D : Deployment) (w₀ : World) : List Measurement → World → Prop where
  | start : Recordings D w₀ [] w₀
  | pause {log : List Measurement} {w w' : World} (h : Recordings D w₀ log w)
      (hstats : w'.gatewayStats = w.gatewayStats) : Recordings D w₀ log w'
  | record {log : List Measurement} {w w' : World} (i : Pid) (recording : Recording)
      (h : Recordings D w₀ log w) (hreturns : Returns D i recording.program w () w')
      : Recordings D w₀ (log ++ [⟨recording, w, w'⟩]) w'

def latencies (g : GatewayProvider) (log : List Measurement) : List Nat :=
  log.filterMap (fun measurement => measurement.recording.sample g)

def World.averageOf (w : World) (gateway : GatewayProvider) : Option Nat :=
  (w.statsOf gateway).map (·.avgLatencyMs)

/--
The new average is between the old one and the sample, and closer to the sample if that was far away.
-/
structure Approaches (avg sample avg' : Nat) : Prop where
  between : avg' ∈ Set.uIcc avg sample
  strict : 0 < avg → 6 ≤ Nat.dist avg sample → Nat.dist avg' sample < Nat.dist avg sample

variable {D : Deployment} {i : Pid} {g : GatewayProvider} {w₀ w w' : World}
  {log : List Measurement} {avg : Nat}

/-!
What a recording does to the statistics.
-/

def Cmd.unsaving (cmd : Cmd) : Prop :=
  match cmd with
  | .saveStats _ => False
  | _ => True

theorem unsaving_del {key : String} : (RedisService.del key).Issues Cmd.unsaving := by
  unfold RedisService.del
  apply Prog.Issues.bind (Prog.Issues.perform trivial)
  intro value
  split
  . trivial
  . apply Prog.Issues.tryCatch (Prog.Issues.perform trivial)
    intro e
    exact Prog.Issues.perform trivial

theorem unsaving_set {key : String} {value : Stored} {mode : Option SetMode}
    {durationMode : Option DurationMode} {duration : Option Nat}
    : (RedisService.set key value mode durationMode duration).Issues Cmd.unsaving := by
  unfold RedisService.set
  apply Prog.Issues.bind (Prog.Issues.perform trivial)
  intro value
  split
  . trivial
  . apply Prog.Issues.tryCatch
    . split <;> exact Prog.Issues.perform trivial
    . intro e
      exact Prog.Issues.perform trivial

theorem drifts_gatewayStats (w : World) (e : EnvAct) (w' : World) (_ : True)
    (henv : envStep e w = some w') : w'.gatewayStats = w.gatewayStats := by
  exact (env_tables henv).gatewayStats

theorem Returns.unsaving {α β : Type} {p : Program α} {f : α → Program β} {b : β}
    (hp : p.Issues Cmd.unsaving) (h : Returns D i (p.bind f) w b w')
    : ∃ a w₁, w₁.gatewayStats = w.gatewayStats ∧ Returns D i (f a) w₁ b w' := by
  rcases Machine.CompletesAmid.bind h with ⟨r₁, w₁, hp', ⟨a, _, hf⟩ | ⟨e, _, he⟩⟩
  . refine ⟨a, w₁, ?_, hf⟩
    apply Machine.CompletesAmid.keeps (f := World.gatewayStats) drifts_gatewayStats ?_ hp hp'
    intro w cmd o x w₂ hcmd hexec
    rcases (exec_touches hexec).gatewayStats with hstats | ⟨stats, heq, _⟩
    . exact hstats
    . rw [heq] at hcmd
      exact hcmd.elim
  . cases he

theorem Returns.findStatsOf {gateway : GatewayProvider} {k : Option GatewayStats → Program Unit}
    (h : Returns D i ((perform (.findStatsOf gateway)).bind k) w () w')
    : ∃ w₁, w₁.gatewayStats = w.gatewayStats ∧ Returns D i (k (w.statsOf gateway)) w₁ () w' := by
  rcases Machine.CompletesAmid.bind h with ⟨r₁, w₂, hp, ⟨stats, hr₁, hk⟩ | ⟨e, _, he⟩⟩
  . subst hr₁
    rcases Machine.CompletesAmid.perform hp with ⟨w₁, o, hdrifts, _, hexec⟩
    have hstats : w₁.gatewayStats = w.gatewayStats := Machine.drifts_keeps drifts_gatewayStats hdrifts
    simp only [exec, Exec.query] at hexec
    split at hexec
    . rw [Option.some.injEq, Prod.mk.injEq, Except.ok.injEq] at hexec
      rcases hexec with ⟨hfound, hw₂⟩
      refine ⟨w₂, by rw [← hw₂, hstats], ?_⟩
      rw [World.statsOf, ← hstats, hfound]
      exact hk
    . cases hexec
  . cases he

theorem Returns.saveStats {stats : GatewayStats}
    (h : Returns D i (perform (.saveStats stats)) w () w')
    : w'.gatewayStats =
        w.gatewayStats.map (fun old => if old.gateway = stats.gateway then stats else old) := by
  rcases Machine.CompletesAmid.perform h with ⟨w₁, o, hdrifts, _, hexec⟩
  have hstats : w₁.gatewayStats = w.gatewayStats := Machine.drifts_keeps drifts_gatewayStats hdrifts
  simp only [exec, Exec.saveStats, Exec.statement] at hexec
  split at hexec
  . rw [Option.some.injEq, Prod.mk.injEq] at hexec
    rw [← hexec.right, hstats]
  . cases hexec
  . cases hexec

theorem averageOf_saved {stats : GatewayStats} (havg : w.averageOf g = some avg)
    (h : w'.gatewayStats =
      w.gatewayStats.map (fun old => if old.gateway = stats.gateway then stats else old))
    : w'.averageOf g = some (if stats.gateway = g then stats.avgLatencyMs else avg) := by
  let save (old : GatewayStats) := if old.gateway = stats.gateway then stats else old
  have hgateway : ∀ row, (save row).gateway = row.gateway := by
    intro row
    dsimp only [save]
    split
    . next heq => exact heq.symm
    . rfl
  unfold World.averageOf at havg ⊢
  rw [Option.map_eq_some_iff] at havg
  rcases havg with ⟨row, hrow, havg⟩
  have hstatsOf : w'.statsOf g = (w.mapStats save).statsOf g := by
    unfold World.statsOf
    rw [h, World.mapStats_gatewayStats]
  rw [hstatsOf, World.statsOf_mapStats hgateway, hrow]
  dsimp only [Option.map, save]
  rw [World.gateway_of_statsOf hrow]
  by_cases heq : stats.gateway = g
  . rw [if_pos heq, if_pos heq.symm]
  . rw [if_neg heq, if_neg (Ne.symm heq), havg]

theorem averageOf_congr (h : w'.gatewayStats = w.gatewayStats)
    : w'.averageOf g = w.averageOf g := by
  unfold World.averageOf World.statsOf
  rw [h]

/--
The row of the gateway, if there is one, has been saved with a new average.
-/
def Saved (gateway : GatewayProvider) (next : Nat → Nat) (w w' : World) : Prop :=
  match w.statsOf gateway with
  | none => w'.gatewayStats = w.gatewayStats
  | some row => ∃ stats, stats.gateway = gateway ∧ stats.avgLatencyMs = next row.avgLatencyMs ∧
      w'.gatewayStats =
        w.gatewayStats.map (fun old => if old.gateway = stats.gateway then stats else old)

theorem Saved.averageOf {gateway : GatewayProvider} {next : Nat → Nat} (h : Saved gateway next w w')
    (havg : w.averageOf g = some avg)
    : w'.averageOf g = some (if gateway = g then next avg else avg) := by
  unfold Saved at h
  split at h
  . next hrow =>
    rw [averageOf_congr h, havg, if_neg]
    rintro rfl
    rw [World.averageOf, hrow] at havg
    cases havg
  . next row hrow =>
    rcases h with ⟨stats, hgateway, hnext, hstats⟩
    rw [averageOf_saved havg hstats, hgateway]
    split
    . next heq =>
      rw [World.averageOf, ← heq, hrow] at havg
      injection havg with havg
      rw [hnext, ← havg]
    . rfl

theorem saved_success {gateway : GatewayProvider} {latencyMs : Nat}
    (h : Returns D i (recordSuccess gateway latencyMs) w () w')
    : Saved gateway (fun avg => smooth avg latencyMs) w w' := by
  rcases Returns.findStatsOf h with ⟨w₁, hw₁, hk⟩
  unfold Saved
  cases hrow : w.statsOf gateway with
  | none =>
    rw [hrow] at hk
    dsimp only
    rw [hk.right, hw₁]
  | some row =>
    have hgateway : row.gateway = gateway := World.gateway_of_statsOf hrow
    rw [hrow] at hk
    dsimp only at hk ⊢
    split at hk
    . rcases Returns.unsaving unsaving_del hk with ⟨_, w₂, hw₂, hk⟩
      rw [← hw₁, ← hw₂]
      refine ⟨_, ?_, ?_, hk.saveStats⟩
      . exact hgateway
      . rfl
    . rw [← hw₁]
      refine ⟨_, ?_, ?_, hk.saveStats⟩
      . exact hgateway
      . rfl

theorem saved_failure {gateway : GatewayProvider} {latencyMs : Nat}
    (h : Returns D i (recordFailure gateway latencyMs) w () w')
    : Saved gateway (fun avg => if latencyMs > 0 then smooth avg latencyMs else avg) w w' := by
  rcases Returns.findStatsOf h with ⟨w₁, hw₁, hk⟩
  unfold Saved
  cases hrow : w.statsOf gateway with
  | none =>
    rw [hrow] at hk
    dsimp only
    rw [hk.right, hw₁]
  | some row =>
    have hgateway : row.gateway = gateway := World.gateway_of_statsOf hrow
    rw [hrow] at hk
    dsimp only at hk ⊢
    split at hk
    . rcases Returns.unsaving unsaving_set hk with ⟨_, w₂, hw₂, hk⟩
      rw [← hw₁, ← hw₂]
      refine ⟨_, ?_, ?_, hk.saveStats⟩
      . exact hgateway
      . rfl
    . rw [← hw₁]
      refine ⟨_, ?_, ?_, hk.saveStats⟩
      . exact hgateway
      . rfl

theorem averageOf_recorded {recording : Recording} (h : Returns D i recording.program w () w')
    (havg : w.averageOf g = some avg)
    : w'.averageOf g = some ((recording.sample g).elim avg (smooth avg)) := by
  cases recording with
  | success gateway latencyMs =>
    rw [(saved_success h).averageOf havg]
    unfold Recording.sample
    dsimp only
    split <;> rfl
  | failure gateway latencyMs =>
    rw [(saved_failure h).averageOf havg]
    unfold Recording.sample
    by_cases hgateway : gateway = g <;> by_cases hlatency : latencyMs > 0 <;>
      simp [hgateway, hlatency]

namespace Recordings

/--
The average is made of the latencies in their order.
-/
theorem averageOf (h : Recordings D w₀ log w) (havg : w₀.averageOf g = some avg)
    : w.averageOf g = some ((latencies g log).foldl smooth avg) := by
  induction h with
  | start => exact havg
  | pause h hstats ih => rw [averageOf_congr hstats, ih]
  | @record log w w' i recording h hreturns ih =>
    have hlatencies : latencies g (log ++ [⟨recording, w, w'⟩]) =
        latencies g log ++ (recording.sample g).toList := by
      simp only [latencies, List.filterMap_append, List.filterMap_cons, List.filterMap_nil]
      cases recording.sample g <;> rfl
    rw [hlatencies, List.foldl_append, averageOf_recorded hreturns ih]
    cases recording.sample g <;> rfl

/--
An entry of the log was reached by the recordings before it.
-/
theorem split {measurement : Measurement} (h : Recordings D w₀ log w) (hmem : measurement ∈ log)
    : ∃ earlier i, Recordings D w₀ earlier measurement.before ∧
        Returns D i measurement.recording.program measurement.before () measurement.after := by
  induction h with
  | start => cases hmem
  | pause h hstats ih => exact ih hmem
  | @record log w w' i recording h hreturns ih =>
    rw [List.mem_append, List.mem_singleton] at hmem
    rcases hmem with hmem | rfl
    . exact ih hmem
    . exact ⟨log, i, h, hreturns⟩

end Recordings

theorem approaches_smooth (avg sample : Nat) : Approaches avg sample (smooth avg sample) where
  between := smooth_between avg sample
  strict _ h := dist_smooth_lt h

/--
The average starts at 0, which stands for no latency at all. From the first one on it is among the
latencies, every one of them attracts it, and one that is repeated long enough holds it.
-/
theorem average_sound (hstart : w₀.averageOf g = some 0) (h : Recordings D w₀ log w)
    : ∃ avg, w.averageOf g = some avg ∧
        (latencies g log ≠ [] →
          (∃ low ∈ latencies g log, low ≤ avg) ∧ (∃ high ∈ latencies g log, avg ≤ high) ∧
            (avg = 0 → ∀ sample ∈ latencies g log, sample = 0)) ∧
        (∀ measurement ∈ log, ∀ sample, measurement.recording.sample g = some sample →
          ∃ avg avg', measurement.before.averageOf g = some avg ∧
            measurement.after.averageOf g = some avg' ∧ Approaches avg sample avg') ∧
        ∀ sample, ∃ n, ∀ log' w', Recordings D w log' w' →
          (∀ l ∈ latencies g log', l = sample) → n ≤ (latencies g log').length →
          ∃ avg', w'.averageOf g = some avg' ∧ Nat.dist avg' sample ≤ 5 := by
  have havg := h.averageOf hstart
  refine ⟨_, havg, fun hsamples => ?_, ?_, ?_⟩
  . rcases foldl_smooth_start hsamples with ⟨hlow, hhigh⟩
    exact ⟨hlow, hhigh, fun hzero => (foldl_smooth_eq_zero hzero).right⟩
  . intro measurement hmem sample hsample
    rcases h.split hmem with ⟨earlier, i, hbefore, hreturns⟩
    have hbefore' := hbefore.averageOf hstart
    refine ⟨_, _, hbefore', averageOf_recorded hreturns hbefore', ?_⟩
    rw [hsample]
    exact approaches_smooth _ sample
  . intro sample
    refine ⟨Nat.dist ((latencies g log).foldl smooth 0) sample, fun log' w' h' hsample hlength => ?_⟩
    refine ⟨_, h'.averageOf havg, ?_⟩
    apply Smoothing.foldl_near (μ := fun avg => Nat.dist avg sample)
      (fun avg => dist_smooth_le avg sample) (fun avg => dist_smooth_lt) hsample
    omega

namespace Scenario

-- Nothing is recorded yet.
def unmeasured : World :=
  World.start [⟨.STRIPE, 0, 0, 0, 290, .CLOSED, 0⟩, ⟨.UPI, 0, 0, 0, 50, .CLOSED, 0⟩]

-- A slow success, then a quick failure.
def slow : World :=
  (BreakerCall.recordSuccess .UPI 400).effect deployment unmeasured

def quick : World :=
  (BreakerCall.recordFailure .UPI 90).effect deployment slow

def measured : List Measurement :=
  [⟨.success .UPI 400, unmeasured, slow⟩, ⟨.failure .UPI 90, slow, quick⟩]

theorem recordings_measured : Recordings deployment unmeasured measured quick := by
  have hslow : Returns deployment ⟨0, 0⟩ (recordSuccess .UPI 400) unmeasured () slow :=
    ⟨_, {}, _, _, .refl, trivial, rfl, _, {}, _, _, .refl, trivial, rfl, rfl, rfl⟩
  have hquick : Returns deployment ⟨0, 0⟩ (recordFailure .UPI 90) slow () quick :=
    ⟨_, {}, _, _, .refl, trivial, rfl, _, {}, _, _, .refl, trivial, rfl, rfl, rfl⟩
  have hfirst := Recordings.start.record ⟨0, 0⟩ (.success .UPI 400) hslow
  exact hfirst.record ⟨0, 0⟩ (.failure .UPI 90) hquick

end Scenario

open Scenario in
theorem average_sound_measured
    : ∃ avg, quick.averageOf .UPI = some avg ∧ (∃ low ∈ [400, 90], low ≤ avg) ∧
        ∃ high ∈ [400, 90], avg ≤ high := by
  rcases average_sound (g := .UPI) rfl recordings_measured with ⟨avg, havg, hbounds, _⟩
  have hlatencies : latencies .UPI measured = [400, 90] := by
    rfl
  rw [hlatencies] at hbounds
  rcases hbounds (by simp) with ⟨hlow, hhigh, _⟩
  exact ⟨avg, havg, hlow, hhigh⟩

end PaymentOrchestration
