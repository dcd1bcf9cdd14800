import PaymentOrchestration.Breaker.Calls
import PaymentOrchestration.Concurrency.Protocol

/-!
This module contains the protocol of one call of `RoutingEngineService` among others, while every
statement succeeds, as somebody sees it who is interested in one gateway.
-/

namespace Protocol

variable {Cmd : Type} {Resp : Cmd → Type} {ε : Type} {α : Type}

-- The surroundings of a party that keeps to the protocol.
def setting (P : Protocol Cmd Resp ε) : Setting Cmd Resp ε P.State where
  ready := P.allowed
  answer := fun s c r s' => P.answers s c r ∧ s' = P.next s c r

theorem wp_of_assures {P : Protocol Cmd Resp ε} {G : P.State → P.State → Prop}
    {p : Prog Cmd Resp ε α} {Φ : α → P.State → Prop} {s : P.State}
    (hp : P.setting.Assures Eq G p Φ s) : P.wp p (fun r s' => ∃ a, r = .ok a ∧ Φ a s') s := by
  induction p generalizing s with
  | pure a => exact ⟨a, rfl, hp⟩
  | throw e => exact hp.elim
  | op c k ih =>
    rcases hp s rfl with ⟨hallowed, hall⟩
    exact ⟨hallowed, fun r hr => ih r (hall r _ ⟨hr, rfl⟩).right⟩
  | alt p q ihp ihq => exact ⟨ihp hp.left, ihq hp.right⟩

end Protocol

namespace PaymentOrchestration

open RoutingEngine

/--
How far a call has got: it has not read anything yet, it may still save what it makes of this row, or
it will not save the row any more.
-/
inductive Turn where
  | waiting
  | loaded (row : Option GatewayStats)
  | settled

structure Caller where
  call : BreakerCall
  turn : Turn

namespace Caller

variable (D : Deployment) (g : GatewayProvider)

def saves (s : Caller) (stats : GatewayStats) : Prop :=
  match s.call with
  | .recordSuccess gateway latencyMs =>
    ∃ row, s.turn = .loaded (some row) ∧ row.gateway = gateway ∧ stats = succeeded latencyMs row
  | .recordFailure gateway latencyMs =>
    ∃ row, s.turn = .loaded (some row) ∧ row.gateway = gateway ∧ stats = failed latencyMs row
  | .getRankedGateways _ =>
    stats.gateway = g →
      ∃ row, s.turn = .loaded (some row) ∧ row.gateway = g ∧ stats = promoted row ∧
        considered D g ∧ row.circuitState = .OPEN

def allowed (s : Caller) (cmd : Cmd) : Prop :=
  match cmd with
  | .mock _ => True
  | .client (.get _) => ∃ amount, s.call = .getRankedGateways amount
  | .client (.set key value expiry mode) =>
    ∃ gateway latencyMs row, s.call = .recordFailure gateway latencyMs ∧
      s.turn = .loaded (some row) ∧ row.gateway = gateway ∧ trips row ∧
      key = circuitKey gateway ∧ value = .raw "open" ∧ expiry = some (.EX, 30) ∧ mode = none
  | .client (.del key) =>
    ∃ gateway latencyMs, s.call = .recordSuccess gateway latencyMs ∧ key = circuitKey gateway
  | .findStats => s.turn = .waiting ∧ ∃ amount, s.call = .getRankedGateways amount
  | .findStatsOf gateway => s.turn = .waiting ∧ s.call.records gateway
  | .saveStats stats => s.saves D g stats
  | _ => False

def answers (_ : Caller) (cmd : Cmd) (r : Except Err cmd.Resp) : Prop :=
  match cmd, r with
  | .mock _, r => r = .ok none
  | .client _, .ok _ => True
  | .findStats, .ok rows => (rows.map (·.gateway)).Nodup
  | .findStatsOf gateway, .ok row => ∀ row', row = some row' → row'.gateway = gateway
  | .saveStats _, .ok _ => True
  | _, _ => False

def next (s : Caller) (cmd : Cmd) (r : Except Err cmd.Resp) : Caller :=
  match cmd, r with
  | .findStats, .ok rows =>
    match rows.find? (·.gateway = g) with
    | some row =>
      if row.circuitState = .OPEN ∧ considered D g then
        { s with turn := .loaded (some row) }
      else
        { s with turn := .settled }
    | none => { s with turn := .settled }
  | .findStatsOf _, .ok row => { s with turn := .loaded row }
  | .client (.get key), .ok (some value) =>
    if key = circuitKey g ∧ value.truthy then { s with turn := .settled } else s
  | .saveStats stats, .ok _ =>
    match s.call with
    | .getRankedGateways _ => if stats.gateway = g then { s with turn := .settled } else s
    | _ => { s with turn := .settled }
  | _, _ => s

end Caller

@[reducible]
def callerProtocol (D : Deployment) (g : GatewayProvider) : Protocol Cmd Cmd.Resp Err where
  State := Caller
  allowed := Caller.allowed D g
  answers := Caller.answers
  next := Caller.next D g
  crash := id

variable {D : Deployment} {g : GatewayProvider} {s : Caller}

section Assures

variable {R G : Caller → Caller → Prop}

theorem caller_perform {c : Cmd} {Φ : c.Resp → Caller → Prop}
    (h : ∀ s₁, R s s₁ → s₁.allowed D g c ∧
      ∀ a, s₁.answers c (.ok a) → G s₁ (s₁.next D g c (.ok a)) ∧ Φ a (s₁.next D g c (.ok a)))
    : (callerProtocol D g).setting.Assures R G (perform c) Φ s := by
  apply Setting.Assures.perform
  intro s₁ hs₁
  rcases h s₁ hs₁ with ⟨hallowed, hall⟩
  refine ⟨hallowed, ?_⟩
  rintro r s₂ ⟨hr, hs₂⟩
  subst hs₂
  cases r with
  | ok a => exact ⟨(hall a hr).left, a, rfl, (hall a hr).right⟩
  | error e =>
    have hr : Caller.answers s₁ c (.error e) := hr
    unfold Caller.answers at hr
    split at hr <;> grind

/--
The in-memory store is out of use.
-/
theorem caller_mock {op : MockOp} {Φ : Option op.Reply → Caller → Prop}
    (h : ∀ s₁, R s s₁ → G s₁ s₁ ∧ Φ none s₁)
    : (callerProtocol D g).setting.Assures R G (perform (.mock op)) Φ s := by
  apply caller_perform
  intro s₁ hs₁
  refine ⟨trivial, fun a ha => ?_⟩
  have ha : a = none := by simpa [Caller.answers] using ha
  subst ha
  exact h s₁ hs₁

/--
Redis answers, so that the in-memory store is never used.
-/
theorem RedisService.caller_get {key : String} {Φ : Option Stored → Caller → Prop}
    (htrans : ∀ s₁ s₂ s₃, R s₁ s₂ → R s₂ s₃ → R s₁ s₃) (hrefl : ∀ s, G s s)
    (hcall : ∀ s₁, R s s₁ → ∃ amount, s₁.call = .getRankedGateways amount)
    (h : ∀ s₁, R s s₁ → ∀ value,
      G s₁ (s₁.next D g (.client (.get key)) (.ok value)) ∧
        Φ value (s₁.next D g (.client (.get key)) (.ok value)))
    : (callerProtocol D g).setting.Assures R G (RedisService.get key) Φ s := by
  apply Setting.Assures.bind (Φ := fun r s₁ => r = none ∧ R s s₁)
  . apply caller_mock
    intro s₁ hs₁
    exact ⟨hrefl s₁, rfl, hs₁⟩
  . rintro r s₁ ⟨hr, hs₁⟩
    subst hr
    apply Setting.Assures.tryCatch
    apply caller_perform
    intro s₂ hs₂
    have hs₂ := htrans s s₁ s₂ hs₁ hs₂
    exact ⟨hcall s₂ hs₂, fun value _ => h s₂ hs₂ value⟩

end Assures

section Turns

variable (D) (g) in
-- What is left of a call that nobody else takes part in.
def Left {α : Type} (p : Program α) (Φ : α → Caller → Prop) (s : Caller) : Prop :=
  (callerProtocol D g).setting.Assures Eq (fun _ _ => True) p Φ s

variable {α β : Type} {Φ : α → Caller → Prop}

theorem left_perform {c : Cmd} {Φ : c.Resp → Caller → Prop} (hallowed : s.allowed D g c)
    (h : ∀ a, s.answers c (.ok a) → Φ a (s.next D g c (.ok a))) : Left D g (perform c) Φ s := by
  apply caller_perform
  intro s₁ hs₁
  subst hs₁
  exact ⟨hallowed, fun a ha => ⟨trivial, h a ha⟩⟩

theorem RedisService.left_set {key : String} {value : Stored} {k : Bool → Program α}
    (hallowed : s.allowed D g (.client (.set key value (some (.EX, 30)) none)))
    (h : ∀ ok, Left D g (k ok) Φ s)
    : Left D g ((RedisService.set key value none (some .EX) (some 30)).bind k) Φ s := by
  apply Setting.Assures.bind (Φ := fun _ s₁ => s₁ = s)
  . apply Setting.Assures.bind (Φ := fun r s₁ => r = none ∧ s₁ = s)
    . apply caller_mock
      intro s₁ hs₁
      exact ⟨trivial, rfl, hs₁.symm⟩
    . rintro r s₁ ⟨hr, hs₁⟩
      subst hr hs₁
      apply Setting.Assures.tryCatch
      apply left_perform hallowed
      intro ok _
      rfl
  . intro ok s₁ hs₁
    subst hs₁
    exact h ok

theorem RedisService.left_del {key : String} {k : Nat → Program α}
    (hallowed : s.allowed D g (.client (.del key))) (h : ∀ n, Left D g (k n) Φ s)
    : Left D g ((RedisService.del key).bind k) Φ s := by
  apply Setting.Assures.bind (Φ := fun _ s₁ => s₁ = s)
  . apply Setting.Assures.bind (Φ := fun r s₁ => r = none ∧ s₁ = s)
    . apply caller_mock
      intro s₁ hs₁
      exact ⟨trivial, rfl, hs₁.symm⟩
    . rintro r s₁ ⟨hr, hs₁⟩
      subst hr hs₁
      apply Setting.Assures.tryCatch
      apply left_perform hallowed
      intro n _
      rfl
  . intro n s₁ hs₁
    subst hs₁
    exact h n

-- A call ends when it is settled, one of `recordSuccess` or `recordFailure` also if it finds no row.
def Caller.Through (call : BreakerCall) (s : Caller) : Prop :=
  s.call = call ∧ (s.turn = .settled ∨ s.turn = .loaded none ∧ ∃ gateway, call.records gateway)

theorem left_recordSuccess {gateway : GatewayProvider} {latencyMs : Nat}
    : Left D g (recordSuccess gateway latencyMs)
        (fun _ s' => s'.Through (.recordSuccess gateway latencyMs))
        ⟨.recordSuccess gateway latencyMs, .waiting⟩ := by
  unfold recordSuccess
  apply Setting.Assures.bind (Φ := fun row s₁ => (∀ row', row = some row' → row'.gateway = gateway) ∧
    s₁ = ⟨.recordSuccess gateway latencyMs, .loaded row⟩)
  . apply left_perform
    . simp [Caller.allowed, BreakerCall.records]
    . intro row hrow
      exact ⟨hrow, rfl⟩
  . rintro row s₁ ⟨hrow, hs₁⟩
    subst hs₁
    cases row with
    | none => exact ⟨rfl, .inr ⟨rfl, gateway, by simp [BreakerCall.records]⟩⟩
    | some row =>
      have hgateway := hrow row rfl
      dsimp only
      split
      . next hstate =>
        apply RedisService.left_del
        . exact ⟨gateway, latencyMs, rfl, rfl⟩
        . intro _
          apply left_perform
          . exact ⟨row, rfl, hgateway, rfl⟩
          . intro _ _
            exact ⟨rfl, .inl rfl⟩
      . next hstate =>
        rw [Decidable.not_not] at hstate
        apply left_perform
        . refine ⟨row, rfl, hgateway, ?_⟩
          simp only [succeeded, ← hstate]
        . intro _ _
          exact ⟨rfl, .inl rfl⟩

theorem left_recordFailure {gateway : GatewayProvider} {latencyMs : Nat}
    : Left D g (recordFailure gateway latencyMs)
        (fun _ s' => s'.Through (.recordFailure gateway latencyMs))
        ⟨.recordFailure gateway latencyMs, .waiting⟩ := by
  unfold recordFailure
  apply Setting.Assures.bind (Φ := fun row s₁ => (∀ row', row = some row' → row'.gateway = gateway) ∧
    s₁ = ⟨.recordFailure gateway latencyMs, .loaded row⟩)
  . apply left_perform
    . simp [Caller.allowed, BreakerCall.records]
    . intro row hrow
      exact ⟨hrow, rfl⟩
  . rintro row s₁ ⟨hrow, hs₁⟩
    subst hs₁
    cases row with
    | none => exact ⟨rfl, .inr ⟨rfl, gateway, by simp [BreakerCall.records]⟩⟩
    | some row =>
      have hgateway := hrow row rfl
      dsimp only
      split
      . next htrips =>
        have htrips : trips row = true := by simpa [trips] using htrips
        apply RedisService.left_set
        . exact ⟨gateway, latencyMs, row, rfl, rfl, hgateway, htrips, rfl, rfl, rfl, rfl⟩
        . intro _
          apply left_perform
          . refine ⟨row, rfl, hgateway, ?_⟩
            simp only [failed, if_pos htrips]
          . intro _ _
            exact ⟨rfl, .inl rfl⟩
      . next htrips =>
        have htrips : ¬trips row = true := by simpa [trips] using htrips
        apply left_perform
        . refine ⟨row, rfl, hgateway, ?_⟩
          simp only [failed, if_neg htrips]
        . intro _ _
          exact ⟨rfl, .inl rfl⟩

end Turns

/-!
The promises of a ranking. Only the one about the gateway itself moves the call, and nobody moves it
meanwhile.
-/

def Settles (s s' : Caller) : Prop :=
  s' = s ∨ s' = { s with turn := .settled }

theorem Settles.trans {s₁ s₂ s₃ : Caller} (h : Settles s₁ s₂) (h' : Settles s₂ s₃)
    : Settles s₁ s₃ := by
  rcases h with h | h <;> rcases h' with h' | h' <;> subst h h'
  . exact .inl rfl
  . exact .inr rfl
  . exact .inr rfl
  . exact .inr rfl

theorem Settles.call {s s' : Caller} (h : Settles s s') : s'.call = s.call := by
  rcases h with h | h <;> rw [h]

variable (g) in
def Relies (row : GatewayStats) (s s' : Caller) : Prop :=
  s'.call = s.call ∧ (row.gateway = g → s' = s)

variable (g) in
def Guarantees (row : GatewayStats) (s s' : Caller) : Prop :=
  Settles s s' ∧ (row.gateway ≠ g → s' = s)

theorem Relies.trans {row : GatewayStats} {s₁ s₂ s₃ : Caller} (h : Relies g row s₁ s₂)
    (h' : Relies g row s₂ s₃) : Relies g row s₁ s₃ := by
  refine ⟨h'.left.trans h.left, fun hgateway => ?_⟩
  rw [h'.right hgateway, h.right hgateway]

theorem Guarantees.relies {row row' : GatewayStats} {s s' : Caller} (h : Guarantees g row s s')
    (hne : row.gateway ≠ row'.gateway) : Relies g row' s s' := by
  refine ⟨h.left.call, fun hgateway => ?_⟩
  apply h.right
  rw [← hgateway]
  exact hne

theorem caller_checkCooldown {amount : Nat} {row : GatewayStats}
    (hconsidered : considered D row.gateway) (hcall : s.call = .getRankedGateways amount)
    (hopen : row.gateway = g → row.circuitState = .OPEN → s.turn = .loaded (some row))
    (hclosed : row.gateway = g → row.circuitState ≠ .OPEN → s.turn = .settled)
    : (callerProtocol D g).setting.Assures (Relies g row) (Guarantees g row) (checkCooldown row)
        (fun _ s' => row.gateway = g → s'.turn = .settled) s := by
  unfold checkCooldown
  split
  . next hstate =>
    apply Setting.Assures.bind (Φ := fun value s' => s'.call = .getRankedGateways amount ∧
      (row.gateway = g → if Stored.missing value then s'.turn = .loaded (some row) else s'.turn = .settled))
    . apply RedisService.caller_get (fun _ _ _ h h' => h.trans h')
        (fun s => ⟨.inl rfl, fun _ => rfl⟩) (fun s₁ hs₁ => ⟨amount, hs₁.left.trans hcall⟩)
      intro s₁ hs₁ value
      by_cases hgateway : row.gateway = g
      . rw [hs₁.right hgateway]
        cases value with
        | none =>
          refine ⟨⟨.inl rfl, fun _ => rfl⟩, hcall, fun _ => ?_⟩
          exact hopen hgateway hstate
        | some value =>
          cases htruthy : value.truthy with
          | true =>
            have hnext : s.next D g (.client (.get (circuitKey row.gateway))) (.ok (some value)) =
                { s with turn := .settled } := if_pos ⟨by rw [hgateway], htruthy⟩
            rw [hnext]
            refine ⟨⟨.inr rfl, fun hne => absurd hgateway hne⟩, hcall, fun _ => ?_⟩
            rw [Stored.missing, Option.any_some, htruthy, if_neg (by decide)]
          | false =>
            have hnext : s.next D g (.client (.get (circuitKey row.gateway))) (.ok (some value)) =
                s := if_neg (by simp [htruthy])
            rw [hnext]
            refine ⟨⟨.inl rfl, fun _ => rfl⟩, hcall, fun _ => ?_⟩
            rw [Stored.missing, Option.any_some, htruthy, if_pos (by decide)]
            exact hopen hgateway hstate
      . have hnext : s₁.next D g (.client (.get (circuitKey row.gateway))) (.ok value) = s₁ := by
          cases value with
          | none => rfl
          | some value => exact if_neg (fun heq => hgateway (circuitKey_inj heq.left))
        rw [hnext]
        refine ⟨⟨.inl rfl, fun _ => rfl⟩, hs₁.left.trans hcall, fun hgateway' => ?_⟩
        exact absurd hgateway' hgateway
    . rintro value s₁ ⟨hcall₁, hturn⟩
      split
      . next hnone =>
        apply Setting.Assures.bind (Φ := fun _ s' => row.gateway = g → s'.turn = .settled)
        . apply caller_perform (c := .saveStats (promoted row))
          intro s₂ hs₂
          have hcall₂ := hs₂.left.trans hcall₁
          constructor
          . simp only [Caller.allowed, Caller.saves, hcall₂]
            intro hgateway
            have hgateway : row.gateway = g := hgateway
            have hturn := hturn hgateway
            rw [if_pos hnone, ← hs₂.right hgateway] at hturn
            rw [hgateway] at hconsidered
            exact ⟨row, hturn, hgateway, rfl, hconsidered, hstate⟩
          . intro _ _
            by_cases hgateway : row.gateway = g
            . have hnext : s₂.next D g (.saveStats (promoted row)) (.ok ()) =
                  { s₂ with turn := .settled } := by
                simp only [Caller.next, hcall₂]
                exact if_pos hgateway
              rw [hnext]
              exact ⟨⟨.inr rfl, fun hne => absurd hgateway hne⟩, fun _ => rfl⟩
            . have hnext : s₂.next D g (.saveStats (promoted row)) (.ok ()) = s₂ := by
                simp only [Caller.next, hcall₂]
                exact if_neg hgateway
              rw [hnext]
              exact ⟨⟨.inl rfl, fun _ => rfl⟩, fun h => absurd h hgateway⟩
        . intro _ s₂ hs₂
          exact hs₂
      . next hsome =>
        intro hgateway
        have hturn := hturn hgateway
        rw [if_neg hsome] at hturn
        exact hturn
  . next hstate =>
    intro hgateway
    exact hclosed hgateway hstate

theorem forall_of_forall₂ {α β : Type} {P : α → Prop} {l : List α} {l' : List β}
    (h : List.Forall₂ (fun a _ => P a) l l') : ∀ a ∈ l, P a := by
  induction h with
  | nil => simp
  | cons ha _ ih =>
    rw [List.forall_mem_cons]
    exact ⟨ha, ih⟩

theorem left_getRankedGateways {amount : Nat}
    : Left D g (getRankedGateways D amount) (fun _ s' => s'.Through (.getRankedGateways amount))
        ⟨.getRankedGateways amount, .waiting⟩ := by
  apply Setting.Assures.bind (Φ := fun rows s₁ => (rows.map (·.gateway)).Nodup ∧
    s₁ = Caller.next D g ⟨.getRankedGateways amount, .waiting⟩ .findStats (.ok rows))
  . apply left_perform
    . exact ⟨rfl, amount, rfl⟩
    . intro rows hrows
      exact ⟨hrows, rfl⟩
  . rintro rows s₁ ⟨hrows, hs₁⟩
    have hcall : s₁.call = .getRankedGateways amount := by
      rw [hs₁]
      simp only [Caller.next]
      split
      . split <;> rfl
      . rfl
    -- What the call has read about the gateway is what its promise starts from.
    have hfind : ∀ row ∈ rows, row.gateway = g →
        rows.find? (fun row => decide (row.gateway = g)) = some row := by
      intro row hrow hgateway
      cases hfind : rows.find? (fun row => decide (row.gateway = g)) with
      | none =>
        rw [List.find?_eq_none] at hfind
        exact absurd (decide_eq_true hgateway) (hfind row hrow)
      | some row' =>
        have hgateway' : row'.gateway = g := by simpa using List.find?_some hfind
        rw [List.inj_on_of_nodup_map hrows (List.mem_of_find?_eq_some hfind) hrow
          (hgateway'.trans hgateway.symm)]
    have hcandidates : ∀ row ∈ rows.filter (fun row => considered D row.gateway),
        (callerProtocol D g).setting.Assures (Relies g row) (Guarantees g row)
          (candidate D amount row) (fun _ s' => row.gateway = g → s'.turn = .settled) s₁ := by
      intro row hrow
      rw [List.mem_filter] at hrow
      apply Setting.Assures.bind (Φ := fun _ s' => row.gateway = g → s'.turn = .settled)
      . apply caller_checkCooldown hrow.right hcall
        . intro hgateway hopen
          have hconsidered := hrow.right
          rw [hgateway] at hconsidered
          simp [hs₁, Caller.next, hfind row hrow.left hgateway, hopen, hconsidered]
        . intro hgateway hstate
          simp [hs₁, Caller.next, hfind row hrow.left hgateway, hstate]
      . intro _ s' hs'
        exact hs'
    have hall : (callerProtocol D g).setting.Assures Eq Settles
        (Prog.all ((rows.filter (fun row => considered D row.gateway)).map (candidate D amount)))
        (fun cs s' => List.Forall₂ (fun row _ => row.gateway = g → s'.turn = .settled)
          (rows.filter (fun row => considered D row.gateway)) cs) s₁ := by
      apply (Setting.Assures.all (fun _ _ => ⟨rfl, fun _ => rfl⟩) (fun _ _ _ _ h h' => h.trans h')
        _ _ hcandidates).mono
      . rintro s _ rfl _ _
        exact ⟨rfl, fun _ => rfl⟩
      . rintro s s' ⟨row, _, h⟩
        exact h.left
      . exact fun _ _ h => h
      . intro row _ s s' hs h hgateway
        rw [hs.right hgateway]
        exact h hgateway
      . rw [List.nodup_iff_pairwise_ne, List.pairwise_map] at hrows
        apply (hrows.filter _).imp
        intro row row' hne s s'
        exact ⟨fun h => h.relies hne, fun h => h.relies hne.symm⟩
    have hchange := hall.change (fun _ => .inl rfl) (fun _ _ _ h h' => h.trans h')
    apply Setting.Assures.bind (hchange.mono (fun _ _ h => h) (fun _ _ _ => trivial)
      (fun _ _ h => h))
    rintro candidates s₂ ⟨hcandidates, hsettles⟩
    refine ⟨hsettles.call.trans hcall, .inl ?_⟩
    by_cases hturn : s₁.turn = .settled
    . rcases hsettles with h | h <;> rw [h]
      exact hturn
    . have hrow : ∃ row ∈ rows.filter (fun row => considered D row.gateway), row.gateway = g := by
        rw [hs₁] at hturn
        simp only [Caller.next] at hturn
        split at hturn
        . next row hrow =>
          have hgateway : row.gateway = g := by simpa using List.find?_some hrow
          split at hturn
          . next hopen =>
            refine ⟨row, ?_, hgateway⟩
            rw [List.mem_filter, hgateway]
            exact ⟨List.mem_of_find?_eq_some hrow, hopen.right⟩
          . exact absurd rfl hturn
        . exact absurd rfl hturn
      rcases hrow with ⟨row, hrow, hgateway⟩
      exact forall_of_forall₂ hcandidates row hrow hgateway

theorem wp_caller (call : BreakerCall)
    : (callerProtocol D g).wp (call.program D)
        (fun r s' => (∃ a, r = .ok a) ∧ s'.Through call) ⟨call, .waiting⟩ := by
  have hleft : Left D g (call.program D) (fun _ s' => s'.Through call) ⟨call, .waiting⟩ := by
    cases call with
    | recordSuccess gateway latencyMs =>
      exact left_recordSuccess.bind (fun _ _ h => h)
    | recordFailure gateway latencyMs =>
      exact left_recordFailure.bind (fun _ _ h => h)
    | getRankedGateways amount => exact left_getRankedGateways
  apply Protocol.wp_mono (Protocol.wp_of_assures hleft)
  rintro r s' ⟨a, hr, hs'⟩
  exact ⟨⟨a, hr⟩, hs'⟩

end PaymentOrchestration
