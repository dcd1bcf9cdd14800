import PaymentOrchestration.Concurrency.Issues
import PaymentOrchestration.Concurrency.Trace
import PaymentOrchestration.Gateways.Adapters
import PaymentOrchestration.Party.Services

/-!
This module compares the gateways that the routing engine takes to be configured with those whose
adapters hold credentials. The two are decided from different variables of the environment.
-/

namespace PaymentOrchestration

open RoutingEngine GatewayAdapter

/--
The variable holds a key that is none of the placeholders.
-/
def HoldsKey (D : Deployment) (name start : String) (placeholders : List String) : Prop :=
  ∃ key, D.env name = some key ∧ key ≠ "" ∧ startsWith key start = false ∧ key ∉ placeholders

/--
The environment gives an adapter its key whenever it gives the routing engine what that looks at.
-/
structure KeysMatch (D : Deployment) : Prop where
  stripe : ∀ key, D.env "STRIPE_SECRET_KEY" = some key → startsWith key "sk_test_xxx" = true →
    includes key "xxxxxxxxxxxx" = true ∨ endsWith key "xxx" = true
  razorpay : isConfiguredKey (envVar D "RAZORPAY_KEY_SECRET") = true →
    HoldsKey D "RAZORPAY_KEY_ID" "rzp_test_xxx" []
  payu : isConfiguredKey (envVar D "PAYU_SALT") = true →
    HoldsKey D "PAYU_MERCHANT_KEY" "payu_test_xxx" ["xxxxxxxxxxxx"]
  unsalted : envVar D "PAYU_SALT" = none →
    ∀ key, D.env "PAYU_MERCHANT_KEY" = some key → startsWith key "payu_test_xxx" = true →
      includes key "xxxxxxxxxxxx" = true ∨ endsWith key "xxx" = true
  upi : isConfiguredKey (envVar D "UPI_VPA" <|> envVar D "UPI_MERCHANT_ID") = true →
    HoldsKey D "RAZORPAY_KEY_ID" "rzp_test_xxx" ["rzp_test_mock", "xxxxxxxxxxxx"]

/--
Some run of `getRankedGateways` returns a list with the gateway.
-/
def CanReturn (D : Deployment) (gateway : GatewayProvider) : Prop :=
  ∃ amount log ranking, (getRankedGateways D amount).Ends (fun _ _ => True) log (.ok ranking) ∧
    gateway ∈ ranking

variable {D : Deployment} {gateway : GatewayProvider}

/-!
The tests of the adapters and of the routing engine.
-/

theorem envVar_eq_some {name key : String}
    : envVar D name = some key ↔ D.env name = some key ∧ key ≠ "" := by
  simp [envVar, Option.filter_eq_some_iff]

theorem isConfiguredKey_some {key : String}
    : isConfiguredKey (some key) = true ↔
        ¬(includes key "xxxxxxxxxxxx" = true ∨ endsWith key "xxx" = true) := by
  simp [isConfiguredKey]

theorem not_isConfiguredKey_none : ¬isConfiguredKey none = true := by
  simp [isConfiguredKey]

theorem isMockMode_stripe
    : isMockMode D .STRIPE = false ↔ HoldsKey D "STRIPE_SECRET_KEY" "sk_test_xxx" [] := by
  unfold isMockMode StripeAdapter.isMockMode StripeAdapter.secretKey HoldsKey
  cases D.env "STRIPE_SECRET_KEY" <;> simp [keyMissing, keyStartsWith]

theorem isMockMode_razorpay
    : isMockMode D .RAZORPAY = false ↔ HoldsKey D "RAZORPAY_KEY_ID" "rzp_test_xxx" [] := by
  unfold isMockMode RazorpayAdapter.isMockMode RazorpayAdapter.keyId HoldsKey
  cases D.env "RAZORPAY_KEY_ID" <;> simp [keyMissing, keyStartsWith]

theorem isMockMode_payu
    : isMockMode D .PAYU = false ↔
        HoldsKey D "PAYU_MERCHANT_KEY" "payu_test_xxx" ["xxxxxxxxxxxx"] := by
  unfold isMockMode PayUAdapter.isMockMode PayUAdapter.merchantKey HoldsKey
  cases D.env "PAYU_MERCHANT_KEY" <;> simp [keyMissing, keyStartsWith, and_assoc]

theorem isMockMode_upi
    : isMockMode D .UPI = false ↔
        HoldsKey D "RAZORPAY_KEY_ID" "rzp_test_xxx" ["rzp_test_mock", "xxxxxxxxxxxx"] := by
  unfold isMockMode UpiAdapter.isMockMode RazorpayAdapter.keyId HoldsKey
  cases D.env "RAZORPAY_KEY_ID" <;> simp [keyMissing, keyStartsWith, and_assoc]

/--
A key that the routing engine and an adapter both look at.
-/
theorem holdsKey_of_configured {name key start : String} {placeholders : List String}
    (hplaceholders : ∀ placeholder ∈ placeholders, includes placeholder "xxxxxxxxxxxx" = true)
    (hkey : envVar D name = some key) (hconfigured : isConfiguredKey (some key) = true)
    : HoldsKey D name start placeholders ↔ ¬startsWith key start = true := by
  rw [envVar_eq_some] at hkey
  constructor
  . rintro ⟨key', hkey', _, hstart, _⟩
    rw [hkey.left] at hkey'
    injection hkey' with hkey'
    rw [hkey', hstart]
    exact Bool.false_ne_true
  . intro hstart
    refine ⟨key, hkey.left, hkey.right, Bool.eq_false_iff.mpr hstart, fun hmem => ?_⟩
    exact isConfiguredKey_some.mp hconfigured (.inl (hplaceholders key hmem))

theorem ne_empty_of_startsWith {key start : String} (h : startsWith key start = true)
    (hstart : start ≠ "") : key ≠ "" := by
  rintro rfl
  apply hstart
  simpa [startsWith] using h

/--
Of an environment that gives both the same key, only the keys that start like a placeholder but do
not end like one go wrong.
-/
theorem configured_holdsKey_iff {name start : String} (placeholders : List String)
    (hplaceholders : ∀ placeholder ∈ placeholders, includes placeholder "xxxxxxxxxxxx" = true)
    (hstart : start ≠ "")
    : (isConfiguredKey (envVar D name) = true → HoldsKey D name start placeholders) ↔
        ∀ key, D.env name = some key → startsWith key start = true →
          includes key "xxxxxxxxxxxx" = true ∨ endsWith key "xxx" = true := by
  constructor
  . intro h key hkey hstarts
    have hvar : envVar D name = some key :=
      envVar_eq_some.mpr ⟨hkey, ne_empty_of_startsWith hstarts hstart⟩
    by_contra hnot
    have hconfigured := isConfiguredKey_some.mpr hnot
    rw [hvar] at h
    exact (holdsKey_of_configured hplaceholders hvar hconfigured).mp (h hconfigured) hstarts
  . intro h hconfigured
    cases hvar : envVar D name with
    | none =>
      rw [hvar] at hconfigured
      exact absurd hconfigured not_isConfiguredKey_none
    | some key =>
      rw [hvar] at hconfigured
      rw [holdsKey_of_configured hplaceholders hvar hconfigured]
      intro hstarts
      exact isConfiguredKey_some.mp hconfigured (h key (envVar_eq_some.mp hvar).left hstarts)

theorem live_of_configured_iff
    : (∀ gateway, isGatewayConfigured D gateway = true → isMockMode D gateway = false) ↔
        KeysMatch D := by
  constructor
  . intro h
    refine ⟨?_, ?_, ?_, ?_, ?_⟩
    . rw [← configured_holdsKey_iff [] (by simp) (by decide)]
      intro hconfigured
      exact isMockMode_stripe.mp (h .STRIPE hconfigured)
    . intro hconfigured
      exact isMockMode_razorpay.mp (h .RAZORPAY hconfigured)
    . intro hconfigured
      apply isMockMode_payu.mp
      apply h .PAYU
      unfold isGatewayConfigured
      cases hsalt : envVar D "PAYU_SALT" with
      | none =>
        rw [hsalt] at hconfigured
        exact absurd hconfigured not_isConfiguredKey_none
      | some salt =>
        rw [hsalt] at hconfigured
        exact hconfigured
    . intro hsalt
      rw [← configured_holdsKey_iff ["xxxxxxxxxxxx"] (by decide) (by decide)]
      intro hconfigured
      apply isMockMode_payu.mp
      apply h .PAYU
      unfold isGatewayConfigured
      rw [hsalt]
      exact hconfigured
    . intro hconfigured
      exact isMockMode_upi.mp (h .UPI hconfigured)
  . intro h gateway hconfigured
    cases gateway with
    | STRIPE =>
      rw [isMockMode_stripe]
      exact (configured_holdsKey_iff [] (by simp) (by decide)).mpr h.stripe hconfigured
    | RAZORPAY => exact isMockMode_razorpay.mpr (h.razorpay hconfigured)
    | PAYU =>
      rw [isMockMode_payu]
      unfold isGatewayConfigured at hconfigured
      cases hsalt : envVar D "PAYU_SALT" with
      | none =>
        rw [hsalt] at hconfigured
        exact (configured_holdsKey_iff ["xxxxxxxxxxxx"] (by decide) (by decide)).mpr (h.unsalted hsalt) hconfigured
      | some salt =>
        rw [hsalt] at hconfigured
        apply h.payu
        rw [hsalt]
        exact hconfigured
    | UPI => exact isMockMode_upi.mpr (h.upi hconfigured)

/-!
What `getRankedGateways` can return.
-/

theorem issues_any {α : Type} (p : Program α) : p.Issues (fun _ => True) := by
  induction p with
  | pure a => trivial
  | throw e => trivial
  | op cmd k ih => exact ⟨trivial, fun r _ => ⟨rfl, ih r⟩⟩
  | alt p q ihp ihq => exact ⟨ihp, ihq⟩

theorem steady_provider {amount : Nat} {stats : GatewayStats}
    : (Protocol.only (fun _ => True)).Steady () (candidate D amount stats)
        (fun c => c.provider = stats.gateway) := by
  unfold candidate
  rw [Prog.bind_def]
  apply Protocol.Steady.bind (Φ := fun stats' => stats'.gateway = stats.gateway)
  . unfold checkCooldown
    split
    . apply Protocol.Steady.bind (issues_any _)
      intro isTripped _
      split
      . apply Protocol.Steady.bind (issues_any _)
        intro _ _
        rfl
      . rfl
    . rfl
  . intro stats' hstats'
    exact hstats'

theorem configured_of_canReturn (htest : D.env "NODE_ENV" ≠ some "test")
    (h : CanReturn D gateway) : isGatewayConfigured D gateway = true := by
  rcases h with ⟨amount, log, ranking, hends, hmem⟩
  have hsteady : (Protocol.only (fun _ => True)).Steady () (getRankedGateways D amount)
      (fun ranking => ∀ g ∈ ranking, isGatewayConfigured D g = true) := by
    unfold getRankedGateways
    apply Protocol.Steady.bind (issues_any _)
    intro stats _
    apply Protocol.Steady.bind (Protocol.steady_all (fun _ _ => steady_provider))
    intro cs hcs g hg
    rcases rank_perm cs with ⟨ds, hsub, hperm⟩
    have hg' : g ∈ cs.map (·.provider) := (hsub.map _).subset (hperm.mem_iff.mp hg)
    rw [map_provider_eq hcs, List.mem_map] at hg'
    rcases hg' with ⟨row, hrow, hgateway⟩
    rw [List.mem_filter] at hrow
    simpa [htest, hgateway] using hrow.right
  have hwp : (Protocol.only (fun _ => True)).wp (getRankedGateways D amount)
      (fun r _ => ∀ ranking, r = .ok ranking → ∀ g ∈ ranking, isGatewayConfigured D g = true) () := by
    apply hsteady.wp
    . intro ranking hranking ranking' heq
      injection heq with heq
      rw [← heq]
      exact hranking
    . rintro e ranking he
      cases he
  exact Protocol.wp_ends (fun _ _ _ _ => trivial) hwp hends ranking rfl gateway hmem

theorem rank_singleton (c : Candidate) : rank [c] = [c.provider] := by
  unfold rank
  by_cases hscore : 0 ≤ c.score <;> simp [hscore]

-- The gateway's circuit is closed and the only one there is.
theorem canReturn_of_configured (h : isGatewayConfigured D gateway = true)
    : CanReturn D gateway := by
  let row : GatewayStats := ⟨gateway, 0, 0, 0, 0, .CLOSED, 0⟩
  refine ⟨0, [⟨.findStats, .ok [row]⟩], [gateway], ?_, by simp⟩
  refine ⟨.ok [row], [], trivial, rfl, ?_⟩
  let c : Candidate := ⟨gateway, D.score row .CLOSED 0, row⟩
  have hcandidate : candidate D 0 row = .pure c := by
    rfl
  have hfilter : [row].filter (fun stats =>
      decide (D.env "NODE_ENV" = some "test") || isGatewayConfigured D stats.gateway) = [row] := by
    simp [row, h]
  have hall : Prog.all ([row].map (candidate D 0)) = .pure [c] := by
    rw [List.map_singleton, hcandidate]
    rfl
  simp only [Prog.bind_def]
  dsimp only [Prog.bind]
  rw [hfilter, hall]
  exact ⟨rfl, congrArg Except.ok (rank_singleton c).symm⟩

/--
Every gateway that is in use has an adapter with credentials if and only if the two sets of variables
match. The gateways in use are those that a ranking can name.
-/
theorem ranked_live_iff (htest : D.env "NODE_ENV" ≠ some "test")
    : ((∀ gateway, isGatewayConfigured D gateway = true → isMockMode D gateway = false) ↔
          KeysMatch D) ∧
        ((∀ gateway, CanReturn D gateway → isMockMode D gateway = false) ↔ KeysMatch D) := by
  refine ⟨live_of_configured_iff, ?_⟩
  rw [← live_of_configured_iff]
  constructor
  . intro h gateway hconfigured
    exact h gateway (canReturn_of_configured hconfigured)
  . intro h gateway hreturn
    exact h gateway (configured_of_canReturn htest hreturn)

/--
A shop that takes UPI payments through its account at Razorpay.
-/
def shop (keyId : String) : Deployment where
  env := fun name => List.lookup name [("NODE_ENV", "production"), ("UPI_VPA", "shop@okhdfc"),
    ("RAZORPAY_KEY_ID", keyId), ("RAZORPAY_KEY_SECRET", "Tx7uQ9")]
  score := exactScore
  bindText := fun _ => ""
  jsonb := fun _ => true

theorem ranked_live_shop
    : CanReturn (shop "rzp_live_8mW2") .UPI ∧ isMockMode (shop "rzp_live_8mW2") .UPI = false := by
  have hmatch : KeysMatch (shop "rzp_live_8mW2") := by
    refine ⟨?_, ?_, ?_, ?_, ?_⟩
    . intro key hkey
      cases hkey
    . exact fun _ => ⟨"rzp_live_8mW2", rfl, by decide, by decide, by decide⟩
    . exact fun h => absurd h (by decide)
    . intro _ key hkey
      cases hkey
    . exact fun _ => ⟨"rzp_live_8mW2", rfl, by decide, by decide, by decide⟩
  have hreturn : CanReturn (shop "rzp_live_8mW2") .UPI :=
    canReturn_of_configured (by decide +kernel)
  refine ⟨hreturn, ?_⟩
  exact (ranked_live_iff (by decide +kernel)).right.mpr hmatch .UPI hreturn

/--
UPI payments are routed to an adapter that simulates them: the routing engine looks at the shop's
address, the adapter at the key of its account.
-/
theorem ranked_simulated
    : (shop "rzp_test_xxxxxxxxxxxx").env "NODE_ENV" ≠ some "test" ∧
        isGatewayConfigured (shop "rzp_test_xxxxxxxxxxxx") .UPI = true ∧
        CanReturn (shop "rzp_test_xxxxxxxxxxxx") .UPI ∧
        isMockMode (shop "rzp_test_xxxxxxxxxxxx") .UPI = true := by
  refine ⟨by decide +kernel, by decide +kernel, ?_, by decide +kernel⟩
  exact canReturn_of_configured (by decide +kernel)

end PaymentOrchestration
