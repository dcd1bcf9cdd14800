import PaymentOrchestration.Gateways.RoutingEngine
import PaymentOrchestration.Webhooks.WebhooksController

/-!
This module is about the webhook endpoints of gateways that take live payments. An endpoint skips
the check of the signature when its secret is a placeholder, and what counts as one is decided
differently there and in the routing engine.
-/

namespace PaymentOrchestration

namespace WebhooksController

open WebhooksService RoutingEngine

/--
The handler calls `ingest` with the event and acknowledges it.
-/
def Ingests (handler : Program Ack) (event : IncomingWebhook) : Prop :=
  handler = do return .received (← ingest event)

/--
The signature in the request is that of its body under a secret which is configured.
-/
def Verifies (D : Deployment) (R : Signing) (gateway : GatewayProvider) (request : WebhookRequest)
    : Prop :=
  ∃ secret, secretOf D gateway = some secret ∧ secret ≠ "" ∧
    checkSignature R gateway request secret = true

/--
The secret of the endpoint is set to something else than a placeholder.
-/
def LiveSecret (D : Deployment) (gateway : GatewayProvider) : Prop :=
  match gateway with
  | .STRIPE => ∃ secret, D.env "STRIPE_WEBHOOK_SECRET" = some secret ∧ secret ≠ "" ∧
      startsWith secret "whsec_xxx" = false
  | .RAZORPAY => ∃ secret, D.env "RAZORPAY_KEY_SECRET" = some secret ∧
      startsWith secret "rzp_test_xxx" = false
  | .PAYU => ∃ salt, D.env "PAYU_SALT" = some salt ∧ salt ≠ "" ∧
      startsWith salt "payu_test_xxx" = false
  | .UPI => ∃ secret, D.env "RAZORPAY_KEY_SECRET" = some secret ∧ secret ≠ "" ∧
      startsWith secret "rzp_test_xxx" = false ∧ secret ≠ "xxxxxxxxxxxx"

variable {D : Deployment} {R : Signing} {gateway : GatewayProvider} {request : WebhookRequest}

theorem exists_ingests_iff
    : (∃ event, Ingests (receive D R gateway request) event) ↔
        verified D R gateway request = true := by
  unfold receive Ingests
  cases hverified : verified D R gateway request with
  | true => exact ⟨fun _ => rfl, fun _ => ⟨_, rfl⟩⟩
  | false =>
    constructor
    . rintro ⟨event, hevent⟩
      cases hevent
    . intro h
      cases h

theorem isPlaceholder_eq_false {secret : Option String} {start : String}
    {placeholders : List String}
    : isPlaceholder secret start placeholders = false ↔
        ∃ s, secret = some s ∧ s ≠ "" ∧ startsWith s start = false ∧ s ∉ placeholders := by
  cases secret with
  | none => simp [isPlaceholder]
  | some s => simp [isPlaceholder, and_assoc]

-- A key that the routing engine takes is none of the placeholders in use.
theorem not_placeholder_of_configured {name : String}
    (h : isConfiguredKey (envVar D name) = true)
    : ∃ key, D.env name = some key ∧ key ≠ "" ∧ key ≠ "xxxxxxxxxxxx" := by
  cases hkey : envVar D name with
  | none =>
    rw [hkey] at h
    cases h
  | some key =>
    rw [hkey] at h
    simp only [envVar, Option.filter_eq_some_iff, decide_eq_true_eq] at hkey
    refine ⟨key, hkey.left, hkey.right, ?_⟩
    intro heq
    rw [heq] at h
    revert h
    decide

theorem skipsCheck_eq_false_iff (hconfigured : isGatewayConfigured D gateway = true)
    : skipsCheck D gateway = false ↔ LiveSecret D gateway := by
  cases gateway with
  | STRIPE => simp [skipsCheck, isPlaceholder_eq_false, LiveSecret, stripeSecret]
  | UPI => simp [skipsCheck, isPlaceholder_eq_false, LiveSecret, razorpaySecret]
  | RAZORPAY =>
    rcases not_placeholder_of_configured hconfigured with ⟨key, hkey, hne, hne'⟩
    simp [skipsCheck, isPlaceholder_eq_false, LiveSecret, razorpaySecret, hkey, hne, hne']
  | PAYU =>
    simp only [skipsCheck, isPlaceholder_eq_false, LiveSecret, payuSalt]
    constructor
    . rintro ⟨salt, hsalt, hne, hstart, _⟩
      exact ⟨salt, hsalt, hne, hstart⟩
    . rintro ⟨salt, hsalt, hne, hstart⟩
      refine ⟨salt, hsalt, hne, hstart, ?_⟩
      -- The salt is the key that the routing engine has looked at.
      have henv : envVar D "PAYU_SALT" = some salt := by
        simp [envVar, hsalt, hne]
      have hkey : isConfiguredKey (envVar D "PAYU_SALT") = true := by
        simpa [isGatewayConfigured, henv] using hconfigured
      rcases not_placeholder_of_configured hkey with ⟨key, hkey, _, hne'⟩
      rw [hsalt] at hkey
      injection hkey with hkey
      rw [hkey]
      simpa using hne'

-- A request that carries no signature.
def unsigned : WebhookRequest where
  body := .obj []
  rawBody := none
  header := fun _ => none

theorem not_verifies_unsigned : ¬Verifies D R gateway unsigned := by
  rintro ⟨secret, _, _, hcheck⟩
  cases gateway <;> cases hcheck

/--
The endpoint of a gateway that is in use takes nothing but signed requests if and only if its own
secret is set.
-/
theorem ingests_only_verified_iff (hconfigured : isGatewayConfigured D gateway = true)
    : (∀ request, (∃ event, Ingests (receive D R gateway request) event) →
          Verifies D R gateway request) ↔
        LiveSecret D gateway := by
  rw [← skipsCheck_eq_false_iff hconfigured]
  constructor
  . intro h
    by_contra hskips
    rw [Bool.not_eq_false] at hskips
    apply not_verifies_unsigned
    apply h unsigned
    rw [exists_ingests_iff, verified, if_pos hskips]
  . intro hskips request hingests
    rw [exists_ingests_iff, verified, if_neg (by simp [hskips])] at hingests
    have hsecret : ∃ s, secretOf D gateway = some s ∧ s ≠ "" := by
      cases gateway
      all_goals
        rcases isPlaceholder_eq_false.mp hskips with ⟨s, hs, hne, _⟩
        exact ⟨s, hs, hne⟩
    rcases hsecret with ⟨secret, hsecret, hne⟩
    refine ⟨secret, hsecret, hne, ?_⟩
    rw [hsecret] at hingests
    exact hingests

-- A deployment with these variables.
def deploymentOf (vars : List (String × String)) : Deployment where
  env := fun name => List.lookup name vars
  score := exactScore
  bindText := fun _ => ""
  jsonb := fun _ => true

theorem ingests_only_verified_razorpay
    : isGatewayConfigured (deploymentOf [("RAZORPAY_KEY_SECRET", "Tx7uQ9")]) .RAZORPAY = true ∧
        ∀ (R : Signing) (request : WebhookRequest),
          (∃ event, Ingests
            (receive (deploymentOf [("RAZORPAY_KEY_SECRET", "Tx7uQ9")]) R .RAZORPAY request)
            event) →
          Verifies (deploymentOf [("RAZORPAY_KEY_SECRET", "Tx7uQ9")]) R .RAZORPAY request := by
  have hconfigured :
      isGatewayConfigured (deploymentOf [("RAZORPAY_KEY_SECRET", "Tx7uQ9")]) .RAZORPAY = true := by
    decide +kernel
  refine ⟨hconfigured, fun R => ?_⟩
  apply (ingests_only_verified_iff hconfigured).mpr
  exact ⟨"Tx7uQ9", rfl, by decide +kernel⟩

/--
With a live key and no secret for its webhooks, the endpoint takes an event that nobody has signed.
-/
theorem unsigned_ingested
    : isGatewayConfigured (deploymentOf [("STRIPE_SECRET_KEY", "sk_live_4eC39H")]) .STRIPE = true ∧
        ∀ R : Signing,
          (∃ event, Ingests
            (stripe (deploymentOf [("STRIPE_SECRET_KEY", "sk_live_4eC39H")]) R unsigned) event) ∧
          ¬Verifies (deploymentOf [("STRIPE_SECRET_KEY", "sk_live_4eC39H")]) R .STRIPE unsigned := by
  refine ⟨by decide +kernel, fun R => ⟨?_, not_verifies_unsigned⟩⟩
  unfold stripe
  rw [exists_ingests_iff]
  rfl

end WebhooksController

end PaymentOrchestration
