import PaymentOrchestration.Common.Binary64
import PaymentOrchestration.Transactions.ChargeKeys
import PaymentOrchestration.Transactions.ChargeOnce

/-!
This module is about what a gateway reads in the requests of its adapter: which payment is meant
and its amount, also where the request gives it with two decimals.
-/

namespace PaymentOrchestration

namespace HttpBody

def formField (name : String) (body : HttpBody) : Option String :=
  match body with
  | .form fields => fields.lookup name
  | .json _ => none

def jsonField (name : String) (body : HttpBody) : Option Json :=
  match body with
  | .form _ => none
  | .json value => value.field name

def jsonText (name : String) (body : HttpBody) : Option String :=
  match body.jsonField name with
  | some (.str s) => some s
  | _ => none

end HttpBody

namespace PayUAdapter

/--
As long as the amount in its unit has a double that is near enough, the two decimals show the
amount in the smallest unit.
-/
theorem amountDecimal_eq_fixed {amount : Nat} (h : amount < 100 * 2 ^ 46)
    : amountDecimal amount = Decimal.fixed 2 amount := by
  have hulp : Binary64.ulp ((amount : ℚ) / 10 ^ 2) * 10 ^ 2 < 1 := by
    have hle : Binary64.ulp ((amount : ℚ) / 10 ^ 2) ≤ 2 ^ (((45 : Nat) : Int) - 52) := by
      apply Binary64.ulp_le
      . positivity
      . have hlt : (amount : ℚ) < 100 * 2 ^ 46 := by exact_mod_cast h
        have hbound : (100 * 2 ^ 46 : ℚ) = 2 ^ (45 + 1) * 10 ^ 2 := by norm_num
        rw [div_lt_iff₀ (by norm_num), ← hbound]
        exact hlt
    norm_num at hle ⊢
    linarith
  rw [← Binary64.toFixed_round hulp, amountDecimal]
  norm_num

-- From there on the doubles are too far apart, and PayU is asked for one cent more.
example : amountDecimal (100 * 2 ^ 46 + 1) = "70368744177664.02" := by
  decide +kernel

end PayUAdapter

/--
What a gateway is asked for, in the smallest unit of the currency.
-/
def askedAmount (gateway : GatewayProvider) (body : HttpBody) : Option ℚ :=
  match gateway with
  | .STRIPE => (body.formField "amount").bind Decimal.read
  | .PAYU => ((body.formField "amount").bind Decimal.read).map fun units => units * 100
  | .RAZORPAY | .UPI =>
    match body.jsonField "amount" with
    | some (.num amount) => some amount
    | _ => none

-- What follows on `start`.
def after (start s : String) : Option String :=
  if startsWith s start then
    some (String.ofList (s.toList.drop start.length))
  else
    none

/--
The payment a gateway is asked for.
-/
def askedPayment (gateway : GatewayProvider) (body : HttpBody) : Option String :=
  match gateway with
  | .STRIPE => (body.formField "description").bind (after "Transaction ")
  | .PAYU => body.formField "txnid"
  | .RAZORPAY => body.jsonText "receipt"
  | .UPI => body.jsonText "reference_id"

def askedCurrency (gateway : GatewayProvider) (body : HttpBody) : Option String :=
  match gateway with
  | .STRIPE | .PAYU => body.formField "currency"
  | .RAZORPAY | .UPI => body.jsonText "currency"

-- PayU is told no currency.
def toldCurrency (R : Runtime) (gateway : GatewayProvider) (currency : String) : Option String :=
  match gateway with
  | .STRIPE => some (R.toLowerCase currency)
  | .PAYU => none
  | .RAZORPAY | .UPI => some currency

/--
The request asks for the payment and for its amount, and the decimals for PayU are those of the
double.
-/
structure Asks (R : Runtime) (gateway : GatewayProvider) (id : String) (amount : Nat)
    (currency : String) (body : HttpBody) : Prop where
  payment : askedPayment gateway body = some id
  asked : askedAmount gateway body = some (amount : ℚ)
  decimals : gateway = .PAYU →
    body.formField "amount" = some (Binary64.toFixed (Binary64.round (amount / 100)) 2)
  currency : askedCurrency gateway body = toldCurrency R gateway currency

theorem after_append (start s : String) : after start (start ++ s) = some s := by
  have hprefix : startsWith (start ++ s) start = true := by
    simp [startsWith]
  unfold after
  rw [if_pos hprefix, String.toList_append, ← String.length_toList, List.drop_left,
    String.ofList_toList]

namespace GatewayAdapter

variable {D : Deployment} {R : Runtime} {gateway : GatewayProvider}
  {request : GatewayChargeRequest}

theorem asks_of_mem_attempts (hamount : request.amount < 100 * 2 ^ 46) {httpRequest : HttpRequest}
    (h : httpRequest ∈ attempts D R gateway request)
    : Asks R gateway request.transactionId request.amount request.currency httpRequest.body := by
  cases gateway with
  | STRIPE =>
    rw [attempts, List.mem_singleton] at h
    subst h
    refine ⟨?_, ?_, nofun, rfl⟩
    . exact after_append "Transaction " request.transactionId
    . change Decimal.read (Binary64.numberText request.amount) = _
      rw [Binary64.numberText_of_lt (by omega)]
      exact Decimal.read_toString request.amount
  | RAZORPAY =>
    rw [attempts, List.mem_singleton] at h
    subst h
    exact ⟨rfl, rfl, nofun, rfl⟩
  | PAYU =>
    rw [attempts, List.mem_singleton] at h
    subst h
    refine ⟨rfl, ?_, fun _ => rfl, rfl⟩
    change ((Decimal.read (PayUAdapter.amountDecimal request.amount)).map fun units =>
      units * 100) = _
    rw [PayUAdapter.amountDecimal_eq_fixed hamount, Decimal.read_fixed request.amount (by omega)]
    norm_num
  | UPI =>
    rw [attempts, List.mem_pair] at h
    rcases h with h | h
    . subst h
      exact ⟨rfl, rfl, nofun, rfl⟩
    . subst h
      exact ⟨rfl, rfl, nofun, rfl⟩

theorem asks_of_ends {log : AdapterLog} {r : Except Err GatewayChargeResponse}
    (hamount : request.amount < 100 * 2 ^ 46)
    (h : (charge D R gateway request).Ends AdapterCmd.Answers log r)
    : ∀ exchange ∈ exchangesOf log,
        Asks R gateway request.transactionId request.amount request.currency exchange.1.body := by
  intro exchange hexchange
  apply asks_of_mem_attempts (D := D) (R := R) hamount
  exact (concludes_of_ends h).requests.left.subset (List.mem_map_of_mem hexchange)

end GatewayAdapter

namespace System

variable {D : Deployment} {R : Runtime} {tasks : Pid → Task}

/--
Whatever is sent for a payment asks for this payment and for its amount.
-/
theorem amounts_asked {c : System D} (h : c.Reachable D tasks) {t : Transaction}
    (ht : t ∈ c.world.ledger.transactions) (hamount : t.amount < 100 * 2 ^ 46)
    : ∀ charge ∈ c.world.charges, charge.request.transactionId = t.id →
        ∀ log r, (GatewayAdapter.charge D R charge.gateway charge.request).Ends AdapterCmd.Answers
          log r →
          ∀ exchange ∈ exchangesOf log,
            Asks R charge.gateway t.id t.amount t.currency exchange.1.body := by
  rcases h.exists_books with ⟨b, hb, hdescribed⟩
  rw [← hdescribed.transactions] at ht
  rw [← hdescribed.charges]
  intro charge hcharge hid log r hends
  rcases hb.exists_payment hcharge with ⟨u, hu, hrequest⟩
  rw [hrequest] at hid
  have hut : u = t := hb.inv.eq_of_id hu ht hid
  subst hut
  have hbound : charge.request.amount < 100 * 2 ^ 46 := by
    rw [hrequest]
    exact hamount
  have hasks := GatewayAdapter.asks_of_ends hbound hends
  rw [hrequest] at hasks
  exact hasks

end System

namespace Scenario

theorem exists_asked
    : ∃ c : System onlineShop, c.Reachable onlineShop (fun _ => .create order) ∧
        c.world.ledger.transactions.map (fun t => (t.id, t.amount)) = [("txn-1", 1015)] ∧
        ∃ charge ∈ c.world.charges, charge.gateway = .PAYU ∧
          charge.request.transactionId = "txn-1" ∧ charge.request.amount = 1015 := by
  let p (c : System onlineShop) : Bool :=
    decide (c.world.ledger.transactions.map (fun t => (t.id, t.amount)) = [("txn-1", 1015)]) &&
      c.world.charges.any fun charge =>
        decide (charge.gateway = .PAYU ∧ charge.request.transactionId = "txn-1" ∧
          charge.request.amount = 1015)
  have hrun : ((machine onlineShop).runActsIf (fun _ => (Task.create order).program onlineShop)
      settlesInTurn secondTakes onlineStart).any p = true := by
    decide +kernel
  rcases Machine.exists_runBy_of_runActsIf (fun c a ha => adapted_of_settlesInTurn ha) hrun with
    ⟨c, hc, hp⟩
  simp only [p, Bool.and_eq_true, decide_eq_true_eq, List.any_eq_true] at hp
  have hreachable : System.ReachableBy onlineShop (fun _ => .create order) (Adapted plainRuntime)
      c := ⟨onlineStart, onlineStart_start, hc⟩
  exact ⟨c, hreachable.reachable, hp⟩

end Scenario

namespace System

open Scenario in
/--
PayU is asked for 10.15.
-/
theorem amounts_asked_decimals
    : ∃ (charge : Charge) (currency : String) (log : AdapterLog)
        (r : Except Err GatewayChargeResponse),
        (GatewayAdapter.charge onlineShop plainRuntime .PAYU charge.request).Ends AdapterCmd.Answers
          log r ∧
        exchangesOf log ≠ [] ∧
        ∀ exchange ∈ exchangesOf log,
          Asks plainRuntime .PAYU charge.request.transactionId 1015 currency exchange.1.body := by
  rcases exists_asked with ⟨c, hc, hrows, charge, hcharge, hgateway, hid, hamount⟩
  rcases List.map_eq_singleton_iff.mp hrows with ⟨t, hrow, ht⟩
  rw [Prod.mk.injEq] at ht
  have hmem : t ∈ c.world.ledger.transactions := by
    rw [hrow]
    exact List.mem_singleton_self t
  have htest : GatewayAdapter.isTestAmount .PAYU charge.request.amount = false := by
    rw [hamount]
    decide +kernel
  rcases exists_payuPage hid htest with ⟨log, hlog⟩
  rw [← hgateway] at hlog
  have hasks := amounts_asked hc hmem (by rw [ht.right]; decide) charge hcharge
    (hid.trans ht.left.symm) log _ hlog
  rw [hgateway, ht.right, ht.left, ← hid] at hasks
  rw [hgateway] at hlog
  refine ⟨charge, t.currency, log, _, hlog, ?_, hasks⟩
  have hsent := (GatewayAdapter.concludes_of_ends hlog).right
  rw [htest, if_neg (by decide +kernel)] at hsent
  exact hsent.nonempty

end System

end PaymentOrchestration
