import Mathlib.Algebra.Order.Field.Rat
import PaymentOrchestration.Transactions.ChargeKeys
import PaymentOrchestration.Transactions.Snapshots

/-!
This module contains `TransactionsController` with the validation in front of it, and what its checks
are worth further down: they hold of every stored payment and of every charge call.
-/

namespace PaymentOrchestration

/--
The decorators of `class-validator` on the fields of a request body.
-/
inductive Constraint where
  | isString
  | isNotEmpty
  | isInt
  | isPositive
  | length (min max : Nat)
  deriving DecidableEq

/--
A field of a body with its decorators. `optional` is `@IsOptional()`: no value, no other check.
-/
structure Property where
  name : String
  optional : Bool
  constraints : List Constraint

structure Violation where
  property : String
  constraint : Constraint
  deriving DecidableEq

-- `size` is how `@Length` measures a text.
def Constraint.holds (size : String → Nat) (constraint : Constraint) (value : Option Json) : Bool :=
  match constraint, value with
  | .isString, some (.str _) => true
  | .isNotEmpty, some (.str s) => s ≠ ""
  | .isNotEmpty, some .null => false
  | .isNotEmpty, some _ => true
  | .isInt, some (.num q) => q.den = 1
  | .isPositive, some (.num q) => 0 < q
  | .length min max, some (.str s) => min ≤ size s ∧ size s ≤ max
  | _, _ => false

def isMissing (value : Option Json) : Bool :=
  match value with
  | none => true
  | some .null => true
  | some _ => false

def Property.violations (size : String → Nat) (body : List (String × Json)) (property : Property)
    : List Violation :=
  let value := body.lookup property.name
  if property.optional && isMissing value then
    []
  else
    (property.constraints.filter (fun constraint => !constraint.holds size value)).map
      (fun constraint => ⟨property.name, constraint⟩)

namespace CreateTransactionDto

def properties : List Property :=
  [⟨"idempotencyKey", true, [.isString]⟩,
    ⟨"merchantId", false, [.isString, .isNotEmpty]⟩,
    ⟨"amount", false, [.isInt, .isPositive]⟩,
    ⟨"currency", false, [.isString, .length 3 3]⟩]

-- The `ValidationPipe`: what the body violates.
def validate (size : String → Nat) (body : List (String × Json)) : List Violation :=
  properties.flatMap (·.violations size body)

-- The fields of a body that has passed.
def ofBody (idempotencyKey : Json) (body : List (String × Json)) : Option CreateTransactionDto :=
  match idempotencyKey, body.lookup "merchantId", body.lookup "amount", body.lookup "currency" with
  | .str idempotencyKey, some (.str merchantId), some (.num amount), some (.str currency) =>
    some ⟨idempotencyKey, merchantId, amount.num.toNat, currency⟩
  | _, _, _, _ => none

end CreateTransactionDto

inductive RequestError where
  | invalid (violations : List Violation)
  | badRequest (message : String)
  | notFound (message : String)

structure CreateRequest where
  body : List (String × Json)
  -- the header `idempotency-key`
  headerKey : Option String

namespace TransactionsController

def keyRequired : String :=
  "Idempotency-Key header or idempotencyKey body field is required"

-- `dto.idempotencyKey` after the header has been put over it
def effectiveKey (request : CreateRequest) : Option Json :=
  Json.or (request.headerKey.map .str) (request.body.lookup "idempotencyKey")

/--
What `this.transactionsService.create` is called with, or how the request is turned down before.
-/
def create (size : String → Nat) (request : CreateRequest)
    : Except RequestError CreateTransactionDto :=
  let violations := CreateTransactionDto.validate size request.body
  if violations ≠ [] then
    .error (.invalid violations)
  else
    match Json.orNull (effectiveKey request) with
    | none => .error (.badRequest keyRequired)
    | some key =>
      match CreateTransactionDto.ofBody key request.body with
      | none => .error (.invalid [])
      | some dto => .ok dto

end TransactionsController

namespace TransactionsService

def findOne (id : String) (ledger : Ledger) : Option Transaction :=
  ledger.transactions.find? (·.id = id)

end TransactionsService

namespace TransactionsController

def findOne (id : String) (ledger : Ledger) : Except RequestError Transaction :=
  match TransactionsService.findOne id ledger with
  | none => .error (.notFound "transaction not found")
  | some txn => .ok txn

end TransactionsController

theorem Property.mem_of_violations {size : String → Nat} {body : List (String × Json)}
    {property : Property} {violation : Violation}
    (h : violation ∈ property.violations size body)
    : violation.property = property.name ∧ violation.constraint ∈ property.constraints ∧
        violation.constraint.holds size (body.lookup property.name) = false := by
  unfold violations at h
  dsimp only at h
  split at h
  . cases h
  . rw [List.mem_map] at h
    rcases h with ⟨constraint, hconstraint, heq⟩
    rw [List.mem_filter] at hconstraint
    subst heq
    exact ⟨rfl, hconstraint.left, by simpa using hconstraint.right⟩

/--
A field without complaints satisfies its decorators, unless it may be missing and is.
-/
theorem Property.holds_of_violations {size : String → Nat} {body : List (String × Json)}
    {property : Property} (h : property.violations size body = [])
    : (property.optional = true ∧ isMissing (body.lookup property.name) = true) ∨
        ∀ constraint ∈ property.constraints,
          constraint.holds size (body.lookup property.name) = true := by
  unfold violations at h
  dsimp only at h
  split at h
  . next hmissing =>
    rw [Bool.and_eq_true] at hmissing
    exact .inl hmissing
  . rw [List.map_eq_nil_iff, List.filter_eq_nil_iff] at h
    right
    intro constraint hconstraint
    simpa using h constraint hconstraint

namespace CreateTransactionDto

/--
A request that the checks of the controller let through.
-/
structure Accepted (size : String → Nat) (dto : CreateTransactionDto) : Prop where
  idempotencyKey : dto.idempotencyKey ≠ ""
  merchantId : dto.merchantId ≠ ""
  amount : 0 < dto.amount
  currency : size dto.currency = 3

/--
What the body says, as far as the service hears of it.
-/
structure Says (body : List (String × Json)) (dto : CreateTransactionDto) : Prop where
  merchantId : body.lookup "merchantId" = some (.str dto.merchantId)
  amount : body.lookup "amount" = some (.num dto.amount)
  currency : body.lookup "currency" = some (.str dto.currency)

variable {size : String → Nat} {body : List (String × Json)}

theorem isString_iff {value : Option Json}
    : Constraint.holds size .isString value = true ↔ ∃ s, value = some (.str s) := by
  rcases value with _ | value
  . simp [Constraint.holds]
  . cases value <;> simp [Constraint.holds]

theorem isInt_isPositive {value : Option Json} (hint : Constraint.holds size .isInt value = true)
    (hpositive : Constraint.holds size .isPositive value = true)
    : ∃ amount : Nat, 0 < amount ∧ value = some (.num amount) := by
  rcases value with _ | value
  . cases hint
  . cases value with
    | num q =>
      simp only [Constraint.holds, decide_eq_true_eq] at hint hpositive
      have hnum : 0 < q.num := Rat.num_pos.mpr hpositive
      refine ⟨q.num.toNat, by omega, ?_⟩
      have hq : (q.num.toNat : ℚ) = q := by
        have hcast : ((q.num.toNat : ℤ) : ℚ) = q.num := by
          rw [Int.toNat_of_nonneg hnum.le]
        rw [← Int.cast_natCast, hcast]
        exact Rat.coe_int_num_of_den_eq_one hint
      rw [hq]
    | _ => cases hint

/--
A body that passes says everything the service needs.
-/
theorem of_validate (h : validate size body = [])
    : ∃ merchantId amount currency,
        body.lookup "merchantId" = some (.str merchantId) ∧ merchantId ≠ "" ∧
        body.lookup "amount" = some (.num (amount : Nat)) ∧ 0 < amount ∧
        body.lookup "currency" = some (.str currency) ∧ size currency = 3 ∧
        (isMissing (body.lookup "idempotencyKey") = true ∨
          ∃ key, body.lookup "idempotencyKey" = some (.str key)) := by
  simp only [validate, properties, List.flatMap_cons, List.flatMap_nil, List.append_nil,
    List.append_eq_nil_iff] at h
  rcases h with ⟨hkey, hmerchantId, hamount, hcurrency⟩
  have hkey := Property.holds_of_violations hkey
  have hmerchantId := Property.holds_of_violations hmerchantId
  have hamount := Property.holds_of_violations hamount
  have hcurrency := Property.holds_of_violations hcurrency
  simp only [Bool.false_eq_true, false_and, false_or, List.mem_cons, List.not_mem_nil, or_false,
    forall_eq_or_imp, forall_eq, true_and] at hkey hmerchantId hamount hcurrency
  rcases isString_iff.mp hmerchantId.left with ⟨merchantId, hmerchant⟩
  rcases isInt_isPositive hamount.left hamount.right with ⟨amount, hpositive, hamount⟩
  rcases isString_iff.mp hcurrency.left with ⟨currency, hcurrency'⟩
  have hempty := hmerchantId.right
  have hlength := hcurrency.right
  rw [hmerchant] at hempty
  rw [hcurrency'] at hlength
  simp only [Constraint.holds, decide_eq_true_eq] at hempty hlength
  refine ⟨merchantId, amount, currency, hmerchant, hempty, hamount, hpositive, hcurrency', by omega,
    ?_⟩
  rcases hkey with hkey | hkey
  . exact .inl hkey
  . exact .inr (isString_iff.mp hkey)

end CreateTransactionDto

namespace TransactionsController

variable {size : String → Nat} {request : CreateRequest} {dto : CreateTransactionDto}

/--
The key that is used is a text, also where it comes from the body.
-/
theorem exists_key (h : CreateTransactionDto.validate size request.body = []) {key : Json}
    (hkey : Json.orNull (effectiveKey request) = some key)
    : ∃ k, key = .str k ∧ k ≠ "" ∧ effectiveKey request = some (.str k) := by
  unfold Json.orNull at hkey
  rw [Option.filter_eq_some_iff] at hkey
  have hstr : ∃ k, effectiveKey request = some (.str k) := by
    rcases CreateTransactionDto.of_validate h with ⟨_, _, _, _, _, _, _, _, _, hbody⟩
    unfold effectiveKey at hkey ⊢
    cases hheader : request.headerKey with
    | some k =>
      by_cases hk : k = ""
      . -- An empty header counts as none.
        have hempty : (Json.str k).truthy = false := by
          simp [Json.truthy, hk]
        rw [hheader] at hkey
        rw [Option.map_some, Json.or_some_of_not_truthy _ hempty] at hkey ⊢
        rcases hbody with hmissing | hbody
        . rw [hkey.left] at hmissing
          cases key with
          | null => simp [Json.truthy] at hkey
          | _ => cases hmissing
        . exact hbody
      . exact ⟨k, by rw [Option.map_some, Json.or_some_of_truthy _ (by simp [Json.truthy, hk])]⟩
    | none =>
      rw [hheader, Option.map_none, Json.or_none] at hkey
      rw [Option.map_none, Json.or_none]
      rcases hbody with hmissing | hbody
      . rw [hkey.left] at hmissing
        cases key with
        | null => simp [Json.truthy] at hkey
        | _ => cases hmissing
      . exact hbody
  rcases hstr with ⟨k, hk⟩
  rw [hk] at hkey
  rcases hkey with ⟨heq, htruthy⟩
  injection heq with heq
  subst heq
  exact ⟨k, rfl, by simpa [Json.truthy] using htruthy, hk⟩

/--
What the service is called with has passed every check and is what the request says.
-/
theorem create_accepted (h : create size request = .ok dto)
    : dto.Accepted size ∧ dto.Says request.body ∧
        effectiveKey request = some (.str dto.idempotencyKey) := by
  unfold create at h
  dsimp only at h
  split at h
  . cases h
  . next hvalidate =>
    rw [ne_eq, not_not] at hvalidate
    split at h
    . cases h
    . next key hkey =>
      rcases exists_key hvalidate hkey with ⟨k, hstr, hne, heffective⟩
      rcases CreateTransactionDto.of_validate hvalidate with ⟨merchantId, amount, currency,
        hmerchant, hempty, hamount, hpositive, hcurrency, hlength, _⟩
      subst hstr
      simp only [CreateTransactionDto.ofBody, hmerchant, hamount, hcurrency] at h
      injection h with h
      subst h
      have hcast : (amount : ℚ).num.toNat = amount := by
        simp
      refine ⟨⟨hne, hempty, ?_, hlength⟩, ⟨hmerchant, ?_, hcurrency⟩, heffective⟩
      . rw [hcast]
        exact hpositive
      . rw [hcast]
        exact hamount

/--
Each way a request is turned down has its reason: a field that violates one of its decorators, or no
key at all.
-/
theorem create_error {e : RequestError} (h : create size request = .error e)
    : (∃ violations, e = .invalid violations ∧ violations ≠ [] ∧
          ∀ violation ∈ violations, ∃ property ∈ CreateTransactionDto.properties,
            violation.property = property.name ∧ violation.constraint ∈ property.constraints ∧
            violation.constraint.holds size (request.body.lookup property.name) = false) ∨
        (e = .badRequest keyRequired ∧ Json.orNull (effectiveKey request) = none) := by
  unfold create at h
  dsimp only at h
  split at h
  . next hviolations =>
    injection h with h
    refine .inl ⟨_, h.symm, hviolations, ?_⟩
    intro violation hviolation
    unfold CreateTransactionDto.validate at hviolation
    rw [List.mem_flatMap] at hviolation
    rcases hviolation with ⟨property, hproperty, hviolation⟩
    exact ⟨property, hproperty, Property.mem_of_violations hviolation⟩
  . next hvalidate =>
    rw [ne_eq, not_not] at hvalidate
    split at h
    . next hkey =>
      injection h with h
      exact .inr ⟨h.symm, hkey⟩
    . next key hkey =>
      rcases exists_key hvalidate hkey with ⟨k, hstr, _⟩
      rcases CreateTransactionDto.of_validate hvalidate with ⟨merchantId, amount, currency,
        hmerchant, _, hamount, _, hcurrency, _⟩
      subst hstr
      simp only [CreateTransactionDto.ofBody, hmerchant, hamount, hcurrency] at h
      cases h

end TransactionsController

/--
The payment is one that the checks of the controller let through.
-/
structure Transaction.Accepted (size : String → Nat) (t : Transaction) : Prop where
  idempotencyKey : t.idempotencyKey ≠ ""
  merchantId : t.merchantId ≠ ""
  amount : 0 < t.amount
  currency : size t.currency = 3

theorem CreateTransactionDto.Accepted.of_confirms {size : String → Nat} {dto : CreateTransactionDto}
    (h : dto.Accepted size) {t : Transaction} (hkey : t.idempotencyKey = dto.idempotencyKey)
    (hconfirms : Confirms t dto) : t.Accepted size := by
  rcases hconfirms with ⟨hmerchantId, hamount, hcurrency⟩
  refine ⟨?_, ?_, ?_, ?_⟩
  . rw [hkey]
    exact h.idempotencyKey
  . rw [hmerchantId]
    exact h.merchantId
  . rw [hamount]
    exact h.amount
  . rw [hcurrency]
    exact h.currency

/--
What a gateway is asked to charge has passed the checks. Its key is that of the payment with the
gateway behind it.
-/
structure Charge.Accepted (size : String → Nat) (charge : Charge) : Prop where
  idempotencyKey : ∃ key, key ≠ "" ∧
    charge.request.idempotencyKey = s!"{key}_{charge.gateway}"
  amount : 0 < charge.request.amount
  currency : size charge.request.currency = 3

/--
Every payment has passed the checks, and so has what the gateways are asked to charge.
-/
structure PaymentsAccepted (size : String → Nat) (w : World) : Prop where
  transactions : ∀ t ∈ w.ledger.transactions, t.Accepted size
  charges : ∀ charge ∈ w.charges, charge.Accepted size

namespace System

variable {D : Deployment} {tasks : Pid → Task} {size : String → Nat}

-- The calls of `create` are those of the controller.
def Requested (size : String → Nat) (tasks : Pid → Task) : Prop :=
  ∀ i dto, tasks i = .create dto →
    ∃ request, TransactionsController.create size request = .ok dto

theorem payments_accepted (hrequested : Requested size tasks) {c : System D}
    (h : c.Reachable D tasks) : PaymentsAccepted size c.world := by
  rcases h.exists_books with ⟨b, hb, hdescribed⟩
  have haccepted : ∀ i dto, tasks i = .create dto → dto.Accepted size := by
    intro i dto htask
    rcases hrequested i dto htask with ⟨request, hrequest⟩
    exact (TransactionsController.create_accepted hrequest).left
  refine ⟨?_, ?_⟩
  . rw [← hdescribed.transactions]
    intro t ht
    rcases hb.exists_inserted (Books.known_of_mem ht) with ⟨j, row, hrow, hidentity⟩
    rcases hb.traced.confirms_inserted hrow with ⟨dto, htask, hkey, hconfirms⟩
    have hkey' : t.idempotencyKey = dto.idempotencyKey := by
      simp only [Transaction.identity, Prod.mk.injEq] at hidentity
      rw [hidentity.right.left, hkey]
    exact (haccepted j dto htask).of_confirms hkey' (hconfirms.of_identity hidentity)
  . rw [← hdescribed.charges]
    intro charge hcharge
    rcases hb.exists_request hcharge with ⟨dto, row, htask, _, _, _, hrequest⟩
    have hdto := haccepted _ dto htask
    refine ⟨⟨dto.idempotencyKey, hdto.idempotencyKey, ?_⟩, ?_, ?_⟩
    . rw [hrequest]
      rfl
    . rw [hrequest]
      exact hdto.amount
    . rw [hrequest]
      exact hdto.currency

open Scenario in
/--
The key comes in the header, the gateway has been asked for the payment.
-/
theorem payments_accepted_charged
    : ∃ c : System deployment, c.world.charges.length = 1 ∧
        PaymentsAccepted String.length c.world := by
  have hrun : (outcome (fun _ => .create order) (upToCharge ⟨0, 0⟩ "txn-1")).any
      (fun c => c.world.charges.length = 1) = true := by
    decide +kernel
  have hrequested : Requested String.length (fun _ => .create order) := by
    intro i dto htask
    injection htask with htask
    subst htask
    refine ⟨⟨[("merchantId", .str "shop"), ("amount", .num 1015), ("currency", .str "USD")],
      some "order-7"⟩, ?_⟩
    rfl
  rcases exists_reachable hrun with ⟨c, hc, hcharges⟩
  exact ⟨c, of_decide_eq_true hcharges, payments_accepted hrequested hc⟩

/--
What `create` has answered with can be looked up: `findOne` has the same payment, as it is by now.
-/
theorem returned_found {c : System D} (h : c.Reachable D tasks) {t : Transaction}
    (ht : c.Returned tasks t)
    : ∃ now, TransactionsController.findOne t.id c.world.ledger = .ok now ∧
        Earlier c.world.ledger.auditLog t now := by
  rcases h.exists_books with ⟨b, hb, hdescribed⟩
  rcases hdescribed.exists_now hb (hdescribed.had_of_returned hb ht) with ⟨now, hnow, hearlier⟩
  have hinv := hb.inv
  rw [hdescribed.books] at hinv
  refine ⟨now, ?_, hearlier⟩
  have hid : now.id = t.id := by
    have hidentity := hearlier.identity
    simp only [Transaction.identity, Prod.mk.injEq] at hidentity
    exact hidentity.left
  unfold TransactionsController.findOne TransactionsService.findOne
  cases hfind : c.world.ledger.transactions.find? (·.id = t.id) with
  | none =>
    rw [List.find?_eq_none] at hfind
    exact absurd (decide_eq_true hid) (hfind now hnow)
  | some row =>
    have hrow := List.find?_some hfind
    rw [decide_eq_true_eq] at hrow
    rw [hinv.eq_of_id (List.mem_of_find?_eq_some hfind) hnow (hrow.trans hid.symm)]

open Scenario in
/--
The payment was answered SUCCESS and is RECONCILED by now.
-/
theorem returned_found_reconciled
    : ∃ (c : System deployment) (t now : Transaction), t.currentState = .SUCCESS ∧
        TransactionsController.findOne t.id c.world.ledger = .ok now ∧
        Earlier c.world.ledger.auditLog t now := by
  have hrun : (outcome
      (Scenario.tasks (webhook "PAYMENT_SUCCESS" [("upi_txn_id", .str "upi_1")]))
      (upToCharge ⟨0, 0⟩ "txn-1" ++ settle 0 (.answered (accepted "upi_1")) ::
        steps ⟨0, 0⟩ 12 ++ deliver ++ .spawn ⟨0, 2⟩ :: steps ⟨0, 2⟩ 12)).any
      (returns ⟨0, 0⟩ .SUCCESS) = true := by
    decide +kernel
  rcases exists_reachable hrun with ⟨c, hc, hreturns⟩
  rcases exists_returned hreturns with ⟨t, ht, hstate⟩
  rcases returned_found hc ⟨⟨0, 0⟩, order, rfl, ht⟩ with ⟨now, hnow⟩
  exact ⟨c, t, now, hstate, hnow⟩

end System

end PaymentOrchestration
