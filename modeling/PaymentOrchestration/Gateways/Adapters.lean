import PaymentOrchestration.Common.Binary64
import PaymentOrchestration.Common.Strings
import PaymentOrchestration.Concurrency.Program
import PaymentOrchestration.Machine

/-!
This module contains the adapters of the four gateways: `charge` with its mock mode and its live
path over HTTP.
-/

namespace PaymentOrchestration

inductive HttpBody where
  | json (value : Json)
  | form (fields : List (String × String))

structure HttpRequest where
  method : String
  url : String
  headers : List (String × String)
  body : HttpBody

/--
An answer over HTTP. Reading its body may fail.
-/
structure HttpResponse where
  status : Nat
  json : Except Err Json
  text : Except Err String

inductive AdapterCmd where
  | now
  -- `await new Promise((resolve) => setTimeout(resolve, ms))`
  | sleep (ms : Nat)
  | uuid
  | fetch (request : HttpRequest)

@[reducible]
def AdapterCmd.Resp (cmd : AdapterCmd) : Type :=
  match cmd with
  | .now => Nat
  | .sleep _ => Unit
  | .uuid => String
  | .fetch _ => HttpResponse

-- Only the network fails.
def AdapterCmd.Answers (cmd : AdapterCmd) (answer : Except Err cmd.Resp) : Prop :=
  match cmd, answer with
  | .fetch _, _ => True
  | _, .ok _ => True
  | _, .error _ => False

abbrev AdapterProgram (α : Type) := Prog AdapterCmd AdapterCmd.Resp Err α

/--
What the adapters take from the runtime: encodings, a hash, `toLowerCase` and the text of a JSON
value that is no string.
-/
structure Runtime where
  base64 : String → String
  sha512 : String → String
  toLowerCase : String → String
  toText : Json → String

namespace GatewayAdapter

def now : AdapterProgram Nat :=
  Prog.perform AdapterCmd.now

def sleep (ms : Nat) : AdapterProgram Unit :=
  Prog.perform (AdapterCmd.sleep ms)

def uuid : AdapterProgram String :=
  Prog.perform AdapterCmd.uuid

def fetch (request : HttpRequest) : AdapterProgram HttpResponse :=
  Prog.perform (AdapterCmd.fetch request)

-- `await response.json()`, `await response.text()`
def readBody {α : Type} (body : Except Err α) : AdapterProgram α :=
  match body with
  | .ok a => pure a
  | .error e => throw e

-- `data.name`
def access (name : String) (data : Json) : AdapterProgram (Option Json) :=
  match data with
  | .null => throw (.error s!"Cannot read properties of null (reading '{name}')")
  | data => pure (data.field name)

-- `value || fallback`, as a text
def textOr (R : Runtime) (value : Option Json) (fallback : String) : String :=
  match Json.orNull value with
  | some (.str s) => s
  | some value => R.toText value
  | none => fallback

-- `data.id` as the column takes it
def idOf (D : Deployment) (value : Option Json) : Option (Option String) :=
  match value with
  | none => none
  | some .null => some none
  | some value => some (some (D.bind value))

def keyMissing (key : Option String) : Bool :=
  match key with
  | some key => key = ""
  | none => true

def keyStartsWith (key : Option String) (start : String) : Bool :=
  key.any (startsWith · start)

def refusal (error : String) (rawResponse : Json) (latencyMs : Nat) : GatewayChargeResponse where
  success := false
  gatewayTxnId := some none
  rawResponse := rawResponse
  error := some error
  latencyMs := latencyMs

def acceptance (gatewayTxnId : Option (Option String)) (rawResponse : Json) (latencyMs : Nat)
    : GatewayChargeResponse where
  success := true
  gatewayTxnId := gatewayTxnId
  rawResponse := rawResponse
  error := none
  latencyMs := latencyMs

/--
How an adapter plays its gateway: which amounts time out and which fail.
-/
structure Simulation where
  timeouts : List String
  failures : List String
  failure : String
  rawFailure : Json
  delay : Nat

def simulate (simulation : Simulation) (amountStr : String) (startTime : Nat)
    (accept : AdapterProgram (String × Json)) : AdapterProgram GatewayChargeResponse := do
  if simulation.timeouts.any (endsWith amountStr) then
    sleep 2000
    let endTime ← now
    return refusal "Gateway call timed out" (.obj [("error", .str "Timeout after 2000ms")])
      (endTime - startTime)
  else if simulation.failures.any (endsWith amountStr) then
    sleep 150
    let endTime ← now
    return refusal simulation.failure simulation.rawFailure (endTime - startTime)
  else
    sleep simulation.delay
    let (gatewayTxnId, rawResponse) ← accept
    let endTime ← now
    return acceptance (some (some gatewayTxnId)) rawResponse (endTime - startTime)

-- The `catch` around a live path.
def orNetworkError (fallback : String) (startTime : Nat)
    (live : AdapterProgram GatewayChargeResponse) : AdapterProgram GatewayChargeResponse := do
  try
    live
  catch err => do
    let endTime ← now
    let error := if err.message = "" then fallback else err.message
    pure (refusal error (.obj [("error", .str err.message)]) (endTime - startTime))

-- `uuidv4().replace(/-/g, '').slice(0, 16)`
def shortId : AdapterProgram String := do
  let id ← uuid
  return String.ofList ((id.toList.filter (· ≠ '-')).take 16)

/--
The shape of `charge` in all four adapters.
-/
def chargeWith (mockMode : Bool) (testSuffixes : List String) (request : GatewayChargeRequest)
    (mock live : Nat → AdapterProgram GatewayChargeResponse)
    : AdapterProgram GatewayChargeResponse := do
  let startTime ← now
  if mockMode || testSuffixes.any (endsWith (Binary64.numberText request.amount)) then
    mock startTime
  else
    live startTime

end GatewayAdapter

open GatewayAdapter

namespace StripeAdapter

def secretKey (D : Deployment) : Option String :=
  D.env "STRIPE_SECRET_KEY"

def isMockMode (D : Deployment) : Bool :=
  keyMissing (secretKey D) || keyStartsWith (secretKey D) "sk_test_xxx"

def testSuffixes : List String :=
  ["99", "00"]

def simulation : Simulation where
  timeouts := ["99"]
  failures := ["00"]
  failure := "Simulated Stripe Card Decline"
  rawFailure := .obj [("error",
    .obj [("message", .str "Your card was declined."), ("code", .str "card_declined")])]
  delay := 200

def mock (request : GatewayChargeRequest) (startTime : Nat)
    : AdapterProgram GatewayChargeResponse :=
  simulate simulation (Binary64.numberText request.amount) startTime do
    let id ← shortId
    return (s!"ch_str_{id}", .obj [("status", .str "succeeded"), ("object", .str "charge"),
      ("id", .str s!"ch_str_{request.transactionId}")])

def chargeRequest (D : Deployment) (R : Runtime) (request : GatewayChargeRequest)
    : HttpRequest where
  method := "POST"
  url := "https://api.stripe.com/v1/charges"
  headers := [("Authorization", "Bearer " ++ (secretKey D).getD "undefined"),
    ("Content-Type", "application/x-www-form-urlencoded"),
    ("Idempotency-Key", request.idempotencyKey)]
  body := .form [("amount", Binary64.numberText request.amount),
    ("currency", R.toLowerCase request.currency),
    ("description", s!"Transaction {request.transactionId}"), ("source", "tok_visa")]

def isSucceeded (status : Option Json) : Bool :=
  match status with
  | some (.str s) => s = "succeeded"
  | _ => false

def decline (R : Runtime) (data : Json) (latencyMs : Nat) : AdapterProgram GatewayChargeResponse := do
  let error ← access "error" data
  return refusal (textOr R (Json.field? "message" error) "Stripe charging failed") data latencyMs

def live (D : Deployment) (R : Runtime) (request : GatewayChargeRequest) (startTime : Nat)
    : AdapterProgram GatewayChargeResponse :=
  orNetworkError "Network error on Stripe" startTime do
    let response ← fetch (chargeRequest D R request)
    let data ← readBody response.json
    let endTime ← now
    if response.status = 200 then
      let status ← access "status" data
      if isSucceeded status then
        let id ← access "id" data
        return acceptance (idOf D id) data (endTime - startTime)
      else
        decline R data (endTime - startTime)
    else
      decline R data (endTime - startTime)

def charge (D : Deployment) (R : Runtime) (request : GatewayChargeRequest)
    : AdapterProgram GatewayChargeResponse :=
  chargeWith (isMockMode D) testSuffixes request (mock request) (live D R request)

end StripeAdapter

namespace RazorpayAdapter

def keyId (D : Deployment) : Option String :=
  D.env "RAZORPAY_KEY_ID"

def keySecret (D : Deployment) : Option String :=
  D.env "RAZORPAY_KEY_SECRET"

def isMockMode (D : Deployment) : Bool :=
  keyMissing (keyId D) || keyStartsWith (keyId D) "rzp_test_xxx"

def testSuffixes : List String :=
  ["96", "01", "99", "00"]

def simulation : Simulation where
  timeouts := ["96"]
  failures := ["01"]
  failure := "Simulated Razorpay Failure"
  rawFailure := .obj [("error",
    .obj [("description", .str "Payment failed due to customer issue.")])]
  delay := 250

def mock (request : GatewayChargeRequest) (startTime : Nat)
    : AdapterProgram GatewayChargeResponse :=
  simulate simulation (Binary64.numberText request.amount) startTime do
    let id ← shortId
    return (s!"pay_rzp_{id}", .obj [("status", .str "captured"),
      ("id", .str s!"pay_rzp_{request.transactionId}"), ("amount", .num request.amount)])

-- `Basic ${auth}`
def authorization (D : Deployment) (R : Runtime) : String :=
  "Basic " ++ R.base64 ((keyId D).getD "undefined" ++ ":" ++ (keySecret D).getD "undefined")

def orderRequest (D : Deployment) (R : Runtime) (request : GatewayChargeRequest)
    : HttpRequest where
  method := "POST"
  url := "https://api.razorpay.com/v1/orders"
  headers := [("Authorization", authorization D R), ("Content-Type", "application/json")]
  body := .json (.obj [("amount", .num request.amount), ("currency", .str request.currency),
    ("receipt", .str request.transactionId)])

/--
What the answer of a Razorpay endpoint comes to: an order that was created counts as a payment.
-/
def outcome (D : Deployment) (R : Runtime) (status : Nat) (data : Json) (fallback : String)
    (latencyMs : Nat) : AdapterProgram GatewayChargeResponse := do
  if status = 200 ∨ status = 201 then
    let id ← access "id" data
    return acceptance (idOf D id) data latencyMs
  else
    let error ← access "error" data
    return refusal (textOr R (Json.field? "description" error) fallback) data latencyMs

def live (D : Deployment) (R : Runtime) (request : GatewayChargeRequest) (startTime : Nat)
    : AdapterProgram GatewayChargeResponse :=
  orNetworkError "Network error on Razorpay" startTime do
    let response ← fetch (orderRequest D R request)
    let data ← readBody response.json
    let endTime ← now
    outcome D R response.status data "Razorpay order creation failed" (endTime - startTime)

def charge (D : Deployment) (R : Runtime) (request : GatewayChargeRequest)
    : AdapterProgram GatewayChargeResponse :=
  chargeWith (isMockMode D) testSuffixes request (mock request) (live D R request)

end RazorpayAdapter

namespace PayUAdapter

def merchantKey (D : Deployment) : Option String :=
  D.env "PAYU_MERCHANT_KEY"

def salt (D : Deployment) : Option String :=
  D.env "PAYU_SALT"

def isMockMode (D : Deployment) : Bool :=
  keyMissing (merchantKey D) || keyStartsWith (merchantKey D) "payu_test_xxx" ||
    merchantKey D = some "xxxxxxxxxxxx"

def testSuffixes : List String :=
  ["97", "02"]

def simulation : Simulation where
  timeouts := ["97"]
  failures := ["02"]
  failure := "Simulated PayU Failure"
  rawFailure := .obj [("error", .obj [("message", .str "Bank returned failure code.")])]
  delay := 180

def mock (request : GatewayChargeRequest) (startTime : Nat)
    : AdapterProgram GatewayChargeResponse :=
  simulate simulation (Binary64.numberText request.amount) startTime do
    return (s!"payu_mock_{request.transactionId}", .obj [("status", .str "success"),
      ("mihpayid", .str s!"payu_mock_{request.transactionId}")])

-- `(request.amount / 100).toFixed(2)`
def amountDecimal (amount : Nat) : String :=
  Binary64.toFixed (Binary64.round (amount / 100)) 2

def hashSequence (D : Deployment) (request : GatewayChargeRequest) : String :=
  "|".intercalate
    ([(merchantKey D).getD "undefined", request.transactionId, amountDecimal request.amount,
      s!"Transaction {request.transactionId}", "MerchantTest", "test@example.com"] ++
      List.replicate 10 "" ++ [(salt D).getD "undefined"])

def paymentRequest (D : Deployment) (R : Runtime) (request : GatewayChargeRequest)
    : HttpRequest where
  method := "POST"
  url := "https://test.payu.in/_payment"
  headers := [("Content-Type", "application/x-www-form-urlencoded")]
  body := .form [("key", (merchantKey D).getD "undefined"), ("txnid", request.transactionId),
    ("amount", amountDecimal request.amount),
    ("productinfo", s!"Transaction {request.transactionId}"), ("firstname", "MerchantTest"),
    ("email", "test@example.com"), ("phone", "9999999999"),
    ("surl", "https://localhost:3000/webhooks/payu"),
    ("furl", "https://localhost:3000/webhooks/payu"),
    ("hash", R.sha512 (hashSequence D request)), ("service_provider", "payu_paisa")]

def live (D : Deployment) (R : Runtime) (request : GatewayChargeRequest) (startTime : Nat)
    : AdapterProgram GatewayChargeResponse :=
  orNetworkError "Network error on PayU" startTime do
    let response ← fetch (paymentRequest D R request)
    let endTime ← now
    let responseText ← readBody response.text
    if response.status = 200 ∨ response.status = 302 then
      return acceptance (some (some request.transactionId))
        (.obj [("status", .str "initiated"),
          ("htmlSnippet", .str (String.ofList (responseText.toList.take 500))),
          ("statusCode", .num response.status)])
        (endTime - startTime)
    else
      return refusal s!"PayU returned status code {response.status}"
        (.obj [("error", .str responseText)]) (endTime - startTime)

def charge (D : Deployment) (R : Runtime) (request : GatewayChargeRequest)
    : AdapterProgram GatewayChargeResponse :=
  chargeWith (isMockMode D) testSuffixes request (mock request) (live D R request)

end PayUAdapter

namespace UpiAdapter

def isMockMode (D : Deployment) : Bool :=
  keyMissing (RazorpayAdapter.keyId D) ||
    keyStartsWith (RazorpayAdapter.keyId D) "rzp_test_xxx" ||
    RazorpayAdapter.keyId D = some "rzp_test_mock" ||
    RazorpayAdapter.keyId D = some "xxxxxxxxxxxx"

def testSuffixes : List String :=
  ["98", "99", "00", "03"]

def simulation : Simulation where
  timeouts := ["98", "99"]
  failures := ["00", "03"]
  failure := "Simulated UPI Intent App Failure"
  rawFailure := .obj [("error", .obj [("message", .str "UPI payment declined by user.")])]
  delay := 100

def mock (request : GatewayChargeRequest) (startTime : Nat)
    : AdapterProgram GatewayChargeResponse :=
  simulate simulation (Binary64.numberText request.amount) startTime do
    return (s!"upi_mock_{request.transactionId}", .obj [("status", .str "SUCCESS"),
      ("upi_txn_id", .str s!"upi_mock_{request.transactionId}")])

-- `bodyParams`, without `upi_link` for the second request
def bodyParams (request : GatewayChargeRequest) : List (String × Json) :=
  [("amount", .num request.amount), ("currency", .str request.currency),
    ("reference_id", .str request.transactionId),
    ("description", .str s!"UPI payment for transaction {request.transactionId}"),
    ("customer", .obj [("name", .str "UPI Test User"), ("email", .str "test@example.com"),
      ("contact", .str "+919876543210")]),
    ("notify", .obj [("sms", .bool false), ("email", .bool false)])]

def linkRequest (D : Deployment) (R : Runtime) (request : GatewayChargeRequest) (upiLink : Bool)
    : HttpRequest where
  method := "POST"
  url := "https://api.razorpay.com/v1/payment_links/"
  headers := [("Authorization", RazorpayAdapter.authorization D R),
    ("Content-Type", "application/json")]
  body := .json (.obj
    ((if upiLink then [("upi_link", .str "true")] else []) ++ bodyParams request))

def unsupported : String :=
  "UPI Payment Links is not supported in Test Mode"

-- `data.error?.description?.includes(unsupported)`
def isUnsupported (data : Json) : AdapterProgram Bool := do
  let error ← access "error" data
  match Json.field? "description" error with
  | none | some .null => return false
  | some (.str description) => return includes description unsupported
  | some (.arr xs) =>
    return xs.any fun
      | .str s => s = unsupported
      | _ => false
  | some _ => throw (.error "data.error?.description?.includes is not a function")

def live (D : Deployment) (R : Runtime) (request : GatewayChargeRequest) (startTime : Nat)
    : AdapterProgram GatewayChargeResponse :=
  orNetworkError "Network error on Razorpay UPI" startTime do
    let response ← fetch (linkRequest D R request true)
    let data ← readBody response.json
    let retry ←
      if response.status = 200 ∨ response.status = 201 then pure false else isUnsupported data
    if retry then
      let response ← fetch (linkRequest D R request false)
      let data ← readBody response.json
      let endTime ← now
      RazorpayAdapter.outcome D R response.status data
        "Razorpay UPI payment link creation failed" (endTime - startTime)
    else
      let endTime ← now
      RazorpayAdapter.outcome D R response.status data
        "Razorpay UPI payment link creation failed" (endTime - startTime)

def charge (D : Deployment) (R : Runtime) (request : GatewayChargeRequest)
    : AdapterProgram GatewayChargeResponse :=
  chargeWith (isMockMode D) testSuffixes request (mock request) (live D R request)

end UpiAdapter

namespace GatewayAdapter

-- `getAdapter(gateway).charge(request)`
def charge (D : Deployment) (R : Runtime) (gateway : GatewayProvider)
    (request : GatewayChargeRequest) : AdapterProgram GatewayChargeResponse :=
  match gateway with
  | .STRIPE => StripeAdapter.charge D R request
  | .RAZORPAY => RazorpayAdapter.charge D R request
  | .PAYU => PayUAdapter.charge D R request
  | .UPI => UpiAdapter.charge D R request

def isMockMode (D : Deployment) (gateway : GatewayProvider) : Bool :=
  match gateway with
  | .STRIPE => StripeAdapter.isMockMode D
  | .RAZORPAY => RazorpayAdapter.isMockMode D
  | .PAYU => PayUAdapter.isMockMode D
  | .UPI => UpiAdapter.isMockMode D

def testSuffixes (gateway : GatewayProvider) : List String :=
  match gateway with
  | .STRIPE => StripeAdapter.testSuffixes
  | .RAZORPAY => RazorpayAdapter.testSuffixes
  | .PAYU => PayUAdapter.testSuffixes
  | .UPI => UpiAdapter.testSuffixes

-- The adapter does not ask its gateway about an amount that ends like this.
def isTestAmount (gateway : GatewayProvider) (amount : Nat) : Bool :=
  (testSuffixes gateway).any (endsWith (Binary64.numberText amount))

end GatewayAdapter

end PaymentOrchestration
