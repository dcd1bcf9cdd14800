import PaymentOrchestration.Gateways.Adapters
import PaymentOrchestration.Webhooks.WebhooksService

/-!
This module contains `WebhooksController`: the four webhook endpoints with the checks of their
signatures.
-/

namespace PaymentOrchestration

/--
A request to a webhook endpoint. The raw body is missing if no parser has read it.
-/
structure WebhookRequest where
  body : Json
  rawBody : Option String
  header : String → Option String

inductive Ack where
  | received (duplicate : Bool)
  | refused (error : String)
  deriving DecidableEq, Repr

/--
What the checks take from `crypto`, next to SHA-512: the hexadecimal HMAC-SHA256 of a text under a
secret.
-/
structure Signing extends Runtime where
  hmacSha256 : String → String → String

namespace WebhooksController

open GatewayAdapter WebhooksService

-- `a ?? b`
def coalesce (a b : Option Json) : Option Json :=
  match a with
  | none | some .null => b
  | some v => some v

-- An empty header counts as a missing one.
def signatureOf (request : WebhookRequest) (header : String) : Option String :=
  (request.header header).filter (· ≠ "")

def hexDigit (c : Char) : Option Nat :=
  if '0' ≤ c ∧ c ≤ '9' then some (c.toNat - '0'.toNat)
  else if 'a' ≤ c ∧ c ≤ 'f' then some (c.toNat - 'a'.toNat + 10)
  else if 'A' ≤ c ∧ c ≤ 'F' then some (c.toNat - 'A'.toNat + 10)
  else none

-- `Buffer.from(s, 'hex')` stops at the first pair that is no byte.
def bytesOfHex (s : List Char) : List Nat :=
  match s with
  | c :: d :: s =>
    match hexDigit c, hexDigit d with
    | some high, some low => (16 * high + low) :: bytesOfHex s
    | _, _ => []
  | _ => []

-- The buffers have the same length and `timingSafeEqual` finds no difference.
def sameBytes (signature expectedSig : String) : Bool :=
  let sigBuf := bytesOfHex signature.toList
  let expectedSigBuf := bytesOfHex expectedSig.toList
  if sigBuf.length ≠ expectedSigBuf.length then
    false
  else
    sigBuf = expectedSigBuf

-- `part.split('=')[1]`
def valueOf (part : String) : String :=
  ((split part '=')[1]?).getD "undefined"

def verifyStripeSignature (R : Signing) (rawBody signature secret : String) : Bool :=
  let parts := split signature ','
  match parts.find? (startsWith · "t="), parts.find? (startsWith · "v1=") with
  | some timestampPart, some signaturePart =>
    let signedPayload := valueOf timestampPart ++ "." ++ rawBody
    sameBytes (valueOf signaturePart) (R.hmacSha256 secret signedPayload)
  | _, _ => false

def verifyRazorpaySignature (R : Signing) (rawBody signature secret : String) : Bool :=
  sameBytes signature (R.hmacSha256 secret rawBody)

-- `${body.name || ''}`
def fieldText (R : Runtime) (body : Json) (name : String) : String :=
  textOr R (body.field name) ""

def signedFields : List String :=
  ["status", "udf5", "udf4", "udf3", "udf2", "udf1", "email", "firstname", "productinfo", "amount",
    "txnid", "key"]

/--
The parts of the text that PayU signs, in their order.
-/
def signedTexts (R : Runtime) (body : Json) (salt : String) : List String :=
  let texts := salt :: signedFields.map (fieldText R body)
  match Json.orNull (body.field "additionalCharges") with
  | some _ => fieldText R body "additionalCharges" :: texts
  | none => texts

def hashString (R : Runtime) (body : Json) (salt : String) : String :=
  "|".intercalate (signedTexts R body salt)

-- The hash in the body, `''` if there is none. Nothing but a text has a `toLowerCase`.
def receivedHash (body : Json) : Option String :=
  match Json.orNull (body.field "hash") with
  | some (.str s) => some s
  | some _ => none
  | none => some ""

def verifyPayUSignature (R : Runtime) (body : Json) (salt : String) : Bool :=
  match receivedHash body with
  | some receivedHash =>
    let calculatedHash := R.sha512 (hashString R body salt)
    R.toLowerCase calculatedHash = R.toLowerCase receivedHash
  | none => false

-- `!secret || secret.startsWith(prefix) || placeholders.includes(secret)`
def isPlaceholder (secret : Option String) (start : String) (placeholders : List String) : Bool :=
  match secret with
  | some secret => secret = "" || startsWith secret start || placeholders.contains secret
  | none => true

section Endpoints

variable (D : Deployment) (R : Signing)

def stripeSecret : Option String :=
  D.env "STRIPE_WEBHOOK_SECRET"

def razorpaySecret : Option String :=
  D.env "RAZORPAY_KEY_SECRET"

def payuSalt : Option String :=
  D.env "PAYU_SALT"

/--
Whether the endpoint of the gateway skips the check of the signature.
-/
def skipsCheck (gateway : GatewayProvider) : Bool :=
  match gateway with
  | .STRIPE => isPlaceholder (stripeSecret D) "whsec_xxx" []
  | .RAZORPAY | .UPI => isPlaceholder (razorpaySecret D) "rzp_test_xxx" ["xxxxxxxxxxxx"]
  | .PAYU => isPlaceholder (payuSalt D) "payu_test_xxx" ["xxxxxxxxxxxx"]

-- `signature && req.rawBody`
def checkRawBody (request : WebhookRequest) (header : String)
    (verify : String → String → Bool) : Bool :=
  match signatureOf request header, request.rawBody with
  | some signature, some rawBody => verify rawBody signature
  | _, _ => false

/--
The check that the endpoint of the gateway makes with its secret.
-/
def checkSignature (gateway : GatewayProvider) (request : WebhookRequest) (secret : String)
    : Bool :=
  match gateway with
  | .STRIPE =>
    checkRawBody request "stripe-signature" (verifyStripeSignature R · · secret)
  | .RAZORPAY | .UPI =>
    checkRawBody request "x-razorpay-signature" (verifyRazorpaySignature R · · secret)
  | .PAYU =>
    (Json.orNull (request.body.field "hash")).isSome &&
      verifyPayUSignature R.toRuntime request.body secret

def secretOf (gateway : GatewayProvider) : Option String :=
  match gateway with
  | .STRIPE => stripeSecret D
  | .RAZORPAY | .UPI => razorpaySecret D
  | .PAYU => payuSalt D

def verified (gateway : GatewayProvider) (request : WebhookRequest) : Bool :=
  if skipsCheck D gateway then
    true
  else
    checkSignature R gateway request ((secretOf D gateway).getD "")

-- A field of the event, as its column keeps it.
def columnText (length : Nat) (value : Option Json) : String :=
  Exec.clip length (D.bind (value.getD (.str "unknown")))

def stripeEvent (body : Json) (signatureVerified : Bool) : IncomingWebhook where
  gateway := .STRIPE
  eventId := columnText D 255 (coalesce (body.field "id") none)
  eventType := columnText D 100 (coalesce (body.field "type") none)
  payload := body
  signatureVerified := signatureVerified
  convertible := (coalesce (body.field "id") none).all Json.convertible

def razorpayEvent (body : Json) (signatureVerified : Bool) : IncomingWebhook where
  gateway := .RAZORPAY
  eventId := columnText D 255 (coalesce (body.field "id") (coalesce (body.field "event_id") none))
  eventType := columnText D 100 (coalesce (body.field "event") none)
  payload := body
  signatureVerified := signatureVerified
  convertible :=
    (coalesce (body.field "id") (coalesce (body.field "event_id") none)).all Json.convertible

def payuEvent (body : Json) (signatureVerified : Bool) : IncomingWebhook where
  gateway := .PAYU
  eventId := columnText D 255 (coalesce (body.field "mihpayid") (coalesce (body.field "txnid") none))
  eventType := columnText D 100 (coalesce (body.field "status") none)
  payload := body
  signatureVerified := signatureVerified
  convertible :=
    (coalesce (body.field "mihpayid") (coalesce (body.field "txnid") none)).all Json.convertible

def upiEvent (body : Json) (signatureVerified : Bool) : IncomingWebhook :=
  { razorpayEvent D body signatureVerified with gateway := .UPI }

def eventOf (gateway : GatewayProvider) (body : Json) (signatureVerified : Bool)
    : IncomingWebhook :=
  match gateway with
  | .STRIPE => stripeEvent D body signatureVerified
  | .RAZORPAY => razorpayEvent D body signatureVerified
  | .PAYU => payuEvent D body signatureVerified
  | .UPI => upiEvent D body signatureVerified

/--
The body that the four handlers share.
-/
def receive (gateway : GatewayProvider) (request : WebhookRequest) : Program Ack := do
  let verified := verified D R gateway request
  if !verified then
    return .refused "Signature verification failed"
  else
    let duplicate ← ingest (eventOf D gateway request.body verified)
    return .received duplicate

def stripe : WebhookRequest → Program Ack :=
  receive D R .STRIPE

def razorpay : WebhookRequest → Program Ack :=
  receive D R .RAZORPAY

def payu : WebhookRequest → Program Ack :=
  receive D R .PAYU

def upi : WebhookRequest → Program Ack :=
  receive D R .UPI

end Endpoints

end WebhooksController

end PaymentOrchestration
