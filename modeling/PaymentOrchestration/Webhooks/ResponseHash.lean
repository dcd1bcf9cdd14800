import PaymentOrchestration.Webhooks.PayUSignature

/-!
This module compares the text that is hashed for a payment at PayU with the one that is hashed for the
answer. PayU hashes the answer as the payment read backwards, with its status behind the salt; the
check leaves the reserved fields out.
-/

namespace PaymentOrchestration

/--
The values that a payment at PayU and the answer to it have in common.
-/
structure PayUValues where
  key : String
  txnid : String
  amount : String
  productinfo : String
  firstname : String
  email : String
  udf1 : String
  udf2 : String
  udf3 : String
  udf4 : String
  udf5 : String

namespace PayUValues

/--
The fields that are hashed for a payment. Five of them are reserved.
-/
def requestFields (values : PayUValues) (salt : String) : List String :=
  [values.key, values.txnid, values.amount, values.productinfo, values.firstname, values.email,
    values.udf1, values.udf2, values.udf3, values.udf4, values.udf5] ++
    List.replicate 5 "" ++ [salt]

/--
The fields of a payment backwards, with the status behind the salt.
-/
def responseFields (values : PayUValues) (salt status : String) : List String :=
  (values.requestFields salt).reverse.insertIdx 1 status

def responseText (values : PayUValues) (salt status : String) : String :=
  "|".intercalate (values.responseFields salt status)

end PayUValues

namespace PayUAdapter

def requestValues (D : Deployment) (request : GatewayChargeRequest) : PayUValues where
  key := (merchantKey D).getD "undefined"
  txnid := request.transactionId
  amount := amountDecimal request.amount
  productinfo := s!"Transaction {request.transactionId}"
  firstname := "MerchantTest"
  email := "test@example.com"
  udf1 := ""
  udf2 := ""
  udf3 := ""
  udf4 := ""
  udf5 := ""

theorem hashSequence_eq (D : Deployment) (request : GatewayChargeRequest)
    : hashSequence D request =
        "|".intercalate ((requestValues D request).requestFields ((salt D).getD "undefined")) := by
  rfl

end PayUAdapter

namespace WebhooksController

open GatewayAdapter

/--
The answer tells these values and this status, without additional charges.
-/
structure Tells (R : Runtime) (body : Json) (values : PayUValues) (status : String) : Prop where
  key : fieldText R body "key" = values.key
  txnid : fieldText R body "txnid" = values.txnid
  amount : fieldText R body "amount" = values.amount
  productinfo : fieldText R body "productinfo" = values.productinfo
  firstname : fieldText R body "firstname" = values.firstname
  email : fieldText R body "email" = values.email
  udf1 : fieldText R body "udf1" = values.udf1
  udf2 : fieldText R body "udf2" = values.udf2
  udf3 : fieldText R body "udf3" = values.udf3
  udf4 : fieldText R body "udf4" = values.udf4
  udf5 : fieldText R body "udf5" = values.udf5
  status : fieldText R body "status" = status
  additionalCharges : Json.orNull (body.field "additionalCharges") = none

variable {R : Runtime} {body : Json} {values : PayUValues} {salt status : String}

theorem Tells.signedTexts_eq (h : Tells R body values status)
    : signedTexts R body salt =
        [salt, status, values.udf5, values.udf4, values.udf3, values.udf2, values.udf1,
          values.email, values.firstname, values.productinfo, values.amount, values.txnid,
          values.key] := by
  unfold signedTexts signedFields
  rw [h.additionalCharges]
  simp only [List.map_cons, List.map_nil, h.key, h.txnid, h.amount, h.productinfo, h.firstname,
    h.email, h.udf1, h.udf2, h.udf3, h.udf4, h.udf5, h.status]

theorem responseFields_eq
    : values.responseFields salt status =
        salt :: status :: (List.replicate 5 "" ++ [values.udf5, values.udf4, values.udf3,
          values.udf2, values.udf1, values.email, values.firstname, values.productinfo,
          values.amount, values.txnid, values.key]) := by
  rfl

-- Each of the reserved fields comes with a separator.
theorem Tells.separators_responseText (salt : String) (h : Tells R body values status)
    : separators '|' (values.responseText salt status) =
        separators '|' (hashString R body salt) + 5 := by
  have hresponse : separators '|' (values.responseText salt status) + 1 = _ :=
    separators_join (by simp [responseFields_eq])
  have hcode : separators '|' (hashString R body salt) + 1 = _ :=
    separators_join (by simp [h.signedTexts_eq])
  have hempty : separators '|' "" = 0 := by rfl
  have hsum : ((values.responseFields salt status).map (separators '|')).sum +
      (values.responseFields salt status).length =
      ((signedTexts R body salt).map (separators '|')).sum + (signedTexts R body salt).length + 5 := by
    rw [responseFields_eq, h.signedTexts_eq]
    simp [hempty]
  omega

theorem Tells.hashString_ne (h : Tells R body values status)
    : hashString R body salt ≠ values.responseText salt status := by
  intro heq
  have hseparators := h.separators_responseText salt
  rw [heq] at hseparators
  omega

theorem receivedHash_str {hash : String} (h : body.field "hash" = some (.str hash))
    : receivedHash body = some hash := by
  unfold receivedHash
  rw [h]
  by_cases hempty : hash = ""
  . rw [hempty]
    rfl
  . rw [Json.orNull_str hempty]

/--
What the check hashes is never what PayU hashes, and so it takes no answer that PayU has signed.
-/
theorem genuine_rejected (hinj : Function.Injective (fun s => R.toLowerCase (R.sha512 s)))
    (h : Tells R body values status)
    : hashString R body salt ≠ values.responseText salt status ∧
        ∀ hash, body.field "hash" = some (.str hash) →
          R.toLowerCase hash = R.toLowerCase (R.sha512 (values.responseText salt status)) →
          verifyPayUSignature R body salt = false := by
  refine ⟨h.hashString_ne, fun hash hhash hgenuine => ?_⟩
  unfold verifyPayUSignature
  rw [receivedHash_str hhash]
  dsimp only
  rw [decide_eq_false_iff_not, hgenuine]
  intro hsame
  exact h.hashString_ne (hinj hsame)

/--
The values of a payment that PayU has answered.
-/
def sampleValues : PayUValues where
  key := "gtKFFx"
  txnid := "txn-1"
  amount := "10.15"
  productinfo := "Transaction txn-1"
  firstname := "MerchantTest"
  email := "test@example.com"
  udf1 := ""
  udf2 := ""
  udf3 := ""
  udf4 := ""
  udf5 := ""

def genuineHash : String :=
  "519d70b4fbb13fb177a7f6539a40f16bef82319eef4ceedc65a58c6acb4130c1" ++
    "5bd4bd94fd29b3795889cd0c022859eb5c30de7581d79757c4ec59a7da1046a7"

def genuineBody : Json :=
  .obj (("hash", .str genuineHash) :: sampleFields)

/--
A runtime that hashes both texts of the sample as SHA-512 does.
-/
def genuineRuntime : Runtime where
  base64 := id
  sha512 := fun s =>
    if s = sampleValues.responseText "Qx83hs" "success" then genuineHash
    else sampleRuntime.sha512 s
  toLowerCase := id
  toText := fun _ => ""

theorem genuineBody_tells : Tells genuineRuntime genuineBody sampleValues "success" := by
  constructor <;> rfl

theorem genuineRuntime_injective
    : Function.Injective (fun s => genuineRuntime.toLowerCase (genuineRuntime.sha512 s)) := by
  have hne : ∀ s, genuineHash ≠ sampleRuntime.sha512 s := by
    intro s h
    have hhead : genuineHash.toList.head? = some '5' := by decide +kernel
    rw [h] at hhead
    unfold sampleRuntime at hhead
    dsimp only at hhead
    split at hhead
    . rw [head?_sampleHash] at hhead
      cases hhead
    . rw [String.toList_append] at hhead
      simp at hhead
  intro s t h
  dsimp only [genuineRuntime, id] at h
  split at h
  . next hs =>
    split at h
    . next ht => rw [hs, ht]
    . exact absurd h (hne t)
  . split at h
    . exact absurd h.symm (hne s)
    . exact sampleRuntime_injective h

theorem genuine_rejected_sample
    : hashString genuineRuntime genuineBody "Qx83hs" ≠
          sampleValues.responseText "Qx83hs" "success" ∧
        ∀ hash, genuineBody.field "hash" = some (.str hash) →
          genuineRuntime.toLowerCase hash =
            genuineRuntime.toLowerCase
              (genuineRuntime.sha512 (sampleValues.responseText "Qx83hs" "success")) →
          verifyPayUSignature genuineRuntime genuineBody "Qx83hs" = false := by
  exact genuine_rejected genuineRuntime_injective genuineBody_tells

/--
An answer with the hash that PayU computes is refused.
-/
theorem genuine_hash_refused
    : Tells genuineRuntime genuineBody sampleValues "success" ∧
        genuineBody.field "hash" =
          some (.str (genuineRuntime.sha512 (sampleValues.responseText "Qx83hs" "success"))) ∧
        hashString genuineRuntime genuineBody "Qx83hs" ≠
          sampleValues.responseText "Qx83hs" "success" ∧
        verifyPayUSignature genuineRuntime genuineBody "Qx83hs" = false := by
  refine ⟨genuineBody_tells, ?_, ?_, ?_⟩
  . rfl
  . decide +kernel
  . decide +kernel

end WebhooksController

end PaymentOrchestration
