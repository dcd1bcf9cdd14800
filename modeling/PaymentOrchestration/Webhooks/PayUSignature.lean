import PaymentOrchestration.Webhooks.WebhooksController

/-!
This module is about what the hash of a PayU webhook binds. Neither the id of the payment at PayU nor
the key in the payload are part of the text that is hashed.
-/

namespace PaymentOrchestration

namespace WebhooksController

open GatewayAdapter ReconciliationWorker

/--
The two bodies are about the same event for all that is done with them.
-/
structure SameEvent (D : Deployment) (R : Runtime) (body body' : Json) : Prop where
  status : fieldText R body "status" = fieldText R body' "status"
  amount : fieldText R body "amount" = fieldText R body' "amount"
  txnid : fieldText R body "txnid" = fieldText R body' "txnid"
  eventId : ∀ verified, (payuEvent D body verified).eventId = (payuEvent D body' verified).eventId
  gatewayTxnId : extractGatewayTxnId .PAYU body = extractGatewayTxnId .PAYU body'
  key : Json.orNull (body.field "idempotencyKey") = Json.orNull (body'.field "idempotencyKey")

/--
The fields that the hash does not cover are the same.
-/
def SameUnsigned (body body' : Json) : Prop :=
  ∀ name ∈ ["mihpayid", "txnid", "id", "idempotencyKey"], body.field name = body'.field name

-- The parts of the signed texts contain the same number of separators.
def SameSeparators (R : Runtime) (salt : String) (body body' : Json) : Prop :=
  (signedTexts R body salt).map (separators '|') = (signedTexts R body' salt).map (separators '|')

/--
The check accepts the body, which carries this hash.
-/
structure AcceptsWith (R : Runtime) (salt : String) (body : Json) (hash : String) : Prop where
  carried : body.field "hash" = some (.str hash)
  nonempty : hash ≠ ""
  accepted : verifyPayUSignature R body salt = true

variable {D : Deployment} {R : Runtime} {salt hash : String} {body body' : Json}

theorem AcceptsWith.truthy (h : AcceptsWith R salt body hash) : body.truthy = true := by
  cases body with
  | obj fields => rfl
  | _ => cases h.carried

theorem AcceptsWith.received (h : AcceptsWith R salt body hash)
    : receivedHash body = some hash := by
  simp [receivedHash, h.carried, Json.orNull_str h.nonempty]

theorem AcceptsWith.calculated (h : AcceptsWith R salt body hash)
    : R.toLowerCase (R.sha512 (hashString R body salt)) = R.toLowerCase hash := by
  have haccepted := h.accepted
  unfold verifyPayUSignature at haccepted
  rw [h.received] at haccepted
  exact of_decide_eq_true haccepted

theorem fieldText_eq_of_signedTexts (h : signedTexts R body salt = signedTexts R body' salt)
    {name : String} (hname : name ∈ signedFields)
    : fieldText R body name = fieldText R body' name := by
  have hmap : signedFields.map (fieldText R body) = signedFields.map (fieldText R body') := by
    unfold signedTexts at h
    split at h
    . split at h
      . injection h with _ h
        injection h
      . have := congrArg List.length h
        simp at this
    . split at h
      . have := congrArg List.length h
        simp at this
      . injection h
  exact List.map_inj_left.mp hmap name hname

/--
Two bodies with one hash are about the same event if the separators in their texts are at the same
places and they agree on what is not signed.
-/
theorem sameEvent_of_acceptsWith
    (hinj : Function.Injective (fun s => R.toLowerCase (R.sha512 s)))
    (h : AcceptsWith R salt body hash) (h' : AcceptsWith R salt body' hash)
    (hseparators : SameSeparators R salt body body') (hunsigned : SameUnsigned body body')
    : SameEvent D R body body' := by
  have hstrings : hashString R body salt = hashString R body' salt := by
    apply hinj
    dsimp only
    rw [h.calculated, h'.calculated]
  have htexts : signedTexts R body salt = signedTexts R body' salt :=
    join_inj_of_separators hseparators hstrings
  have hmihpayid := hunsigned "mihpayid" (by simp)
  have htxnid := hunsigned "txnid" (by simp)
  have hid := hunsigned "id" (by simp)
  refine ⟨?_, ?_, ?_, ?_, ?_, ?_⟩
  . exact fieldText_eq_of_signedTexts htexts (by simp [signedFields])
  . exact fieldText_eq_of_signedTexts htexts (by simp [signedFields])
  . exact fieldText_eq_of_signedTexts htexts (by simp [signedFields])
  . intro verified
    simp only [payuEvent, hmihpayid, htxnid]
  . unfold extractGatewayTxnId
    rw [h.truthy, h'.truthy, hmihpayid, htxnid, hid]
  . rw [hunsigned "idempotencyKey" (by simp)]

/--
The same body with other values for the id at PayU and for the key.
-/
def forge (mihpayid key : String) (body : Json) : Json :=
  match body with
  | .obj fields =>
    .obj (("mihpayid", .str mihpayid) :: ("idempotencyKey", .str key) ::
      fields.filter (fun field => field.1 ≠ "mihpayid" ∧ field.1 ≠ "idempotencyKey"))
  | body => body

theorem lookup_filter {p : String → Bool} {name : String} (h : p name = true)
    (fields : List (String × Json))
    : (fields.filter (fun field => p field.1)).lookup name = fields.lookup name := by
  induction fields with
  | nil => rfl
  | cons field fields ih =>
    rw [List.filter_cons]
    split
    . rw [List.lookup_cons, List.lookup_cons, ih]
    . next hfield =>
      have hne : (name == field.1) = false := by
        rw [beq_eq_false_iff_ne]
        rintro rfl
        exact hfield h
      rw [List.lookup_cons, hne, ih]

theorem field_forge {mihpayid key name : String} (hmihpayid : name ≠ "mihpayid")
    (hkey : name ≠ "idempotencyKey") : (forge mihpayid key body).field name = body.field name := by
  cases body with
  | obj fields =>
    have hmihpayid' : (name == "mihpayid") = false := by simpa using hmihpayid
    have hkey' : (name == "idempotencyKey") = false := by simpa using hkey
    simp only [forge, Json.field, List.lookup_cons, hmihpayid', hkey']
    apply lookup_filter (p := fun name => name ≠ "mihpayid" ∧ name ≠ "idempotencyKey")
    simp [hmihpayid, hkey]
  | _ => rfl

-- What is hashed does not change.
theorem signedTexts_forge {mihpayid key : String}
    : signedTexts R (forge mihpayid key body) salt = signedTexts R body salt := by
  have hfields : signedFields.map (fieldText R (forge mihpayid key body)) =
      signedFields.map (fieldText R body) := by
    apply List.map_congr_left
    intro name hname
    unfold fieldText
    rw [field_forge]
    all_goals
      rintro rfl
      revert hname
      decide
  unfold signedTexts
  rw [hfields, field_forge (by decide) (by decide), fieldText, fieldText,
    field_forge (by decide) (by decide)]

theorem AcceptsWith.forge {mihpayid key : String} (h : AcceptsWith R salt body hash)
    : AcceptsWith R salt (forge mihpayid key body) hash := by
  have hfield : (WebhooksController.forge mihpayid key body).field "hash" = some (.str hash) := by
    rw [field_forge (by decide) (by decide)]
    exact h.carried
  refine ⟨hfield, h.nonempty, ?_⟩
  unfold verifyPayUSignature receivedHash hashString
  rw [hfield, signedTexts_forge, ← h.carried]
  exact h.accepted

theorem AcceptsWith.eventId_forge {mihpayid key : String} {verified : Bool}
    (h : AcceptsWith R salt body hash)
    : (payuEvent D (WebhooksController.forge mihpayid key body) verified).eventId =
        Exec.clip 255 mihpayid := by
  cases body with
  | obj fields => rfl
  | _ => cases h.carried

theorem AcceptsWith.payloadKey_forge {mihpayid key : String} (hkey : key ≠ "")
    (h : AcceptsWith R salt body hash)
    : payloadKey (WebhooksController.forge mihpayid key body) = .str key := by
  cases body with
  | obj fields =>
    simp [payloadKey, WebhooksController.forge, Json.field, List.lookup_cons,
      Json.orNull_str hkey]
  | _ => cases h.carried

/--
Whoever has seen one signed body can make others of it that are accepted with the same hash, are
recorded as new events and act on whichever payment they name. A body is only told apart from those
that agree with it on the fields that the hash leaves out.
-/
theorem signature_binds (hinj : Function.Injective (fun s => R.toLowerCase (R.sha512 s)))
    (h : AcceptsWith R salt body hash)
    : (∀ key, key ≠ "" → ∃ forged, AcceptsWith R salt forged hash ∧
          ¬SameEvent D R body forged ∧ payloadKey forged = .str key) ∧
        ∀ body', AcceptsWith R salt body' hash → SameSeparators R salt body body' →
          SameUnsigned body body' → SameEvent D R body body' := by
  refine ⟨?_, fun body' => sameEvent_of_acceptsWith hinj h⟩
  intro key hkey
  let mihpayid := if (payuEvent D body true).eventId = "0" then "1" else "0"
  refine ⟨forge mihpayid key body, h.forge, ?_, h.payloadKey_forge hkey⟩
  intro hsame
  have heventId := hsame.eventId true
  rw [h.eventId_forge] at heventId
  dsimp only [mihpayid] at heventId
  split at heventId
  . next hzero =>
    rw [hzero] at heventId
    exact absurd heventId (by decide)
  . next hzero => exact hzero (heventId.trans (by decide))

def sampleFields : List (String × Json) :=
  [("key", .str "gtKFFx"), ("txnid", .str "txn-1"), ("amount", .str "10.15"),
    ("productinfo", .str "Transaction txn-1"), ("firstname", .str "MerchantTest"),
    ("email", .str "test@example.com"), ("status", .str "success"), ("mihpayid", .str "403993715")]

def sampleText : String :=
  "Qx83hs|success||||||test@example.com|MerchantTest|Transaction txn-1|10.15|txn-1|gtKFFx"

def sampleHash : String :=
  "711c68056c629ed7dbeccd9624c6facda12f8d65a03876d04e95b3bbec74c6e9" ++
    "30214501404fc42177b3ab714764d5dce8f750d71f894b84c3f77831ce6e937e"

/--
A runtime that hashes the sample as SHA-512 does. Its other hashes are no hexadecimal texts.
-/
def sampleRuntime : Runtime where
  base64 := id
  sha512 := fun s => if s = sampleText then sampleHash else "z" ++ s
  toLowerCase := id
  toText := fun _ => ""

-- No two texts have the same hash if the one of `text` is not among those of the others.
theorem hash_injective (text : String) {hash : String} (hne : ∀ s, hash ≠ "z" ++ s)
    : Function.Injective (fun s => if s = text then hash else "z" ++ s) := by
  intro s t h
  dsimp only at h
  split at h
  . next hs =>
    split at h
    . next ht => rw [hs, ht]
    . exact absurd h (hne t)
  . split at h
    . exact absurd h.symm (hne s)
    . exact (String.append_right_inj "z").mp h

theorem head?_sampleHash : sampleHash.toList.head? = some '7' := by
  decide +kernel

theorem sampleRuntime_injective
    : Function.Injective (fun s => sampleRuntime.toLowerCase (sampleRuntime.sha512 s)) := by
  have hne : ∀ s, sampleHash ≠ "z" ++ s := by
    intro s h
    have hhead := head?_sampleHash
    rw [h, String.toList_append] at hhead
    simp at hhead
  exact hash_injective sampleText hne

def sampleBody : Json :=
  .obj (("hash", .str sampleHash) :: sampleFields)

theorem sampleBody_accepted : AcceptsWith sampleRuntime "Qx83hs" sampleBody sampleHash := by
  refine ⟨rfl, by decide +kernel, ?_⟩
  decide +kernel

theorem signature_binds_sample
    : (∀ key, key ≠ "" → ∃ forged, AcceptsWith sampleRuntime "Qx83hs" forged sampleHash ∧
          ¬SameEvent ⟨fun _ => none, fun _ _ _ => 0, fun _ => "", fun _ => true⟩ sampleRuntime sampleBody forged ∧
          payloadKey forged = .str key) ∧
        ∀ body', AcceptsWith sampleRuntime "Qx83hs" body' sampleHash →
          SameSeparators sampleRuntime "Qx83hs" sampleBody body' →
          SameUnsigned sampleBody body' →
          SameEvent ⟨fun _ => none, fun _ _ _ => 0, fun _ => "", fun _ => true⟩ sampleRuntime sampleBody body' := by
  exact signature_binds sampleRuntime_injective sampleBody_accepted

/--
The sample with another id at PayU and a key. It is accepted, recorded as a new event and looked up
under the key.
-/
theorem signature_reused
    : ∃ forged, AcceptsWith sampleRuntime "Qx83hs" forged sampleHash ∧
        ¬SameEvent ⟨fun _ => none, fun _ _ _ => 0, fun _ => "", fun _ => true⟩ sampleRuntime sampleBody forged := by
  refine ⟨forge "403993716" "order-8" sampleBody, sampleBody_accepted.forge, fun hsame => ?_⟩
  have := hsame.eventId true
  revert this
  decide +kernel

end WebhooksController

end PaymentOrchestration
