import PaymentOrchestration.Webhooks.WebhooksController

/-!
This module is about the header that Stripe signs its webhooks with. It carries one signature for
every active secret, and only the first one is looked at. Of the timestamp only the part before its
first `=` is.
-/

namespace PaymentOrchestration

-- A text up to its first `=`.
def cut (s : String) : String :=
  ((split s '=')[0]?).getD ""

theorem cut_of_plain {s : String} (h : '=' ∉ s.toList) : cut s = s := by
  unfold cut split
  rw [List.splitOn_eq_singleton h]
  exact String.ofList_toList

/--
An entry `key=value` of the header.
-/
structure HeaderEntry where
  key : String
  value : String
  key_plain : ',' ∉ key.toList ∧ '=' ∉ key.toList
  value_plain : ',' ∉ value.toList

def HeaderEntry.text (entry : HeaderEntry) : String :=
  entry.key ++ "=" ++ entry.value

/--
A header with one timestamp and any number of signatures, in any order.
-/
structure StripeHeader where
  entries : List HeaderEntry
  timestamp : String
  timestamps : (entries.filter (·.key = "t")).map (·.value) = [timestamp]
  hexadecimal : ∀ entry ∈ entries, entry.key = "v1" →
    ∀ c ∈ entry.value.toList, (WebhooksController.hexDigit c).isSome = true

namespace StripeHeader

def text (header : StripeHeader) : String :=
  ",".intercalate (header.entries.map (·.text))

/--
The values of the `v1` entries.
-/
def signatures (header : StripeHeader) : List String :=
  (header.entries.filter (·.key = "v1")).map (·.value)

open WebhooksController

/--
The signature decodes to the HMAC of the timestamp and the body.
-/
def Signs (R : Signing) (timestamp rawBody secret signature : String) : Prop :=
  bytesOfHex signature.toList =
    bytesOfHex (R.hmacSha256 secret (timestamp ++ "." ++ rawBody)).toList

def Genuine (header : StripeHeader) (R : Signing) (rawBody secret signature : String) : Prop :=
  Signs R header.timestamp rawBody secret signature

/--
The first signature is one for the timestamp that the check sees.
-/
def FirstSigns (header : StripeHeader) (R : Signing) (rawBody secret : String) : Prop :=
  ∃ first, header.signatures.head? = some first ∧
    Signs R (cut header.timestamp) rawBody secret first

end StripeHeader

variable {header : StripeHeader} {entry : HeaderEntry} {key : String}

theorem HeaderEntry.text_plain (entry : HeaderEntry) : ',' ∉ entry.text.toList := by
  simp [text, entry.key_plain.left, entry.value_plain]

theorem HeaderEntry.startsWith_text (hkey : '=' ∉ key.toList)
    : startsWith entry.text (key ++ "=") = decide (entry.key = key) := by
  rw [Bool.eq_iff_iff, decide_eq_true_iff]
  exact startsWith_pair_iff entry.key_plain.right hkey

namespace WebhooksController

-- What stands behind a second `=` is left out.
theorem valueOf_text (entry : HeaderEntry) : valueOf entry.text = cut entry.value := by
  have htext : entry.text.toList = entry.key.toList ++ '=' :: entry.value.toList := by
    simp [HeaderEntry.text]
  have hsome : 0 < (entry.value.toList.splitOn '=').length := by
    exact List.length_pos_of_ne_nil (List.splitOn_ne_nil '=' _)
  unfold valueOf cut split
  rw [htext, List.splitOn_append_cons_self_of_not_mem entry.key_plain.right]
  simp [List.getElem?_eq_getElem hsome]

theorem find?_parts (key : String) (hentries : header.entries ≠ []) (hkey : '=' ∉ key.toList)
    : (split header.text ',').find? (startsWith · (key ++ "=")) =
        (header.entries.find? (·.key = key)).map (·.text) := by
  have hsplit : split header.text ',' = header.entries.map (·.text) := by
    apply split_join
    . simpa using hentries
    . simp [HeaderEntry.text_plain]
  rw [hsplit, List.find?_map]
  congr 2
  funext entry
  exact HeaderEntry.startsWith_text hkey

theorem sameBytes_iff {signature expectedSig : String}
    : sameBytes signature expectedSig = true ↔
        bytesOfHex signature.toList = bytesOfHex expectedSig.toList := by
  unfold sameBytes
  dsimp only
  split
  . next hlength =>
    constructor
    . intro h
      cases h
    . intro h
      exact absurd (congrArg List.length h) hlength
  . exact decide_eq_true_iff

theorem find?_timestamp (header : StripeHeader)
    : ∃ entry, header.entries.find? (·.key = "t") = some entry ∧ entry.value = header.timestamp := by
  have hhead := congrArg List.head? header.timestamps
  rw [List.head?_map, List.head?_filter, List.head?_cons, Option.map_eq_some_iff] at hhead
  exact hhead

theorem head?_signatures (header : StripeHeader)
    : header.signatures.head? = (header.entries.find? (·.key = "v1")).map (·.value) := by
  unfold StripeHeader.signatures
  rw [List.head?_map, List.head?_filter]

theorem not_hexDigit_eq : hexDigit '=' = none := by
  decide

/--
The check looks at the first signature of the header and at the start of the timestamp.
-/
theorem verify_iff {R : Signing} {rawBody secret : String}
    : verifyStripeSignature R rawBody header.text secret = true ↔
        header.FirstSigns R rawBody secret := by
  rcases find?_timestamp header with ⟨t, ht, htimestamp⟩
  have hentries : header.entries ≠ [] := by
    intro h
    rw [h] at ht
    cases ht
  have htparts := find?_parts "t" hentries (by decide)
  have hvparts := find?_parts "v1" hentries (by decide)
  rw [ht, Option.map_some] at htparts
  unfold verifyStripeSignature StripeHeader.FirstSigns
  dsimp only
  rw [show "t=" = "t" ++ "=" from rfl, show "v1=" = "v1" ++ "=" from rfl, htparts, hvparts,
    head?_signatures]
  cases hv : header.entries.find? (·.key = "v1") with
  | none => simp
  | some v =>
    have hplain : '=' ∉ v.value.toList := by
      intro hmem
      have hkey : v.key = "v1" := by
        simpa using List.find?_some hv
      have hhex := header.hexadecimal v (List.mem_of_find?_eq_some hv) hkey '=' hmem
      rw [not_hexDigit_eq] at hhex
      cases hhex
    rw [Option.map_some]
    dsimp only
    rw [sameBytes_iff, valueOf_text, valueOf_text, cut_of_plain hplain, htimestamp]
    simp [StripeHeader.Signs]

/--
The check accepts just the headers with a genuine signature if and only if a genuine signature is not
behind one that is not, and a timestamp with a `=` does not matter: what is signed for its start is
signed for all of it.
-/
theorem accepts_genuine_iff (R : Signing) (header : StripeHeader) (rawBody secret : String)
    : (verifyStripeSignature R rawBody header.text secret = true ↔
          ∃ signature ∈ header.signatures, header.Genuine R rawBody secret signature) ↔
        (∀ signature ∈ header.signatures, header.Genuine R rawBody secret signature →
          header.FirstSigns R rawBody secret) ∧
        ('=' ∈ header.timestamp.toList → header.FirstSigns R rawBody secret →
          ∃ signature ∈ header.signatures, header.Genuine R rawBody secret signature) := by
  rw [verify_iff]
  constructor
  . intro h
    constructor
    . intro signature hmem hgenuine
      exact h.mpr ⟨signature, hmem, hgenuine⟩
    . intro _ hfirst
      exact h.mp hfirst
  . rintro ⟨hfound, hsigned⟩
    constructor
    . intro hfirst
      by_cases hplain : '=' ∈ header.timestamp.toList
      . exact hsigned hplain hfirst
      . rcases hfirst with ⟨first, hhead, hsigns⟩
        rw [cut_of_plain hplain] at hsigns
        exact ⟨first, List.mem_of_mem_head? hhead, hsigns⟩
    . rintro ⟨signature, hmem, hgenuine⟩
      exact hfound signature hmem hgenuine

/--
A header during the change of a secret: the signature under the old one comes first.
-/
def rolledHeader : StripeHeader where
  entries := [⟨"t", "1700000000", by decide, by decide⟩,
    ⟨"v1", "d0ac480ca99882438727ffa81b8b520fe602ef1d3f00915af6a032cfa30bd0e1", by decide, by decide⟩,
    ⟨"v1", "921af8a0ea0ec7187a7b1bf1f564ebb0a5a24d7178f99d5545a5905a76c05898", by decide, by decide⟩]
  timestamp := "1700000000"
  timestamps := by decide
  hexadecimal := by
    intro entry hentry hkey
    rw [← List.all_eq_true]
    revert entry
    decide

def rolledBody : String :=
  "\x7b\"id\":\"evt_1\"\x7d"

/--
HMAC-SHA256 of the sample under the new secret; its other values do not matter.
-/
def rolledSigning : Signing where
  base64 := id
  sha512 := id
  toLowerCase := id
  toText := fun _ => ""
  hmacSha256 := fun secret text =>
    if secret = "whsec_9fK2" ∧ text = "1700000000." ++ rolledBody then
      "921af8a0ea0ec7187a7b1bf1f564ebb0a5a24d7178f99d5545a5905a76c05898"
    else
      ""

/--
The header carries the signature of the body under the secret and is refused.
-/
theorem rolled_refused
    : (∃ signature ∈ rolledHeader.signatures,
          rolledHeader.Genuine rolledSigning rolledBody "whsec_9fK2" signature) ∧
        verifyStripeSignature rolledSigning rolledBody rolledHeader.text "whsec_9fK2" = false := by
  constructor
  . refine ⟨"921af8a0ea0ec7187a7b1bf1f564ebb0a5a24d7178f99d5545a5905a76c05898", by decide, ?_⟩
    rfl
  . decide +kernel

end WebhooksController

end PaymentOrchestration
