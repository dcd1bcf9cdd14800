import PaymentOrchestration.Transactions.Failover
import PaymentOrchestration.Transactions.Turbulence

/-!
This module shows when a gateway's answer aborts the failover of `create`: what it says ends up in
columns that do not take every value, and a value they do not take undoes the transition it is
written with.
-/

namespace PaymentOrchestration

open Machine StateMachine TransactionsService RoutingEngine

/--
The columns take what the walk along the ranking has to write.
-/
def AnswersFit (D : Deployment) (outcome : GatewayProvider → GatewayOutcome)
    (ranked : List GatewayProvider) : Prop :=
  match ranked with
  | [] => True
  | g :: rest =>
    if (outcome g).succeeds then
      (outcome g).logs D "Payment charge succeeded" = true ∧
        ∀ id, (outcome g).gatewayTxnId = some (some id) → Exec.varchar 255 id = true
    else if rest = [] then
      (outcome g).logs D s!"All attempts failed. Last error: {(outcome g).error}" = true
    else
      (outcome g).logs D s!"Attempt failed on {g}: {(outcome g).error}" = true ∧
        AnswersFit D outcome rest

variable {D : Deployment} {i : Pid} {outcome : GatewayProvider → GatewayOutcome} {a : Account}
  {w w' : World} {g last : GatewayProvider} {dto : CreateTransactionDto} {row : Transaction}
  {retried rest fallbackList : List GatewayProvider} {chargeResult : GatewayChargeResponse}

theorem answersFit_of_failure {next : GatewayProvider} (h : (outcome g).succeeds = false)
    : AnswersFit D outcome (g :: next :: rest) ↔
        (outcome g).logs D s!"Attempt failed on {g}: {(outcome g).error}" = true ∧
          AnswersFit D outcome (next :: rest) := by
  rw [AnswersFit, if_neg (by simp [h]), if_neg (by simp)]

/--
The row of a payment whose charge at the gateway has been made and whose transition has been undone.
-/
def Transaction.stranded (row : Transaction) (retried : List GatewayProvider)
    (last : GatewayProvider) : Transaction :=
  { row with
    currentState := .PROCESSING
    selectedGateway := some last
    attemptCount := row.attemptCount + (retried.length + 1) }

def Account.stranded (a : Account) (i : Pid) (dto : CreateTransactionDto) (row : Transaction)
    (retried : List GatewayProvider) (last : GatewayProvider) : Account :=
  { a with
    payment := some (row.stranded retried last)
    -- The last entry is the one that is missing.
    trail := a.trail ++ (loopTrail row.id row.currentState retried last .PROCESSING).dropLast
    calls := a.calls ++ (retried ++ [last]).map (fun g => (i, g, chargeRequest dto row.id g)) }

/--
How the loop ends: with the row of the payment, or with the error of the database.
-/
inductive LoopEnds (D : Deployment) (outcome : GatewayProvider → GatewayOutcome) (i : Pid)
    (dto : CreateTransactionDto) (a : Account) (row : Transaction) (ranked : List GatewayProvider)
    : Except Err Transaction → World → Prop where
  | concluded {retried : List GatewayProvider} {last : GatewayProvider} {w : World}
      (hfits : AnswersFit D outcome ranked) (hverdict : Verdict outcome ranked retried last)
      (h : (a.concluded i dto row retried last (outcome last)).Holds i none w)
    : LoopEnds D outcome i dto a row ranked (.ok (row.concluded retried last (outcome last))) w
  | stranded {retried rest : List GatewayProvider} {last : GatewayProvider} {w : World}
      (hlong : ¬AnswersFit D outcome ranked) (hranked : ranked = retried ++ last :: rest)
      (hfailed : ∀ g ∈ retried, (outcome g).succeeds = false ∧
        (outcome g).logs D s!"Attempt failed on {g}: {(outcome g).error}" = true)
      (h : (a.stranded i dto row retried last).Holds i none w)
    : LoopEnds D outcome i dto a row ranked (.error Exec.dataException) w

theorem loopTrail_ne_nil {id : String} {fromState toState : TransactionState}
    : loopTrail id fromState retried last toState ≠ [] := by
  cases retried <;> simp [loopTrail, roundTrail]

theorem Account.Holds.attempted (h : (a.attempted i dto row g).Holds i none w)
    : (a.stranded i dto row [] g).Holds i none w := by
  have heq : ({ a.attempted i dto row g with events := [] } : Account) =
      { a.stranded i dto row [] g with events := [] } := by
    simp [Account.stranded, Account.attempted, Account.moved, Account.charges, Transaction.stranded,
      AuditLog.entry, auditRow, loopTrail, roundTrail, transitioned, mutate, routedMetadata,
      processingMetadata]
  unfold Holds at h ⊢
  rw [← heq]
  exact h

theorem stranded_account
    : (a.afterRetry i dto row g chargeResult).stranded i dto
          (transitioned (row.processing g) .RETRY_PENDING (retryMetadata g chargeResult)) retried
          last =
        { a.stranded i dto row (g :: retried) last with
          events := (a.afterRetry i dto row g chargeResult).events } := by
  have htrail : ∀ id state, (loopTrail id state (g :: retried) last .PROCESSING).dropLast =
      roundTrail id state g .RETRY_PENDING ++
        (loopTrail id .RETRY_PENDING retried last .PROCESSING).dropLast := by
    intro id state
    rw [loopTrail, List.dropLast_append_of_ne_nil loopTrail_ne_nil]
  unfold Account.stranded
  rw [htrail]
  simp [Account.afterRetry, Account.moved, Account.notes, Account.attempted, Account.charges,
    AuditLog.entry, auditRow, roundTrail, transitioned, Transaction.processing,
    Transaction.stranded, mutate, routedMetadata, processingMetadata, retryMetadata, Nat.add_assoc,
    Nat.add_comm 1]

/--
The rounds after a failed one.
-/
theorem LoopEnds.retry {next : GatewayProvider} {r : Except Err Transaction}
    (hg : (outcome g).succeeds = false)
    (hlogs : (outcome g).logs D s!"Attempt failed on {g}: {(outcome g).error}" = true)
    (h : LoopEnds D outcome i dto (a.afterRetry i dto row g chargeResult)
      (transitioned (row.processing g) .RETRY_PENDING (retryMetadata g chargeResult))
      (next :: rest) r w)
    : LoopEnds D outcome i dto a row (g :: next :: rest) r w := by
  cases h with
  | concluded hfits hverdict h =>
    rw [retried_row]
    apply LoopEnds.concluded _ (hverdict.retry hg)
    . rw [retried_account] at h
      exact h
    . rw [answersFit_of_failure hg]
      exact ⟨hlogs, hfits⟩
  | @stranded retried rest' last _ hlong hranked hfailed h =>
    apply @LoopEnds.stranded _ _ _ _ _ _ _ (g :: retried) rest' last
    . rw [answersFit_of_failure hg]
      exact fun h => hlong h.right
    . rw [hranked, List.cons_append]
    . rw [List.forall_mem_cons]
      exact ⟨⟨hg, hlogs⟩, hfailed⟩
    . rw [stranded_account] at h
      exact h

/-!
A round of the loop.
-/

section Round

variable (h : (a.attempted i dto row g).Holds i none w) (hgives : (outcome g).Gives chargeResult)
  (hfits : Exec.Transaction.fits row = true)

include h hgives hfits

end Round

/--
The call of process `i` is the first one with its key, and no other writer is at work.
-/
structure Undisturbed (D : Deployment) (i : Pid) (dto : CreateTransactionDto) (w : World) : Prop where
  unused : ∀ t ∈ w.ledger.transactions, t.idempotencyKey ≠ dto.idempotencyKey
  vacant : Vacant (redisKey dto.idempotencyKey) i w
  session : w.ledger.sessions i = none
  locks : ∀ id, w.ledger.locks id = none
  unique : UniqueStats w
  configured : ∃ row ∈ w.gatewayStats, considered D row.gateway = true

theorem Undisturbed.holds (h : Undisturbed D i dto w) : (Scene.account (w, [])).Holds i none w := by
  refine ⟨?_, ?_, rfl, h.session, h.locks, rfl, rfl, h.unique, rfl, rfl, ?_⟩
  . simp [Scene.account]
  . intro row hrow
    cases hrow
  . intro row hrow
    cases hrow

/--
The account when the loop begins.
-/
def Account.entered (a : Account) (row : Transaction) (primaryGateway : GatewayProvider) : Account :=
  { a.opened row with trail := a.trail ++ [(creationAudit row primaryGateway).entry] }

inductive CreateEnds (D : Deployment) (outcome : GatewayProvider → GatewayOutcome) (i : Pid)
    (dto : CreateTransactionDto) (a : Account) : Except Err Transaction → World → Prop where
  | refused {w : World} {primaryGateway : GatewayProvider} {fallbackGateways : List GatewayProvider}
      (hunfit : Exec.NewTransaction.fits
        (newTransaction dto primaryGateway fallbackGateways) = false)
      (h : a.Holds i none w)
    : CreateEnds D outcome i dto a (.error Exec.dataException) w
  | entered {r : Except Err Transaction} {w : World} {id : String} {primaryGateway : GatewayProvider}
      {fallbackGateways : List GatewayProvider}
      (hfits : Exec.NewTransaction.fits (newTransaction dto primaryGateway fallbackGateways) = true)
      (h : LoopEnds D outcome i dto
        (a.entered ((newTransaction dto primaryGateway fallbackGateways).row id) primaryGateway)
        ((newTransaction dto primaryGateway fallbackGateways).row id)
        (primaryGateway :: fallbackGateways) r w)
    : CreateEnds D outcome i dto a r w

/--
The exception is thrown again once the lock has been given back.
-/
theorem CreateEnds.del {key : String} {e : Err} (h : CreateEnds D outcome i dto a (.error e) w)
    (hkey : key ≠ ReconciliationWorker.queueName)
    : (enduring D i outcome).Returns (RedisService.del key)
        (fun _ w' => CreateEnds D outcome i dto a (.error e) w') w := by
  generalize hr : Except.error e = r at h
  cases h with
  | refused hunfit h =>
    apply Setting.Meets.mono (returns_aside h (within_del hkey))
    rintro _ w' ⟨n, rfl, _, h'⟩
    exact ⟨n, rfl, .refused hunfit h'⟩
  | entered hfits h =>
    cases h with
    | concluded _ _ _ => cases hr
    | stranded hlong hranked hfailed h =>
      apply Setting.Meets.mono (returns_aside h (within_del hkey))
      rintro _ w' ⟨n, rfl, _, h'⟩
      exact ⟨n, rfl, .entered hfits (.stranded hlong hranked hfailed h')⟩

/--
The ranking that the payment has been created with, as the records tell: the audit row of the
creation names the first gateway and the row of the payment the others.
-/
def Ranked (w w' : World) (ranked : List GatewayProvider) : Prop :=
  ∃ t rest, w'.ledger.transactions = w.ledger.transactions ++ [t] ∧
    t.fallbackGateways = ranked.tail ∧
    w'.ledger.auditLog.map AuditLog.entry =
      w.ledger.auditLog.map AuditLog.entry ++ (t.id, none, .INITIATED, ranked.head?) :: rest

theorem Ranked.unique {ranked ranked' : List GatewayProvider} (h : Ranked w w' ranked)
    (h' : Ranked w w' ranked') : ranked = ranked' := by
  rcases h with ⟨t, rest, ht, htail, htrail⟩
  rcases h' with ⟨t', rest', ht', htail', htrail'⟩
  rw [ht, List.append_cancel_left_eq, List.cons.injEq] at ht'
  rcases ht' with ⟨rfl, _⟩
  rw [htrail, List.append_cancel_left_eq, List.cons.injEq, Prod.mk.injEq, Prod.mk.injEq,
    Prod.mk.injEq] at htrail'
  have hhead := htrail'.left.right.right.right
  rw [htail] at htail'
  cases ranked with
  | nil =>
    cases ranked' with
    | nil => rfl
    | cons g' fb' => cases hhead
  | cons g fb =>
    cases ranked' with
    | nil => cases hhead
    | cons g' fb' =>
      injection hhead with hhead
      rw [hhead, show fb = fb' from htail']

/--
What an account that began without the payment says about the world at the end.
-/
theorem ranked_of_holds {t : Transaction} {ranked : List GatewayProvider} (h : a.Holds i none w') (hothers : a.others = w.ledger.transactions)
    (hpayment : a.payment = some t) (hfallback : t.fallbackGateways = ranked.tail)
    (htrail : ∃ rest, a.trail =
      w.ledger.auditLog.map AuditLog.entry ++ (t.id, none, .INITIATED, ranked.head?) :: rest)
    : Ranked w w' ranked := by
  rcases htrail with ⟨rest, htrail⟩
  refine ⟨t, rest, ?_, hfallback, ?_⟩
  . have htransactions := h.transactions
    simp only [hothers, hpayment] at htransactions
    exact htransactions
  . rw [← htrail]
    exact h.trail

theorem LoopEnds.ranked {r : Except Err Transaction} {fb : List GatewayProvider}
    (hothers : a.others = w.ledger.transactions)
    (htrail : a.trail =
      w.ledger.auditLog.map AuditLog.entry ++ [(row.id, none, .INITIATED, some g)])
    (hfallback : row.fallbackGateways = fb)
    (h : LoopEnds D outcome i dto a row (g :: fb) r w') : Ranked w w' (g :: fb) := by
  cases h with
  | concluded _ _ h =>
    refine ranked_of_holds h hothers rfl hfallback ?_
    simp only [Account.concluded, htrail, List.append_assoc, List.singleton_append]
    exact ⟨_, rfl⟩
  | stranded _ _ _ h =>
    refine ranked_of_holds h hothers rfl hfallback ?_
    simp only [Account.stranded, htrail, List.append_assoc, List.singleton_append]
    exact ⟨_, rfl⟩

namespace Scenario

end Scenario

end PaymentOrchestration
