import PaymentOrchestration.Transactions.AuditReplay
import PaymentOrchestration.Transactions.CreationAudit
import PaymentOrchestration.Transactions.Uncontested

/-!
This module is about the list that `history` answers with: when it tells what has become of a
payment, from its creation on and in order.
-/

namespace PaymentOrchestration

open StateMachine

def auditsOf (id : String) (auditLog : List AuditLog) : List AuditLog :=
  auditLog.filter (·.transactionId = id)

/--
`rows` is an answer of `history(id)`. The order of rows with the same `created_at` is open.
-/
structure TransactionsService.History (id : String) (auditLog rows : List AuditLog) : Prop where
  perm : rows.Perm (auditsOf id auditLog)
  sorted : rows.Pairwise (fun audit audit' => audit.createdAt ≤ audit'.createdAt)

/--
The rows tell how a payment has come from its creation to `state`.
-/
structure Tells (rows : List AuditLog) (state : TransactionState) : Prop where
  starts : ∃ created, rows.head? = some created ∧ created.fromState = none ∧
    created.toState = .INITIATED
  once : (rows.filter (·.fromState = none)).length = 1
  linked : rows.IsChain (fun audit audit' => audit'.fromState = some audit.toState)
  ends : rows.getLast?.map AuditLog.toState = some state

theorem transitionsOf_eq (id : String) (auditLog : List AuditLog)
    : transitionsOf id auditLog = (auditsOf id auditLog).filter (·.fromState.isSome) := by
  unfold transitionsOf auditsOf
  rw [List.filter_filter]
  congr 1
  funext audit
  simp [Bool.and_comm]

theorem linked_of_path {rest : List AuditLog} {audit : AuditLog} {state : TransactionState}
    (hrest : ∀ later ∈ rest, later.fromState.isSome)
    (hpath : EdgePath Valid audit.toState (rest.filterMap AuditLog.edge?) state)
    : (audit :: rest).IsChain (fun audit audit' => audit'.fromState = some audit.toState) ∧
        (audit :: rest).getLast?.map AuditLog.toState = some state := by
  induction rest generalizing audit with
  | nil =>
    refine ⟨.singleton _, ?_⟩
    simpa [EdgePath] using hpath
  | cons later rest ih =>
    rcases Option.isSome_iff_exists.mp (hrest later (by simp)) with ⟨fromState, hfrom⟩
    have hedge : later.edge? = some (fromState, later.toState) := by
      simp [AuditLog.edge?, hfrom]
    rw [List.filterMap_cons_some hedge] at hpath
    rcases hpath with ⟨hstate, _, hpath⟩
    rcases ih (fun later hlater => hrest later (by simp [hlater])) hpath with ⟨hlinked, hends⟩
    refine ⟨.cons_cons (by rw [hfrom, hstate]) hlinked, ?_⟩
    rw [List.getLast?_cons_cons]
    exact hends

/--
The audit rows of a payment: its creation and then transitions, each created after the last.
-/
structure Opened (rows : List AuditLog) : Prop where
  created : ∃ created rest, rows = created :: rest ∧ created.fromState = none ∧
    created.toState = .INITIATED ∧ ∀ audit ∈ rest, audit.fromState.isSome
  sorted : rows.Pairwise (fun audit audit' => audit.createdAt < audit'.createdAt)

namespace Opened

variable {rows : List AuditLog}

theorem creation {audit : AuditLog} (hfrom : audit.fromState = none)
    (hto : audit.toState = .INITIATED) : Opened [audit] := by
  refine ⟨⟨audit, [], rfl, hfrom, hto, by simp⟩, List.pairwise_singleton _ _⟩

theorem snoc (h : Opened rows) {audit : AuditLog} (hfrom : audit.fromState.isSome)
    (hlast : ∀ earlier ∈ rows, earlier.createdAt < audit.createdAt)
    : Opened (rows ++ [audit]) := by
  rcases h.created with ⟨created, rest, hrows, hnone, hto, hrest⟩
  refine ⟨⟨created, rest ++ [audit], by rw [hrows, List.cons_append], hnone, hto, ?_⟩, ?_⟩
  . intro later hlater
    rcases List.mem_append.mp hlater with hlater | hlater
    . exact hrest later hlater
    . rw [List.mem_singleton.mp hlater]
      exact hfrom
  . rw [List.pairwise_append]
    refine ⟨h.sorted, List.pairwise_singleton _ _, ?_⟩
    intro earlier hearlier later hlater
    rw [List.mem_singleton.mp hlater]
    exact hlast earlier hearlier

/--
There is only one way to order the rows by time.
-/
theorem eq_of_history (h : Opened rows) {id : String} {auditLog rows' : List AuditLog}
    (hlog : rows = auditsOf id auditLog)
    (hrows : TransactionsService.History id auditLog rows') : rows' = rows := by
  have hperm : rows'.Perm rows := by
    rw [hlog]
    exact hrows.perm
  have hsorted : rows.Pairwise (fun audit audit' => audit.createdAt ≤ audit'.createdAt) := by
    apply h.sorted.imp
    intro audit audit' hlt
    exact Nat.le_of_lt hlt
  apply List.Perm.eq_of_pairwise _ hrows.sorted hsorted hperm
  intro audit audit' haudit haudit' hle hle'
  have hnodup : (rows.map AuditLog.createdAt).Nodup := by
    apply List.pairwise_map.mpr
    apply h.sorted.imp
    intro audit audit' hlt
    exact Nat.ne_of_lt hlt
  exact List.inj_on_of_nodup_map hnodup (hperm.mem_iff.mp haudit) haudit'
    (Nat.le_antisymm hle hle')

end Opened

def Announced (w : World) (id : String) : Prop :=
  ∃ created ∈ w.ledger.auditLog, created.transactionId = id ∧ created.fromState = none

/--
What the database transaction has made is the latest news of a payment that is announced.
-/
def Latest (w : World) (session : Session) : Prop :=
  ∀ audit ∈ session.audits, Announced w audit.transactionId ∧
    ∀ earlier ∈ auditsOf audit.transactionId w.ledger.auditLog,
      earlier.createdAt < session.startedAt

instance (w : World) (id : String) : Decidable (Announced w id) :=
  inferInstanceAs (Decidable (∃ created ∈ _, _ ∧ _))

instance (w : World) (session : Session) : Decidable (Latest w session) :=
  inferInstanceAs (Decidable (∀ audit ∈ _, _ ∧ ∀ earlier ∈ _, _))

/--
No answer to the insert of a payment and no insert of its creation audit is lost, and a transition
is committed by a database transaction that has begun after all earlier ones on the payment.
-/
def Cmd.inOrder (cmd : Cmd) (i : Pid) (o : Oracle) (w : World) : Prop :=
  match cmd with
  | .insertTransaction _ => o.fault ≠ .after
  | .insertAudit _ => o.fault ≠ .before
  | .commit => o.fault = .before ∨ ∀ session, w.ledger.sessions i = some session → Latest w session
  | _ => True

namespace Exec

variable {D : Deployment} {i : Pid} {o : Oracle} {w w' : World}

theorem insertTransaction_of_answered {txn : NewTransaction} {r : Except Err Transaction}
    (ho : o.fault ≠ .after) (h : insertTransaction i txn o w = some (r, w'))
    : (w' = w ∧ ∃ e, r = .error e) ∨
        (o.id ∉ w.ledger.transactions.map (·.id) ∧ r = .ok (txn.row o.id) ∧
          w' = { w with
            ledger := w.ledger.insert (txn.row o.id)
            history := w.history ++ [.inserted i (txn.row o.id)] }) := by
  unfold insertTransaction at h
  split at h
  . cases h
  . next hid =>
    split at h
    . simp only [Option.some.injEq, Prod.mk.injEq] at h
      exact .inl ⟨h.right.symm, _, h.left.symm⟩
    . split at h
      . simp only [Option.some.injEq, Prod.mk.injEq] at h
        exact .inl ⟨h.right.symm, _, h.left.symm⟩
      . cases hfault : o.fault with
        | none =>
          simp only [hfault, statement, Option.some.injEq, Prod.mk.injEq] at h
          exact .inr ⟨hid, h.left.symm, h.right.symm⟩
        | before =>
          simp only [hfault, statement, Option.some.injEq, Prod.mk.injEq] at h
          exact .inl ⟨h.right.symm, _, h.left.symm⟩
        | after => exact absurd hfault ho

theorem insertAudit_of_kept {row : AuditLog} {r : Except Err Unit}
    (hfits : AuditLog.fits D row = true) (ho : o.fault ≠ .before)
    (h : insertAudit D row o w = some (r, w'))
    : w' = { w with ledger := { w.ledger with
        auditLog := w.ledger.auditLog ++ [{ row with createdAt := w.clock }] } } := by
  unfold insertAudit at h
  rw [if_neg (by simp [hfits])] at h
  cases hfault : o.fault with
  | before => exact absurd hfault ho
  | _ =>
    simp only [hfault, statement, Option.some.injEq, Prod.mk.injEq] at h
    exact h.right.symm

theorem commit_session {r : Except Err Unit} (h : commit i o w = some (r, w'))
    : ∃ session, w.ledger.sessions i = some session ∧
        ((o.fault = .before ∧ w' = { w with ledger := w.ledger.release i }) ∨
          (o.fault ≠ .before ∧
            w' = { w with
              ledger := (w.ledger.apply session).release i
              history := w.history ++ session.audits.map (.committed i) })) := by
  unfold commit at h
  split at h
  . cases h
  . next session hsession =>
    refine ⟨session, hsession, ?_⟩
    cases hfault : o.fault with
    | before =>
      simp only [hfault, statement, Option.some.injEq, Prod.mk.injEq] at h
      exact .inl ⟨rfl, h.right.symm⟩
    | _ =>
      simp only [hfault, statement, Option.some.injEq, Prod.mk.injEq] at h
      exact .inr ⟨by simp, h.right.symm⟩

end Exec

namespace System

variable {D : Deployment} {tasks : Pid → Task}

/--
An action under which the audit log stays complete and in order. An instance does not go down
between the two inserts of a payment.
-/
def InOrder (c : System D) (a : (machine D).Act) : Prop :=
  match a with
  | .run i o => ∀ cmd k, c.pool i = .running (.op cmd k) → cmd.inOrder i o c.world
  | .crash inst =>
    ∀ i row, .inserted i row ∈ c.world.history → i.inst = inst → Announced c.world row.id
  | _ => True

/--
The call that has inserted the payment is over.
-/
def Rests (c : System D) (id : String) : Prop :=
  ∀ i row, .inserted i row ∈ c.world.history → row.id = id → (c.pool i).busy = false

/--
A payment without a creation audit is one whose call is about to write it.
-/
structure Noted (tasks : Pid → Task) (c : System D) (d : (machine D).Parties dueProtocol)
    : Prop where
  reachable : c.Reachable D tasks
  dead : ∀ i, c.pool i = .dead → d.state i = none
  due : ∀ i id, d.state i = some id →
    (∃ row, .inserted i row ∈ c.world.history ∧ row.id = id) ∧
      auditsOf id c.world.ledger.auditLog = []
  opened : ∀ id ∈ c.world.ledger.transactions.map (·.id),
    (∃ i, d.state i = some id) ∨ Opened (auditsOf id c.world.ledger.auditLog)

theorem Reachable.auditsOf_eq_nil {c : System D} (h : c.Reachable D tasks) {id : String}
    (hid : id ∉ c.world.ledger.transactions.map (·.id))
    : auditsOf id c.world.ledger.auditLog = [] := by
  rcases h.exists_books with ⟨b, hb, hdescribed⟩
  have haudited := hb.audited
  rw [hdescribed.books] at haudited
  unfold auditsOf
  rw [List.filter_eq_nil_iff]
  intro audit haudit
  rw [decide_eq_true_eq]
  intro heq
  have := haudited.ids audit haudit
  rw [heq] at this
  exact hid this

theorem auditsOf_concat (id : String) (auditLog : List AuditLog) (audit : AuditLog)
    : auditsOf id (auditLog ++ [audit]) =
        auditsOf id auditLog ++ if audit.transactionId = id then [audit] else [] := by
  unfold auditsOf
  rw [List.filter_append, List.filter_singleton]
  by_cases hid : audit.transactionId = id <;> simp [hid]

namespace Noted

variable {c c' : System D} {d d' : (machine D).Parties dueProtocol}

theorem nil_of_announced {w : World} {id : String} (h : Announced w id)
    : auditsOf id w.ledger.auditLog ≠ [] := by
  rcases h with ⟨created, hcreated, hid, _⟩
  apply List.ne_nil_of_mem (a := created)
  simp [auditsOf, hcreated, hid]

/--
Two calls do not have the creation audit of one payment to write.
-/
theorem due_inj (h : Noted tasks c d) {i j : Pid} {id : String} (hi : d.state i = some id)
    (hj : d.state j = some id) : i = j := by
  rcases (h.due i id hi).left with ⟨row, hrow, hid⟩
  rcases (h.due j id hj).left with ⟨row', hrow', hid'⟩
  rcases h.reachable.exists_books with ⟨b, hb, hdescribed⟩
  have hinv := hb.inv
  have htold := hb.told
  have hhistory : b.history = c.world.history := by
    rw [hdescribed.books]
    rfl
  rw [← hhistory] at hrow hrow'
  have hkey : row.idempotencyKey = row'.idempotencyKey := by
    apply hinv.key_eq_of_id (htold.known hrow) (htold.known hrow')
    rw [hid, hid']
  exact (htold.inserted_inj hinv hrow hrow' hkey).left

/--
Nothing is written to the audit log or inserted.
-/
theorem frame (h : Noted tasks c d) (hreachable : c'.Reachable D tasks)
    (hdead : ∀ i, c'.pool i = .dead → d'.state i = none)
    (hstate : ∀ i id, d'.state i = some id → d.state i = some id)
    (hkept : ∀ i id, d.state i = some id → d'.state i = some id)
    (hids : c'.world.ledger.transactions.map (·.id) = c.world.ledger.transactions.map (·.id))
    (hauditLog : c'.world.ledger.auditLog = c.world.ledger.auditLog)
    (hhistory : ∀ event ∈ c.world.history, event ∈ c'.world.history) : Noted tasks c' d' := by
  refine ⟨hreachable, hdead, ?_, ?_⟩
  . intro i id hi
    rcases h.due i id (hstate i id hi) with ⟨⟨row, hrow, hid⟩, hnil⟩
    rw [hauditLog]
    exact ⟨⟨row, hhistory _ hrow, hid⟩, hnil⟩
  . intro id hid
    rw [hids] at hid
    rw [hauditLog]
    rcases h.opened id hid with ⟨i, hi⟩ | hopened
    . exact .inl ⟨i, hkept i id hi⟩
    . exact .inr hopened

variable {i : Pid} {o : Oracle} {w : World}

theorem inserted (h : Noted tasks c d) (hreachable : c'.Reachable D tasks) {row : Transaction}
    (hdead : ∀ i, c'.pool i = .dead → d'.state i = none)
    (hnone : d.state i = none) (hstate : d'.state = Function.update d.state i (some row.id))
    (hid : row.id ∉ c.world.ledger.transactions.map (·.id))
    (hworld : c'.world = { c.world with
      ledger := c.world.ledger.insert row
      history := c.world.history ++ [.inserted i row] }) : Noted tasks c' d' := by
  refine ⟨hreachable, hdead, ?_, ?_⟩
  . intro j id hj
    rw [hstate] at hj
    rw [hworld]
    by_cases heq : j = i
    . subst heq
      rw [Function.update_self, Option.some.injEq] at hj
      subst hj
      exact ⟨⟨row, by simp, rfl⟩, h.reachable.auditsOf_eq_nil hid⟩
    . rw [Function.update_of_ne heq] at hj
      rcases h.due j id hj with ⟨⟨row', hrow', hid'⟩, hnil⟩
      exact ⟨⟨row', by simp [hrow'], hid'⟩, hnil⟩
  . intro id hid'
    rw [hworld] at hid' ⊢
    rw [hstate]
    simp only [Ledger.insert, List.map_append, List.mem_append, List.map_cons, List.map_nil,
      List.mem_singleton] at hid'
    rcases hid' with hid' | hid'
    . rcases h.opened id hid' with ⟨j, hj⟩ | hopened
      . have heq : j ≠ i := by
          intro heq
          rw [heq, hnone] at hj
          cases hj
        exact .inl ⟨j, by rw [Function.update_of_ne heq, hj]⟩
      . exact .inr hopened
    . exact .inl ⟨i, by rw [Function.update_self, hid']⟩

theorem announced (h : Noted tasks c d) (hreachable : c'.Reachable D tasks) {row : Transaction}
    {g : GatewayProvider} {now : Nat} (hdead : ∀ i, c'.pool i = .dead → d'.state i = none)
    (hdue : d.state i = some row.id) (hstate : d'.state = Function.update d.state i none)
    (hworld : c'.world = { c.world with ledger := { c.world.ledger with
      auditLog := c.world.ledger.auditLog ++
        [{ TransactionsService.creationAudit row g with createdAt := now }] } })
    : Noted tasks c' d' := by
  refine ⟨hreachable, hdead, ?_, ?_⟩
  . intro j id hj
    rw [hstate] at hj
    have heq : j ≠ i := by
      intro heq
      rw [heq, Function.update_self] at hj
      cases hj
    rw [Function.update_of_ne heq] at hj
    rcases h.due j id hj with ⟨hrow', hnil⟩
    rw [hworld]
    refine ⟨hrow', ?_⟩
    have hne : row.id ≠ id := by
      intro hid
      rw [← hid] at hj
      exact heq (h.due_inj hj hdue)
    dsimp only
    rw [auditsOf_concat, hnil, if_neg (by exact hne), List.append_nil]
  . intro id hid
    rw [hworld] at hid ⊢
    dsimp only
    rw [auditsOf_concat, hstate]
    by_cases heq : row.id = id
    . rw [if_pos (by exact heq), ← heq, (h.due i row.id hdue).right, List.nil_append]
      exact .inr (.creation rfl rfl)
    . rw [if_neg (by exact heq), List.append_nil]
      rcases h.opened id hid with ⟨j, hj⟩ | hopened
      . have hne : j ≠ i := by
          intro hne
          rw [hne, hdue, Option.some.injEq] at hj
          exact heq hj
        exact .inl ⟨j, by rw [Function.update_of_ne hne, hj]⟩
      . exact .inr hopened

theorem committed (h : Noted tasks c d) (hreachable : c'.Reachable D tasks)
    (hdead : ∀ i, c'.pool i = .dead → d'.state i = none) (hstate : d'.state = d.state)
    {session : Session} (hsession : c.world.ledger.sessions i = some session)
    (hlatest : Latest c.world session)
    (hids : c'.world.ledger.transactions.map (·.id) = c.world.ledger.transactions.map (·.id))
    (hauditLog : c'.world.ledger.auditLog = c.world.ledger.auditLog ++ session.audits)
    (hhistory : ∀ event ∈ c.world.history, event ∈ c'.world.history) : Noted tasks c' d' := by
  rcases h.reachable.session_audits hsession with hnil | ⟨audit, haudits, hat, hfrom⟩
  . rw [hnil, List.append_nil] at hauditLog
    exact h.frame hreachable hdead (by simp [hstate]) (by simp [hstate]) hids hauditLog hhistory
  . rcases hlatest audit (by simp [haudits]) with ⟨hannounced, hearlier⟩
    rw [haudits] at hauditLog
    refine ⟨hreachable, hdead, ?_, ?_⟩
    . intro j id hj
      rw [hstate] at hj
      rcases h.due j id hj with ⟨⟨row, hrow, hid⟩, hnil⟩
      have hne : audit.transactionId ≠ id := by
        intro hid
        rw [hid] at hannounced
        exact nil_of_announced hannounced hnil
      rw [hauditLog, auditsOf_concat, hnil, if_neg hne]
      exact ⟨⟨row, hhistory _ hrow, hid⟩, rfl⟩
    . intro id hid
      rw [hids] at hid
      rw [hauditLog, auditsOf_concat, hstate]
      rcases h.opened id hid with hdue | hopened
      . exact .inl hdue
      . right
        split
        . next heq =>
          subst heq
          apply hopened.snoc hfrom
          intro earlier h'
          rw [hat]
          exact hearlier earlier h'
        . rw [List.append_nil]
          exact hopened

theorem run (h : Noted tasks c d) (hreachable : c'.Reachable D tasks) {cmd : Cmd}
    {r : Except Err cmd.Resp} (hdead : ∀ i, c'.pool i = .dead → d'.state i = none)
    (hallowed : (d.state i).allowed cmd) (horder : cmd.inOrder i o c.world)
    (hexec : exec D i cmd o c.world = some (r, w)) (hworld : c'.world = w)
    (hstate : d'.state = Function.update d.state i ((d.state i).next cmd r))
    : Noted tasks c' d' := by
  have hhistory : ∀ event ∈ c.world.history, event ∈ c'.world.history := by
    rcases exec_tells hexec with ⟨events, heq, _⟩
    rw [hworld, heq]
    intro event hevent
    exact List.mem_append_left _ hevent
  have hids : (∀ txn, cmd ≠ .insertTransaction txn) →
      c'.world.ledger.transactions.map (·.id) = c.world.ledger.transactions.map (·.id) := by
    intro hcmd
    rw [hworld]
    rcases (exec_touches hexec).transactions with heq | ⟨txn, heq, _⟩ | ⟨_, row, _, _, _, _, heq⟩
    . rw [heq]
    . exact absurd heq (hcmd txn)
    . rw [heq]
      exact Books.map_writeRow (fun old _ hid => hid)
  have hsame : (d.state i).next cmd r = d.state i → d'.state = d.state := by
    intro heq
    rw [hstate, heq, Function.update_eq_self]
  have hplain : cmd.plain → cmd.auditing = false → Noted tasks c' d' := by
    intro hcmd hauditing
    have hs := hsame (hcmd.due.right _ r)
    apply h.frame hreachable hdead (by simp [hs]) (by simp [hs]) (hids _) _ hhistory
    . intro txn heq
      rw [heq] at hcmd
      exact hcmd
    . rw [hworld]
      exact exec_of_not_auditing hauditing hexec
  cases cmd with
  | insertTransaction txn =>
    rcases Exec.insertTransaction_of_answered horder hexec with ⟨hw, e, hr⟩ | ⟨hid, hr, hw⟩
    . subst hr
      have hs := hsame rfl
      rw [hw] at hworld
      exact h.frame hreachable hdead (by simp [hs]) (by simp [hs]) (by rw [hworld])
        (by rw [hworld]) hhistory
    . subst hr
      exact h.inserted hreachable hdead hallowed hstate hid (hworld.trans hw)
  | insertAudit audit =>
    rcases hallowed with ⟨row, g, hdue, haudit⟩
    subst haudit
    have hw := Exec.insertAudit_of_kept TransactionsService.fits_creationAudit horder hexec
    apply h.announced hreachable hdead hdue _ (hworld.trans hw)
    rw [hstate]
    cases r <;> rfl
  | commit =>
    have hs : d'.state = d.state := hsame (by cases r <;> rfl)
    rcases Exec.commit_session hexec with ⟨session, hsession, ⟨_, hw⟩ | ⟨hfault, hw⟩⟩
    . exact h.frame hreachable hdead (by simp [hs]) (by simp [hs]) (hids (by simp))
        (by rw [hworld, hw]; rfl) hhistory
    . have hlatest := horder.resolve_left hfault session hsession
      exact h.committed hreachable hdead hs hsession hlatest (hids (by simp))
        (by rw [hworld, hw]; rfl) hhistory
  | _ => exact hplain trivial rfl

theorem crash (h : Noted tasks c d) (hreachable : c'.Reachable D tasks) {inst : Nat}
    (horder : InOrder c (.crash inst)) (hdead : ∀ i, c'.pool i = .dead → d'.state i = none)
    (hworld : c'.world = crashInst inst c.world)
    (hstate : ∀ i, d'.state i = if i.inst = inst then none else d.state i) : Noted tasks c' d' := by
  apply h.frame hreachable hdead
  . intro i id hi
    rw [hstate] at hi
    split at hi
    . cases hi
    . exact hi
  . intro i id hi
    rw [hstate, if_neg _]
    . exact hi
    . intro hinst
      rcases h.due i id hi with ⟨⟨row, hrow, hid⟩, hnil⟩
      have hannounced := horder i row hrow hinst
      rw [hid] at hannounced
      exact nil_of_announced hannounced hnil
  . rw [hworld]
    rfl
  . rw [hworld]
    rfl
  . rw [hworld]
    exact fun _ hevent => hevent

/--
The creation audit is due from a call that is about to write it.
-/
theorem busy_of_due (h : Noted tasks c d)
    (hsim : Machine.Simulates (P := dueProtocol) (fun _ => none) (fun _ => Cleared) c d)
    {i : Pid} {id : String} (hi : d.state i = some id) : (c.pool i).busy = true := by
  have hfollows := hsim.follows i
  rw [hi] at hfollows
  cases hproc : c.pool i with
  | idle =>
    rw [hproc] at hfollows
    cases hfollows
  | dead =>
    rw [h.dead i hproc] at hi
    cases hi
  | running p =>
    rw [hproc] at hfollows
    cases p with
    | pure a => cases hfollows
    | throw e => cases hfollows
    | op cmd k => rfl
    | alt p q => rfl

theorem of_pool (h : Noted tasks c d) (hreachable : c'.Reachable D tasks)
    (hdead : ∀ i, c'.pool i = .dead → d.state i = none) (hworld : c'.world = c.world)
    : Noted tasks c' d := by
  apply h.frame hreachable hdead (by simp) (by simp)
  . rw [hworld]
  . rw [hworld]
  . rw [hworld]
    exact fun _ hevent => hevent

theorem dead_of_update (h : Noted tasks c d) {p : Program Reply} {w : World} {s : Due}
    {d' : (machine D).Parties dueProtocol} (hstate : d'.state = Function.update d.state i s)
    : ∀ j, ({ world := w, pool := Function.update c.pool i (.running p) } : System D).pool j =
        .dead → d'.state j = none := by
  intro j hj
  by_cases heq : j = i
  . subst heq
    simp at hj
  . simp only [Function.update_of_ne heq] at hj
    rw [hstate, Function.update_of_ne heq]
    exact h.dead j hj

end Noted

variable (D tasks) in
theorem noted_conformsBy
    : Machine.ConformsBy (M := machine D) (P := dueProtocol) (fun i => (tasks i).program D)
        (fun _ => none) (fun _ => Cleared) InOrder (Noted tasks) := by
  refine ⟨fun i => (tasks i).due_program, fun _ => rfl, fun _ _ _ _ => rfl,
    fun _ _ _ _ _ _ _ _ _ _ _ _ _ _ => trivial, ?_⟩
  intro a c c' d d' hsim h horder hmoves _
  have hreachable : System.Reachable D tasks c' := by
    rcases h.reachable with ⟨c₀, hstart, hrun⟩
    exact ⟨c₀, hstart, hrun.tail ⟨a, trivial, hmoves.act⟩⟩
  cases hmoves with
  | spawn i hidle =>
    exact h.of_pool hreachable (h.dead_of_update (Function.update_eq_self i d.state).symm) rfl
  | run i o cmd k r w hop hallowed hexec =>
    exact h.run hreachable (h.dead_of_update rfl) hallowed (horder cmd k hop) hexec rfl rfl
  | left i p q halt =>
    exact h.of_pool hreachable (h.dead_of_update (Function.update_eq_self i d.state).symm) rfl
  | right i p q halt =>
    exact h.of_pool hreachable (h.dead_of_update (Function.update_eq_self i d.state).symm) rfl
  | env e w henv =>
    have hsame := env_tables henv
    refine h.frame hreachable ?_ (fun _ _ hi => hi) (fun _ _ hi => hi) ?_ ?_ ?_
    . exact h.dead
    . rw [hsame.ledger]
    . rw [hsame.ledger]
    . rw [hsame.history]
      exact fun _ hevent => hevent
  | crash n =>
    apply h.crash hreachable horder _ rfl (fun _ => rfl)
    intro i hi
    simp only [Machine.Parties.crash]
    split
    . rfl
    . next hnode =>
      simp only [if_neg hnode] at hi
      exact h.dead i hi

/--
If the audit log stays complete and in order, `history` tells of every payment how it has come to
its state, as soon as the call that has made it is over.
-/
theorem shown_in_order {c : System D} (h : c.ReachableBy D tasks InOrder) {t : Transaction}
    (ht : t ∈ c.world.ledger.transactions) (hrests : c.Rests t.id) {rows : List AuditLog}
    (hrows : TransactionsService.History t.id c.world.ledger.auditLog rows)
    : Tells rows t.currentState := by
  have hreachable := h.reachable
  rcases h with ⟨c₀, hstart, hrun⟩
  let d₀ : (machine D).Parties dueProtocol := { world := c₀.world, state := fun _ => none }
  have hsim₀ : Machine.Simulates (M := machine D) (P := dueProtocol) (fun _ => none)
      (fun _ => Cleared) c₀ d₀ := by
    refine ⟨rfl, fun i => ?_⟩
    rw [hstart.idle i]
    rfl
  have hnoted₀ : Noted tasks c₀ d₀ := by
    refine ⟨⟨c₀, hstart, .refl⟩, fun _ _ => rfl, fun _ _ hi => absurd hi (by simp [d₀]), ?_⟩
    rcases hstart.world with ⟨stats, _, hworld⟩
    intro id hid
    rw [hworld] at hid
    cases hid
  rcases hsim₀.runBy (noted_conformsBy D tasks) hnoted₀ hrun with ⟨d, hsim, hnoted⟩
  have hopened : Opened (auditsOf t.id c.world.ledger.auditLog) := by
    rcases hnoted.opened t.id (List.mem_map_of_mem ht) with ⟨i, hi⟩ | hopened
    . rcases (hnoted.due i t.id hi).left with ⟨row, hrow, hid⟩
      exact absurd (hrests i row hrow hid) (by simp [hnoted.busy_of_due hsim hi])
    . exact hopened
  rw [hopened.eq_of_history rfl hrows]
  rcases hopened.created with ⟨created, rest, heq, hnone, hto, hrest⟩
  have htransitions : transitionsOf t.id c.world.ledger.auditLog = rest := by
    rw [transitionsOf_eq, heq, List.filter_cons_of_neg (by simp [hnone]), List.filter_eq_self]
    exact hrest
  rcases (audit_replays hreachable).left t ht with ⟨⟨_, _, _, _, _, _, hreplays⟩, _, _, _⟩
  have hpath := hreplays.path
  rw [htransitions, ← hto] at hpath
  rcases linked_of_path hrest hpath with ⟨hlinked, hends⟩
  rw [heq]
  refine ⟨⟨created, rfl, hnone, hto⟩, ?_, hlinked, hends⟩
  have hlater : rest.filter (·.fromState = none) = [] := by
    rw [List.filter_eq_nil_iff]
    intro later hmem
    simp [Option.isSome_iff_ne_none.mp (hrest later hmem)]
  rw [List.filter_cons_of_pos (by simp [hnone]), hlater]
  rfl

end System

namespace Scenario

def inOrder (c : System deployment) (a : Act) : Bool :=
  match a with
  | .run i o =>
    match c.pool i with
    | .running (.op (.insertTransaction _) _) => o.fault ≠ .after
    | .running (.op (.insertAudit _) _) => o.fault ≠ .before
    | .running (.op .commit _) =>
      match c.world.ledger.sessions i with
      | some session => Latest c.world session
      | none => true
    | _ => true
  | .crash _ => false
  | _ => true

theorem inOrder_of_inOrder {c : System deployment} {a : Act} (h : inOrder c a = true)
    : System.InOrder c a := by
  cases a with
  | run i o =>
    intro cmd k hop
    simp only [inOrder, hop] at h
    cases cmd with
    | insertTransaction txn =>
      rw [decide_eq_true_eq] at h
      exact h
    | insertAudit audit =>
      rw [decide_eq_true_eq] at h
      exact h
    | commit =>
      right
      intro session hsession
      rw [hsession] at h
      exact of_decide_eq_true h
    | _ => trivial
  | crash inst => cases h
  | _ => trivial

def started (acts : List Act) : List Pid :=
  acts.filterMap fun
    | .spawn i => some i
    | _ => none

/--
Nothing is in progress if everything that has been started is over.
-/
theorem not_busy_of_started {check : System deployment → Act → Bool} {tasks : Pid → Task}
    {acts : List Act} {c : System deployment} (h : outcomeIf check tasks acts = some c)
    (hstarted : ∀ i ∈ started acts, (c.pool i).busy = false) (i : Pid)
    : (c.pool i).busy = false := by
  by_cases hi : .spawn i ∈ acts
  . apply hstarted
    rw [started, List.mem_filterMap]
    exact ⟨.spawn i, hi, rfl⟩
  . have hidle : c.pool i = .idle := by
      rw [Machine.runActsIf_idle h i]
      exact ⟨rfl, hi⟩
    rw [hidle]
    rfl

def insertersOver (c : System deployment) : Bool :=
  c.world.history.all fun event =>
    match event with
    | .inserted i _ => (c.pool i).busy = false
    | _ => true

-- Time passes after every step.
def ticking (acts : List Act) : List Act :=
  acts.flatMap (fun a => [a, .env (.tick 1)])

end Scenario

namespace System

open Scenario

/--
A payment that is captured at the first gateway.
-/
theorem shown_in_order_captured
    : ∃ (c : System deployment) (t : Transaction), t ∈ c.world.ledger.transactions ∧
        t.currentState = .SUCCESS ∧
        Tells (auditsOf t.id c.world.ledger.auditLog) t.currentState := by
  let acts : List Act := ticking (upToCharge ⟨0, 0⟩ "txn-1" ++
    settle 0 (.answered (accepted "upi-1")) :: steps ⟨0, 0⟩ 12)
  let event := webhook "payment.captured" []
  let p (c : System deployment) : Bool :=
    c.world.ledger.transactions.any fun t =>
      t.currentState = .SUCCESS ∧ insertersOver c ∧
        (auditsOf t.id c.world.ledger.auditLog).Pairwise
          (fun audit audit' => audit.createdAt ≤ audit'.createdAt)
  have hrun : (outcomeIf inOrder (Scenario.tasks event) acts).any p = true := by
    decide +kernel
  rcases exists_reachableBy (fun c a => inOrder_of_inOrder) hrun with ⟨c, hc, hp⟩
  simp only [p, List.any_eq_true, decide_eq_true_eq] at hp
  rcases hp with ⟨t, ht, hstate, hover, hsorted⟩
  refine ⟨c, t, ht, hstate, shown_in_order hc ht ?_ ⟨.refl _, hsorted⟩⟩
  intro i row hrow _
  exact of_decide_eq_true (List.all_eq_true.mp hover _ hrow)

/--
Nothing fails. A worker finds the payment by its key before `create` writes the creation audit, and
reconciles it.
-/
theorem shown_out_of_order
    : ∃ c : System deployment,
        c.ReachableBy deployment
          (Scenario.tasks (webhook "payment.captured"
            [("upi_txn_id", .str "upi-1"), ("idempotencyKey", .str "order-7")])) Faultless ∧
        (∀ i, (c.pool i).busy = false) ∧
        ∃ t ∈ c.world.ledger.transactions, ∃ rows,
          TransactionsService.History t.id c.world.ledger.auditLog rows ∧
            ¬Tells rows t.currentState := by
  let acts : List Act := .spawn ⟨0, 0⟩ :: steps ⟨0, 0⟩ 4 ++ [.run ⟨0, 0⟩ { id := "txn-1" }] ++
    deliver ++ .spawn ⟨0, 2⟩ :: steps ⟨0, 2⟩ 30 ++ .env (.tick 1) :: steps ⟨0, 0⟩ 6
  let event := webhook "payment.captured"
    [("upi_txn_id", .str "upi-1"), ("idempotencyKey", .str "order-7")]
  let p (c : System deployment) : Bool :=
    (started acts).all (fun i => (c.pool i).busy = false) ∧
      c.world.ledger.transactions.any fun t =>
        (auditsOf t.id c.world.ledger.auditLog).Pairwise
            (fun audit audit' => audit.createdAt ≤ audit'.createdAt) ∧
          (auditsOf t.id c.world.ledger.auditLog).head?.all (·.fromState.isSome)
  have hrun : (outcomeIf faultless (Scenario.tasks event) acts).any p = true := by
    decide +kernel
  cases hc : outcomeIf faultless (Scenario.tasks event) acts with
  | none => simp [hc] at hrun
  | some c =>
    have hp : p c = true := by simpa [hc] using hrun
    simp only [p, decide_eq_true_eq, List.any_eq_true, List.all_eq_true] at hp
    rcases hp with ⟨hover, t, ht, hsorted, hhead⟩
    refine ⟨c, ⟨start, start_start, ?_⟩, not_busy_of_started hc hover, t, ht, _, ⟨.refl _, hsorted⟩, ?_⟩
    . exact Machine.runBy_of_runActsIf (fun c a _ => faultless_of_faultless) hc
    . intro htells
      rcases htells.starts with ⟨created, hcreated, hnone, _⟩
      rw [hcreated] at hhead
      simp [hnone] at hhead

end System

end PaymentOrchestration
