import PaymentOrchestration.Party.Ground
import PaymentOrchestration.Scenario

/-!
This module is about calls of `create` whose payment a webhook is about at the same time: as long as
nobody else moves the payment before it is settled the call returns it, otherwise the call fails.
-/

namespace PaymentOrchestration

namespace Calm

/--
The payment of a call of `create` is its own: it has inserted the row, and until the payment is
settled the row is in the state the call has last seen it in.
-/
def Owned (s : Calm) (i : Pid) (w : World) : Prop :=
  match s with
  | .starting => ∀ row, .inserted i row ∉ w.history
  | .moving none id seen _ =>
    (∃ row, .inserted i row ∈ w.history ∧ row.id = id) ∧
      (seen.final = false → ∀ row ∈ w.ledger.transactions, row.id = id → row.currentState = seen)
  | _ => False

variable {D : Deployment} {s : Calm} {i : Pid} {o : Oracle} {w w' : World}

theorem Owned.cases (h : s.Owned i w)
    : s = .starting ∨ ∃ id seen draft, s = .moving none id seen draft := by
  unfold Owned at h
  split at h
  . exact .inl rfl
  . exact .inr ⟨_, _, _, rfl⟩
  . exact h.elim

theorem Owned.watched (h : s.Owned i w) : s ≠ .free := by
  rcases h.cases with hs | ⟨id, seen, draft, hs⟩
  . rw [hs]
    simp
  . rw [hs]
    simp

/--
A transition keeps the draft of a call that makes it on its own payment. Only a commit is seen.
-/
theorem next_moving {id : String} {seen : TransactionState} {draft : Draft} {cmd : Cmd}
    {r : Except Err cmd.Resp} (hcommit : cmd ≠ .commit)
    : ∃ draft', (moving none id seen draft).next cmd r = .moving none id seen draft' := by
  have hturn := (moving none id seen draft).turn cmd r
  generalize (moving none id seen draft).next cmd r = s' at hturn ⊢
  cases hturn with
  | marked h => cases h
  | committed => exact absurd rfl hcommit
  | _ => exact ⟨_, rfl⟩

theorem next_starting {cmd : Cmd} {r : Except Err cmd.Resp}
    (hinsert : ∀ txn, cmd ≠ .insertTransaction txn) : starting.next cmd r = .starting := by
  have hturn := starting.turn cmd r
  generalize starting.next cmd r = s' at hturn ⊢
  cases hturn with
  | stay => rfl
  | inserted => exact absurd rfl (hinsert _)
  | marked h => cases h

-- The tables of payments stay, and so does what the process has inserted.
theorem Owned.frame (h : s.Owned i w) {events : List Event}
    (hrows : w'.ledger.transactions = w.ledger.transactions)
    (hhistory : w'.history = w.history ++ events) (hinserted : ∀ row, .inserted i row ∉ events)
    : s.Owned i w' := by
  rcases h.cases with hs | ⟨id, seen, draft, hs⟩
  . subst hs
    intro row hrow
    rw [hhistory, List.mem_append] at hrow
    rcases hrow with hrow | hrow
    . exact h row hrow
    . exact hinserted row hrow
  . subst hs
    rcases h with ⟨⟨row, hrow, hid⟩, hstate⟩
    refine ⟨⟨row, ?_, hid⟩, ?_⟩
    . rw [hhistory]
      exact List.mem_append_left _ hrow
    . rw [hrows]
      exact hstate

/--
The others leave an unsettled payment alone, if none of them commits an update of it.
-/
theorem Owned.other (h : s.Owned i w) (hground : s.Grounded i w) {j : Pid} (hj : j ≠ i) {cmd : Cmd}
    {r : Except Err cmd.Resp} (hexec : exec D j cmd o w = some (r, w'))
    (hcommit : ∀ session row row₀ seen, cmd = .commit → o.fault ≠ .before →
      w.ledger.sessions j = some session → session.update = some row →
      .inserted i row₀ ∈ w.history → row₀.id = row.id → lastSeen i w.history = some seen →
      seen.final = true) : s.Owned i w' := by
  rcases exec_tells hexec with ⟨events, hevents, htells⟩
  have hinserted : ∀ row, .inserted i row ∉ events := by
    intro row hrow
    exact hj (htells _ hrow).left.symm
  have htouches := exec_touches hexec
  rcases h.cases with hs | ⟨id, seen, draft, hs⟩
  . subst hs
    intro row hrow
    rw [hevents, List.mem_append] at hrow
    rcases hrow with hrow | hrow
    . exact h row hrow
    . exact hinserted row hrow
  . subst hs
    rcases h with ⟨⟨row₀, hrow₀, hid₀⟩, hstate⟩
    rcases hground with ⟨hknown, hseen, _⟩
    refine ⟨⟨row₀, by rw [hevents]; exact List.mem_append_left _ hrow₀, hid₀⟩, ?_⟩
    intro hfinal
    apply htouches.states hknown (hstate hfinal)
    intro session row hcmd hfault hsession hupdate hid
    have := hcommit session row row₀ seen hcmd hfault hsession hupdate hrow₀ (by rw [hid₀, hid]) hseen
    rw [hfinal] at this
    cases this

theorem Owned.insert {txn : NewTransaction} {r : Except Err Transaction} (h : starting.Owned i w)
    (hperforms : Performs D (.insertTransaction txn) o)
    (hexec : exec D i (.insertTransaction txn) o w = some (r, w'))
    : (starting.next (.insertTransaction txn) r).Owned i w' := by
  rcases Exec.insertTransaction_cases hexec with ⟨hw, e, hr⟩ | ⟨hfresh, _, hr, hw⟩
  . rw [hr, hw]
    exact h
  . have hr' : r = .ok (txn.row o.id) := by
      rcases hr with hr | ⟨e, hr⟩
      . exact hr
      . -- a statement that is performed and takes effect is answered
        subst hr
        simp only [exec, Exec.insertTransaction, show o.fault = .none from hperforms,
          Exec.statement] at hexec
        have hlen := congrArg (fun w => w.history.length) hw
        split at hexec
        . cases hexec
        . split at hexec
          . simp only [Option.some.injEq, Prod.mk.injEq] at hexec
            rw [← hexec.right] at hlen
            simp at hlen
          . cases hexec
    subst hr' hw
    refine ⟨⟨txn.row o.id, by simp, rfl⟩, ?_⟩
    intro _ row hrow hid
    simp only [Ledger.insert, List.mem_append, List.mem_singleton] at hrow
    rcases hrow with hrow | hrow
    . apply absurd _ hfresh
      rw [List.mem_map]
      exact ⟨row, hrow, hid⟩
    . rw [hrow]

theorem Owned.commit {id : String} {seen toState : TransactionState} {r : Except Err Unit}
    (h : (moving none id seen (.logged toState)).Owned i w)
    (hground : (moving none id seen (.logged toState)).Grounded i w)
    (hanswers : (moving none id seen (.logged toState)).answers .commit r)
    (hexec : exec D i .commit o w = some (r, w'))
    : ((moving none id seen (.logged toState)).next .commit r).Owned i w' := by
  have hr : r = .ok () := by
    cases r with
    | error e => exact absurd (hanswers.resolve_left (by simp)) (fun h => h)
    | ok _ => rfl
  subst hr
  rcases h with ⟨⟨row₀, hrow₀, hid₀⟩, _⟩
  rcases exec_tells hexec with ⟨events, hevents, _⟩
  refine ⟨⟨row₀, ?_, hid₀⟩, fun _ => hground.state_of_commit hexec⟩
  rw [hevents]
  exact List.mem_append_left _ hrow₀

/--
The process itself moves its payment the way it sees it move.
-/
theorem Owned.own (h : s.Owned i w) (hground : s.Grounded i w) {cmd : Cmd} {r : Except Err cmd.Resp}
    (hallowed : s.allowed cmd) (hperforms : Performs D cmd o) (hanswers : s.answers cmd r)
    (hexec : exec D i cmd o w = some (r, w')) : (s.next cmd r).Owned i w' := by
  rcases exec_tells hexec with ⟨events, hevents, htells⟩
  have htouches := exec_touches hexec
  -- Everything but an insert and a commit.
  have hquiet : (∀ txn, cmd ≠ .insertTransaction txn) → cmd ≠ .commit → s.Owned i w' := by
    intro hinsert hcommit
    have hrows : w'.ledger.transactions = w.ledger.transactions := by
      rcases htouches.transactions with heq | ⟨txn, hcmd, _⟩ | ⟨_, _, hcmd, _⟩
      . exact heq
      . exact absurd hcmd (hinsert txn)
      . exact absurd hcmd hcommit
    apply h.frame hrows hevents
    intro row hrow
    rcases htells _ hrow with ⟨_, txn, hcmd⟩
    exact hinsert txn hcmd
  rcases h.cases with hs | ⟨id, seen, draft, hs⟩
  . subst hs
    by_cases hinsert : ∃ txn, cmd = .insertTransaction txn
    . rcases hinsert with ⟨txn, hcmd⟩
      subst hcmd
      exact h.insert hperforms hexec
    . have hne : ∀ txn, cmd ≠ .insertTransaction txn := by
        intro txn heq
        exact hinsert ⟨txn, heq⟩
      rw [next_starting hne]
      apply hquiet hne
      intro hcmd
      subst hcmd
      rcases hallowed with hs | ⟨_, _, _, _, hs⟩ <;> cases hs
  . subst hs
    by_cases hcommit : cmd = .commit
    . subst hcommit
      rcases hallowed with hs | ⟨event, id', seen', toState, hs⟩
      . cases hs
      . injection hs with hevent hid hseen hdraft
        subst hdraft
        exact h.commit hground hanswers hexec
    . rcases next_moving (r := r) hcommit with ⟨draft', hnext⟩
      rw [hnext]
      apply hquiet _ hcommit
      intro txn hcmd
      subst hcmd
      rcases hallowed with hs | ⟨hs, _⟩ <;> cases hs

end Calm

namespace System

variable {D : Deployment} {tasks : Pid → Task} {i : Pid} {c c' : System D}

/--
The statements of process `i` are performed, and nobody else commits an update of the payment that
it has inserted before the process has seen the payment settled.
-/
def Uncontested (i : Pid) (c : System D) (a : (machine D).Act) : Prop :=
  match a with
  | .run j o =>
    (j = i → ∀ cmd k, c.pool i = .running (.op cmd k) → Performs D cmd o) ∧
      (j ≠ i → ∀ k, c.pool j = .running (.op .commit k) → o.fault ≠ .before →
        ∀ session row row₀ seen, c.world.ledger.sessions j = some session →
          session.update = some row → .inserted i row₀ ∈ c.world.history → row₀.id = row.id →
          lastSeen i c.world.history = some seen → seen.final = true)
  | _ => True

/--
What holds of a call of `create` in a run in which its payment is uncontested.
-/
structure Alone (i : Pid) (c : System D) (d : (machine D).Parties calmProtocol) : Prop where
  others : ∀ j, j ≠ i → d.state j = .free
  owned : (d.state i).Owned i c.world
  grounded : (d.state i).Grounded i c.world

namespace Alone

variable {d d' : (machine D).Parties calmProtocol}

theorem answers (h : Alone i c d) {j : Pid} {o : Oracle} {cmd : Cmd}
    {k : Except Err cmd.Resp → Program Reply} {r : Except Err cmd.Resp} {w : World}
    (huncontested : Uncontested i c (.run j o)) (hop : c.pool j = .running (.op cmd k))
    (hallowed : (d.state j).allowed cmd) (hexec : exec D j cmd o c.world = some (r, w))
    : (d.state j).answers cmd r := by
  by_cases hj : j = i
  . subst hj
    have hperforms := huncontested.left rfl cmd k hop
    have hfind : ∀ id, cmd ≠ .findEvent id := by
      intro id hcmd
      subst hcmd
      have hs := hallowed.resolve_left h.owned.watched
      rcases h.owned.cases with hs' | ⟨id', seen', draft', hs'⟩
      . rw [hs] at hs'
        cases hs'
      . rw [hs] at hs'
        cases hs'
    apply h.grounded.answers hallowed (fun _ => hperforms) _ _ _ hexec
    . intro _ id hcmd row hrow hid
      subst hcmd
      rcases hallowed.resolve_left h.owned.watched with ⟨event, seen, hs, hfinal⟩
      have howned := h.owned
      rw [hs] at howned ⊢
      cases event with
      | none =>
        intro toState hto
        rw [howned.right (hfinal rfl) row hrow hid]
        exact hto
      | some event => exact howned.elim
    . exact fun _ id hcmd => absurd hcmd (hfind id)
    . exact fun _ id hcmd => absurd hcmd (hfind id)
  . exact .inl (h.others j hj)

theorem run (h : Alone i c d) {j : Pid} {o : Oracle} {cmd : Cmd}
    {k : Except Err cmd.Resp → Program Reply} {r : Except Err cmd.Resp}
    (huncontested : Uncontested i c (.run j o)) (hop : c.pool j = .running (.op cmd k))
    (hallowed : (d.state j).allowed cmd) (hexec : exec D j cmd o c.world = some (r, c'.world))
    (hstate : d'.state = Function.update d.state j ((d.state j).next cmd r)) : Alone i c' d' := by
  have hanswers := h.answers huncontested hop hallowed hexec
  by_cases hj : j = i
  . subst hj
    have hself : d'.state j = (d.state j).next cmd r := by
      rw [hstate, Function.update_self]
    constructor
    . intro k hk
      rw [hstate, Function.update_of_ne hk]
      exact h.others k hk
    . rw [hself]
      exact h.owned.own h.grounded hallowed (huncontested.left rfl cmd k hop) hanswers hexec
    . rw [hself]
      exact h.grounded.own h.owned.watched hallowed hanswers hexec
  . have hfree : (d.state j).next cmd r = d.state j := by
      rw [h.others j hj, Calm.next_free]
    rw [hfree, Function.update_eq_self] at hstate
    constructor
    . rw [hstate]
      exact h.others
    . rw [hstate]
      apply h.owned.other h.grounded hj hexec
      intro session row row₀ seen hcmd
      subst hcmd
      intro hfault hsession hupdate hrow₀ hid hseen
      exact huncontested.right hj k hop hfault session row row₀ seen hsession hupdate hrow₀ hid hseen
    . rw [hstate]
      exact h.grounded.other hj hexec

theorem crash (h : Alone i c d) {inst : Nat} (hworld : c'.world = crashInst inst c.world)
    (hstate : ∀ j, d'.state j = if j.inst = inst then (d.state j).crash else d.state j)
    : Alone i c' d' := by
  constructor
  . intro j hj
    rw [hstate, h.others j hj]
    split <;> rfl
  . have howned : (d.state i).Owned i c'.world := by
      rw [hworld]
      apply h.owned.frame
      . rfl
      . exact (List.append_nil _).symm
      . simp
    rw [hstate]
    split
    . rcases h.owned.cases with hs | ⟨id, seen, draft, hs⟩
      . rw [hs] at howned ⊢
        exact howned
      . rw [hs] at howned ⊢
        exact howned
    . exact howned
  . rw [hstate, hworld]
    exact h.grounded.crash inst

end Alone

variable (D tasks i) in
theorem uncontested_conformsBy
    : Machine.ConformsBy (M := machine D) (P := calmProtocol) (fun j => (tasks j).program D)
        (Task.followed tasks i) (Task.follows tasks i) (Uncontested i) (Alone i) := by
  refine ⟨Task.followed_program tasks i, Task.followed_crash tasks i, Task.follows_crash tasks i,
    ?_, ?_⟩
  . intro c d j o cmd k r w _ h huncontested hop hallowed hexec
    exact h.answers huncontested hop hallowed hexec
  . intro a c c' d d' hsim h huncontested hmoves _
    cases hmoves with
    | run j o cmd k r w hop hallowed hexec => exact h.run huncontested hop hallowed hexec rfl
    | env e w henv =>
      have hsame := env_tables henv
      refine ⟨h.others, ?_, h.grounded.env henv⟩
      apply h.owned.frame
      . rw [hsame.ledger]
      . rw [hsame.history]
        exact (List.append_nil _).symm
      . simp
    | crash inst => exact h.crash rfl (fun _ => rfl)
    | _ => exact ⟨h.others, h.owned, h.grounded⟩

theorem Start.alone (h : c.Start) {dto : CreateTransactionDto} (hcreate : tasks i = .create dto)
    {d : (machine D).Parties calmProtocol} (hstate : d.state = Task.followed tasks i)
    : Alone i c d := by
  have hself : d.state i = .starting := by
    rw [hstate, Task.followed, if_pos rfl, hcreate]
    rfl
  rcases h.world with ⟨stats, _, hworld⟩
  constructor
  . intro j hj
    rw [hstate]
    exact if_neg hj
  . rw [hself]
    intro row hrow
    rw [hworld] at hrow
    cases hrow
  . rw [hself]
    trivial

/--
If nobody else moves its payment before it is settled, and the database does what it is asked to, a
call of `create` that has inserted its payment ends with the payment settled.
-/
theorem create_settles (h : c.ReachableBy D tasks (Uncontested i)) {dto : CreateTransactionDto}
    (hcreate : tasks i = .create dto) {row : Transaction} (hrow : .inserted i row ∈ c.world.history)
    {r : Except Err Reply} (hresult : (c.pool i).result = some r)
    : ∃ t, r = .ok (.transaction t) ∧ t.currentState.final = true := by
  rcases h with ⟨c₀, hstart, hrun⟩
  have hsim : Machine.Simulates (M := machine D) (P := calmProtocol) (Task.followed tasks i)
      (Task.follows tasks i) c₀ { world := c₀.world, state := Task.followed tasks i } := by
    refine ⟨rfl, fun j => ?_⟩
    rw [show c₀.pool j = .idle from hstart.idle j]
    rfl
  rcases hsim.runBy (uncontested_conformsBy D tasks i) (hstart.alone hcreate rfl) hrun with
    ⟨d, hsim', halone⟩
  have hcalmly := hsim'.result hresult rfl
  rw [hcreate] at hcalmly
  rcases hcalmly with hs | ht
  . have howned := halone.owned
    rw [hs] at howned
    exact absurd hrow (howned row)
  . exact ht

/--
Nothing of the infrastructure fails.
-/
def Faultless (_ : System D) (a : (machine D).Act) : Prop :=
  match a with
  | .run _ o => o.fault = .none
  | .env (.tick _) => True
  | .env (.settle _ _) => True
  | .env _ => False
  | .crash _ => False
  | _ => True

end System

namespace Scenario

def faultless (_ : System deployment) (a : Act) : Bool :=
  match a with
  | .run _ o => o.fault = .none
  | .env (.tick _) => true
  | .env (.settle _ _) => true
  | .env _ => false
  | .crash _ => false
  | _ => true

theorem faultless_of_faultless {c : System deployment} {a : Act} (h : faultless c a = true)
    : System.Faultless c a := by
  cases a with
  | run i o =>
    simp only [faultless, decide_eq_true_eq] at h
    exact h
  | env e =>
    cases e with
    | tick ms => trivial
    | settle n status => trivial
    | _ => cases h
  | crash inst => cases h
  | _ => trivial

def uncontested (i : Pid) (c : System deployment) (a : Act) : Bool :=
  match a with
  | .run j o =>
    if j = i then
      match c.pool i with
      | .running (.op cmd _) => decide (Performs deployment cmd o)
      | _ => true
    else
      match c.pool j with
      | .running (.op .commit _) =>
        match lastSeen i c.world.history with
        | some seen => seen.final
        | none => true
      | _ => true
  | _ => true

theorem uncontested_of_uncontested {i : Pid} {c : System deployment} {a : Act}
    (h : uncontested i c a = true) : System.Uncontested i c a := by
  cases a with
  | run j o =>
    unfold uncontested at h
    dsimp only at h
    constructor
    . intro hj cmd k hop
      rw [if_pos hj, hop] at h
      exact of_decide_eq_true h
    . intro hj k hop _ session row row₀ seen _ _ _ _ hseen
      rw [if_neg hj, hop] at h
      dsimp only at h
      rw [hseen] at h
      exact h
  | _ => trivial

def returned (i : Pid) (c : System deployment) : Bool :=
  ((c.pool i).result).isSome

-- The process was told that somebody else has moved its payment.
def outrun (i : Pid) (c : System deployment) : Bool :=
  match (c.pool i).result with
  | some (.error (.badRequest _)) => true
  | _ => false

def inserts (i : Pid) (w : World) : Bool :=
  w.history.any fun
    | .inserted j _ => j = i
    | _ => false

theorem exists_inserted {i : Pid} {w : World} (h : inserts i w = true)
    : ∃ row, .inserted i row ∈ w.history := by
  simp only [inserts, List.any_eq_true] at h
  rcases h with ⟨event, hevent, h⟩
  cases event with
  | inserted j row =>
    rw [decide_eq_true_eq] at h
    subst h
    exact ⟨row, hevent⟩
  | _ => cases h

end Scenario

namespace System

open Scenario

/--
A worker reconciles the payment while `create` is still about to return it.
-/
theorem create_settles_reconciled
    : ∃ c : System deployment, commits ⟨0, 2⟩ .RECONCILED c.world = true ∧
        ∃ r, (c.pool ⟨0, 0⟩).result = some r ∧
          ∃ t, r = .ok (.transaction t) ∧ t.currentState.final = true := by
  let acts : List Act := upToCharge ⟨0, 0⟩ "txn-1" ++
    settle 0 (.answered (accepted "upi-1")) :: steps ⟨0, 0⟩ 8 ++ deliver ++
    .spawn ⟨0, 2⟩ :: steps ⟨0, 2⟩ 12 ++ steps ⟨0, 0⟩ 4
  let p (c : System deployment) : Bool :=
    commits ⟨0, 2⟩ .RECONCILED c.world && (inserts ⟨0, 0⟩ c.world && returned ⟨0, 0⟩ c)
  let event := webhook "payment.captured" [("upi_txn_id", .str "upi-1")]
  have hrun : (outcomeIf (uncontested ⟨0, 0⟩) (Scenario.tasks event) acts).any p = true := by
    decide +kernel
  rcases exists_reachableBy (fun c a => uncontested_of_uncontested) hrun with ⟨c, hc, hp⟩
  simp only [p, Bool.and_eq_true] at hp
  rcases hp with ⟨hcommits, hinserts, hreturned⟩
  rcases exists_inserted hinserts with ⟨row, hrow⟩
  rcases Option.isSome_iff_exists.mp hreturned with ⟨r, hr⟩
  exact ⟨c, hcommits, r, hr, create_settles hc rfl hrow hr⟩

/--
Nothing fails and the charge succeeds. The webhook of the charge names the payment by its key, and
the worker is faster than the answer of the gateway: `create` is rejected.
-/
theorem create_outrun
    : ∃ c : System deployment,
        c.ReachableBy deployment
          (Scenario.tasks (webhook "payment.captured"
            [("upi_txn_id", .str "upi-1"), ("idempotencyKey", .str "order-7")])) Faultless ∧
        (∃ row, .inserted ⟨0, 0⟩ row ∈ c.world.history) ∧
        ∃ message, (c.pool ⟨0, 0⟩).result = some (.error (.badRequest message)) := by
  let acts : List Act := upToCharge ⟨0, 0⟩ "txn-1" ++ deliver ++
    .spawn ⟨0, 2⟩ :: steps ⟨0, 2⟩ 18 ++
    settle 0 (.answered (accepted "upi-1")) :: steps ⟨0, 0⟩ 7
  let p (c : System deployment) : Bool := inserts ⟨0, 0⟩ c.world && outrun ⟨0, 0⟩ c
  have hrun : (outcomeIf faultless (Scenario.tasks (webhook "payment.captured"
      [("upi_txn_id", .str "upi-1"), ("idempotencyKey", .str "order-7")])) acts).any p = true := by
    decide +kernel
  rcases exists_reachableBy (fun c a => faultless_of_faultless) hrun with ⟨c, hc, hp⟩
  simp only [p, Bool.and_eq_true] at hp
  rcases hp with ⟨hinserts, houtrun⟩
  refine ⟨c, hc, exists_inserted hinserts, ?_⟩
  unfold outrun at houtrun
  split at houtrun
  . next message hmessage => exact ⟨message, hmessage⟩
  . cases houtrun

end System

end PaymentOrchestration
