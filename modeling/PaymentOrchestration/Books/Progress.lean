import Mathlib.Data.Fintype.EquivFin
import PaymentOrchestration.Books.Refinement
import PaymentOrchestration.Books.Settlement
import PaymentOrchestration.Concurrency.Finishing
import PaymentOrchestration.Scenario

/-!
This module shows that the service never gets stuck: whatever has happened, the calls that are under
way can all be brought to their ends.
-/

namespace PaymentOrchestration

-- The row that the open database transaction of the process has locked.
def Party.held (party : Party) : Option String :=
  match party.tx with
  | .idle | .begun => none
  | .locked row | .saved row _ | .audited row _ _ => some row.id

-- The commands that lock rows or release them.
def Cmd.locking (cmd : Cmd) : Bool :=
  match cmd with
  | .selectForUpdate _ | .commit | .rollback => true
  | _ => false

section Locks

variable {D : Deployment} {i : Pid} {cmd : Cmd} {o : Oracle} {w w' : World} {party : Party}

theorem exec_of_not_locking {r : Except Err cmd.Resp} (hcmd : cmd.locking = false)
    (hexec : exec D i cmd o w = some (r, w')) : w'.ledger.locks = w.ledger.locks := by
  cases cmd with
  | mock op =>
    simp only [exec, Option.some.injEq, Prod.mk.injEq] at hexec
    rw [← hexec.right]
    unfold Exec.mock
    dsimp only
    split <;> rfl
  | client op =>
    rcases Exec.statement_cases hexec with ⟨hw, _⟩ | ⟨hw, _⟩
    all_goals
      subst hw
      rfl
  | findTransaction conditions =>
    rcases Exec.findTransaction_cases hexec with ⟨_, hw⟩ | ⟨_, _, hw, _⟩
    all_goals
      subst hw
      rfl
  | insertTransaction txn =>
    rcases Exec.insertTransaction_cases hexec with ⟨hw, _⟩ | ⟨_, _, _, hw⟩
    all_goals
      subst hw
      rfl
  | insertAudit audit =>
    rcases Exec.insertAudit_cases hexec with hw | hw
    all_goals
      subst hw
      rfl
  | begin =>
    rcases Exec.begin_cases hexec with ⟨hw, _⟩ | ⟨hw, _⟩
    all_goals
      subst hw
      rfl
  | saveTransaction row =>
    rcases Exec.saveTransaction_cases hexec with ⟨_, _, ⟨hw, _⟩ | ⟨_, hw⟩⟩
    all_goals
      subst hw
      rfl
  | saveAudit audit =>
    rcases Exec.saveAudit_cases hexec with ⟨_, _, ⟨hw, _⟩ | ⟨_, hw⟩⟩
    all_goals
      subst hw
      rfl
  | findEvent id =>
    rcases Exec.findEvent_cases hexec with ⟨hw, _⟩ | ⟨_, _, _, _, hw⟩
    all_goals
      subst hw
      rfl
  | insertEvent event =>
    rcases Exec.insertEvent_cases hexec with hw | ⟨_, hw⟩
    all_goals
      subst hw
      rfl
  | saveEvent event =>
    rcases Exec.statement_cases hexec with ⟨hw, _⟩ | ⟨hw, _⟩
    all_goals
      subst hw
      rfl
  | findStats =>
    rw [(Exec.query_cases hexec).left]
  | findStatsOf gateway =>
    rw [(Exec.query_cases hexec).left]
  | saveStats stats =>
    rcases Exec.statement_cases hexec with ⟨hw, _⟩ | ⟨hw, _⟩
    all_goals
      subst hw
      rfl
  | race n =>
    rcases Exec.race_cases hexec with ⟨_, _, ⟨_, _, _, hw⟩ | ⟨_, _, _, _, _, hw⟩ | ⟨_, _, _, _, hw⟩⟩
    all_goals
      subst hw
      rfl
  | selectForUpdate id => cases hcmd
  | commit => cases hcmd
  | rollback => cases hcmd
  | fallback op =>
    simp only [exec, Option.some.injEq, Prod.mk.injEq] at hexec
    rw [← hexec.right]
    rfl
  | charge gateway request =>
    simp only [exec, Option.some.injEq, Prod.mk.injEq] at hexec
    rw [← hexec.right]
    rfl
  | now =>
    simp only [exec, Option.some.injEq, Prod.mk.injEq] at hexec
    rw [← hexec.right]

theorem Party.held_next {r : Except Err cmd.Resp} (hcmd : cmd.locking = false)
    (hallowed : party.allowed D cmd) : (party.next cmd r).held = party.held := by
  cases cmd with
  | begin =>
    have htx : party.tx = .idle := hallowed
    cases r <;> simp [Party.next, Party.held, htx]
  | saveTransaction row' =>
    rcases hallowed with ⟨step, htx, _⟩
    cases r <;> simp [Party.next, Party.held, htx]
  | saveAudit audit =>
    rcases hallowed with ⟨step, htx, _⟩
    cases r <;> simp [Party.next, Party.held, htx]
  | selectForUpdate id => cases hcmd
  | commit => cases hcmd
  | rollback => cases hcmd
  | mock op =>
    cases op with
    | get key =>
      cases r with
      | error e => rfl
      | ok value => cases value <;> rfl
    | _ => cases r <;> rfl
  | client op => cases op <;> cases r <;> rfl
  | fallback op => cases op <;> cases r <;> rfl
  | findEvent id =>
    cases r with
    | error e => rfl
    | ok event => cases event <;> rfl
  | _ => cases r <;> rfl

/--
A command leaves the locks alone, or locks the row that the process then holds, or releases what the
process has held.
-/
theorem exec_locks {r : Except Err cmd.Resp} (hallowed : party.allowed D cmd)
    (hexec : exec D i cmd o w = some (r, w'))
    : (w'.ledger.locks = w.ledger.locks ∧ (party.next cmd r).held = party.held) ∨
        (∃ id, (w.ledger.locks id = none ∨ w.ledger.locks id = some i) ∧ party.held = none ∧
          (party.next cmd r).held = some id ∧
          w'.ledger.locks = Function.update w.ledger.locks id (some i)) ∨
        ((party.next cmd r).held = none ∧ w'.ledger.locks = (w.ledger.release i).locks) := by
  cases hcmd : cmd.locking with
  | false => exact .inl ⟨exec_of_not_locking hcmd hexec, Party.held_next hcmd hallowed⟩
  | true =>
    cases cmd with
    | selectForUpdate id =>
      have hheld : party.held = none := by
        unfold Party.held
        rw [hallowed.left]
      rcases Exec.selectForUpdate_cases hexec with ⟨_, _, ⟨hw, hr | ⟨_, hr⟩⟩ |
        ⟨row, hr, _, hid, hlock, hw⟩⟩
      . subst hr hw
        exact .inl ⟨rfl, rfl⟩
      . subst hr hw
        exact .inl ⟨rfl, rfl⟩
      . subst hr hw hid
        exact .inr (.inl ⟨row.id, hlock, hheld, rfl, rfl⟩)
    | commit =>
      rcases hallowed with ⟨row, row', audit, htx⟩
      have hheld : (party.next .commit r).held = none := by
        cases r <;> simp [Party.next, Party.held, htx]
      refine .inr (.inr ⟨hheld, ?_⟩)
      rcases Exec.commit_cases hexec with ⟨_, _, ⟨hw, _⟩ | ⟨_, hw⟩⟩
      all_goals
        subst hw
        rfl
    | rollback =>
      simp only [exec, Option.some.injEq, Prod.mk.injEq] at hexec
      rw [← hexec.right]
      exact .inr (.inr ⟨rfl, rfl⟩)
    | _ => cases hcmd

theorem exists_not_mem (ids : List String) : ∃ id, id ∉ ids := by
  rcases Infinite.exists_notMem_finset ids.toFinset with ⟨id, hid⟩
  exact ⟨id, by simpa using hid⟩

end Locks

namespace Exec

variable {ρ : Type} {i : Pid} {w : World}

-- What answers in one of two ways answers.
theorem exists_ite {p : Prop} [Decidable p] {x y : Except Err ρ × World}
    : ∃ r w', (if p then some x else some y) = some (r, w') := by
  split
  . exact ⟨x.1, x.2, rfl⟩
  . exact ⟨y.1, y.2, rfl⟩

theorem exists_inSession {session : Session} (h : w.ledger.sessions i = some session)
    {result : Session → Option (Except Err ρ × World)}
    (hresult : ∃ r w', result session = some (r, w'))
    : ∃ r w', inSession i .none w result = some (r, w') := by
  unfold inSession
  rw [h]
  exact hresult

end Exec

namespace Service

variable {D : Deployment} {tasks : Pid → Task} {c c' : Service D} {i : Pid}

/--
Every lock belongs to a process that holds the row.
-/
def Locked (c : Service D) : Prop :=
  ∀ id i, c.world.ledger.locks id = some i → (c.state i).held = some id

theorem Inv.exists_session (hinv : c.Inv) (htx : (c.state i).tx ≠ .idle)
    : ∃ session, c.world.ledger.sessions i = some session := by
  have hopen := hinv.sessions i
  unfold Party.Open at hopen
  split at hopen
  . next h => exact absurd h htx
  . rcases hopen with ⟨t, hsession⟩
    exact ⟨_, hsession⟩
  . rcases hopen with ⟨_, t, hsession⟩
    exact ⟨_, hsession⟩
  . rcases hopen with ⟨_, t, hsession⟩
    exact ⟨_, hsession⟩
  . rcases hopen with ⟨_, _, t, hsession⟩
    exact ⟨_, hsession⟩

-- What a process holds is locked for it.
theorem Inv.locks_of_held (hinv : c.Inv) {id : String} (hheld : (c.state i).held = some id)
    : c.world.ledger.locks id = some i := by
  have hopen := hinv.sessions i
  unfold Party.Open at hopen
  unfold Party.held at hheld
  split at hheld
  . cases hheld
  . cases hheld
  all_goals
    next htx =>
      rw [htx] at hopen
      injection hheld with hheld
      rw [← hheld]
      exact hopen.left.right

theorem Locked.step (h : c.Locked) (hstep : (machine D).PartyStep (partyProtocol D) c c')
    : c'.Locked := by
  cases hstep with
  | run j cmd o r w hallowed hexec =>
    intro id i hlock
    dsimp only at hlock ⊢
    have hother : i ≠ j → c.world.ledger.locks id = some i →
        (Function.update c.state j ((c.state j).next cmd r) i).held = some id := by
      intro hi hold
      rw [Function.update_of_ne hi]
      exact h id i hold
    rcases exec_locks hallowed hexec with ⟨hlocks, hheld⟩ | ⟨id', _, hfree, hheld, hlocks⟩ |
      ⟨hheld, hlocks⟩
    . rw [hlocks] at hlock
      by_cases hi : i = j
      . subst hi
        rw [Function.update_self]
        exact hheld.trans (h id i hlock)
      . exact hother hi hlock
    . rw [hlocks] at hlock
      by_cases hid : id = id'
      . subst hid
        rw [Function.update_self] at hlock
        injection hlock with hi
        subst hi
        rw [Function.update_self]
        exact hheld
      . rw [Function.update_of_ne hid] at hlock
        have hi : i ≠ j := by
          intro hi
          subst hi
          have := h id i hlock
          rw [hfree] at this
          cases this
        exact hother hi hlock
    . rw [hlocks] at hlock
      simp only [Ledger.release] at hlock
      split at hlock
      . cases hlock
      . next hne =>
        apply hother _ hlock
        intro hi
        exact hne (by rw [hlock, hi])
  | env e w henv =>
    intro id i hlock
    rw [(env_ledger henv).left] at hlock
    exact h id i hlock
  | crash inst =>
    intro id i hlock
    simp only [Machine.Parties.crash, crashInst] at hlock ⊢
    split at hlock
    . next j hold =>
      split at hlock
      . cases hlock
      . next hinst =>
        injection hlock with hi
        subst hi
        rw [if_neg hinst]
        exact h id j hold
    . cases hlock

/--
Every command is answered, unless it has to wait for a lock.
-/
theorem Inv.exists_exec (hinv : c.Inv) (hbacked : c.books.Backed i) {cmd : Cmd}
    (hallowed : (c.state i).allowed D cmd)
    (hfree : ∀ id, cmd = .selectForUpdate id →
      c.world.ledger.locks id = none ∨ c.world.ledger.locks id = some i)
    : ∃ o r w, o.fault = .none ∧ exec D i cmd o c.world = some (r, w) := by
  have hby : ∀ o : Oracle, o.fault = .none → (∃ r w, exec D i cmd o c.world = some (r, w)) →
      ∃ o r w, o.fault = .none ∧ exec D i cmd o c.world = some (r, w) := by
    rintro o ho ⟨r, w, hexec⟩
    exact ⟨o, r, w, ho, hexec⟩
  cases cmd with
  | findTransaction conditions =>
    apply hby {} rfl
    simp only [exec, Exec.findTransaction]
    cases hrows : matching D conditions c.world.ledger.transactions with
    | nil => exact ⟨_, _, rfl⟩
    | cons row rows => exact ⟨_, _, rfl⟩
  | insertTransaction txn =>
    rcases exists_not_mem (c.world.ledger.transactions.map (·.id)) with ⟨id, hid⟩
    apply hby { id := id } rfl
    simp only [exec, Exec.insertTransaction, if_neg hid]
    split
    . exact ⟨_, _, rfl⟩
    . split
      . exact ⟨_, _, rfl⟩
      . exact ⟨_, _, rfl⟩
  | insertAudit audit =>
    apply hby {} rfl
    exact Exec.exists_ite
  | selectForUpdate id =>
    apply hby {} rfl
    rcases hinv.exists_session (i := i) (by rw [hallowed.left]; simp) with ⟨session, hsession⟩
    apply Exec.exists_inSession hsession
    split
    . exact ⟨_, _, rfl⟩
    . rw [if_neg]
      . exact ⟨_, _, rfl⟩
      . rintro ⟨hlocked, hother⟩
        rcases hfree id rfl with h | h
        . exact hlocked h
        . exact hother h
  | saveTransaction row' =>
    apply hby {} rfl
    rcases hallowed with ⟨step, htx, _⟩
    rcases hinv.exists_session (i := i) (by rw [htx]; simp) with ⟨session, hsession⟩
    exact Exec.exists_inSession hsession Exec.exists_ite
  | saveAudit audit =>
    apply hby {} rfl
    rcases hallowed with ⟨step, htx, _⟩
    rcases hinv.exists_session (i := i) (by rw [htx]; simp) with ⟨session, hsession⟩
    exact Exec.exists_inSession hsession Exec.exists_ite
  | commit =>
    apply hby {} rfl
    rcases hallowed with ⟨row, row', audit, htx⟩
    rcases hinv.exists_session (i := i) (by rw [htx]; simp) with ⟨session, hsession⟩
    simp only [exec, Exec.commit, hsession]
    exact ⟨_, _, rfl⟩
  | findEvent id =>
    apply hby {} rfl
    simp only [exec, Exec.findEvent]
    rw [if_neg (by simp)]
    split
    . exact ⟨_, _, rfl⟩
    . exact ⟨_, _, rfl⟩
  | insertEvent event =>
    rcases exists_not_mem (c.world.webhookEvents.map (·.id)) with ⟨id, hid⟩
    apply hby { id := id } rfl
    simp only [exec, Exec.insertEvent, if_neg hid]
    split
    . exact ⟨_, _, rfl⟩
    . split
      . exact ⟨_, _, rfl⟩
      . exact ⟨_, _, rfl⟩
  | race n =>
    rcases hallowed with ⟨dto, row, g, fb, hrole⟩
    rcases hbacked.charging dto row g fb n hrole with ⟨charge, hcharge, _⟩
    have hcharge : c.world.charges[n]? = some charge := hcharge
    apply hby { timer := true } rfl
    simp only [exec, Exec.race, hcharge]
    split
    . exact ⟨_, _, rfl⟩
    . exact ⟨_, _, rfl⟩
    . exact ⟨_, _, rfl⟩
  | _ =>
    apply hby {} rfl
    exact ⟨_, _, rfl⟩

end Service

namespace System

variable {D : Deployment} {tasks : Pid → Task}

/--
A step of a process to which nothing fails.
-/
def Unhindered (_ : System D) (a : (machine D).Act) : Prop :=
  match a with
  | .run _ o => o.fault = .none
  | .left _ => True
  | _ => False

/--
The state `c` together with the parties that describe it.
-/
structure Sound (tasks : Pid → Task) (c : System D) (d : Service D) : Prop where
  simulates : Machine.Simulates (P := partyProtocol D) (fun i => (tasks i).party)
    (fun i => (tasks i).finish) c d
  inv : d.Inv
  books : d.books.Reachable D tasks
  locked : d.Locked
  dead : ∀ i, c.pool i = .dead → (d.state i).tx = .idle

namespace Sound

variable {c c' : System D} {d : Service D} {i : Pid}

/--
One step of the machine, whatever it is.
-/
theorem act (h : Sound tasks c d) {a : (machine D).Act}
    (hact : (machine D).act (fun i => (tasks i).program D) a c = some c')
    : ∃ d', Machine.Moves (fun i => (tasks i).program D) a c d c' d' ∧ Sound tasks c' d' := by
  have hconforms := Service.conforms D tasks
  rcases h.simulates.moves hconforms.program hconforms.crash_start hconforms.crash_fin hact (by
    intro i o cmd k r w _ _ hallowed hexec
    rw [h.simulates.world] at hexec
    exact hconforms.answers d i cmd o r w h.inv hallowed hexec) with ⟨d', hmoves, hsim⟩
  have hrun := hmoves.partyRun h.simulates.world
  have hlocked : ∀ {d d' : Service D}, (machine D).PartyRun (partyProtocol D) d d' → d.Locked →
      d'.Locked := by
    intro d d' hrun hlocked
    induction hrun with
    | refl => exact hlocked
    | tail _ hstep ih => exact ih.step hstep
  refine ⟨d', hmoves, hsim, hconforms.invariant h.inv hrun, ?_, hlocked hrun h.locked, ?_⟩
  . rcases h.books with ⟨b₀, hstart, hbooks⟩
    exact ⟨b₀, hstart, hbooks.trans (run_books h.inv hrun)⟩
  . intro j hdead
    cases hmoves with
    | spawn i hidle =>
      by_cases hj : j = i
      . subst hj
        simp at hdead
      . simp only [Function.update_of_ne hj] at hdead
        exact h.dead j hdead
    | run i o cmd k r w hop hallowed hexec =>
      by_cases hj : j = i
      . subst hj
        simp at hdead
      . simp only [Function.update_of_ne hj] at hdead ⊢
        exact h.dead j hdead
    | left i p q halt =>
      by_cases hj : j = i
      . subst hj
        simp at hdead
      . simp only [Function.update_of_ne hj] at hdead
        exact h.dead j hdead
    | right i p q halt =>
      by_cases hj : j = i
      . subst hj
        simp at hdead
      . simp only [Function.update_of_ne hj] at hdead
        exact h.dead j hdead
    | env e w henv => exact h.dead j hdead
    | crash inst =>
      simp only [Machine.Parties.crash] at hdead ⊢
      by_cases hj : j.inst = inst
      . rw [if_pos hj]
        rfl
      . rw [if_neg hj] at hdead ⊢
        exact h.dead j hdead

theorem run (h : Sound tasks c d) {cmd : Cmd} {k : Except Err cmd.Resp → Program Reply}
    (hop : c.pool i = .running (.op cmd k)) {o : Oracle} {r : Except Err cmd.Resp} {w : World}
    (hexec : exec D i cmd o c.world = some (r, w))
    : Sound tasks { world := w, pool := Function.update c.pool i (.running (k r)) }
        { world := w, state := Function.update d.state i ((d.state i).next cmd r) } := by
  have hact : (machine D).act (fun i => (tasks i).program D) (.run i o) c =
      some { world := w, pool := Function.update c.pool i (.running (k r)) } := by
    simp only [Machine.act, hop, hexec]
  rcases h.act hact with ⟨d', hmoves, hsound⟩
  generalize hc' : ({ world := w, pool := Function.update c.pool i (.running (k r)) } : System D) =
    c' at hmoves
  cases hmoves with
  | run _ _ cmd' k' r' w' hop' _ hexec' =>
    rw [hop] at hop'
    injection hop' with hop'
    injection hop' with hcmd hk
    subst hcmd
    have hexec' : exec D i cmd o c.world = some (r', w') := hexec'
    rw [hexec] at hexec'
    injection hexec' with hexec'
    injection hexec' with hr hw
    cases hk
    subst hr hw
    exact hsound

theorem left (h : Sound tasks c d) {p q : Program Reply} (halt : c.pool i = .running (.alt p q))
    : Sound tasks { c with pool := Function.update c.pool i (.running p) } d := by
  have hact : (machine D).act (fun i => (tasks i).program D) (.left i) c =
      some { c with pool := Function.update c.pool i (.running p) } := by
    simp only [Machine.act, halt]
  rcases h.act hact with ⟨d', hmoves, hsound⟩
  generalize hc' : ({ c with pool := Function.update c.pool i (.running p) } : System D) =
    c' at hmoves
  cases hmoves with
  | left _ p' q' halt' =>
    rw [halt] at halt'
    injection halt' with halt'
    injection halt' with hp
    subst hp
    exact hsound

end Sound

namespace Sound

variable {c : System D} {d : Service D} {i : Pid}

theorem allowed (h : Sound tasks c d) {cmd : Cmd} {k : Except Err cmd.Resp → Program Reply}
    (hop : c.pool i = .running (.op cmd k)) : (d.state i).allowed D cmd := by
  have hfollows := h.simulates.follows i
  rw [hop] at hfollows
  exact hfollows.left

-- Only a process that runs holds a row.
theorem running_of_held (h : Sound tasks c d) {id : String} (hheld : (d.state i).held = some id)
    : ∃ p, c.pool i = .running p := by
  have hnot : (d.state i).tx ≠ .idle := by
    intro htx
    unfold Party.held at hheld
    rw [htx] at hheld
    cases hheld
  cases hproc : c.pool i with
  | running p => exact ⟨p, rfl⟩
  | idle =>
    have hfollows := h.simulates.follows i
    rw [hproc] at hfollows
    have hstate : d.state i = (tasks i).party := hfollows
    exact absurd (by rw [hstate, Task.party_tx]) hnot
  | dead => exact absurd (h.dead i hproc) hnot

theorem exists_exec (h : Sound tasks c d) {cmd : Cmd} {k : Except Err cmd.Resp → Program Reply}
    (hop : c.pool i = .running (.op cmd k))
    (hfree : ∀ id, cmd = .selectForUpdate id →
      c.world.ledger.locks id = none ∨ c.world.ledger.locks id = some i)
    : ∃ o r w, o.fault = .none ∧ exec D i cmd o c.world = some (r, w) := by
  rw [h.simulates.world] at hfree ⊢
  exact h.inv.exists_exec (h.books.backed i) (h.allowed hop) hfree

/--
A process that has locked a row needs no other process to release it.
-/
theorem exists_released (h : Sound tasks c d) {p : Program Reply} (hp : c.pool i = .running p)
    {id : String} (hheld : (d.state i).held = some id)
    : ∃ c' d', (machine D).RunBy (fun i => (tasks i).program D) Unhindered c c' ∧
        Sound tasks c' d' ∧ (d'.state i).held = none ∧
        ∀ j, j ≠ i → c'.pool j = c.pool j ∧ d'.state j = d.state j := by
  induction p generalizing c d id with
  | pure reply =>
    have hfinish := h.simulates.result (i := i) (r := .ok reply) (by rw [hp]; rfl)
    rw [Party.held, hfinish.left] at hheld
    cases hheld
  | throw e =>
    have hfinish := h.simulates.result (i := i) (r := .error e) (by rw [hp]; rfl)
    rw [Party.held, hfinish.left] at hheld
    cases hheld
  | op cmd k ih =>
    have hfree : ∀ id, cmd = .selectForUpdate id →
        c.world.ledger.locks id = none ∨ c.world.ledger.locks id = some i := by
      intro id' hcmd
      subst hcmd
      have hallowed := h.allowed hp
      rw [Party.held, hallowed.left] at hheld
      cases hheld
    rcases h.exists_exec hp hfree with ⟨o, r, w, ho, hexec⟩
    have hsound := h.run hp hexec
    have hstep : (machine D).Step (fun i => (tasks i).program D) Unhindered c
        { world := w, pool := Function.update c.pool i (.running (k r)) } := by
      refine ⟨.run i o, ho, ?_⟩
      simp only [Machine.act, hp, hexec]
    have hother : ∀ j, j ≠ i →
        Function.update c.pool i (.running (k r)) j = c.pool j ∧
          Function.update d.state i ((d.state i).next cmd r) j = d.state j := by
      intro j hj
      exact ⟨Function.update_of_ne hj _ _, Function.update_of_ne hj _ _⟩
    cases hnext : ((d.state i).next cmd r).held with
    | none =>
      refine ⟨_, _, .single hstep, hsound, ?_, hother⟩
      dsimp only
      rw [Function.update_self]
      exact hnext
    | some id' =>
      have hheld' : (Function.update d.state i ((d.state i).next cmd r) i).held = some id' := by
        rw [Function.update_self]
        exact hnext
      rcases ih r hsound (Function.update_self _ _ _) hheld' with
        ⟨c', d', hrun, hsound', hreleased, hsame⟩
      refine ⟨c', d', hrun.head hstep, hsound', hreleased, fun j hj => ?_⟩
      exact ⟨(hsame j hj).left.trans (hother j hj).left,
        (hsame j hj).right.trans (hother j hj).right⟩
  | alt p q ihp _ =>
    have hstep : (machine D).Step (fun i => (tasks i).program D) Unhindered c
        { c with pool := Function.update c.pool i (.running p) } := by
      refine ⟨.left i, trivial, ?_⟩
      simp only [Machine.act, hp]
    rcases ihp (h.left hp) (Function.update_self _ _ _) hheld with
      ⟨c', d', hrun, hsound', hreleased, hsame⟩
    refine ⟨c', d', hrun.head hstep, hsound', hreleased, fun j hj => ?_⟩
    refine ⟨(hsame j hj).left.trans ?_, (hsame j hj).right⟩
    exact Function.update_of_ne hj _ _

/--
What a process waits for it gets in the end.
-/
theorem exists_free (h : Sound tasks c d) {p : Program Reply} (hp : c.pool i = .running p)
    (id : String)
    : ∃ c' d', (machine D).RunBy (fun i => (tasks i).program D) Unhindered c c' ∧
        Sound tasks c' d' ∧ c'.pool i = .running p ∧
        (c'.world.ledger.locks id = none ∨ c'.world.ledger.locks id = some i) := by
  cases hlock : c.world.ledger.locks id with
  | none => exact ⟨c, d, .refl, h, hp, .inl hlock⟩
  | some j =>
    by_cases hj : j = i
    . subst hj
      exact ⟨c, d, .refl, h, hp, .inr hlock⟩
    . rw [h.simulates.world] at hlock
      have hheld := h.locked id j hlock
      rcases h.running_of_held hheld with ⟨q, hq⟩
      rcases h.exists_released hq hheld with ⟨c', d', hrun, hsound, hreleased, hsame⟩
      refine ⟨c', d', hrun, hsound, ?_, .inl ?_⟩
      . rw [(hsame i (Ne.symm hj)).left]
        exact hp
      . rw [hsound.simulates.world]
        cases hlock' : d'.world.ledger.locks id with
        | none => rfl
        | some k =>
          have hheld' := hsound.locked id k hlock'
          by_cases hk : k = j
          . subst hk
            rw [hreleased] at hheld'
            cases hheld'
          . rw [(hsame k hk).right] at hheld'
            have hlock₀ := h.inv.locks_of_held hheld'
            rw [hlock] at hlock₀
            injection hlock₀ with hjk
            exact absurd hjk.symm hk

end Sound

theorem serving (tasks : Pid → Task)
    : Machine.Serving (M := machine D) (fun i => (tasks i).program D) Unhindered
        (fun c => ∃ d, Sound tasks c d) := by
  refine ⟨?_, fun _ _ => trivial, ?_, ?_⟩
  . intro c a ha
    cases a with
    | run i o => trivial
    | left i => trivial
    | right i => trivial
    | _ => exact ha.elim
  . rintro c c' a ⟨d, hsound⟩ _ hact
    rcases hsound.act hact with ⟨d', _, hsound'⟩
    exact ⟨d', hsound'⟩
  . rintro c i cmd k ⟨d, hsound⟩ hop
    have hready : ∃ c₁ d₁, (machine D).RunBy (fun i => (tasks i).program D) Unhindered c c₁ ∧
        Sound tasks c₁ d₁ ∧ c₁.pool i = .running (.op cmd k) ∧
        ∀ id, cmd = .selectForUpdate id →
          c₁.world.ledger.locks id = none ∨ c₁.world.ledger.locks id = some i := by
      by_cases hselect : ∃ id, cmd = .selectForUpdate id
      . rcases hselect with ⟨id, hcmd⟩
        rcases hsound.exists_free hop id with ⟨c₁, d₁, hrun, hsound₁, hop₁, hfree⟩
        refine ⟨c₁, d₁, hrun, hsound₁, hop₁, fun id' hcmd' => ?_⟩
        rw [hcmd] at hcmd'
        injection hcmd' with hid
        rw [← hid]
        exact hfree
      . exact ⟨c, d, .refl, hsound, hop, fun id hcmd => absurd ⟨id, hcmd⟩ hselect⟩
    rcases hready with ⟨c₁, d₁, hrun, hsound₁, hop₁, hfree⟩
    rcases hsound₁.exists_exec hop₁ hfree with ⟨o, r, w, ho, hexec⟩
    refine ⟨{ world := w, pool := Function.update c₁.pool i (.running (k r)) }, r, ?_, ?_⟩
    . refine hrun.tail ⟨.run i o, ho, ?_⟩
      simp only [Machine.act, hop₁, hexec]
    . exact Function.update_self _ _ _

theorem Reachable.exists_sound {c : System D} (h : c.Reachable D tasks) : ∃ d, Sound tasks c d := by
  rcases h with ⟨c₀, hstart, hrun⟩
  induction hrun with
  | refl =>
    refine ⟨party tasks c₀.world, hstart.resting.simulates, hstart.resting.inv, ?_, ?_, ?_⟩
    . exact ⟨_, Start.books hstart, .refl⟩
    . intro id i hlock
      rcases hstart.world with ⟨stats, _, hworld⟩
      rw [show (party (D := D) tasks c₀.world).world = c₀.world from rfl, hworld] at hlock
      cases hlock
    . intro i hdead
      rw [hstart.idle i] at hdead
      cases hdead
  | tail _ hstep ih =>
    rcases ih with ⟨d, hsound⟩
    rcases hstep with ⟨a, _, hact⟩
    rcases hsound.act hact with ⟨d', _, hsound'⟩
    exact ⟨d', hsound'⟩

/--
The service never gets stuck. Whatever has failed, gone down or been lost so far, the calls that are
under way can all be brought to their ends by their own steps, without any help from outside.
-/
theorem all_can_finish {c : System D} (h : c.Reachable D tasks)
    : ∃ c' : System D, (machine D).RunBy (fun i => (tasks i).program D) Unhindered c c' ∧
        ∀ i p, c.pool i = .running p → ∃ r, (c'.pool i).result = some r := by
  have hgood := h.exists_sound
  rcases h with ⟨c₀, hstart, hrun⟩
  rcases hrun.exists_started hstart.idle with ⟨started, _, hstarted⟩
  have hpids : ∀ i, (c.pool i).busy = true → i ∈ started := by
    intro i hbusy
    rw [hstarted]
    intro hidle
    rw [hidle] at hbusy
    cases hbusy
  exact (serving tasks).exists_finished hgood hpids

end System

namespace Scenario

-- An event that names the payment by its key.
def keyEvent : IncomingWebhook :=
  webhook "payment.captured" [("upi_txn_id", .str "upi-1"), ("idempotencyKey", .str "order-7")]

end Scenario

namespace System

open Scenario in
/--
The worker waits for the row that `create` has locked.
-/
theorem all_can_finish_waiting
    : ∃ c : System deployment,
        (c.pool ⟨0, 2⟩).busy = true ∧ c.world.ledger.locks "txn-1" = some ⟨0, 0⟩ ∧
        (machine deployment).act (fun i => (Scenario.tasks keyEvent i).program deployment)
          (.run ⟨0, 2⟩ {}) c = none ∧
        ∃ c' : System deployment,
          (machine deployment).RunBy (fun i => (Scenario.tasks keyEvent i).program deployment)
            Unhindered c c' ∧
          ∀ i p, c.pool i = .running p → ∃ r, (c'.pool i).result = some r := by
  let p (c : System deployment) : Bool :=
    (c.pool ⟨0, 2⟩).busy && (decide (c.world.ledger.locks "txn-1" = some ⟨0, 0⟩) &&
      ((machine deployment).act (fun i => (Scenario.tasks keyEvent i).program deployment)
        (.run ⟨0, 2⟩ {}) c).isNone)
  have hrun : (outcome (Scenario.tasks keyEvent) (.spawn ⟨0, 0⟩ :: steps ⟨0, 0⟩ 4 ++
      .run ⟨0, 0⟩ { id := "txn-1" } :: steps ⟨0, 0⟩ 3 ++ deliver ++
      .spawn ⟨0, 2⟩ :: steps ⟨0, 2⟩ 5)).any p = true := by
    decide +kernel
  rcases exists_reachable hrun with ⟨c, hc, hp⟩
  simp only [p, Bool.and_eq_true, decide_eq_true_eq, Option.isNone_iff_eq_none] at hp
  exact ⟨c, hp.left, hp.right.left, hp.right.right, all_can_finish hc⟩

end System

end PaymentOrchestration
