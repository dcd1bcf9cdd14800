import PaymentOrchestration.Party.Ground
import PaymentOrchestration.Transactions.LockProtocol

/-!
This module is about the commands of a process that keeps to the protocol of its lock: what one of
them may do to the value under the key, and what is seen of it.
-/

namespace PaymentOrchestration

open TransactionsService

/--
What process `x` does to its lock in one step, and what is seen of it. `lost` says whether the answer
of the server is lost.
-/
inductive LockStep (x : Pid) (key : String) (w w' : World) (lost : Prop)
    : LockStage → LockStage → List LockEvent → Prop where
  | acquire (place : Place) (hfree : w.storedAt place (redisKey key) = none)
      (hplace : place = .server ∨
        place = .memory x.inst ∧ (w'.mem x.inst).isMockMode = true)
    : LockStep x key w w' lost .asking (.owning false)
        [.wrote x place (redisKey key) (some .processing), .acquired x place (redisKey key)]
  | refuse : LockStep x key w w' lost .asking .refused []
  | lose (hlost : lost) (hfree : w.storedAt .server (redisKey key) = none)
    : LockStep x key w w' lost .asking .asking [.wrote x .server (redisKey key) (some .processing)]
  | look (hmem : (w.mem x.inst).isMockMode = false)
    : LockStep x key w w' lost .refused .reading [.reading x (redisKey key)]
  | miss (stage : LockStage) (place : Place) (hstage : stage = .refused ∨ stage = .reading)
      (hplace : place = .server ∧ stage = .reading ∨
        place = .memory x.inst ∧ (w'.mem x.inst).isMockMode = true)
      (hmissing : w.storedAt place (redisKey key) ≠ some .processing)
    : LockStep x key w w' lost stage (.armed false) [.missed x (redisKey key)]
  | find (stage : LockStage) (hstage : stage = .refused ∨ stage = .reading)
    : LockStep x key w w' lost stage .over []
  | send (stage stage' : LockStage) (hmem : (w.mem x.inst).isMockMode = false)
      (hstage : (∃ sent, stage = .owning sent ∧ stage' = .owning true) ∨
        ∃ sent, stage = .armed sent ∧ stage' = .armed true)
    : LockStep x key w w' lost stage stage' [.writing x (redisKey key)]
  | write (stage stage' : LockStage) (place : Place) (value : Option Stored)
      (hvalue : value = none ∨ ∃ t, value = some (.completed t))
      (hplace : place = .server ∧ stage.online ∨
        place = .memory x.inst ∧ (w'.mem x.inst).isMockMode = true)
      (hstage : (∃ sent, stage = .owning sent ∧ stage' = .released) ∨
        ∃ sent, stage = .armed sent ∧ stage' = .over)
    : LockStep x key w w' lost stage stage' [.wrote x place (redisKey key) value]
  | fail (hlost : lost) (stage : LockStage) (value : Option Stored)
      (hvalue : value = none ∨ ∃ t, value = some (.completed t))
      (hstage : stage = .owning true ∨ stage = .armed true)
    : LockStep x key w w' lost stage stage [.wrote x .server (redisKey key) value]
  | stay (stage : LockStage) : LockStep x key w w' lost stage stage []

def LockEvent.pid (event : LockEvent) : Pid :=
  match event with
  | .wrote pid _ _ _ | .acquired pid _ _ | .reading pid _ | .writing pid _ | .missed pid _
  | .failed pid _ => pid

def LockEvent.key? (event : LockEvent) : Option String :=
  match event with
  | .wrote _ _ key _ | .acquired _ _ key | .reading _ key | .writing _ key | .missed _ key => some key
  | .failed _ _ => none

theorem MockOp.mem_answered {x : Pid} {place : Place} {op : MockOp} {reply : op.Reply}
    {event : LockEvent} (h : event ∈ op.answered x place reply)
    : event.pid = x ∧ event.key? = some op.key := by
  unfold MockOp.answered at h
  split at h
  . rw [List.mem_singleton] at h
    subst h
    exact ⟨rfl, rfl⟩
  . rw [List.mem_pair] at h
    rcases h with h | h
    all_goals
      subst h
      exact ⟨rfl, rfl⟩
  . rw [List.mem_singleton] at h
    subst h
    exact ⟨rfl, rfl⟩
  . rw [List.mem_singleton] at h
    subst h
    exact ⟨rfl, rfl⟩
  . cases h

theorem MockOp.mem_bypassed {x : Pid} {op : MockOp} {event : LockEvent} (h : event ∈ op.bypassed x)
    : event.pid = x ∧ event.key? = some op.key := by
  unfold MockOp.bypassed at h
  split at h
  . rw [List.mem_singleton] at h
    subst h
    exact ⟨rfl, rfl⟩
  . rw [List.mem_singleton] at h
    subst h
    exact ⟨rfl, rfl⟩
  . rw [List.mem_singleton] at h
    subst h
    exact ⟨rfl, rfl⟩
  . cases h

-- A step on a lock is seen under the key of it.
theorem LockStep.key?_eq {x : Pid} {key : String} {w w' : World} {lost : Prop}
    {stage stage' : LockStage} {events : List LockEvent}
    (h : LockStep x key w w' lost stage stage' events) {event : LockEvent} (hevent : event ∈ events)
    : event.key? = some (redisKey key) := by
  cases h with
  | acquire place hfree hplace =>
    rw [List.mem_pair] at hevent
    rcases hevent with hevent | hevent
    all_goals
      subst hevent
      rfl
  | refuse => cases hevent
  | find stage hstage => cases hevent
  | stay stage => cases hevent
  | _ =>
    rw [List.mem_singleton] at hevent
    subst hevent
    rfl

-- The memory of an instance is written when it works in memory.
theorem LockStep.isMockMode_of_wrote {x : Pid} {key : String} {w w' : World} {lost : Prop}
    {stage stage' : LockStage} {events : List LockEvent}
    (h : LockStep x key w w' lost stage stage' events) {pid : Pid} {inst : Nat} {key' : String}
    {value : Option Stored} (hwrote : .wrote pid (.memory inst) key' value ∈ events)
    : (w'.mem inst).isMockMode = true := by
  cases h with
  | acquire place hfree hplace =>
    simp only [List.mem_pair, LockEvent.wrote.injEq, reduceCtorEq, or_false] at hwrote
    rcases hplace with hplace | ⟨hplace, hmem⟩
    . rw [hplace] at hwrote
      cases hwrote.right.left
    . rw [hplace] at hwrote
      injection hwrote.right.left with hinst
      rw [hinst, hmem]
  | write stage stage' place value' hvalue hplace hstage =>
    simp only [List.mem_singleton, LockEvent.wrote.injEq] at hwrote
    rcases hplace with ⟨hplace, _⟩ | ⟨hplace, hmem⟩
    . rw [hplace] at hwrote
      cases hwrote.right.left
    . rw [hplace] at hwrote
      injection hwrote.right.left with hinst
      rw [hinst, hmem]
  | _ => simp at hwrote

/--
An event is about the process that has issued the command and about the key of it.
-/
theorem mem_seesLocks {D : Deployment} {x : Pid} {cmd : Cmd} {o : Oracle} {w : World}
    {event : LockEvent} (h : event ∈ seesLocks D x cmd o w)
    : event.pid = x ∧
        ((∃ op, cmd.op? = some op ∧ event.key? = some op.key) ∨ event.key? = none) := by
  cases cmd with
  | mock op =>
    simp only [seesLocks] at h
    split at h
    . exact ⟨(MockOp.mem_answered h).left, .inl ⟨op, rfl, (MockOp.mem_answered h).right⟩⟩
    . exact ⟨(MockOp.mem_bypassed h).left, .inl ⟨op, rfl, (MockOp.mem_bypassed h).right⟩⟩
  | fallback op => exact ⟨(MockOp.mem_answered h).left, .inl ⟨op, rfl, (MockOp.mem_answered h).right⟩⟩
  | client op =>
    simp only [seesLocks] at h
    split at h
    . exact ⟨(MockOp.mem_answered h).left, .inl ⟨_, rfl, (MockOp.mem_answered h).right⟩⟩
    . cases h
    . have h := List.mem_of_mem_filter h
      exact ⟨(MockOp.mem_answered h).left, .inl ⟨_, rfl, (MockOp.mem_answered h).right⟩⟩
  | race n => cases h
  | _ =>
    simp only [seesLocks] at h
    split at h
    . rw [List.mem_singleton] at h
      subst h
      exact ⟨rfl, .inr rfl⟩
    . cases h

-- A command that is not about the lock is not seen to be about it.
theorem Cmd.unlocked.not_mem {D : Deployment} {x : Pid} {cmd : Cmd} {o : Oracle} {w : World}
    (hcmd : cmd.unlocked) {event : LockEvent} (h : event ∈ seesLocks D x cmd o w) (key : String)
    : event.key? ≠ some (redisKey key) := by
  intro hkey
  rcases (mem_seesLocks h).right with ⟨op, hop, hevent⟩ | hnone
  . rw [hevent] at hkey
    injection hkey with hkey
    exact hcmd op hop key hkey
  . rw [hnone] at hkey
    cases hkey

section Steps

variable {D : Deployment} {x : Pid} {key : String} {stage : LockStage} {o : Oracle} {w w' : World}
  {lost : Prop}

-- An operation on the lock that is answered in memory.
theorem LockStep.of_answered {op : MockOp} (hkey : op.key = redisKey key)
    (hpermits : stage.permits op) (hmem : (w'.mem x.inst).isMockMode = true)
    : LockStep x key w w' lost stage (stage.answered op (op.run (w.mem x.inst).mockStore).1)
        (op.answered x (.memory x.inst) (op.run (w.mem x.inst).mockStore).1) := by
  cases op with
  | get key' =>
    change key' = redisKey key at hkey
    subst hkey
    have hstage : stage = .refused ∨ stage = .reading := by
      cases stage <;> simp [LockStage.permits] at hpermits ⊢
    simp only [MockOp.run]
    cases hvalue : ((w.mem x.inst).mockStore (redisKey key)).filter Stored.truthy with
    | none =>
      apply LockStep.miss stage (.memory x.inst) hstage (.inr ⟨rfl, hmem⟩)
      intro hprocessing
      change (w.mem x.inst).mockStore (redisKey key) = _ at hprocessing
      rw [hprocessing] at hvalue
      cases hvalue
    | some value => exact .find stage hstage
  | set key' value mode =>
    change key' = redisKey key at hkey
    subst hkey
    simp only [MockOp.run]
    cases stage with
    | asking =>
      have hop : value = .processing ∧ mode = some .NX := by
        rcases value with _ | _ | _ <;> rcases mode with _ | _ | _ <;>
          simp [LockStage.permits] at hpermits ⊢
      rcases hop with ⟨hvalue, hmode⟩
      subst hvalue hmode
      split
      . exact .refuse
      . next hfree =>
        apply LockStep.acquire (.memory x.inst) _ (.inr ⟨rfl, hmem⟩)
        change (w.mem x.inst).mockStore (redisKey key) = none
        simpa using hfree
    | owning sent | armed sent =>
      have hop : (∃ t, value = .completed t) ∧ mode = none := by
        rcases value with _ | _ | _ <;> rcases mode with _ | _ | _ <;>
          simp [LockStage.permits] at hpermits ⊢
      rcases hop with ⟨⟨t, hvalue⟩, hmode⟩
      subst hvalue hmode
      rw [if_neg (by simp)]
      refine .write _ _ (.memory x.inst) (some (.completed t)) (.inr ⟨t, rfl⟩) (.inr ⟨rfl, hmem⟩) ?_
      simp [LockStage.answered]
    | _ =>
      rcases value with _ | _ | _ <;> rcases mode with _ | _ | _ <;>
        simp [LockStage.permits] at hpermits
  | del key' =>
    change key' = redisKey key at hkey
    subst hkey
    cases stage with
    | owning sent =>
      refine .write _ _ (.memory x.inst) none (.inl rfl) (.inr ⟨rfl, hmem⟩) ?_
      simp [LockStage.answered]
    | _ => simp [LockStage.permits] at hpermits
  | lpush queue item => cases stage <;> simp [LockStage.permits] at hpermits
  | brpop queue => cases stage <;> simp [LockStage.permits] at hpermits

-- One that is not answered in memory.
theorem LockStep.of_bypassed {op : MockOp} (hkey : op.key = redisKey key)
    (hpermits : stage.permits op) (hreading : stage ≠ .reading)
    (hmem : (w.mem x.inst).isMockMode = false)
    : LockStep x key w w' lost stage (stage.bypassed op) (op.bypassed x) := by
  cases op with
  | get key' =>
    change key' = redisKey key at hkey
    subst hkey
    have hstage : stage = .refused := by
      cases stage <;> simp [LockStage.permits] at hpermits hreading ⊢
    subst hstage
    exact .look hmem
  | set key' value mode =>
    change key' = redisKey key at hkey
    subst hkey
    rcases value with _ | _ | _ <;> rcases mode with _ | _ | _ <;> cases stage <;>
      simp only [LockStage.permits] at hpermits
    . exact .stay _
    . exact .send _ _ hmem (.inl ⟨_, rfl, rfl⟩)
    . exact .send _ _ hmem (.inr ⟨_, rfl, rfl⟩)
  | del key' =>
    change key' = redisKey key at hkey
    subst hkey
    cases stage with
    | owning sent => exact .send _ _ hmem (.inl ⟨_, rfl, rfl⟩)
    | _ => simp [LockStage.permits] at hpermits
  | lpush queue item => cases stage <;> simp [LockStage.permits] at hpermits
  | brpop queue => cases stage <;> simp [LockStage.permits] at hpermits

-- One that gets to the server. The answer may be lost.
theorem LockStep.of_client {op : ClientOp} (hkey : op.plain.key = redisKey key)
    (hpermits : stage.permits op.plain) (honline : stage.online)
    : LockStep x key w w' lost stage
          (stage.answered op.plain (op.plainReply (op.run w.clock w.redis).1))
          (op.plain.answered x .server (op.plainReply (op.run w.clock w.redis).1)) ∧
        (lost → LockStep x key w w' lost stage stage
          ((op.plain.answered x .server (op.plainReply (op.run w.clock w.redis).1)).filter
            LockEvent.isWrite)) := by
  cases op with
  | get key' =>
    change key' = redisKey key at hkey
    subst hkey
    have hstage : stage = .reading := by
      cases stage <;> simp [ClientOp.plain, LockStage.permits, LockStage.online] at hpermits honline ⊢
    subst hstage
    simp only [ClientOp.run, ClientOp.plain, ClientOp.plainReply]
    cases hvalue : w.redis.lookup w.clock (redisKey key) with
    | none =>
      refine ⟨.miss _ .server (.inr rfl) (.inl ⟨rfl, rfl⟩) ?_, fun _ => .stay _⟩
      change w.redis.lookup w.clock (redisKey key) ≠ _
      rw [hvalue]
      simp
    | some value => exact ⟨.find _ (.inr rfl), fun _ => .stay _⟩
  | set key' value expiry mode =>
    change key' = redisKey key at hkey
    subst hkey
    simp only [ClientOp.run, ClientOp.plain, ClientOp.plainReply]
    cases stage with
    | asking =>
      have hop : value = .processing ∧ mode = some .NX := by
        rcases value with _ | _ | _ <;> rcases mode with _ | _ | _ <;>
          simp [ClientOp.plain, LockStage.permits] at hpermits ⊢
      rcases hop with ⟨hvalue, hmode⟩
      subst hvalue hmode
      split
      . exact ⟨.refuse, fun _ => .stay _⟩
      . next hfree =>
        have hfree' : w.storedAt .server (redisKey key) = none := by
          change w.redis.lookup w.clock (redisKey key) = none
          simpa using hfree
        exact ⟨.acquire .server hfree' (.inl rfl), fun hlost => .lose hlost hfree'⟩
    | owning sent | armed sent =>
      have hop : (∃ t, value = .completed t) ∧ mode = none := by
        rcases value with _ | _ | _ <;> rcases mode with _ | _ | _ <;>
          simp [ClientOp.plain, LockStage.permits] at hpermits ⊢
      rcases hop with ⟨⟨t, hvalue⟩, hmode⟩
      change sent = true at honline
      subst hvalue hmode honline
      rw [if_neg (by simp)]
      refine ⟨.write _ _ .server (some (.completed t)) (.inr ⟨t, rfl⟩) (.inl ⟨rfl, rfl⟩) ?_,
        fun hlost => .fail hlost _ (some (.completed t)) (.inr ⟨t, rfl⟩) ?_⟩
      . simp [LockStage.answered]
      . simp
    | _ =>
      rcases value with _ | _ | _ <;> rcases mode with _ | _ | _ <;>
        simp [ClientOp.plain, LockStage.permits] at hpermits
  | del key' =>
    change key' = redisKey key at hkey
    subst hkey
    cases stage with
    | owning sent =>
      change sent = true at honline
      subst honline
      refine ⟨.write _ _ .server none (.inl rfl) (.inl ⟨rfl, rfl⟩) ?_,
        fun hlost => .fail hlost _ none (.inl rfl) ?_⟩
      . simp [ClientOp.plain, LockStage.answered]
      . simp
    | _ => simp [ClientOp.plain, LockStage.permits] at hpermits
  | lpush queue item => cases stage <;> simp [ClientOp.plain, LockStage.permits] at hpermits
  | brpop queue => cases stage <;> simp [ClientOp.plain, LockStage.permits] at hpermits

/--
Every command that the protocol allows is about no lock or a step on the process's own.
-/
theorem lockStep_of_exec {cmd : Cmd} {r : Except Err cmd.Resp} {down : Prop}
    (hallowed : (Keeper.calling x key stage).allowed down cmd)
    (hexec : exec D x cmd o w = some (r, w'))
    : cmd.unlocked ∨
        ∃ stage', (Keeper.calling x key stage).next cmd r = .calling x key stage' ∧
          LockStep x key w w' (o.fault ≠ .none ∧ ∃ op, cmd = .client op) stage stage'
            (seesLocks D x cmd o w) := by
  rcases hallowed with ⟨_, hunlocked | hallowed⟩
  . exact .inl hunlocked
  . right
    cases cmd with
    | mock op =>
      rcases hallowed with ⟨hkey, hpermits, hreading⟩
      simp only [exec, Option.some.injEq, Prod.mk.injEq] at hexec
      rcases hexec with ⟨hr, hw⟩
      subst hr hw
      simp only [Exec.mock, seesLocks]
      cases hmem : (w.mem x.inst).isMockMode with
      | true =>
        refine ⟨stage.answered op (op.run (w.mem x.inst).mockStore).1, ?_, ?_⟩
        . simp [Keeper.next, hkey]
        . apply LockStep.of_answered hkey hpermits
          simp
      | false =>
        refine ⟨stage.bypassed op, ?_, ?_⟩
        . simp [Keeper.next, hkey]
        . exact LockStep.of_bypassed hkey hpermits hreading hmem
    | fallback op =>
      rcases hallowed with ⟨hkey, hpermits, _⟩
      simp only [exec, Option.some.injEq, Prod.mk.injEq] at hexec
      rcases hexec with ⟨hr, hw⟩
      subst hr hw
      refine ⟨stage.answered op (op.run (w.mem x.inst).mockStore).1, ?_, ?_⟩
      . simp [Keeper.next, hkey, Exec.fallback]
      . apply LockStep.of_answered hkey hpermits
        simp [Exec.fallback]
    | client op =>
      rcases hallowed with ⟨hkey, hpermits, honline⟩
      have hsteps := @LockStep.of_client x key stage w w'
        (o.fault ≠ .none ∧ ∃ op', Cmd.client op = .client op') op hkey hpermits honline
      unfold exec Exec.statement at hexec
      simp only [seesLocks]
      cases hfault : o.fault with
      | none =>
        rw [hfault] at hsteps
        simp only [hfault, Option.some.injEq, Prod.mk.injEq] at hexec
        rcases hexec with ⟨hr, _⟩
        subst hr
        refine ⟨stage.answered op.plain (op.plainReply (op.run w.clock w.redis).1), ?_, hsteps.left⟩
        simp [Keeper.next, hkey, Exec.client]
      | before =>
        simp only [hfault, Option.some.injEq, Prod.mk.injEq] at hexec
        rcases hexec with ⟨hr, _⟩
        subst hr
        exact ⟨stage, rfl, .stay stage⟩
      | after =>
        rw [hfault] at hsteps
        simp only [hfault, Option.some.injEq, Prod.mk.injEq] at hexec
        rcases hexec with ⟨hr, _⟩
        subst hr
        exact ⟨stage, rfl, hsteps.right ⟨by simp, op, rfl⟩⟩
    | _ => exact hallowed.elim

end Steps

end PaymentOrchestration
