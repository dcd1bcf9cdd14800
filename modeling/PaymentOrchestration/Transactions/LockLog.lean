import PaymentOrchestration.Books.Effects
import PaymentOrchestration.Watched
import PaymentOrchestration.Webhooks.OffQueue

/-!
This module contains what an observer sees of the locks that calls of `create` take: who has written
the value under a key, on the server or in the memory of an instance.
-/

namespace PaymentOrchestration

open ReconciliationWorker

inductive Place where
  | server
  | memory (inst : Nat)
  deriving DecidableEq, Repr

def World.storedAt (w : World) (place : Place) (key : String) : Option Stored :=
  match place with
  | .server => w.redis.lookup w.clock key
  | .memory inst => (w.mem inst).mockStore key

inductive LockEvent where
  | wrote (pid : Pid) (place : Place) (key : String) (value : Option Stored)
  -- a `set` with `NX` was answered with `'OK'`
  | acquired (pid : Pid) (place : Place) (key : String)
  -- a `get` is not answered from memory and goes to the server
  | reading (pid : Pid) (key : String)
  -- the same of a `set` without `NX` and of a `del`
  | writing (pid : Pid) (key : String)
  -- a `get` has found nothing
  | missed (pid : Pid) (key : String)
  | failed (pid : Pid) (error : Err)
  deriving DecidableEq

/--
An operation was answered at a place.
-/
def MockOp.answered (pid : Pid) (place : Place) (op : MockOp) (reply : op.Reply)
    : List LockEvent :=
  match op, reply with
  | .get key, none => [.missed pid key]
  | .set key value (some .NX), true =>
    [.wrote pid place key (some value), .acquired pid place key]
  | .set key value _, true => [.wrote pid place key (some value)]
  | .del key, _ => [.wrote pid place key none]
  | _, _ => []

/--
An operation was not answered from memory.
-/
def MockOp.bypassed (pid : Pid) (op : MockOp) : List LockEvent :=
  match op with
  | .get key => [.reading pid key]
  | .set key _ none => [.writing pid key]
  | .del key => [.writing pid key]
  | _ => []

-- The same operation without its time to live.
def ClientOp.plain (op : ClientOp) : MockOp :=
  match op with
  | .get key => .get key
  | .set key value _ mode => .set key value mode
  | .del key => .del key
  | .lpush queue item => .lpush queue item
  | .brpop queue => .brpop queue

def ClientOp.plainReply (op : ClientOp) (reply : op.Reply) : op.plain.Reply :=
  match op, reply with
  | .get _, value => value
  | .set _ _ _ _, ok => ok
  | .del _, count => count
  | .lpush _ _, length => length
  | .brpop _, item => item

def LockEvent.isWrite (event : LockEvent) : Bool :=
  match event with
  | .wrote _ _ _ _ => true
  | _ => false

-- What the observer notes when process `pid` issues `cmd`.
def seesLocks (D : Deployment) (pid : Pid) (cmd : Cmd) (o : Oracle) (w : World) : List LockEvent :=
  match cmd with
  | .mock op =>
    if (w.mem pid.inst).isMockMode then
      op.answered pid (.memory pid.inst) (op.run (w.mem pid.inst).mockStore).1
    else
      op.bypassed pid
  | .fallback op => op.answered pid (.memory pid.inst) (op.run (w.mem pid.inst).mockStore).1
  | .client op =>
    let events := op.plain.answered pid .server (op.plainReply (op.run w.clock w.redis).1)
    match o.fault with
    | .none => events
    | .before => []
    -- the answer is lost
    | .after => events.filter LockEvent.isWrite
  | .race _ => []
  | cmd =>
    match exec D pid cmd o w with
    | some (.error error, _) => [.failed pid error]
    | _ => []

def LockEvent.written? (place : Place) (key : String) (event : LockEvent)
    : Option (Pid × Option Stored) :=
  match event with
  | .wrote pid place' key' value => if place' = place ∧ key' = key then some (pid, value) else none
  | _ => none

-- Who has written what under a key.
def writesAt (place : Place) (key : String) (log : List LockEvent) : List (Pid × Option Stored) :=
  log.filterMap (LockEvent.written? place key)

def lastWrite (place : Place) (key : String) (log : List LockEvent) : Option (Pid × Option Stored) :=
  (writesAt place key log).getLast?

section Log

variable {place : Place} {key : String} {log events : List LockEvent}

theorem mem_writesAt {x : Pid × Option Stored}
    : x ∈ writesAt place key events ↔ .wrote x.1 place key x.2 ∈ events := by
  unfold writesAt
  rw [List.mem_filterMap]
  constructor
  . rintro ⟨event, hevent, heq⟩
    cases event with
    | wrote pid place' key' value =>
      simp only [LockEvent.written?] at heq
      split at heq
      . next hat =>
        injection heq with heq
        subst heq
        rw [← hat.left, ← hat.right]
        exact hevent
      . cases heq
    | _ => cases heq
  . intro h
    exact ⟨_, h, by simp [LockEvent.written?]⟩

theorem writesAt_append
    : writesAt place key (log ++ events) = writesAt place key log ++ writesAt place key events := by
  exact List.filterMap_append

theorem lastWrite_append
    : lastWrite place key (log ++ events) =
        (lastWrite place key events).or (lastWrite place key log) := by
  unfold lastWrite
  rw [writesAt_append, List.getLast?_append]

theorem lastWrite_eq_none
    : lastWrite place key events = none ↔ ∀ pid value, .wrote pid place key value ∉ events := by
  unfold lastWrite
  rw [List.getLast?_eq_none_iff, List.eq_nil_iff_forall_not_mem]
  constructor
  . intro h pid value hmem
    exact h (pid, value) (mem_writesAt.mpr hmem)
  . intro h x hmem
    exact h x.1 x.2 (mem_writesAt.mp hmem)

-- Without a write the last one stays.
theorem lastWrite_append_of_none (h : lastWrite place key events = none)
    : lastWrite place key (log ++ events) = lastWrite place key log := by
  rw [lastWrite_append, h, Option.none_or]

end Log

-- The key that an operation is about.
def MockOp.key (op : MockOp) : String :=
  match op with
  | .get key => key
  | .set key _ _ => key
  | .del key => key
  | .lpush queue _ => queue
  | .brpop queue => queue

def MockOp.onQueue (op : MockOp) : Bool :=
  match op with
  | .lpush _ _ => true
  | .brpop _ => true
  | _ => false

-- The operation on a store, wherever it goes.
def Cmd.op? (cmd : Cmd) : Option MockOp :=
  match cmd with
  | .mock op => some op
  | .fallback op => some op
  | .client op => some op.plain
  | _ => none

section Effects

variable {D : Deployment} {i : Pid} {place place' : Place} {o : Oracle} {w w' : World} {key : String}

/--
What happens to the value under a key: nothing, or process `pid` writes it. What has been written may
be out of date at once.
-/
def Rewrites (pid : Pid) (place : Place) (key : String) (before after : Option Stored)
    (events : List LockEvent) : Prop :=
  (lastWrite place key events = none ∧ after = before) ∨
    ∃ value, lastWrite place key events = some (pid, value) ∧
      ∀ stored, after = some stored → value = some stored

theorem MockOp.lastWrite_answered {op : MockOp} {reply : op.Reply}
    (h : op.key ≠ key ∨ place' ≠ place)
    : lastWrite place key (op.answered i place' reply) = none := by
  rw [lastWrite_eq_none]
  intro pid value hmem
  unfold MockOp.answered at hmem
  split at hmem
  all_goals
    simp at hmem
  all_goals
    rcases hmem with ⟨_, hplace, hkey, _⟩
    subst hplace hkey
    simp [MockOp.key] at h

-- Reading leaves no write.
theorem MockOp.lastWrite_answered_get {key' : String} {value : Option Stored}
    : lastWrite place key (MockOp.answered i place' (.get key') value) = none := by
  cases value <;> rfl

theorem MockOp.run_of_ne {op : MockOp} {store : MockStore} (h : op.key ≠ key)
    : (op.run store).2 key = store key := by
  have hne : key ≠ op.key := Ne.symm h
  cases op with
  | get _ => rfl
  | set _ _ _ =>
    simp only [MockOp.run]
    split
    . rfl
    . exact Function.update_of_ne hne _ _
  | del _ => exact Function.update_of_ne hne _ _
  | lpush _ _ => exact Function.update_of_ne hne _ _
  | brpop _ =>
    simp only [MockOp.run]
    split
    . split
      . rfl
      . exact Function.update_of_ne hne _ _
    . rfl

-- In memory.
theorem MockOp.rewrites {op : MockOp} {store : MockStore} (h : op.key = key → op.onQueue = false)
    : Rewrites i place key (store key) ((op.run store).2 key)
        (op.answered i place (op.run store).1) := by
  by_cases hkey : op.key = key
  . cases op with
    | get key' => exact .inl ⟨MockOp.lastWrite_answered_get, rfl⟩
    | set key' value mode =>
      change key' = key at hkey
      subst hkey
      simp only [MockOp.run]
      split
      . exact .inl ⟨by rcases mode with _ | _ | _ <;> rfl, rfl⟩
      . refine .inr ⟨some value, ?_, by simp⟩
        rcases mode with _ | _ | _ <;>
          simp [MockOp.answered, lastWrite, writesAt, LockEvent.written?, List.filterMap_cons]
    | del key' =>
      change key' = key at hkey
      subst hkey
      exact .inr ⟨none, by simp [MockOp.answered, lastWrite, writesAt, LockEvent.written?],
        by simp [MockOp.run]⟩
    | lpush queue item => cases h hkey
    | brpop queue => cases h hkey
  . exact .inl ⟨MockOp.lastWrite_answered (.inl hkey), MockOp.run_of_ne hkey⟩

-- On the server, when the operation gets there.
theorem ClientOp.rewrites {op : ClientOp} {w : World} (h : op.plain.key = key → op.plain.onQueue = false)
    : Rewrites i .server key (w.storedAt .server key) ((Exec.client op w).2.storedAt .server key)
        (op.plain.answered i .server (op.plainReply (op.run w.clock w.redis).1)) := by
  have hlookup : ∀ {entry : Option Entry} {key' : String}, key' ≠ key →
      Redis.lookup { w.redis with entries := Function.update w.redis.entries key' entry } w.clock key =
        w.redis.lookup w.clock key := by
    intro entry key' hne
    simp only [Redis.lookup, Function.update_of_ne (Ne.symm hne)]
  by_cases hkey : op.plain.key = key
  . cases op with
    | get key' => exact .inl ⟨MockOp.lastWrite_answered_get, rfl⟩
    | set key' value expiry mode =>
      change key' = key at hkey
      subst hkey
      simp only [Exec.client, ClientOp.run]
      split
      . exact .inl ⟨by rcases mode with _ | _ | _ <;> rfl, rfl⟩
      . refine .inr ⟨some value, ?_, ?_⟩
        . rcases mode with _ | _ | _ <;>
            simp [ClientOp.plain, ClientOp.plainReply, MockOp.answered, lastWrite, writesAt,
              LockEvent.written?, List.filterMap_cons]
        . intro stored hstored
          simp only [World.storedAt, Redis.lookup, Function.update_self] at hstored
          split at hstored
          . split at hstored
            . exact hstored
            . cases hstored
          . exact hstored
    | del key' =>
      change key' = key at hkey
      subst hkey
      refine .inr ⟨none, ?_, ?_⟩
      . simp [ClientOp.plain, MockOp.answered, lastWrite, writesAt, LockEvent.written?]
      . simp [Exec.client, ClientOp.run, World.storedAt, Redis.lookup]
    | lpush queue item => cases h hkey
    | brpop queue => cases h hkey
  . refine .inl ⟨MockOp.lastWrite_answered (.inl hkey), ?_⟩
    cases op with
    | get key' => rfl
    | set key' value expiry mode =>
      simp only [Exec.client, ClientOp.run, World.storedAt]
      split
      . rfl
      . exact hlookup hkey
    | del key' => exact hlookup hkey
    | lpush queue item => rfl
    | brpop queue =>
      simp only [Exec.client, ClientOp.run, World.storedAt]
      split <;> rfl

theorem lastWrite_filter {events : List LockEvent}
    : lastWrite place key (events.filter LockEvent.isWrite) = lastWrite place key events := by
  unfold lastWrite writesAt
  rw [List.filterMap_filter]
  congr 1
  apply List.filterMap_congr
  intro event _
  cases event <;> rfl

-- The commands that are not about a store.
def Cmd.onStore (cmd : Cmd) : Bool :=
  cmd.op?.isSome

theorem exec_stores {cmd : Cmd} {r : Except Err cmd.Resp} (hcmd : cmd.onStore = false)
    (hexec : exec D i cmd o w = some (r, w'))
    : w'.redis = w.redis ∧ w'.mem = w.mem ∧ w'.clock = w.clock := by
  cases cmd with
  | mock op | client op | fallback op => cases hcmd
  | findTransaction conditions =>
    rcases Exec.findTransaction_cases hexec with ⟨_, hw⟩ | ⟨_, _, hw, _⟩
    all_goals
      rw [hw]
      exact ⟨rfl, rfl, rfl⟩
  | insertTransaction txn =>
    rcases Exec.insertTransaction_cases hexec with ⟨hw, _⟩ | ⟨_, _, _, hw⟩
    all_goals
      rw [hw]
      exact ⟨rfl, rfl, rfl⟩
  | insertAudit audit =>
    rcases Exec.insertAudit_cases hexec with hw | hw
    all_goals
      rw [hw]
      exact ⟨rfl, rfl, rfl⟩
  | begin =>
    rcases Exec.begin_cases hexec with ⟨hw, _⟩ | ⟨hw, _⟩
    all_goals
      rw [hw]
      exact ⟨rfl, rfl, rfl⟩
  | selectForUpdate id =>
    rcases Exec.selectForUpdate_cases hexec with ⟨_, _, ⟨hw, _⟩ | ⟨_, _, _, _, _, hw⟩⟩
    all_goals
      rw [hw]
      exact ⟨rfl, rfl, rfl⟩
  | saveTransaction row =>
    rcases Exec.saveTransaction_cases hexec with ⟨_, _, ⟨hw, _⟩ | ⟨_, hw⟩⟩
    all_goals
      rw [hw]
      exact ⟨rfl, rfl, rfl⟩
  | saveAudit audit =>
    rcases Exec.saveAudit_cases hexec with ⟨_, _, ⟨hw, _⟩ | ⟨_, hw⟩⟩
    all_goals
      rw [hw]
      exact ⟨rfl, rfl, rfl⟩
  | commit =>
    rcases Exec.commit_cases hexec with ⟨_, _, ⟨hw, _⟩ | ⟨_, hw⟩⟩
    all_goals
      rw [hw]
      exact ⟨rfl, rfl, rfl⟩
  | findEvent id =>
    rcases Exec.findEvent_cases hexec with ⟨hw, _⟩ | ⟨_, _, _, _, hw⟩
    all_goals
      rw [hw]
      exact ⟨rfl, rfl, rfl⟩
  | insertEvent event =>
    rcases Exec.insertEvent_cases hexec with hw | ⟨_, hw⟩
    all_goals
      rw [hw]
      exact ⟨rfl, rfl, rfl⟩
  | saveEvent event =>
    rcases Exec.statement_cases hexec with ⟨hw, _⟩ | ⟨hw, _⟩
    all_goals
      rw [hw]
      exact ⟨rfl, rfl, rfl⟩
  | findStats =>
    rcases Exec.query_cases hexec with ⟨hw, _⟩
    rw [hw]
    exact ⟨rfl, rfl, rfl⟩
  | findStatsOf gateway =>
    rcases Exec.query_cases hexec with ⟨hw, _⟩
    rw [hw]
    exact ⟨rfl, rfl, rfl⟩
  | saveStats stats =>
    rcases Exec.statement_cases hexec with ⟨hw, _⟩ | ⟨hw, _⟩
    all_goals
      rw [hw]
      exact ⟨rfl, rfl, rfl⟩
  | charge gateway request =>
    simp only [exec, Option.some.injEq, Prod.mk.injEq] at hexec
    rw [← hexec.right]
    exact ⟨rfl, rfl, rfl⟩
  | race n =>
    rcases Exec.race_cases hexec with ⟨_, _, ⟨_, _, _, hw⟩ | ⟨_, _, _, _, _, hw⟩ | ⟨_, _, _, _, hw⟩⟩
    all_goals
      rw [hw]
      exact ⟨rfl, rfl, rfl⟩
  | rollback | now =>
    simp only [exec, Option.some.injEq, Prod.mk.injEq] at hexec
    rw [← hexec.right]
    exact ⟨rfl, rfl, rfl⟩

-- The commands that are not about a store leave no writes.
theorem lastWrite_seesLocks {cmd : Cmd} (hcmd : cmd.onStore = false)
    : lastWrite place key (seesLocks D i cmd o w) = none := by
  rw [lastWrite_eq_none]
  intro pid value hmem
  cases cmd with
  | mock op | client op | fallback op => cases hcmd
  | race n => cases hmem
  | _ =>
    simp only [seesLocks] at hmem
    split at hmem
    . simp at hmem
    . cases hmem

/--
What a command does to the value under a key, anywhere.
-/
theorem exec_rewrites {cmd : Cmd} {r : Except Err cmd.Resp}
    (hqueue : ∀ op, cmd.op? = some op → op.key = key → op.onQueue = false)
    (hexec : exec D i cmd o w = some (r, w')) (place : Place)
    : Rewrites i place key (w.storedAt place key) (w'.storedAt place key)
        (seesLocks D i cmd o w) := by
  have hmemory : ∀ {op : MockOp} {m : Mem}, (op.key = key → op.onQueue = false) →
      m.mockStore = (op.run (w.mem i.inst).mockStore).2 →
      Rewrites i place key (w.storedAt place key)
        (World.storedAt { w with mem := Function.update w.mem i.inst m } place key)
        (op.answered i (.memory i.inst) (op.run (w.mem i.inst).mockStore).1) := by
    intro op m hop hm
    by_cases hplace : place = .memory i.inst
    . subst hplace
      simp only [World.storedAt, Function.update_self, hm]
      exact MockOp.rewrites hop
    . refine .inl ⟨MockOp.lastWrite_answered (.inr (Ne.symm hplace)), ?_⟩
      cases place with
      | server => rfl
      | memory inst =>
        have hne : inst ≠ i.inst := fun heq => hplace (by rw [heq])
        simp only [World.storedAt, Function.update_of_ne hne]
  by_cases hcmd : cmd.onStore = false
  . rcases exec_stores hcmd hexec with ⟨hredis, hmem, hclock⟩
    refine .inl ⟨lastWrite_seesLocks hcmd, ?_⟩
    cases place <;> simp [World.storedAt, hredis, hmem, hclock]
  . cases cmd with
    | mock op =>
      simp only [exec, Option.some.injEq, Prod.mk.injEq] at hexec
      rw [← hexec.right]
      simp only [seesLocks, Exec.mock]
      split
      . exact hmemory (hqueue op rfl) rfl
      . refine .inl ⟨?_, rfl⟩
        rw [lastWrite_eq_none]
        intro pid value hmem
        unfold MockOp.bypassed at hmem
        split at hmem <;> simp at hmem
    | fallback op =>
      simp only [exec, Option.some.injEq, Prod.mk.injEq] at hexec
      rw [← hexec.right]
      exact hmemory (hqueue op rfl) rfl
    | client op =>
      have hclient : Rewrites i place key (w.storedAt place key)
          ((Exec.client op w).2.storedAt place key)
          (op.plain.answered i .server (op.plainReply (op.run w.clock w.redis).1)) := by
        cases place with
        | server => exact ClientOp.rewrites (hqueue op.plain rfl)
        | memory inst => exact .inl ⟨MockOp.lastWrite_answered (.inr (by simp)), rfl⟩
      unfold exec Exec.statement at hexec
      simp only [seesLocks]
      cases hfault : o.fault with
      | none =>
        simp only [hfault, Option.some.injEq, Prod.mk.injEq] at hexec
        rw [← hexec.right]
        exact hclient
      | before =>
        simp only [hfault, Option.some.injEq, Prod.mk.injEq] at hexec
        rw [← hexec.right]
        exact .inl ⟨rfl, rfl⟩
      | after =>
        simp only [hfault, Option.some.injEq, Prod.mk.injEq] at hexec
        rw [← hexec.right]
        unfold Rewrites
        rw [lastWrite_filter]
        exact hclient
    | _ => exact absurd rfl hcmd

-- What happens by itself writes nothing, it may only take a value away.
theorem env_storedAt {e : EnvAct} (henv : envStep e w = some w') (place : Place) (key : String)
    : w'.storedAt place key = none ∨ w'.storedAt place key = w.storedAt place key := by
  cases e with
  | tick ms =>
    injection henv with henv
    subst henv
    cases place with
    | memory inst => exact .inr rfl
    | server =>
      simp only [World.storedAt, Redis.lookup]
      cases hentry : w.redis.entries key with
      | none => exact .inl rfl
      | some entry =>
        cases hexpire : entry.expireAt with
        | none => simp [hexpire]
        | some t =>
          simp only [hexpire]
          by_cases hlt : w.clock + ms < t
          . right
            simp [hlt, show w.clock < t by omega]
          . left
            simp [hlt]
  | lose key' =>
    injection henv with henv
    subst henv
    cases place with
    | memory inst => exact .inr rfl
    | server =>
      by_cases hkey : key = key'
      . subst hkey
        left
        simp [World.storedAt, Redis.lookup]
      . right
        simp [World.storedAt, Redis.lookup, hkey]
  | fallBack inst =>
    injection henv with henv
    subst henv
    cases place with
    | server => exact .inr rfl
    | memory inst' =>
      right
      by_cases hinst : inst' = inst
      . subst hinst
        simp [World.storedAt]
      . simp [World.storedAt, hinst]
  | settle n status =>
    simp only [envStep] at henv
    split at henv
    . split at henv
      . injection henv with henv
        subst henv
        cases place <;> exact .inr rfl
      . cases henv
    . cases henv

theorem crash_storedAt (inst : Nat) (w : World) (place : Place) (key : String)
    : (crashInst inst w).storedAt place key = none ∨
        (crashInst inst w).storedAt place key = w.storedAt place key := by
  cases place with
  | server => exact .inr rfl
  | memory inst' =>
    by_cases hinst : inst' = inst
    . subst hinst
      left
      simp [World.storedAt, crashInst]
    . right
      simp [World.storedAt, crashInst, hinst]

end Effects

end PaymentOrchestration
