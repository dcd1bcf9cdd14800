import PaymentOrchestration.Transactions.LockRuns

/-!
This module is about calls of `create` that release the lock of another call. All calls write the
same value and release it unconditionally, so a call keeps off the locks of the others only as long
as none of them gets the lock while it is still at work.
-/

namespace PaymentOrchestration

open Machine TransactionsService

namespace Watched

variable {D : Deployment} {tasks : Pid → Task}

/--
The value that is stored under the key is the `'processing'` of process `j`.
-/
def Holds (c : Watched D (seesLocks D)) (j : Pid) (place : Place) (key : String) : Prop :=
  lastWrite place (redisKey key) c.world.2 = some (j, some .processing) ∧
    c.world.1.storedAt place (redisKey key) = some .processing

/--
Process `i` has got the lock or has found nothing in the cache and is still at work, and it works
with the store at `place`.
-/
def Threatens (c : Watched D (seesLocks D)) (i : Pid) (key : String) (place : Place) : Prop :=
  (c.pool i).busy = true ∧
  match place with
  | .memory inst =>
    inst = i.inst ∧ ((∃ p, .acquired i p (redisKey key) ∈ c.world.2) ∨
      .missed i (redisKey key) ∈ c.world.2 ∨ .reading i (redisKey key) ∈ c.world.2)
  | .server =>
    ((∃ p, .acquired i p (redisKey key) ∈ c.world.2) ∨ .missed i (redisKey key) ∈ c.world.2) ∧
      ((c.world.1.mem i.inst).isMockMode = false ∨ .writing i (redisKey key) ∈ c.world.2)

/--
When `'processing'` is written no other call that is at work with the key works with the same store.
If the instance of the writer works in memory by then, nobody holds the lock in that memory.
-/
def Guarded (c : Watched D (seesLocks D)) (a : ((machine D).observed (seesLocks D)).Act) : Prop :=
  match a with
  | .run j o => ∀ cmd k, c.pool j = .running (.op cmd k) → ∀ place key,
    .wrote j place (redisKey key) (some .processing) ∈ seesLocks D j cmd o c.world.1 →
    ∀ i, i ≠ j → ¬c.Threatens i key place ∧
      (place = .server → (c.world.1.mem j.inst).isMockMode = true → (c.pool i).busy = true →
        ¬c.Holds i (.memory j.inst) key)
  | _ => True

/--
The action overwrites or deletes the `'processing'` of another call that has the lock and is still at
work.
-/
def TakesForeign (c : Watched D (seesLocks D)) (a : ((machine D).observed (seesLocks D)).Act)
    : Prop :=
  match a with
  | .run i o => ∃ cmd k, c.pool i = .running (.op cmd k) ∧ ∃ j place key value, j ≠ i ∧
    .wrote i place (redisKey key) value ∈ seesLocks D i cmd o c.world.1 ∧
    c.Holds j place key ∧ (c.pool j).busy = true ∧
    ∃ p, .acquired j p (redisKey key) ∈ c.world.2
  | _ => False

end Watched

/--
The stores that process `i` works with.
-/
def LockStage.reaches (stage : LockStage) (w : World) (i : Pid) (place : Place) : Prop :=
  match stage with
  | .owning sent | .armed sent =>
    place = .memory i.inst ∨
      place = .server ∧ ((w.mem i.inst).isMockMode = false ∨ sent = true)
  | .reading => place = .memory i.inst
  | _ => False

namespace Watched

variable {D : Deployment} {tasks : Pid → Task}

/--
No process works with a store where another one holds the lock.
-/
structure Apart (c : Watched D (seesLocks D)) (state : Pid → Keeper) : Prop where
  empty : ∀ inst, (c.world.1.mem inst).isMockMode = false →
    ∀ key, c.world.1.storedAt (.memory inst) (redisKey key) = none
  silent : ∀ i, c.pool i = .idle → ∀ event ∈ c.world.2, event.pid ≠ i
  apart : ∀ i j key stage place, i ≠ j → (c.pool i).busy = true → (c.pool j).busy = true →
    state i = .calling i key stage → stage.reaches c.world.1 i place → ¬c.Holds j place key

end Watched

section Reaches

variable {i : Pid} {stage : LockStage} {w w' : World} {place : Place}

-- An instance that starts to work in memory leaves the server.
theorem LockStage.reaches.anti
    (hmode : (w'.mem i.inst).isMockMode = false → (w.mem i.inst).isMockMode = false)
    (h : stage.reaches w' i place) : stage.reaches w i place := by
  cases stage with
  | owning sent | armed sent =>
    rcases h with h | ⟨h, hserver | hsent⟩
    . exact .inl h
    . exact .inr ⟨h, .inl (hmode hserver)⟩
    . exact .inr ⟨h, .inr hsent⟩
  | _ => exact h

-- The log shows which stores a process works with.
theorem LockStage.reaches.threatens {D : Deployment} {c : Watched D (seesLocks D)} {key : String}
    (h : stage.reaches c.world.1 i place) (hbusy : (c.pool i).busy = true)
    (htold : stage.Told i key c.world.2) : c.Threatens i key place := by
  refine ⟨hbusy, ?_⟩
  cases stage with
  | owning sent =>
    have hacquired := htold.acquired.mpr (.inr ⟨sent, rfl⟩)
    rcases h with h | ⟨h, hserver | hsent⟩
    . subst h
      exact ⟨rfl, .inl hacquired⟩
    . subst h
      exact ⟨.inl hacquired, .inl hserver⟩
    . subst h hsent
      exact ⟨.inl hacquired, .inr (htold.writing (.inl rfl))⟩
  | armed sent =>
    have hmissed := htold.missed sent rfl
    rcases h with h | ⟨h, hserver | hsent⟩
    . subst h
      exact ⟨rfl, .inr (.inl hmissed)⟩
    . subst h
      exact ⟨.inr hmissed, .inl hserver⟩
    . subst h hsent
      exact ⟨.inr hmissed, .inr (htold.writing (.inr rfl))⟩
  | reading =>
    change place = _ at h
    subst h
    exact ⟨rfl, .inr (.inr (htold.reading rfl))⟩
  | _ => exact h.elim

end Reaches

namespace Watched.Apart

variable {D : Deployment} {tasks : Pid → Task} {gateways : List GatewayProvider}
  {L : List LockEvent} {down : Prop} {c c' : Watched D (seesLocks D)}
  {d d' : ((machine D).observed (seesLocks D)).Parties (lockProtocol gateways L down)}
  {a : ((machine D).observed (seesLocks D)).Act} {x : Pid} {key : String} {lost : Prop}
  {stage stage' : LockStage} {events : List LockEvent} {place : Place}

theorem start (h : c.Start) : c.Apart (fun i => (tasks i).keeper i) := by
  rcases h.system.world with ⟨gatewayStats, _, hworld⟩
  have hworld' : c.world.1 = World.start gatewayStats := hworld
  refine ⟨?_, ?_, ?_⟩
  . intro inst _ key
    rw [hworld']
    rfl
  . intro i _ event hevent
    rw [h.log] at hevent
    cases hevent
  . intro i j key stage place _ hbusy
    have hidle : c.pool i = .idle := h.system.idle i
    rw [hidle] at hbusy
    cases hbusy

/--
Whoever has written `'processing'` works with no store where another one holds the lock, and neither
does one that has found nothing.
-/
theorem of_own (h : c.Apart d.state)
    (hown : OwnStep x key lost stage stage' events c.world.1 c'.world.1 c.world.2 c'.world.2 d.state
      d'.state)
    (hmode : (c'.world.1.mem x.inst).isMockMode = false → (c.world.1.mem x.inst).isMockMode = false)
    (hbusy : (c.pool x).busy = true) {j : Pid} (hj : j ≠ x) (hjbusy : (c.pool j).busy = true)
    (hguarded : ∀ place, .wrote x place (redisKey key) (some .processing) ∈ events →
      place = .server → (c.world.1.mem x.inst).isMockMode = true →
      ¬c.Holds j (.memory x.inst) key)
    (hreaches : stage'.reaches c'.world.1 x place) (hnew : lastWrite place (redisKey key) events = none)
    : ¬c.Holds j place key := by
  have hold : stage.reaches c.world.1 x place → ¬c.Holds j place key := by
    intro hreaches'
    exact h.apart x j key stage place (Ne.symm hj) hbusy hjbusy hown.before hreaches'
  have hempty : (c.world.1.mem x.inst).isMockMode = false → ¬c.Holds j (.memory x.inst) key := by
    rintro hmem ⟨_, hstored⟩
    rw [h.empty x.inst hmem key] at hstored
    cases hstored
  have hanti := fun h' : stage.reaches c'.world.1 x place => h'.anti hmode
  cases hown.step with
  | acquire place₀ hfree hplace =>
    rcases hreaches with hmemory | ⟨hserver, hmem | hsent⟩
    . subst hmemory
      rcases hplace with hplace | ⟨hplace, _⟩
      . cases hmem : (c.world.1.mem x.inst).isMockMode with
        | false => exact hempty hmem
        | true => exact hguarded place₀ List.mem_cons_self hplace hmem
      . subst hplace
        rw [lastWrite_eq_none] at hnew
        exact absurd List.mem_cons_self (hnew x _)
    . subst hserver
      rcases hplace with hplace | ⟨_, hmock⟩
      . subst hplace
        rw [lastWrite_eq_none] at hnew
        exact absurd List.mem_cons_self (hnew x _)
      . rw [hmem] at hmock
        cases hmock
    . cases hsent
  | look hmem =>
    change place = _ at hreaches
    subst hreaches
    exact hempty hmem
  | miss stage place₀ hstage hplace hmissing =>
    rcases hreaches with hmemory | ⟨hserver, hmem | hsent⟩
    . subst hmemory
      rcases hplace with ⟨_, hstage'⟩ | ⟨hplace, _⟩
      . subst hstage'
        exact hold rfl
      . subst hplace
        rintro ⟨_, hstored⟩
        exact hmissing hstored
    . subst hserver
      rcases hplace with ⟨hplace, _⟩ | ⟨_, hmock⟩
      . subst hplace
        rintro ⟨_, hstored⟩
        exact hmissing hstored
      . rw [hmem] at hmock
        cases hmock
    . cases hsent
  | send stage stage' hmem hstage =>
    apply hold
    rcases hstage with ⟨sent, hstage, hstage'⟩ | ⟨sent, hstage, hstage'⟩
    all_goals
      subst hstage hstage'
      rcases hreaches with hmemory | ⟨hserver, _⟩
      . exact .inl hmemory
      . exact .inr ⟨hserver, .inl hmem⟩
  | write stage stage' place₀ value hvalue hplace hstage =>
    rcases hstage with ⟨_, _, hstage'⟩ | ⟨_, _, hstage'⟩
    all_goals
      subst hstage'
      exact hreaches.elim
  | fail hlost stage value hvalue hstage => exact hold (hanti hreaches)
  | stay stage => exact hold (hanti hreaches)
  | refuse => exact hreaches.elim
  | lose hlost hfree => exact hreaches.elim
  | find stage hstage => exact hreaches.elim

theorem step (h : c.Apart d.state)
    (hsim : Simulates (fun i => (tasks i).keeper i) (fun i => (tasks i).kept D gateways L i) c d)
    (hkept : Kept tasks gateways c.world.1 c.world.2 d.state) (hP : c.Guarded a)
    (hmoves : Moves (fun i => (tasks i).program D) a c d c' d') : c'.Apart d'.state := by
  have hact := hmoves.act
  refine ⟨?_, ?_, ?_⟩
  . intro inst hmem key
    have hsame : (c.world.1.mem inst).isMockMode = false →
        c'.world.1.storedAt (.memory inst) (redisKey key) = none := by
      intro hmem'
      have hnone := h.empty inst hmem' key
      rcases hkept.cases hmoves with ⟨hleaves, _⟩ |
        ⟨x, o, cmd, k, dto, stage, stage', events, _, _, _, _, hown⟩
      . rcases hleaves.values (.memory inst) key with hvalue | hvalue
        . exact hvalue
        . rw [hvalue, hnone]
      . rcases hown.values (.memory inst) key with ⟨_, hvalue⟩ | ⟨value, hlast, _⟩
        . rw [hvalue, hnone]
        . have hmock := hown.step.isMockMode_of_wrote (mem_of_lastWrite hlast)
          rw [hmem] at hmock
          cases hmock
    rcases moves_isMockMode hmoves inst with heq | ⟨hmock, _⟩ | ⟨ha, _⟩
    . rw [heq] at hmem
      exact hsame hmem
    . rw [hmem] at hmock
      cases hmock
    . subst ha
      injection hact with hact
      rw [← hact]
      simp [World.storedAt, crashInst]
  . intro i hidle event hevent
    have hbefore := (act_idle hact i).mp hidle
    rcases act_world hact with hworld | ⟨j, o, cmd, k, r, _, hop, hexec⟩ | ⟨e, _, henv⟩ |
      ⟨n, _, hworld⟩
    . rw [hworld] at hevent
      exact h.silent i hbefore.left event hevent
    . rw [(observed_exec.mp hexec).right, List.mem_append] at hevent
      rcases hevent with hevent | hevent
      . exact h.silent i hbefore.left event hevent
      . rw [(mem_seesLocks hevent).left]
        intro hj
        subst hj
        rw [hop] at hbefore
        cases hbefore.left
    . rw [((observed_env (seesLocks D)).mp henv).right] at hevent
      exact h.silent i hbefore.left event hevent
    . rw [hworld] at hevent
      exact h.silent i hbefore.left event hevent
  . intro i j key stage place hij hi hj hstage hreaches hholds
    rcases act_busy hact hi with ⟨hi₀, hcrash⟩ | hspawn
    . rcases act_busy hact hj with ⟨hj₀, _⟩ | hspawn
      . have hmode : (c'.world.1.mem i.inst).isMockMode = false →
            (c.world.1.mem i.inst).isMockMode = false := by
          intro hmem
          rcases moves_isMockMode hmoves i.inst with heq | ⟨hmock, _⟩ | ⟨ha, _⟩
          . rw [← heq, hmem]
          . rw [hmem] at hmock
            cases hmock
          . exact absurd ha hcrash
        rcases hkept.cases hmoves with ⟨hleaves, hstate⟩ |
          ⟨x, o, cmd, k, dto, stage₀, stage', events, ha, hop, htask, hevents, hown⟩
        . rw [hstate] at hstage
          apply h.apart i j key stage place hij hi₀ hj₀ hstage (hreaches.anti hmode)
          rw [Holds, hleaves.lastWrite] at hholds
          refine ⟨hholds.left, ?_⟩
          rcases hleaves.values place key with hnone | heq
          . rw [hnone] at hholds
            cases hholds.right
          . rw [← heq]
            exact hholds.right
        . rcases hholds with ⟨hlast, hstored⟩
          rw [hown.log, lastWrite_append] at hlast
          cases hnew : lastWrite place (redisKey key) events with
          | some write =>
            rw [hnew, Option.some_or] at hlast
            injection hlast with hlast
            subst hlast
            have hwrote := mem_of_lastWrite hnew
            have hx : j = x := hown.pids _ hwrote
            subst hx ha
            rw [hown.after, Function.update_of_ne hij] at hstage
            rw [hevents] at hwrote
            apply (hP cmd k hop place key hwrote i hij).left
            apply (hreaches.anti hmode).threatens hi₀
            exact hkept.told hstage
          | none =>
            rw [hnew, Option.none_or] at hlast
            have hholds : c.Holds j place key := by
              refine ⟨hlast, ?_⟩
              rcases hown.values place key with ⟨_, heq⟩ | ⟨value, hsome, _⟩
              . rw [← heq]
                exact hstored
              . rw [hnew] at hsome
                cases hsome
            by_cases hx : i = x
            . subst hx
              rw [hown.after, Function.update_self] at hstage
              injection hstage with _ hkey hstage
              subst hkey hstage ha
              apply h.of_own hown hmode hi₀ (Ne.symm hij) hj₀ _ hreaches hnew hholds
              intro place₀ hwrote hplace hmem
              rw [hevents] at hwrote
              exact (hP cmd k hop place₀ _ hwrote j (Ne.symm hij)).right hplace hmem hj₀
            . rw [hown.after, Function.update_of_ne hx] at hstage
              exact h.apart i j key stage place hij hi₀ hj₀ hstage (hreaches.anti hmode) hholds
      . -- One that starts has not written anything yet.
        subst hspawn
        cases hmoves with
        | spawn _ hidle =>
          exact h.silent j hidle _ (mem_of_lastWrite hholds.left) rfl
    . subst hspawn
      cases hmoves with
      | spawn _ hidle =>
        have hfollows := hsim.follows i
        rw [hidle] at hfollows
        change d.state i = _ at hfollows
        rw [hstage] at hfollows
        unfold Task.keeper at hfollows
        split at hfollows
        . injection hfollows with _ _ hstage
          subst hstage
          exact hreaches.elim
        . cases hfollows

end Watched.Apart

-- A process writes what is free or what it works with.
theorem LockStep.reaches_of_wrote {x : Pid} {key : String} {w w' : World} {lost : Prop}
    {stage stage' : LockStage} {events : List LockEvent}
    (h : LockStep x key w w' lost stage stage' events) {pid : Pid} {place : Place}
    {value : Option Stored} (hwrote : .wrote pid place (redisKey key) value ∈ events)
    : w.storedAt place (redisKey key) = none ∨ stage.reaches w x place := by
  cases h with
  | acquire place' hfree hplace =>
    simp only [List.mem_pair, LockEvent.wrote.injEq, reduceCtorEq, or_false] at hwrote
    rw [hwrote.right.left]
    exact .inl hfree
  | lose hlost hfree =>
    simp only [List.mem_singleton, LockEvent.wrote.injEq] at hwrote
    rw [hwrote.right.left]
    exact .inl hfree
  | write stage stage' place' value' hvalue hplace hstage =>
    simp only [List.mem_singleton, LockEvent.wrote.injEq] at hwrote
    right
    rw [hwrote.right.left]
    rcases hstage with ⟨sent, hstage, _⟩ | ⟨sent, hstage, _⟩
    all_goals
      subst hstage
      rcases hplace with ⟨hplace, honline⟩ | ⟨hplace, _⟩
      . exact .inr ⟨hplace, .inr honline⟩
      . exact .inl hplace
  | fail hlost stage value' hvalue hstage =>
    simp only [List.mem_singleton, LockEvent.wrote.injEq] at hwrote
    right
    rw [hwrote.right.left]
    rcases hstage with hstage | hstage
    all_goals
      subst hstage
      exact .inr ⟨rfl, .inr rfl⟩
  | _ => simp at hwrote

namespace Watched

variable {D : Deployment} {tasks : Pid → Task}

/--
A call releases only its own lock as long as no lock is taken from under a call that is at work.
-/
theorem releases_own {c c' : Watched D (seesLocks D)} (h : c.ReachableBy tasks Guarded)
    {a : ((machine D).observed (seesLocks D)).Act}
    (hact : ((machine D).observed (seesLocks D)).act (fun i => (tasks i).program D) a c = some c')
    : ¬c.TakesForeign a := by
  rcases h.exists_keepers True (fun _ _ _ _ _ _ _ => .inr trivial) (fun c => Apart.start)
    (fun gateways L a c c' d d' hsim hP hkept _ hJ hmoves => hJ.step hsim hkept hP hmoves) with
    ⟨state, hkept, _, hapart, hallowed, _⟩
  intro htakes
  cases a with
  | run i o =>
    rcases htakes with ⟨cmd, k, hop, j, place, key, value, hj, hwrote, hholds, hjbusy, _⟩
    have hibusy : (c.pool i).busy = true := by
      rw [hop]
      rfl
    simp only [act, hop] at hact
    split at hact
    . next r w hexec =>
      have hallowed' := hallowed i cmd k hop
      by_cases htask : ∃ dto, tasks i = .create dto
      . rcases htask with ⟨dto, htask⟩
        rcases hkept.calling i dto htask with ⟨stage, hstate, _⟩
        rw [hstate] at hallowed'
        rcases lockStep_of_exec hallowed' (observed_exec.mp hexec).left with hunlocked |
          ⟨stage', _, hstep⟩
        . exact hunlocked.not_mem hwrote key rfl
        . have hkey := hstep.key?_eq hwrote
          injection hkey with hkey
          have hkey' := redisKey_inj hkey
          subst hkey'
          rcases hstep.reaches_of_wrote hwrote with hfree | hreaches
          . rw [hholds.right] at hfree
            cases hfree
          . exact hapart.apart i j dto.idempotencyKey stage place (Ne.symm hj) hibusy hjbusy hstate hreaches hholds
      . rw [hkept.free i (fun dto hdto => htask ⟨dto, hdto⟩)] at hallowed'
        rcases hallowed' with ⟨_, hunlocked | hfalse⟩
        . exact hunlocked.not_mem hwrote key rfl
        . exact hfalse
    . cases hact
  | _ => exact htakes

end Watched

namespace Scenario

-- Nobody else of those the log names is at work when a process takes a step.
def oneAtATime (c : Watched deployment (seesLocks deployment))
    (a : WatchedAct (seesLocks deployment)) : Bool :=
  match a with
  | .run j _ => c.world.2.all fun event => event.pid = j || !(c.pool event.pid).busy
  | _ => true

theorem guarded_of_oneAtATime {c : Watched deployment (seesLocks deployment)}
    {a : WatchedAct (seesLocks deployment)} (h : oneAtATime c a = true) : c.Guarded a := by
  cases a with
  | run j o =>
    intro cmd k _ place key _ i hi
    have hidle : ∀ event ∈ c.world.2, event.pid = i → (c.pool i).busy = false := by
      intro event hevent hpid
      have hevent' := List.all_eq_true.mp h event hevent
      rw [hpid] at hevent'
      simpa [hi] using hevent'
    refine ⟨?_, ?_⟩
    . rintro ⟨hbusy, hthreat⟩
      have hmem : ∃ event ∈ c.world.2, event.pid = i := by
        cases place with
        | memory inst =>
          rcases hthreat.right with ⟨p, hmem⟩ | hmem | hmem
          all_goals
            exact ⟨_, hmem, rfl⟩
        | server =>
          rcases hthreat.left with ⟨p, hmem⟩ | hmem
          all_goals
            exact ⟨_, hmem, rfl⟩
      rcases hmem with ⟨event, hevent, hpid⟩
      rw [hidle event hevent hpid] at hbusy
      cases hbusy
    . intro _ _ hbusy hholds
      rw [hidle _ (mem_of_lastWrite hholds.left) rfl] at hbusy
      cases hbusy
  | _ => trivial

-- The next step of the process deletes the lock of the key.
def deletes (i : Pid) (key : String) (c : Watched deployment (seesLocks deployment)) : Bool :=
  match c.pool i with
  | .running (.op cmd _) =>
    decide (.wrote i .server (redisKey key) none ∈ seesLocks deployment i cmd {} c.world.1)
  | _ => false

theorem exists_deleting {i : Pid} {key : String} {c : Watched deployment (seesLocks deployment)}
    (h : deletes i key c = true)
    : ∃ cmd k, c.pool i = .running (.op cmd k) ∧
        .wrote i .server (redisKey key) none ∈ seesLocks deployment i cmd {} c.world.1 := by
  unfold deletes at h
  split at h
  . next cmd k hop => exact ⟨cmd, k, hop, of_decide_eq_true h⟩
  . cases h

end Scenario

namespace Watched

open Scenario

/--
The insert of the first call fails and its lock is deleted, then the second call gets the lock.
-/
theorem releases_own_twice
    : ∃ c : Watched deployment (seesLocks deployment),
        .acquired ⟨0, 0⟩ .server (redisKey "order-7") ∈ c.world.2 ∧
        .acquired ⟨1, 0⟩ .server (redisKey "order-7") ∈ c.world.2 ∧
        ¬c.TakesForeign (.run ⟨1, 0⟩ {}) := by
  let acts : List Scenario.Act := .spawn ⟨0, 0⟩ :: steps ⟨0, 0⟩ 4 ++
    .run ⟨0, 0⟩ { fault := .before } :: steps ⟨0, 0⟩ 2 ++ .spawn ⟨1, 0⟩ :: steps ⟨1, 0⟩ 2
  let p (c : Watched deployment (seesLocks deployment)) : Bool :=
    decide (.acquired ⟨0, 0⟩ .server (redisKey "order-7") ∈ c.world.2) &&
    decide (.acquired ⟨1, 0⟩ .server (redisKey "order-7") ∈ c.world.2) &&
    (((machine deployment).observed (seesLocks deployment)).act
      (fun _ => (Task.create order).program deployment) (.run ⟨1, 0⟩ {}) c).isSome
  have hrun : (watchedOutcome oneAtATime (fun _ => .create order) (watched acts)).any p = true := by
    decide +kernel
  rcases exists_watched (fun c a => guarded_of_oneAtATime) hrun with ⟨c, hc, hp⟩
  simp only [p, Bool.and_eq_true, decide_eq_true_eq] at hp
  rcases hp with ⟨⟨hfirst, hsecond⟩, hact⟩
  rcases Option.isSome_iff_exists.mp hact with ⟨c', hact'⟩
  exact ⟨c, hfirst, hsecond, releases_own hc hact'⟩

/--
The lock of the first call expires and the second call gets it. Then the insert of the first call
fails and the first call deletes the lock of the second one.
-/
theorem deletes_foreign_lock
    : ∃ c : Watched deployment (seesLocks deployment), c.Reachable (fun _ => .create order) ∧
        (((machine deployment).observed (seesLocks deployment)).act
          (fun _ => (Task.create order).program deployment) (.run ⟨0, 0⟩ {}) c).isSome = true ∧
        c.TakesForeign (.run ⟨0, 0⟩ {}) := by
  let acts : List Scenario.Act := .spawn ⟨0, 0⟩ :: steps ⟨0, 0⟩ 4 ++ .env (.tick 10000) ::
    .spawn ⟨1, 0⟩ :: steps ⟨1, 0⟩ 2 ++ .run ⟨0, 0⟩ { fault := .before } :: steps ⟨0, 0⟩ 1
  let p (c : Watched deployment (seesLocks deployment)) : Bool :=
    (((machine deployment).observed (seesLocks deployment)).act
      (fun _ => (Task.create order).program deployment) (.run ⟨0, 0⟩ {}) c).isSome &&
    deletes ⟨0, 0⟩ "order-7" c &&
    decide (lastWrite .server (redisKey "order-7") c.world.2 = some (⟨1, 0⟩, some .processing)) &&
    decide (c.world.1.storedAt .server (redisKey "order-7") = some .processing) &&
    (c.pool ⟨1, 0⟩).busy && decide (.acquired ⟨1, 0⟩ .server (redisKey "order-7") ∈ c.world.2)
  have hrun : (watchedOutcome (fun _ _ => true) (fun _ => .create order) (watched acts)).any p =
      true := by
    decide +kernel
  rcases exists_watched (P := fun _ _ => True) (fun _ _ _ => trivial) hrun with ⟨c, hc, hp⟩
  simp only [p, Bool.and_eq_true, decide_eq_true_eq] at hp
  rcases hp with ⟨⟨⟨⟨⟨hact, hwrote⟩, hlast⟩, hstored⟩, hbusy⟩, hacquired⟩
  rcases exists_deleting hwrote with ⟨cmd, k, hop, hwrote⟩
  exact ⟨c, hc.reachable, hact, cmd, k, hop, ⟨1, 0⟩, .server, "order-7", none, by decide, hwrote,
    ⟨hlast, hstored⟩, hbusy, .server, hacquired⟩

end Watched

end PaymentOrchestration
