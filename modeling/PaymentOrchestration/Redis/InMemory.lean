import Mathlib.Data.PNat.Defs
import PaymentOrchestration.Breaker.Calls
import PaymentOrchestration.Scenario

/-!
This module is about the two modes of `RedisService`: whether a caller can tell the in-memory store
from the Redis server.
-/

namespace PaymentOrchestration

namespace RedisService

/--
A call of the service. Redis takes positive durations only.
-/
inductive Call where
  | set (key : String) (value : Stored) (mode : Option SetMode)
      (durationMode : Option DurationMode) (duration : Option ℕ+)
  | get (key : String)
  | del (key : String)

inductive Result where
  | ok (ok : Bool)
  | value (value : Option Stored)
  | count (count : Nat)

def Call.program (call : Call) : Program Result :=
  match call with
  | .set key value mode durationMode duration => do
    return .ok (← RedisService.set key value mode durationMode (duration.map PNat.val))
  | .get key => do return .value (← RedisService.get key)
  | .del key => do return .count (← RedisService.del key)

/--
Some time passes, and then the service answers the call.
-/
def Serves (D : Deployment) (i : Pid) (x : Nat × Call) (w : World) (r : Result) (w' : World)
    : Prop :=
  (machine D).Completes i Healthy x.2.program { w with clock := w.clock + x.1 } (.ok r) w'

/-!
What the calls come to on the Redis server.
-/

def expiryOf (durationMode : Option DurationMode) (duration : Option Nat)
    : Option (DurationMode × Nat) :=
  match durationMode, duration with
  | some durationMode, some duration => some (durationMode, duration)
  | _, _ => none

-- The mode goes to the server only together with a duration.
def modeOf (mode : Option SetMode) (durationMode : Option DurationMode) (duration : Option Nat)
    : Option SetMode :=
  match expiryOf durationMode duration with
  | some _ => mode
  | none => none

def Call.onServer (call : Call) (now : Nat) (redis : Redis) : Result × Redis :=
  match call with
  | .set key value mode durationMode duration =>
    let expiry := expiryOf durationMode (duration.map PNat.val)
    let mode := modeOf mode durationMode (duration.map PNat.val)
    let r := ClientOp.run (.set key value expiry mode) now redis
    (.ok r.1, r.2)
  | .get key => (.value (redis.lookup now key), redis)
  | .del key =>
    let r := ClientOp.run (.del key) now redis
    (.count r.1, r.2)

def Call.inMemory (call : Call) (store : MockStore) : Result × MockStore :=
  match call with
  | .set key value mode _ _ =>
    let r := MockOp.run (.set key value mode) store
    (.ok r.1, r.2)
  | .get key =>
    let r := MockOp.run (.get key) store
    (.value r.1, r.2)
  | .del key =>
    let r := MockOp.run (.del key) store
    (.count r.1, r.2)

-- The clock and the server after the call.
def Call.next (x : Nat × Call) (s : Nat × Redis) : Nat × Redis :=
  (s.1 + x.1, (x.2.onServer (s.1 + x.1) s.2).2)

def Entry.over (now : Nat) (entry : Entry) : Prop :=
  match entry.expireAt with
  | some t => t ≤ now
  | none => False

/--
The call does not show what the in-memory store leaves out: it meets no value whose time is over, no
mode that only one of the two stores takes into account, and no empty text.
-/
def Call.harmless (x : Nat × Call) (s : Nat × Redis) : Prop :=
  let now := s.1 + x.1
  match x.2 with
  | .get key =>
    ∀ entry, s.2.entries key = some entry → (Entry.over now entry ↔ entry.value = .raw "")
  | .del key => ∀ entry, s.2.entries key = some entry → ¬Entry.over now entry
  | .set key _ (some .NX) (some _) (some _) =>
    ∀ entry, s.2.entries key = some entry → ¬Entry.over now entry
  | .set key _ (some .NX) _ _ => s.2.entries key = none
  | .set key _ (some .XX) (some _) (some _) =>
    ∃ entry, s.2.entries key = some entry ∧ ¬Entry.over now entry
  | _ => True

variable {D : Deployment} {i : Pid} {w : World}

theorem alone_get {key : String} (hmem : (w.mem i.inst).isMockMode = false)
    : Alone D i (RedisService.get key)
        (fun value w' => value = w.redis.lookup w.clock key ∧ w' = w) w := by
  apply assures_get (fun w w' h => by subst h; exact ⟨rfl, rfl, rfl⟩)
    (fun _ _ _ h h' => h.trans h') (fun _ => trivial) hmem
  intro w' hw'
  subst hw'
  exact ⟨rfl, rfl⟩

/--
An operation whose in-memory branch is not taken goes to the server.
-/
theorem alone_client {op : ClientOp} {handler : Err → Program op.Reply}
    : Alone D i ((perform (.client op)).tryCatch handler)
        (fun r w' => r = (op.run w.clock w.redis).1 ∧
          w' = { w with redis := (op.run w.clock w.redis).2 }) w := by
  apply Setting.Assures.tryCatch
  apply assures_perform (c := .client op) (x := fun w => (op.run w.clock w.redis).1)
    (n := fun w => { w with redis := (op.run w.clock w.redis).2 })
  . intro o w₁ _ ho
    exact exec_client_of_healthy ho
  . intro w₁ hw₁
    subst hw₁
    exact ⟨trivial, rfl, rfl⟩

theorem alone_unmocked {α : Type} {op : MockOp} {k : Option op.Reply → Program α}
    {Φ : α → World → Prop} (hmem : (w.mem i.inst).isMockMode = false)
    (hk : Alone D i (k none) Φ w) : Alone D i ((perform (.mock op)).bind k) Φ w := by
  apply Setting.Assures.bind (Φ := fun r w₁ => r = none ∧ w₁ = w)
  . apply assures_perform (c := .mock op) (x := fun _ => none) (n := id)
    . intro o w₁ hw₁ _
      subst hw₁
      exact exec_mock_of_connected hmem
    . intro w₁ hw₁
      exact ⟨trivial, rfl, hw₁.symm⟩
  . rintro r w₁ ⟨hr, hw₁⟩
    subst hr hw₁
    exact hk

def World.setStore (inst : Nat) (store : MockStore) (w : World) : World :=
  { w with mem := Function.update w.mem inst ⟨true, store⟩ }

theorem alone_mocked {α : Type} {op : MockOp} {k : Option op.Reply → Program α}
    {Φ : α → World → Prop} (hmem : (w.mem i.inst).isMockMode = true)
    (hk : Alone D i (k (some (op.run (w.mem i.inst).mockStore).1)) Φ
      (World.setStore i.inst (op.run (w.mem i.inst).mockStore).2 w))
    : Alone D i ((perform (.mock op)).bind k) Φ w := by
  apply Setting.Assures.bind (Φ := fun r w₁ => r = some (op.run (w.mem i.inst).mockStore).1 ∧
    w₁ = World.setStore i.inst (op.run (w.mem i.inst).mockStore).2 w)
  . apply assures_perform (c := .mock op)
      (x := fun w => some (op.run (w.mem i.inst).mockStore).1)
      (n := fun w => World.setStore i.inst (op.run (w.mem i.inst).mockStore).2 w)
    . intro o w₁ hw₁ _
      subst hw₁
      simp [exec, Exec.mock, hmem, World.setStore]
    . intro w₁ hw₁
      subst hw₁
      exact ⟨trivial, rfl, rfl⟩
  . rintro r w₁ ⟨hr, hw₁⟩
    subst hr hw₁
    exact hk

theorem alone_onServer (call : Call) (hmem : (w.mem i.inst).isMockMode = false)
    : Alone D i call.program
        (fun r w' => r = (call.onServer w.clock w.redis).1 ∧
          w' = { w with redis := (call.onServer w.clock w.redis).2 }) w := by
  cases call with
  | set key value mode durationMode duration =>
    let op : ClientOp := .set key value (expiryOf durationMode (duration.map PNat.val))
      (modeOf mode durationMode (duration.map PNat.val))
    unfold Call.program RedisService.set
    apply Setting.Assures.bind (Φ := fun ok w' => ok = (op.run w.clock w.redis).1 ∧
      w' = { w with redis := (op.run w.clock w.redis).2 })
    . apply alone_unmocked hmem
      -- Which of the three commands of the client it is.
      rcases mode with _ | mode <;> rcases durationMode with _ | durationMode <;>
        rcases duration with _ | duration <;> exact alone_client
    . rintro ok w' ⟨hok, hw'⟩
      subst hok hw'
      exact ⟨rfl, rfl⟩
  | get key =>
    apply (alone_get hmem).bind
    rintro value w' ⟨hvalue, hw'⟩
    subst hvalue hw'
    exact ⟨rfl, rfl⟩
  | del key =>
    unfold Call.program RedisService.del
    apply Setting.Assures.bind
    . apply alone_unmocked hmem
      exact alone_client
    . rintro count w' ⟨hcount, hw'⟩
      subst hcount hw'
      exact ⟨rfl, rfl⟩

theorem alone_inMemory (call : Call) (hmem : (w.mem i.inst).isMockMode = true)
    : Alone D i call.program
        (fun r w' => r = (call.inMemory (w.mem i.inst).mockStore).1 ∧
          w' = World.setStore i.inst (call.inMemory (w.mem i.inst).mockStore).2 w) w := by
  cases call with
  | set key value mode durationMode duration =>
    apply Setting.Assures.bind (Φ := fun ok w' =>
      ok = (MockOp.run (.set key value mode) (w.mem i.inst).mockStore).1 ∧
        w' = World.setStore i.inst (MockOp.run (.set key value mode) (w.mem i.inst).mockStore).2 w)
    . exact alone_mocked hmem ⟨rfl, rfl⟩
    . rintro ok w' ⟨hok, hw'⟩
      subst hok hw'
      exact ⟨rfl, rfl⟩
  | get key =>
    apply Setting.Assures.bind (Φ := fun value w' =>
      value = (MockOp.run (.get key) (w.mem i.inst).mockStore).1 ∧
        w' = World.setStore i.inst (MockOp.run (.get key) (w.mem i.inst).mockStore).2 w)
    . exact alone_mocked hmem ⟨rfl, rfl⟩
    . rintro value w' ⟨hvalue, hw'⟩
      subst hvalue hw'
      exact ⟨rfl, rfl⟩
  | del key =>
    apply Setting.Assures.bind (Φ := fun count w' =>
      count = (MockOp.run (.del key) (w.mem i.inst).mockStore).1 ∧
        w' = World.setStore i.inst (MockOp.run (.del key) (w.mem i.inst).mockStore).2 w)
    . exact alone_mocked hmem ⟨rfl, rfl⟩
    . rintro count w' ⟨hcount, hw'⟩
      subst hcount hw'
      exact ⟨rfl, rfl⟩

theorem Serves.onServer {x : Nat × Call} {r : Result} {w' : World} (h : Serves D i x w r w')
    (hmem : (w.mem i.inst).isMockMode = false)
    : r = (x.2.onServer (w.clock + x.1) w.redis).1 ∧
        w' = { w with
          clock := w.clock + x.1
          redis := (x.2.onServer (w.clock + x.1) w.redis).2 } := by
  rcases Machine.Completes.result h (alone_onServer x.2 hmem) with ⟨r', hr, hr', hw'⟩
  injection hr with hr
  exact ⟨hr.trans hr', hw'⟩

theorem Serves.inMemory {x : Nat × Call} {r : Result} {w' : World} (h : Serves D i x w r w')
    (hmem : (w.mem i.inst).isMockMode = true)
    : r = (x.2.inMemory (w.mem i.inst).mockStore).1 ∧
        w'.mem i.inst = ⟨true, (x.2.inMemory (w.mem i.inst).mockStore).2⟩ := by
  rcases Machine.Completes.result h (alone_inMemory x.2 hmem) with ⟨r', hr, hr', hw'⟩
  injection hr with hr
  refine ⟨hr.trans hr', ?_⟩
  rw [hw']
  exact Function.update_self _ _ _

theorem exists_serves (x : Nat × Call) {b : Bool} (hmem : (w.mem i.inst).isMockMode = b)
    : ∃ r w', Serves D i x w r w' ∧ (w'.mem i.inst).isMockMode = b := by
  cases b with
  | false =>
    rcases Machine.exists_completes (alone_onServer (D := D) x.2
      (w := { w with clock := w.clock + x.1 }) hmem) with ⟨r, w', h, _, hw'⟩
    refine ⟨r, w', h, ?_⟩
    rw [hw']
    exact hmem
  | true =>
    rcases Machine.exists_completes (alone_inMemory (D := D) x.2
      (w := { w with clock := w.clock + x.1 }) hmem) with ⟨r, w', h, _, hw'⟩
    refine ⟨r, w', h, ?_⟩
    rw [hw']
    simp [World.setStore]

/-!
The two stores side by side.
-/

theorem lookup_eq_none {redis : Redis} {now : Nat} {key : String}
    : redis.lookup now key = none ↔
        ∀ entry, redis.entries key = some entry → Entry.over now entry := by
  unfold Redis.lookup Entry.over
  cases redis.entries key with
  | none => simp
  | some entry => cases hexpire : entry.expireAt <;> simp [hexpire]

theorem lookup_of_live {redis : Redis} {now : Nat} {key : String} {entry : Entry}
    (hentry : redis.entries key = some entry) (hlive : ¬Entry.over now entry)
    : redis.lookup now key = some entry.value := by
  unfold Entry.over at hlive
  unfold Redis.lookup
  rw [hentry]
  cases hexpire : entry.expireAt <;> simp_all

/--
The in-memory store holds whatever was stored last, for ever.
-/
def Mirrors (store : MockStore) (redis : Redis) : Prop :=
  ∀ key, store key = (redis.entries key).map (·.value)

variable {store : MockStore} {redis : Redis} {now : Nat}

theorem Mirrors.update (h : Mirrors store redis) (key : String) (entry : Option Entry)
    : Mirrors (Function.update store key (entry.map (·.value)))
        { redis with entries := Function.update redis.entries key entry } := by
  intro key'
  by_cases hkey : key' = key
  . subst hkey
    simp
  . simp [hkey, h key']

theorem Mirrors.isSome (h : Mirrors store redis) (key : String)
    : (store key).isSome = (redis.entries key).isSome := by
  rw [h key, Option.isSome_map]

theorem lookup_isSome {key : String}
    : (redis.lookup now key).isSome = true ↔
        ∃ entry, redis.entries key = some entry ∧ ¬Entry.over now entry := by
  rw [Option.isSome_iff_ne_none, ne_eq, lookup_eq_none]
  push Not
  rfl

-- The key is on the server if it ever was.
theorem lookup_isSome_eq {key : String}
    : (redis.lookup now key).isSome = (redis.entries key).isSome ↔
        ∀ entry, redis.entries key = some entry → ¬Entry.over now entry := by
  cases hentry : redis.entries key with
  | none =>
    have hnone : redis.lookup now key = none := by
      rw [lookup_eq_none, hentry]
      simp
    simp [hnone]
  | some entry =>
    rw [Option.isSome_some, lookup_isSome, hentry]
    simp

section Set

variable {key : String} {value : Stored} {expiry : Option (DurationMode × Nat)}

theorem run_set : ((ClientOp.set key value expiry none).run now redis).1 = true := by
  simp [ClientOp.run]

theorem run_setNX
    : ((ClientOp.set key value expiry (some .NX)).run now redis).1 =
        !(redis.lookup now key).isSome := by
  simp only [ClientOp.run]
  cases (redis.lookup now key).isSome <;> simp

theorem run_setXX
    : ((ClientOp.set key value expiry (some .XX)).run now redis).1 =
        (redis.lookup now key).isSome := by
  simp only [ClientOp.run]
  cases (redis.lookup now key).isSome <;> simp

theorem run_mockSet {mode : Option SetMode} (hmode : mode ≠ some .NX)
    : ((MockOp.set key value mode).run store).1 = true := by
  simp [MockOp.run, hmode]

theorem run_mockSetNX
    : ((MockOp.set key value (some .NX)).run store).1 = !(store key).isSome := by
  simp only [MockOp.run]
  cases (store key).isSome <;> simp

end Set

theorem agree_set (h : Mirrors store redis) (ms : Nat) (key : String) (value : Stored)
    (mode : Option SetMode) (durationMode : Option DurationMode) (duration : Option ℕ+)
    : ((Call.set key value mode durationMode duration).onServer (now + ms) redis).1 =
          ((Call.set key value mode durationMode duration).inMemory store).1 ↔
        Call.harmless (ms, .set key value mode durationMode duration) (now, redis) := by
  simp only [Call.onServer, Call.inMemory, Result.ok.injEq]
  rcases mode with _ | _ | _
  . have hmode : modeOf none durationMode (duration.map PNat.val) = none := by
      unfold modeOf
      split <;> rfl
    rw [hmode, run_set, run_mockSet (by decide)]
    simp [Call.harmless]
  . rw [run_mockSetNX, h.isSome key]
    rcases durationMode with _ | durationMode <;> rcases duration with _ | duration
    -- Without a duration the server is not told about the mode.
    iterate 3
      dsimp only [modeOf, expiryOf, Option.map]
      rw [run_set]
      simp [Call.harmless]
    dsimp only [modeOf, expiryOf, Option.map]
    rw [run_setNX, Bool.not_inj_iff, lookup_isSome_eq]
    rfl
  . rw [run_mockSet (by decide)]
    rcases durationMode with _ | durationMode <;> rcases duration with _ | duration
    iterate 3
      dsimp only [modeOf, expiryOf, Option.map]
      rw [run_set]
      simp [Call.harmless]
    dsimp only [modeOf, expiryOf, Option.map]
    rw [run_setXX, lookup_isSome]
    rfl

/--
What the two modes of the service answer is the same exactly if the call is harmless.
-/
theorem agree_iff (h : Mirrors store redis) (ms : Nat) (call : Call)
    : (call.onServer (now + ms) redis).1 = (call.inMemory store).1 ↔
        Call.harmless (ms, call) (now, redis) := by
  cases call with
  | set key value mode durationMode duration =>
    exact agree_set h ms key value mode durationMode duration
  | get key =>
    simp only [Call.onServer, Call.inMemory, Result.value.injEq, MockOp.run, Call.harmless, h key]
    cases hentry : redis.entries key with
    | none =>
      have hnone : redis.lookup (now + ms) key = none := by
        rw [lookup_eq_none, hentry]
        simp
      simp [hnone]
    | some entry =>
      have htruthy : entry.value.truthy = true ↔ entry.value ≠ .raw "" := by
        cases entry.value <;> simp [Stored.truthy]
      by_cases hover : Entry.over (now + ms) entry
      . have hnone : redis.lookup (now + ms) key = none := by
          rw [lookup_eq_none, hentry]
          intro entry' heq
          injection heq with heq
          rwa [← heq]
        rw [hnone]
        simp only [Option.map_some, Option.some.injEq, forall_eq', hover, true_iff]
        rw [eq_comm, Option.filter_eq_none_iff]
        simp only [Option.some.injEq, forall_eq']
        rw [htruthy, not_not]
      . rw [lookup_of_live hentry hover]
        simp only [Option.map_some, Option.some.injEq, forall_eq', hover, false_iff]
        rw [← ne_eq, ← htruthy]
        simp [Option.filter]
  | del key =>
    simp only [Call.onServer, Call.inMemory, Result.count.injEq, ClientOp.run, MockOp.run,
      Call.harmless]
    rw [← lookup_isSome_eq, h.isSome key]
    cases (redis.lookup (now + ms) key).isSome <;> cases (redis.entries key).isSome <;> simp

theorem Mirrors.set (h : Mirrors store redis) (key : String) (value : Stored)
    (expiry : Option (DurationMode × Nat)) {mode mode' : Option SetMode}
    (hsame : ((ClientOp.set key value expiry mode').run now redis).1 =
      ((MockOp.set key value mode).run store).1)
    : Mirrors ((MockOp.set key value mode).run store).2
        ((ClientOp.set key value expiry mode').run now redis).2 := by
  simp only [ClientOp.run, MockOp.run] at hsame ⊢
  split at hsame
  . next hkept =>
    rw [if_pos hkept]
    split at hsame
    . next hkept' =>
      rw [if_pos hkept']
      exact h
    . cases hsame
  . next hkept =>
    rw [if_neg hkept]
    split at hsame
    . cases hsame
    . next hkept' =>
      rw [if_neg hkept']
      exact h.update key (some ⟨value, expiry.map (fun e => now + e.1.millis e.2)⟩)

/--
As long as the two modes answer alike, the in-memory store mirrors the server.
-/
theorem Mirrors.next (h : Mirrors store redis) {call : Call}
    (hsame : (call.onServer now redis).1 = (call.inMemory store).1)
    : Mirrors (call.inMemory store).2 (call.onServer now redis).2 := by
  cases call with
  | set key value mode durationMode duration =>
    injection hsame with hsame
    exact h.set key value _ hsame
  | get key => exact h
  | del key => exact h.update key none

/--
What the service answers when it works on the Redis server and on its in-memory store. Both are
empty at first.
-/
def Agrees (D : Deployment) (i : Pid) (calls : List (Nat × Call)) : Prop :=
  ∀ results results' w w',
    Serially (Serves D i) (World.start []) calls results w →
    Serially (Serves D i) (World.setStore i.inst (fun _ => none) (World.start [])) calls results'
      w' →
    results = results'

variable {calls : List (Nat × Call)} {results results' : List Result} {w' : World}

theorem results_eq_iff (h : Serially (Serves D i) (World.start []) calls results w)
    (h' : Serially (Serves D i) (World.setStore i.inst (fun _ => none) (World.start [])) calls
      results' w')
    : results = results' ↔
        Throughout Call.harmless Call.next (0, (World.start []).redis) calls := by
  apply h.eq_iff (R := fun s w w' => w.clock = s.1 ∧ w.redis = s.2 ∧
    (w.mem i.inst).isMockMode = false ∧ (w'.mem i.inst).isMockMode = true ∧
    Mirrors (w'.mem i.inst).mockStore s.2) _ h'
  . refine ⟨rfl, rfl, rfl, ?_, ?_⟩
    . simp [World.setStore]
    . intro key
      simp [World.setStore, World.start]
  . rintro s x w w' r r' w₁ w₁' ⟨hclock, hredis, hmem, hmem', hmirrors⟩ hserves hserves'
    rcases hserves.onServer hmem with ⟨hr, hw₁⟩
    rcases hserves'.inMemory hmem' with ⟨hr', hw₁'⟩
    rw [hclock, hredis] at hr hw₁
    have hagree := @agree_iff _ _ s.1 hmirrors x.1 x.2
    rw [← hr, ← hr'] at hagree
    refine ⟨hagree, fun hgood => ?_⟩
    rw [hw₁, hw₁']
    refine ⟨rfl, rfl, hmem, rfl, hmirrors.next ?_⟩
    rw [← hr, ← hr']
    exact hagree.mpr hgood

theorem exists_results (D : Deployment) (i : Pid) (calls : List (Nat × Call))
    : (∃ results w, Serially (Serves D i) (World.start []) calls results w) ∧
        ∃ results' w', Serially (Serves D i)
          (World.setStore i.inst (fun _ => none) (World.start [])) calls results' w' := by
  constructor
  . exact exists_serially (P := fun w => (w.mem i.inst).isMockMode = false)
      (fun x w hmem => exists_serves x hmem) rfl calls
  . exact exists_serially (P := fun w => (w.mem i.inst).isMockMode = true)
      (fun x w hmem => exists_serves x hmem) (by simp [World.setStore]) calls

/--
The service answers in memory as on the Redis server exactly if all calls are harmless.
-/
theorem memory_agrees_iff (D : Deployment) (i : Pid) (calls : List (Nat × Call))
    : Agrees D i calls ↔
        Throughout Call.harmless Call.next (0, (World.start []).redis) calls := by
  constructor
  . intro hagrees
    rcases exists_results D i calls with ⟨⟨results, w, h⟩, results', w', h'⟩
    exact (results_eq_iff h h').mp (hagrees results results' w w' h h')
  . intro hharmless results results' w w' h h'
    exact (results_eq_iff h h').mpr hharmless

-- A lock is taken again when its time is over.
def lockTwice : List (Nat × Call) :=
  [(0, .set "lock" .processing (some .NX) (some .EX) (some 10)),
    (10000, .set "lock" .processing (some .NX) (some .EX) (some 10))]

theorem memory_disagrees : ¬Agrees Scenario.deployment ⟨0, 0⟩ lockTwice := by
  intro hagrees
  rcases exists_results Scenario.deployment ⟨0, 0⟩ lockTwice with ⟨⟨results, w, h⟩, results', w', h'⟩
  have hharmless := (results_eq_iff h h').mp (hagrees results results' w w' h h')
  have hsecond := hharmless.right.left
  apply hsecond ⟨.processing, some 10000⟩
  . decide
  . exact Nat.le_refl 10000

end RedisService

end PaymentOrchestration
