import Mathlib.Data.List.Nodup
import PaymentOrchestration.Books.Basic

/-!
This module contains the invariant of the books: rows are identified by their id and by their key,
and every transaction that a call or the cache knows of is a snapshot of a row.
-/

namespace PaymentOrchestration

open StateMachine

-- What no transition changes.
def Transaction.identity (t : Transaction) : String × String × String × Nat × String :=
  (t.id, t.idempotencyKey, t.merchantId, t.amount, t.currency)

def WebhookEvent.content (event : WebhookEvent)
    : String × GatewayProvider × String × String × Json :=
  (event.id, event.gateway, event.eventId, event.eventType, event.payload)

namespace Permit

variable {D : Deployment} {role : Role} {step : TransitionStep}

theorem valid (h : Permit D role step)
    : step.toState ∈ VALID_TRANSITIONS step.row.currentState := by
  cases h <;> assumption

theorem target (h : Permit D role step) : role.target = some step.row.id := by
  cases h <;> simp_all [Role.target]

end Permit

namespace TransitionStep

variable {step : TransitionStep}

@[simp]
theorem result_id : step.result.id = step.row.id := by
  rfl

@[simp]
theorem result_currentState : step.result.currentState = step.toState := by
  rfl

@[simp]
theorem result_identity : step.result.identity = step.row.identity := by
  rfl

@[simp]
theorem result_fallbackGateways : step.result.fallbackGateways = step.row.fallbackGateways := by
  rfl

end TransitionStep

namespace Books

@[simp]
theorem setRole_role_self {b : Books} {i : Pid} {role : Role} : (b.setRole i role).role i = role := by
  simp [setRole]

theorem setRole_role_of_ne {b : Books} {i j : Pid} {role : Role} (h : j ≠ i)
    : (b.setRole i role).role j = b.role j := by
  simp [setRole, h]

variable {b b' : Books}

def Known (b : Books) (t : Transaction) : Prop :=
  t.identity ∈ b.transactions.map Transaction.identity

def Recorded (b : Books) (event : WebhookEvent) : Prop :=
  event.content ∈ b.webhookEvents.map WebhookEvent.content

/--
What a call has seen is true of the tables.
-/
def Sound (b : Books) (role : Role) : Prop :=
  match role with
  | .creating dto (.found t) => b.Known t ∧ t.idempotencyKey = dto.idempotencyKey
  | .creating dto (.cached t) => b.Known t ∧ t.idempotencyKey = dto.idempotencyKey
  | .creating dto (.looping row _ _ _) => b.Known row ∧ row.idempotencyKey = dto.idempotencyKey
  | .creating dto (.settled row t) =>
    b.Known row ∧ t.identity = row.identity ∧ row.idempotencyKey = dto.idempotencyKey
  | .working (.loaded event) => b.Recorded event
  | .working (.driving event txn _) => b.Recorded event ∧ b.Known txn
  | _ => True

structure Inv (b : Books) : Prop where
  ids : (b.transactions.map (·.id)).Nodup
  keys : (b.transactions.map (·.idempotencyKey)).Nodup
  events : (b.webhookEvents.map (·.id)).Nodup
  completed : ∀ key t, b.completed key t →
    b.Known t ∧ key = TransactionsService.redisKey t.idempotencyKey
  role : ∀ i, b.Sound (b.role i)

theorem known_of_mem {t : Transaction} (h : t ∈ b.transactions) : b.Known t := by
  exact List.mem_map_of_mem h

theorem Known.exists_row {t : Transaction} (h : b.Known t)
    : ∃ row ∈ b.transactions, row.identity = t.identity := by
  simpa [Known] using h

theorem Inv.eq_of_id (hinv : b.Inv) {t u : Transaction} (ht : t ∈ b.transactions)
    (hu : u ∈ b.transactions) (hid : t.id = u.id) : t = u := by
  exact List.inj_on_of_nodup_map hinv.ids ht hu hid

theorem Inv.eq_of_key (hinv : b.Inv) {t u : Transaction} (ht : t ∈ b.transactions)
    (hu : u ∈ b.transactions) (hkey : t.idempotencyKey = u.idempotencyKey) : t = u := by
  exact List.inj_on_of_nodup_map hinv.keys ht hu hkey

-- Two snapshots with one key are snapshots of one row.
theorem Inv.id_eq_of_key (hinv : b.Inv) {t u : Transaction} (ht : b.Known t) (hu : b.Known u)
    (hkey : t.idempotencyKey = u.idempotencyKey) : t.id = u.id := by
  rcases ht.exists_row with ⟨r, hr, hrt⟩
  rcases hu.exists_row with ⟨s, hs, hsu⟩
  simp only [Transaction.identity, Prod.mk.injEq] at hrt hsu
  have : r = s := by
    apply hinv.eq_of_key hr hs
    simp [hrt, hsu, hkey]
  rw [← hrt.left, ← hsu.left, this]

theorem Inv.key_eq_of_id (hinv : b.Inv) {t u : Transaction} (ht : b.Known t) (hu : b.Known u)
    (hid : t.id = u.id) : t.idempotencyKey = u.idempotencyKey := by
  rcases ht.exists_row with ⟨r, hr, hrt⟩
  rcases hu.exists_row with ⟨s, hs, hsu⟩
  simp only [Transaction.identity, Prod.mk.injEq] at hrt hsu
  have : r = s := by
    apply hinv.eq_of_id hr hs
    simp [hrt, hsu, hid]
  rw [← hrt.right.left, ← hsu.right.left, this]

theorem map_writeRow {β : Type} {f : Transaction → β} {row : Transaction} {rows : List Transaction}
    (h : ∀ old ∈ rows, old.id = row.id → f old = f row)
    : (Ledger.writeRow row rows).map f = rows.map f := by
  unfold Ledger.writeRow
  rw [List.map_map]
  apply List.map_congr_left
  intro old hold
  simp only [Function.comp]
  split
  . next hid => rw [h old hold hid]
  . rfl

theorem mem_writeRow {row t : Transaction} {rows : List Transaction}
    (h : t ∈ Ledger.writeRow row rows) : t = row ∨ (t ∈ rows ∧ t.id ≠ row.id) := by
  unfold Ledger.writeRow at h
  rw [List.mem_map] at h
  rcases h with ⟨old, hold, heq⟩
  split at heq
  . exact .inl heq.symm
  . next hid =>
    subst heq
    exact .inr ⟨hold, hid⟩

theorem mem_writeRow_of_ne {row t : Transaction} {rows : List Transaction} (h : t ∈ rows)
    (hid : t.id ≠ row.id) : t ∈ Ledger.writeRow row rows := by
  unfold Ledger.writeRow
  rw [List.mem_map]
  exact ⟨t, h, by simp [hid]⟩

theorem mem_writeRow_self {row old : Transaction} {rows : List Transaction} (h : old ∈ rows)
    (hid : old.id = row.id) : row ∈ Ledger.writeRow row rows := by
  unfold Ledger.writeRow
  rw [List.mem_map]
  exact ⟨old, h, by simp [hid]⟩

-- A commit changes no column that identifies a row.
theorem Inv.map_identity_commit (hinv : b.Inv) {step : TransitionStep}
    (hrow : step.row ∈ b.transactions)
    : (Ledger.writeRow step.result b.transactions).map Transaction.identity =
        b.transactions.map Transaction.identity := by
  apply map_writeRow
  intro old hold hid
  rw [TransitionStep.result_identity, hinv.eq_of_id hold hrow hid]

theorem Inv.map_content_mark (hinv : b.Inv) {event : WebhookEvent} {now : Nat}
    (hevent : b.Recorded event)
    : (saveEvent { event with processed := true, processedAt := some now } b.webhookEvents).map
        WebhookEvent.content =
      b.webhookEvents.map WebhookEvent.content := by
  unfold saveEvent
  rw [List.map_map]
  apply List.map_congr_left
  intro old hold
  simp only [Function.comp]
  split
  . next hid =>
    simp only [Recorded, List.mem_map] at hevent
    rcases hevent with ⟨e, he, hcontent⟩
    have hold' : old = e := by
      apply List.inj_on_of_nodup_map hinv.events hold he
      simp only [WebhookEvent.content, Prod.mk.injEq] at hcontent
      rw [hid, hcontent.left]
    rw [hold', hcontent]
    rfl
  . rfl

theorem map_id_eq (rows : List Transaction)
    : rows.map (·.id) = (rows.map Transaction.identity).map (·.1) := by
  simp [Transaction.identity]

theorem map_key_eq (rows : List Transaction)
    : rows.map (·.idempotencyKey) = (rows.map Transaction.identity).map (·.2.1) := by
  simp [Transaction.identity]

theorem map_eventId_eq (events : List WebhookEvent)
    : events.map (·.id) = (events.map WebhookEvent.content).map (·.1) := by
  simp [WebhookEvent.content]

theorem Sound.of_event {role : Role} {event : WebhookEvent} (h : b.Sound role)
    (hevent : role.event = some event) : b.Recorded event := by
  unfold Role.event at hevent
  split at hevent
  . injection hevent with hevent
    subst hevent
    exact h
  . injection hevent with hevent
    subst hevent
    exact h.left
  . simp at hevent

theorem Sound.of_mayWrite {role : Role} {key : String} {t : Transaction} (h : b.Sound role)
    (hwrite : role.mayWrite key (.completed t))
    : b.Known t ∧ key = TransactionsService.redisKey t.idempotencyKey := by
  unfold Role.mayWrite at hwrite
  dsimp only at hwrite
  split at hwrite
  . next dto found =>
    rcases hwrite with ⟨hfound, hkey⟩
    subst hfound
    rcases h with ⟨hknown, hdto⟩
    exact ⟨hknown, by rw [hkey, hdto]⟩
  . next dto row settled =>
    rcases hwrite with ⟨hsettled, hkey⟩
    subst hsettled
    rcases h with ⟨hknown, hidentity, hdto⟩
    refine ⟨by simpa [Known, hidentity] using hknown, ?_⟩
    simp only [Transaction.identity, Prod.mk.injEq] at hidentity
    rw [hkey, ← hdto, hidentity.right.left]
  . exact hwrite.elim

theorem Sound.mono {role : Role} (hknown : ∀ t, b.Known t → b'.Known t)
    (hrecorded : ∀ event, b.Recorded event → b'.Recorded event) (h : b.Sound role)
    : b'.Sound role := by
  unfold Sound at h ⊢
  split
  . exact ⟨hknown _ h.left, h.right⟩
  . exact ⟨hknown _ h.left, h.right⟩
  . exact ⟨hknown _ h.left, h.right⟩
  . exact ⟨hknown _ h.left, h.right⟩
  . exact hrecorded _ h
  . exact ⟨hrecorded _ h.left, hknown _ h.right⟩
  . trivial

theorem sound_abort (b : Books) (role : Role) : b.Sound role.abort := by
  unfold Role.abort
  split <;> trivial

theorem Sound.advance {D : Deployment} {role : Role} {step : TransitionStep} (h : b.Sound role)
    (hpermit : Permit D role step)
    (hid : ∀ row, b.Known row → row.id = step.row.id → row.identity = step.row.identity)
    : b.Sound (role.advance step.result) := by
  cases hpermit
  all_goals simp_all [Role.advance, Sound]

theorem Inv.identity_eq_of_id (hinv : b.Inv) {row t : Transaction} (hrow : row ∈ b.transactions)
    (ht : b.Known t) (hid : t.id = row.id) : t.identity = row.identity := by
  rcases ht.exists_row with ⟨u, hu, hut⟩
  rw [← hut, hinv.eq_of_id hu hrow]
  simp only [Transaction.identity, Prod.mk.injEq] at hut
  rw [hut.left, hid]

theorem Step.known_mono {D : Deployment} (hinv : b.Inv) (hstep : b.Step D b') {t : Transaction}
    (h : b.Known t) : b'.Known t := by
  cases hstep with
  | insert i dto g fb row role =>
    unfold Known at h ⊢
    simp only [setRole, Books.insert, List.map_append, List.mem_append]
    exact .inl h
  | commit i step createdAt role hpermit hrow =>
    unfold Known at h ⊢
    simp only [setRole, Books.commit]
    rw [hinv.map_identity_commit hrow]
    exact h
  | _ => exact h

theorem Step.recorded_mono {D : Deployment} (hinv : b.Inv) (hstep : b.Step D b')
    {event : WebhookEvent} (h : b.Recorded event) : b'.Recorded event := by
  cases hstep with
  | ingest event' =>
    unfold Recorded at h ⊢
    simp only [List.map_append, List.mem_append]
    exact .inl h
  | mark i event' now hevent =>
    unfold Recorded at h ⊢
    simp only
    rw [hinv.map_content_mark ((hinv.role i).of_event hevent)]
    exact h
  | _ => exact h

/--
The one process that takes part in a step ends up in a role that is sound.
-/
theorem Step.sound {D : Deployment} (hinv : b.Inv) (hstep : b.Step D b') (j : Pid)
    : b'.Sound (b'.role j) := by
  have hmono : ∀ role, b.Sound role → b'.Sound role := by
    intro role h
    apply h.mono
    . intro t
      exact hstep.known_mono hinv
    . intro event
      exact hstep.recorded_mono hinv
  have hframe : ∀ i role, b'.role = Function.update b.role i role → b'.Sound role →
      b'.Sound (b'.role j) := by
    intro i role hrole hsound
    rw [hrole]
    by_cases hj : j = i
    . subst hj
      simpa using hsound
    . rw [Function.update_of_ne hj]
      exact hmono _ (hinv.role j)
  cases hstep with
  | hit i dto key t hrole hkey hcompleted =>
    apply hframe i _ rfl
    rcases hinv.completed key t hcompleted with ⟨hknown, hkey'⟩
    rw [hrole] at hkey
    exact ⟨hknown, hkey _ hkey'⟩
  | find i conditions row hfind hsome hnone =>
    apply hframe i _ rfl
    have hi := hinv.role i
    rcases hfind with ⟨dto, hrole, hconditions⟩ | ⟨event, x, hrole, _, _, _⟩
    . rw [hrole] at hi ⊢
      cases row with
      | none => exact hi
      | some t =>
        rcases hsome t rfl with ⟨ht, c, hc, hholds⟩
        subst hconditions
        rw [List.mem_singleton] at hc
        subst hc
        exact ⟨known_of_mem ht, of_decide_eq_true hholds⟩
    . rw [hrole] at hi ⊢
      cases row with
      | none => exact hi
      | some t => exact ⟨hi, known_of_mem (hsome t rfl).left⟩
  | insert i dto g fb row role hrole hnodup hrow hid hkey hrole' =>
    apply hframe i _ rfl
    rcases hrole' with h | h
    . subst h
      refine ⟨?_, ?_⟩
      . apply known_of_mem
        simp [setRole, Books.insert]
      . rw [hrow]
        rfl
    . subst h
      trivial
  | commit i step createdAt role hpermit hrow hrole' =>
    apply hframe i _ rfl
    rcases hrole' with h | h
    . subst h
      have := (hinv.role i).advance hpermit
        (fun row hknown hid => hinv.identity_eq_of_id hrow hknown hid)
      exact hmono _ this
    . subst h
      apply sound_abort
  | load i event hrole hevent =>
    apply hframe i _ rfl
    exact List.mem_map_of_mem hevent
  | charge i dto row g fb hrole =>
    apply hframe i _ rfl
    have hi := hinv.role i
    rw [hrole] at hi
    exact hi
  | answer i dto row g fb n charge response hrole hcharge hstatus =>
    apply hframe i _ rfl
    have hi := hinv.role i
    rw [hrole] at hi ⊢
    simp only [Role.raced]
    split <;> exact hi
  | threw i dto row g fb n charge message captured hrole =>
    apply hframe i _ rfl
    have hi := hinv.role i
    rw [hrole] at hi
    exact hi
  | timeout i dto row g fb n charge captured hrole =>
    apply hframe i _ rfl
    have hi := hinv.role i
    rw [hrole] at hi
    exact hi
  | abort i =>
    apply hframe i _ rfl
    apply sound_abort
  | _ => exact hmono _ (hinv.role j)

theorem Step.inv {D : Deployment} (hinv : b.Inv) (hstep : b.Step D b') : b'.Inv := by
  refine ⟨?_, ?_, ?_, ?_, hstep.sound hinv⟩
  . cases hstep with
    | insert i dto g fb row role hrole hnodup hrow hid hkey =>
      simp only [setRole, Books.insert, List.map_append, List.map_cons, List.map_nil]
      rw [← List.concat_eq_append]
      exact hinv.ids.concat hid
    | commit i step createdAt role hpermit hrow =>
      simp only [setRole, Books.commit]
      rw [map_id_eq, hinv.map_identity_commit hrow, ← map_id_eq]
      exact hinv.ids
    | _ => exact hinv.ids
  . cases hstep with
    | insert i dto g fb row role hrole hnodup hrow hid hkey =>
      simp only [setRole, Books.insert, List.map_append, List.map_cons, List.map_nil]
      rw [← List.concat_eq_append]
      exact hinv.keys.concat hkey
    | commit i step createdAt role hpermit hrow =>
      simp only [setRole, Books.commit]
      rw [map_key_eq, hinv.map_identity_commit hrow, ← map_key_eq]
      exact hinv.keys
    | _ => exact hinv.keys
  . cases hstep with
    | ingest event hid =>
      simp only [List.map_append, List.map_cons, List.map_nil]
      rw [← List.concat_eq_append]
      exact hinv.events.concat hid
    | mark i event now hevent =>
      simp only
      rw [map_eventId_eq, hinv.map_content_mark ((hinv.role i).of_event hevent),
        ← map_eventId_eq]
      exact hinv.events
    | _ => exact hinv.events
  . intro key t ht
    suffices h : b.Known t ∧ key = TransactionsService.redisKey t.idempotencyKey by
      exact ⟨hstep.known_mono hinv h.left, h.right⟩
    cases hstep with
    | forget completed hcompleted => exact hinv.completed key t (hcompleted key t ht)
    | store i completed hcompleted =>
      rcases hcompleted key t ht with h | hwrite
      . exact hinv.completed key t h
      . exact (hinv.role i).of_mayWrite hwrite
    | _ => exact hinv.completed key t ht

theorem Start.inv {tasks : Pid → Task} (h : b.Start tasks) : b.Inv := by
  refine ⟨?_, ?_, ?_, ?_, ?_⟩
  . simp [h.transactions]
  . simp [h.transactions]
  . simp [h.webhookEvents]
  . intro key t ht
    exact absurd ht (h.completed key t)
  . intro i
    rw [h.role]
    unfold Task.party
    split <;> trivial

theorem Run.inv {D : Deployment} (hinv : b.Inv) (hrun : b.Run D b') : b'.Inv := by
  induction hrun with
  | refl => exact hinv
  | tail _ hstep ih => exact hstep.inv ih

theorem Reachable.inv {D : Deployment} {tasks : Pid → Task} (h : b.Reachable D tasks) : b.Inv := by
  rcases h with ⟨b₀, hstart, hrun⟩
  exact hrun.inv hstart.inv

end Books

end PaymentOrchestration
