import PaymentOrchestration.Books.CreateTrail

/-!
This module shows that the history tells how the tables came about.
-/

namespace PaymentOrchestration

open StateMachine

def Role.dto (role : Role) : Option CreateTransactionDto :=
  match role with
  | .creating dto _ => some dto
  | _ => none

def Task.dto (task : Task) : Option CreateTransactionDto :=
  match task with
  | .create dto => some dto
  | _ => none

theorem Role.dto_advance (role : Role) (row : Transaction) : (role.advance row).dto = role.dto := by
  unfold advance
  split <;> rfl

theorem Role.dto_abort (role : Role) : role.abort.dto = role.dto := by
  cases role <;> rfl

theorem Role.dto_read (role : Role) (row : Option Transaction) : (role.read row).dto = role.dto := by
  unfold read
  split <;> rfl

namespace Trail

variable {D : Deployment} {i : Pid} {trail trail' : Trail}

theorem Step.dto (hstep : Step D i trail trail') : trail'.role.dto = trail.role.dto := by
  cases hstep with
  | find events role conditions row => exact role.dto_read row
  | insert events dto g fb row role hnodup hrow hrole =>
    rcases hrole with hrole | hrole
    all_goals
      subst hrole
      rfl
  | commit events role role' step createdAt hpermit hrole =>
    rcases hrole with hrole | hrole
    . subst hrole
      exact role.dto_advance _
    . subst hrole
      exact role.dto_abort
  | abort events role => exact role.dto_abort
  | _ => rfl

theorem Run.dto (hrun : Run D i trail trail') : trail'.role.dto = trail.role.dto := by
  induction hrun with
  | refl => rfl
  | tail _ hstep ih => exact hstep.dto.trans ih

-- Only calls of `create` insert rows.
theorem Inv.exists_owning (h : trail.Inv i) (hne : insertsOf trail.events ≠ [])
    : ∃ dto row, trail.role.dto = some dto ∧ Owning i dto row [] trail.events := by
  rcases trail with ⟨role, events⟩
  cases role with
  | creating dto phase =>
    rcases Creates.abort h with hquiet | ⟨row, howning⟩
    . exact absurd hquiet.left hne
    . exact ⟨dto, row, rfl, howning⟩
  | working phase => exact absurd h.left hne
  | ingesting =>
    simp only [Inv] at h
    simp [h] at hne

-- What has charged a gateway has inserted a row.
theorem Inv.inserts_ne_nil (h : trail.Inv i) (hne : chargesOf trail.events ≠ [])
    : insertsOf trail.events ≠ [] := by
  rcases trail with ⟨role, events⟩
  cases role with
  | creating dto phase =>
    rcases Creates.abort h with hquiet | ⟨row, howning⟩
    . exact absurd hquiet.right.left hne
    . simp [howning.inserts]
  | working phase => exact absurd h.right hne
  | ingesting =>
    simp only [Inv] at h
    simp [h] at hne

end Trail

def Charge.event (charge : Charge) : Event :=
  .charged charge.pid charge.gateway charge.request

namespace Books

variable {D : Deployment} {tasks : Pid → Task} {b b' : Books}

theorem Traced.dto (h : b.Traced D tasks) (i : Pid) : (b.role i).dto = (tasks i).dto := by
  have := (h.trail i).dto
  rw [show (b.role i).dto = (b.trail i).role.dto from rfl, this]
  cases tasks i <;> rfl

/--
Rows, audit rows and charges correspond to events of the history, in their order.
-/
structure Told (b : Books) : Prop where
  inserted : (b.history.filter (·.inserted?.isSome)).map
      (fun event => event.inserted?.map Transaction.identity) =
    b.transactions.map (fun t => some t.identity)
  charged : b.history.filter (·.charged?.isSome) = b.charges.map Charge.event
  committed : commitsOf b.history = b.auditLog.filter (·.fromState.isSome)

theorem map_set_of_eq {α β : Type} {f : α → β} {l : List α} {n : Nat} {x y : α}
    (hx : l[n]? = some x) (hf : f y = f x) : (l.set n y).map f = l.map f := by
  rw [List.map_set, hf]
  apply List.ext_getElem?
  intro m
  rw [List.getElem?_set]
  grind

theorem Told.of_eq (h : b.Told) (htransactions : b'.transactions = b.transactions)
    (hauditLog : b'.auditLog = b.auditLog)
    (hcharges : b'.charges.map Charge.event = b.charges.map Charge.event)
    (hhistory : b'.history = b.history) : b'.Told := by
  refine ⟨?_, ?_, ?_⟩
  . rw [hhistory, htransactions]
    exact h.inserted
  . rw [hhistory, hcharges]
    exact h.charged
  . rw [hhistory, hauditLog]
    exact h.committed

-- Reading leaves an event that tells nothing.
theorem Told.of_event (h : b.Told) {event : Event} (hinserted : event.inserted? = none)
    (hcharged : event.charged? = none) (hcommitted : event.committed? = none)
    (htransactions : b'.transactions = b.transactions) (hauditLog : b'.auditLog = b.auditLog)
    (hcharges : b'.charges = b.charges) (hhistory : b'.history = b.history ++ [event])
    : b'.Told := by
  refine ⟨?_, ?_, ?_⟩
  . rw [hhistory, htransactions, List.filter_append]
    simpa [hinserted] using h.inserted
  . rw [hhistory, hcharges, List.filter_append]
    simpa [hcharged] using h.charged
  . rw [hhistory, hauditLog, commitsOf_append, commitsOf_cons, hcommitted]
    simpa using h.committed

theorem Step.told (hinv : b.Inv) (hstep : b.Step D b') (h : b.Told) : b'.Told := by
  cases hstep with
  | find i conditions row => exact h.of_event rfl rfl rfl rfl rfl rfl rfl
  | load i event => exact h.of_event rfl rfl rfl rfl rfl rfl rfl
  | insert i dto g fb row =>
    refine ⟨?_, ?_, ?_⟩
    . simpa [setRole, Books.insert, List.filter_append] using h.inserted
    . simpa [setRole, Books.insert, List.filter_append] using h.charged
    . simpa [setRole, Books.insert] using h.committed
  | announce i dto row g fb createdAt =>
    refine ⟨h.inserted, h.charged, ?_⟩
    rw [List.filter_append]
    simpa [TransactionsService.creationAudit] using h.committed
  | commit i step createdAt role hpermit hrow =>
    refine ⟨?_, ?_, ?_⟩
    . have hidentity := congrArg (List.map some) (hinv.map_identity_commit hrow)
      simp only [List.map_map, Function.comp_def] at hidentity
      simpa [setRole, Books.commit, List.filter_append, hidentity] using h.inserted
    . simpa [setRole, Books.commit, List.filter_append] using h.charged
    . simpa [setRole, Books.commit, List.filter_append, TransitionStep.entry,
        TransitionStep.audit, auditRow] using h.committed
  | charge i dto row g fb =>
    refine ⟨?_, ?_, ?_⟩
    . simpa [setRole, List.filter_append] using h.inserted
    . simpa [setRole, List.filter_append, Charge.event] using h.charged
    . simpa [setRole] using h.committed
  | timeout i dto row g fb n charge captured hrole hcharge =>
    exact h.of_eq rfl rfl (map_set_of_eq hcharge rfl) rfl
  | settle n charge captured status hcharge =>
    exact h.of_eq rfl rfl (map_set_of_eq hcharge rfl) rfl
  | _ => exact h.of_eq rfl rfl rfl rfl

theorem Start.told (h : b.Start tasks) : b.Told := by
  constructor <;> simp [h.history, h.transactions, h.charges, h.auditLog]

theorem Run.told (hinv : b.Inv) (hrun : b.Run D b') (h : b.Told) : b'.Told := by
  induction hrun with
  | refl => exact h
  | tail hrun hstep ih => exact hstep.told (Run.inv hinv hrun) ih

theorem Reachable.told (h : b.Reachable D tasks) : b.Told := by
  rcases h with ⟨b₀, hstart, hrun⟩
  exact hrun.told hstart.inv hstart.told

theorem Told.known (h : b.Told) {i : Pid} {row : Transaction} (hrow : .inserted i row ∈ b.history)
    : b.Known row := by
  have : some row.identity ∈ b.transactions.map (fun t => some t.identity) := by
    rw [← h.inserted, List.mem_map]
    exact ⟨.inserted i row, by simp [hrow], rfl⟩
  simpa [Known] using this

/--
A key is inserted once.
-/
theorem Told.inserted_inj (hinv : b.Inv) (h : b.Told) {i j : Pid} {row row' : Transaction}
    (hrow : .inserted i row ∈ b.history) (hrow' : .inserted j row' ∈ b.history)
    (hkey : row.idempotencyKey = row'.idempotencyKey) : i = j ∧ row = row' := by
  have hnodup : ((b.history.filter (·.inserted?.isSome)).map
      (fun event => event.inserted?.map Transaction.idempotencyKey)).Nodup := by
    have hkeys := congrArg (List.map (Option.map (fun t : String × String × String × Nat × String =>
      t.2.1))) h.inserted
    simp only [List.map_map, Function.comp_def, Option.map_map, Option.map_some] at hkeys
    simp only [Transaction.identity] at hkeys
    have hsome := hinv.keys.map (Option.some_injective String)
    rw [List.map_map] at hsome
    rw [show (fun event : Event => event.inserted?.map Transaction.idempotencyKey) =
      fun event => event.inserted?.map (fun t => t.idempotencyKey) from rfl, hkeys]
    exact hsome
  have heq := List.inj_on_of_nodup_map hnodup (x := .inserted i row) (y := .inserted j row')
    (by simp [hrow]) (by simp [hrow']) (by simp [hkey])
  injection heq with hi hrow
  exact ⟨hi, hrow⟩

theorem mem_history_of_inserts {i : Pid} {row : Transaction}
    (h : row ∈ insertsOf (b.trail i).events) : .inserted i row ∈ b.history := by
  simp only [insertsOf, trail, List.mem_filterMap, List.mem_filter, decide_eq_true_eq] at h
  rcases h with ⟨event, ⟨hevent, hpid⟩, hrow⟩
  cases event <;> simp_all [Event.pid]

theorem chargesOf_filter (events : List Event)
    : chargesOf (events.filter (·.charged?.isSome)) = chargesOf events := by
  unfold chargesOf
  rw [List.filterMap_filter]
  apply List.filterMap_congr
  intro event _
  cases event <;> rfl

-- The charges on a trail are the charge calls of its process.
theorem Told.charges_trail (h : b.Told) (i : Pid)
    : chargesOf (b.trail i).events =
        (b.charges.filter (·.pid = i)).map (fun charge => (charge.gateway, charge.request)) := by
  have hfilter : (b.trail i).events.filter (·.charged?.isSome) =
      (b.charges.filter (·.pid = i)).map Charge.event := by
    simp only [trail]
    rw [List.filter_comm, h.charged, List.filter_map]
    rfl
  rw [← chargesOf_filter, hfilter]
  unfold chargesOf
  rw [List.filterMap_map]
  exact congrFun List.filterMap_eq_map _

theorem Told.mem_charges (h : b.Told) {charge : Charge} (hcharge : charge ∈ b.charges)
    : .charged charge.pid charge.gateway charge.request ∈ b.history := by
  have : charge.event ∈ b.history.filter (·.charged?.isSome) := by
    rw [h.charged]
    exact List.mem_map_of_mem hcharge
  exact List.mem_of_mem_filter this

/--
Behind a charge there is a call of `create` that has inserted the row it charges for.
-/
theorem Reachable.exists_owning (h : b.Reachable D tasks) {i : Pid} {g : GatewayProvider}
    {request : GatewayChargeRequest} (hcharge : .charged i g request ∈ b.history)
    : ∃ dto row, (tasks i).dto = some dto ∧ .inserted i row ∈ b.history ∧
        request = TransactionsService.chargeRequest dto row.id g ∧
        Owning i dto row [] (b.trail i).events := by
  have htrail := h.traced.trail_inv i
  have hmem : (g, request) ∈ chargesOf (b.trail i).events := by
    unfold chargesOf
    rw [List.mem_filterMap]
    exact ⟨_, mem_trail hcharge rfl, rfl⟩
  have hinserts := htrail.inserts_ne_nil (List.ne_nil_of_mem hmem)
  rcases htrail.exists_owning hinserts with ⟨dto, row, hdto, howning⟩
  refine ⟨dto, row, ?_, ?_, howning.charges _ hmem, howning⟩
  . rw [← h.traced.dto i]
    exact hdto
  . apply mem_history_of_inserts
    simp [howning.inserts]

-- A process inserts one row at most.
theorem Traced.inserted_unique (h : b.Traced D tasks) {i : Pid} {row row' : Transaction}
    (hrow : .inserted i row ∈ b.history) (hrow' : .inserted i row' ∈ b.history) : row = row' := by
  have hmem : ∀ row, .inserted i row ∈ b.history → row ∈ insertsOf (b.trail i).events := by
    intro row hrow
    unfold insertsOf
    rw [List.mem_filterMap]
    exact ⟨_, mem_trail hrow rfl, rfl⟩
  rcases (h.trail_inv i).exists_owning (List.ne_nil_of_mem (hmem row hrow)) with
    ⟨_, own, _, howning⟩
  have hown : ∀ row, .inserted i row ∈ b.history → row = own := by
    intro row hrow
    have := hmem row hrow
    rw [howning.inserts, List.mem_singleton] at this
    exact this
  rw [hown row hrow, hown row' hrow']

-- One process inserts a row, and it is the one that charges for it.
theorem Reachable.pid_eq_of_row (h : b.Reachable D tasks) {i j : Pid} {dto : CreateTransactionDto}
    {row : Transaction} {remaining : List GatewayProvider} {g : GatewayProvider}
    {request : GatewayChargeRequest} (howning : Owning j dto row remaining (b.trail j).events)
    (hcharge : .charged i g request ∈ b.history) (hid : request.transactionId = row.id)
    : i = j := by
  rcases h.exists_owning hcharge with ⟨dto', row', _, hrow', hrequest, _⟩
  have hrow : .inserted j row ∈ b.history := by
    apply mem_history_of_inserts
    simp [howning.inserts]
  rw [hrequest] at hid
  have hkey := h.inv.key_eq_of_id (h.told.known hrow') (h.told.known hrow) hid
  exact (h.told.inserted_inj h.inv hrow' hrow hkey).left

theorem Reachable.pid_eq_of_transactionId (h : b.Reachable D tasks) {i j : Pid}
    {g g' : GatewayProvider} {request request' : GatewayChargeRequest}
    (hcharge : .charged i g request ∈ b.history) (hcharge' : .charged j g' request' ∈ b.history)
    (hid : request.transactionId = request'.transactionId) : i = j := by
  rcases h.exists_owning hcharge' with ⟨dto, row, _, _, hrequest, howning⟩
  apply h.pid_eq_of_row howning hcharge
  rw [hid, hrequest]
  rfl

end Books

end PaymentOrchestration
