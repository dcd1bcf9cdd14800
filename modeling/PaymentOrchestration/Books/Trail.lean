import PaymentOrchestration.Books.Invariant

/-!
This module contains the trail of a process: its role and what it has left in the history. A trail
changes by the steps of its own process only.
-/

namespace PaymentOrchestration

open StateMachine

namespace Event

def pid (event : Event) : Pid :=
  match event with
  | .inserted pid _ => pid
  | .committed pid _ => pid
  | .charged pid _ _ => pid
  | .read pid _ _ => pid
  | .loaded pid _ => pid

def inserted? (event : Event) : Option Transaction :=
  match event with
  | .inserted _ row => some row
  | _ => none

def committed? (event : Event) : Option AuditLog :=
  match event with
  | .committed _ audit => some audit
  | _ => none

def charged? (event : Event) : Option (GatewayProvider × GatewayChargeRequest) :=
  match event with
  | .charged _ gateway request => some (gateway, request)
  | _ => none

@[simp]
theorem inserted?_eq
    : (∀ pid row, (inserted pid row).inserted? = some row) ∧
        (∀ pid audit, (committed pid audit).inserted? = none) ∧
        (∀ pid gateway request, (charged pid gateway request).inserted? = none) ∧
        (∀ pid conditions row, (read pid conditions row).inserted? = none) ∧
        (∀ pid event, (loaded pid event).inserted? = none) := by
  simp [inserted?]

@[simp]
theorem committed?_eq
    : (∀ pid row, (inserted pid row).committed? = none) ∧
        (∀ pid audit, (committed pid audit).committed? = some audit) ∧
        (∀ pid gateway request, (charged pid gateway request).committed? = none) ∧
        (∀ pid conditions row, (read pid conditions row).committed? = none) ∧
        (∀ pid event, (loaded pid event).committed? = none) := by
  simp [committed?]

@[simp]
theorem charged?_eq
    : (∀ pid row, (inserted pid row).charged? = none) ∧
        (∀ pid audit, (committed pid audit).charged? = none) ∧
        (∀ pid gateway request, (charged pid gateway request).charged? = some (gateway, request)) ∧
        (∀ pid conditions row, (read pid conditions row).charged? = none) ∧
        (∀ pid event, (loaded pid event).charged? = none) := by
  simp [charged?]

end Event

def insertsOf (events : List Event) : List Transaction :=
  events.filterMap Event.inserted?

def commitsOf (events : List Event) : List AuditLog :=
  events.filterMap Event.committed?

def chargesOf (events : List Event) : List (GatewayProvider × GatewayChargeRequest) :=
  events.filterMap Event.charged?

section Projections

variable {event : Event} {e₁ e₂ : List Event}

@[simp]
theorem insertsOf_append : insertsOf (e₁ ++ e₂) = insertsOf e₁ ++ insertsOf e₂ := by
  simp [insertsOf]

@[simp]
theorem commitsOf_append : commitsOf (e₁ ++ e₂) = commitsOf e₁ ++ commitsOf e₂ := by
  simp [commitsOf]

@[simp]
theorem chargesOf_append : chargesOf (e₁ ++ e₂) = chargesOf e₁ ++ chargesOf e₂ := by
  simp [chargesOf]

@[simp]
theorem insertsOf_cons : insertsOf (event :: e₂) = event.inserted?.toList ++ insertsOf e₂ := by
  cases event <;> rfl

@[simp]
theorem commitsOf_cons : commitsOf (event :: e₂) = event.committed?.toList ++ commitsOf e₂ := by
  cases event <;> rfl

@[simp]
theorem chargesOf_cons : chargesOf (event :: e₂) = event.charged?.toList ++ chargesOf e₂ := by
  cases event <;> rfl

@[simp]
theorem insertsOf_nil : insertsOf [] = [] := by
  rfl

@[simp]
theorem commitsOf_nil : commitsOf [] = [] := by
  rfl

@[simp]
theorem chargesOf_nil : chargesOf [] = [] := by
  rfl

end Projections

structure Trail where
  role : Role
  events : List Event

namespace Trail

inductive Step (D : Deployment) (i : Pid) : Trail → Trail → Prop where
  | hit (events : List Event) (dto : CreateTransactionDto) (t : Transaction)
    : Step D i ⟨.creating dto .start, events⟩ ⟨.creating dto (.cached t), events⟩
  | find (events : List Event) (role : Role) (conditions : List TxnWhere)
      (row : Option Transaction) (hfind : role.mayFind conditions)
      (hholds : ∀ t, row = some t → ∃ c ∈ conditions, c.holds D t)
    : Step D i ⟨role, events⟩ ⟨role.read row, events ++ [.read i conditions row]⟩
  | insert (events : List Event) (dto : CreateTransactionDto) (g : GatewayProvider)
      (fb : List GatewayProvider) (row : Transaction) (role : Role) (hnodup : (g :: fb).Nodup)
      (hrow : row = (TransactionsService.newTransaction dto g fb).row row.id)
      (hrole : role = .creating dto (.looping row g fb .ready) ∨ role = .creating dto .aborted)
    : Step D i ⟨.creating dto .start, events⟩ ⟨role, events ++ [.inserted i row]⟩
  | commit (events : List Event) (role role' : Role) (step : TransitionStep) (createdAt : Nat)
      (hpermit : Permit D role step) (hrole : role' = role.advance step.result ∨ role' = role.abort)
    : Step D i ⟨role, events⟩ ⟨role', events ++ [.committed i (step.entry createdAt)]⟩
  | load (events : List Event) (event : WebhookEvent)
    : Step D i ⟨.working .polling, events⟩
        ⟨.working (.loaded event), events ++ [.loaded i event]⟩
  | charge (events : List Event) (dto : CreateTransactionDto) (row : Transaction)
      (g : GatewayProvider) (fb : List GatewayProvider) (n : Nat)
    : Step D i ⟨.creating dto (.looping row g fb .processing), events⟩
        ⟨.creating dto (.looping row g fb (.charging n)),
          events ++ [.charged i g (TransactionsService.chargeRequest dto row.id g)]⟩
  | race (events : List Event) (dto : CreateTransactionDto) (row : Transaction)
      (g : GatewayProvider) (fb : List GatewayProvider) (n : Nat) (stage : Stage)
      (hstage : stage = .failed ∨ ∃ response, stage = .succeeded response)
    : Step D i ⟨.creating dto (.looping row g fb (.charging n)), events⟩
        ⟨.creating dto (.looping row g fb stage), events⟩
  | abort (events : List Event) (role : Role)
    : Step D i ⟨role, events⟩ ⟨role.abort, events⟩

abbrev Run (D : Deployment) (i : Pid) : Trail → Trail → Prop :=
  Relation.ReflTransGen (Step D i)

end Trail

namespace Books

def trail (b : Books) (i : Pid) : Trail where
  role := b.role i
  events := b.history.filter (·.pid = i)

variable {D : Deployment} {b b' : Books}

theorem trail_of_ne {i j : Pid} (hj : j ≠ i) {role : Role} {event : Event} (hpid : event.pid = i)
    (hrole : b'.role = Function.update b.role i role)
    (hhistory : b'.history = b.history ++ [event]) : b'.trail j = b.trail j := by
  have : ¬i = j := fun h => hj h.symm
  simp [trail, hrole, hhistory, List.filter_append, hj, hpid, this]

theorem trail_of_self {i : Pid} {role : Role} {event : Event} (hpid : event.pid = i)
    (hrole : b'.role = Function.update b.role i role)
    (hhistory : b'.history = b.history ++ [event])
    : b'.trail i = ⟨role, (b.trail i).events ++ [event]⟩ := by
  simp [trail, hrole, hhistory, List.filter_append, hpid]

-- A step that leaves an event is a step of the trail of its process and of no other.
theorem run_of_event (i : Pid) {role : Role} {event : Event} (hpid : event.pid = i)
    (hrole : b'.role = Function.update b.role i role)
    (hhistory : b'.history = b.history ++ [event])
    (hstep : Trail.Step D i (b.trail i) ⟨role, (b.trail i).events ++ [event]⟩) (j : Pid)
    : Trail.Run D j (b.trail j) (b'.trail j) := by
  by_cases hj : j = i
  . subst hj
    rw [trail_of_self hpid hrole hhistory]
    exact .single hstep
  . rw [trail_of_ne hj hpid hrole hhistory]

theorem run_of_setRole {i : Pid} {role : Role}
    (hstep : Trail.Step D i (b.trail i) ⟨role, (b.trail i).events⟩) (j : Pid)
    : Trail.Run D j (b.trail j) ((b.setRole i role).trail j) := by
  by_cases hj : j = i
  . subst hj
    have : (b.setRole j role).trail j = ⟨role, (b.trail j).events⟩ := by
      simp [trail, setRole]
    rw [this]
    exact .single hstep
  . have : (b.setRole i role).trail j = b.trail j := by
      simp [trail, setRole, hj]
    rw [this]

theorem trail_eq {i : Pid} {role : Role} (h : b.role i = role)
    : b.trail i = ⟨role, (b.trail i).events⟩ := by
  rw [← h]
  rfl

theorem Step.trail (hstep : b.Step D b') (j : Pid) : Trail.Run D j (b.trail j) (b'.trail j) := by
  cases hstep with
  | hit i dto key t hrole =>
    apply run_of_setRole
    rw [trail_eq hrole]
    exact .hit _ dto t
  | find i conditions row hfind hsome =>
    refine run_of_event i rfl rfl rfl ?_ j
    exact .find _ _ conditions row hfind (fun t ht => (hsome t ht).right)
  | insert i dto g fb row role hrole hnodup hrow hid hkey hrole' =>
    refine run_of_event i rfl rfl rfl ?_ j
    rw [trail_eq hrole]
    exact .insert _ dto g fb row role hnodup hrow hrole'
  | commit i step createdAt role hpermit hrow hrole' =>
    refine run_of_event i rfl rfl rfl ?_ j
    exact .commit _ _ role step createdAt hpermit hrole'
  | load i event hrole =>
    refine run_of_event i rfl rfl rfl ?_ j
    rw [trail_eq hrole]
    exact .load _ event
  | charge i dto row g fb hrole =>
    refine run_of_event i rfl rfl rfl ?_ j
    rw [trail_eq hrole]
    exact .charge _ dto row g fb _
  | answer i dto row g fb n charge response hrole =>
    apply run_of_setRole
    rw [trail_eq hrole, hrole]
    simp only [Role.raced]
    split
    . exact .race _ dto row g fb n _ (.inr ⟨response, rfl⟩)
    . exact .race _ dto row g fb n _ (.inl rfl)
  | threw i dto row g fb n charge message captured hrole =>
    apply run_of_setRole
    rw [trail_eq hrole]
    exact .race _ dto row g fb n _ (.inl rfl)
  | timeout i dto row g fb n charge captured hrole =>
    have hstep : Trail.Step D i (b.trail i)
        ⟨.creating dto (.looping row g fb .failed), (b.trail i).events⟩ := by
      rw [trail_eq hrole]
      exact .race _ dto row g fb n _ (.inl rfl)
    exact run_of_setRole hstep j
  | abort i =>
    apply run_of_setRole
    exact .abort _ _
  | _ => exact .refl

theorem Step.history_append (hstep : b.Step D b') : ∃ events, b'.history = b.history ++ events := by
  cases hstep with
  | find | insert | commit | load | charge => exact ⟨_, rfl⟩
  | _ => exact ⟨[], by simp [setRole]⟩

theorem Run.mem_history (hrun : b.Run D b') {event : Event} (h : event ∈ b.history)
    : event ∈ b'.history := by
  induction hrun with
  | refl => exact h
  | tail _ hstep ih =>
    rcases hstep.history_append with ⟨events, hevents⟩
    rw [hevents]
    exact List.mem_append_left _ ih

theorem Run.trail (hrun : b.Run D b') (i : Pid) : Trail.Run D i (b.trail i) (b'.trail i) := by
  induction hrun with
  | refl => exact .refl
  | tail _ hstep ih => exact ih.trans (hstep.trail i)

/--
The processes have got here from the beginning, whatever was in the tables then.
-/
def Traced (D : Deployment) (tasks : Pid → Task) (b : Books) : Prop :=
  ∃ b₀ : Books, b₀.Inv ∧ (∀ i, b₀.role i = (tasks i).party.role) ∧ b₀.history = [] ∧ b₀.Run D b

theorem Reachable.traced {tasks : Pid → Task} (h : b.Reachable D tasks) : b.Traced D tasks := by
  rcases h with ⟨b₀, hstart, hrun⟩
  exact ⟨b₀, hstart.inv, hstart.role, hstart.history, hrun⟩

theorem Traced.trail {tasks : Pid → Task} (h : b.Traced D tasks) (i : Pid)
    : Trail.Run D i ⟨(tasks i).party.role, []⟩ (b.trail i) := by
  rcases h with ⟨b₀, _, hrole, hhistory, hrun⟩
  have := hrun.trail i
  rwa [Books.trail, hrole, hhistory] at this

theorem mem_trail {i : Pid} {event : Event} (h : event ∈ b.history) (hpid : event.pid = i)
    : event ∈ (b.trail i).events := by
  simp [Books.trail, h, hpid]

end Books

end PaymentOrchestration
