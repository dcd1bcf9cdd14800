import PaymentOrchestration.Books.Refinement
import PaymentOrchestration.Breaker.Serial
import PaymentOrchestration.Breaker.Walk
import PaymentOrchestration.Party.Ground
import PaymentOrchestration.Watched

/-!
This module is about gateways whose circuit is HALF_OPEN: when they get one charge call at a time.
-/

namespace PaymentOrchestration

open StateMachine

def World.HalfOpen (w : World) (g : GatewayProvider) : Prop :=
  (w.statsOf g).map GatewayStats.circuitState = some .HALF_OPEN

instance (w : World) (g : GatewayProvider) : Decidable (w.HalfOpen g) :=
  inferInstanceAs (Decidable (_ = _))

/--
The circuit of the gateway became HALF_OPEN when so many charge calls had been started.
-/
structure HalfOpened where
  gateway : GatewayProvider
  started : Nat

-- The observer sees a circuit become HALF_OPEN.
def seesHalfOpen (_ : Pid) (cmd : Cmd) (o : Oracle) (w : World) : List HalfOpened :=
  match cmd with
  | .saveStats stats =>
    if o.fault ≠ .before ∧ stats.circuitState = .HALF_OPEN ∧ ¬w.HalfOpen stats.gateway then
      [⟨stats.gateway, w.charges.length⟩]
    else
      []
  | _ => []

abbrev WatchedProbes (D : Deployment) := Watched D seesHalfOpen

def Charge.inFlight (charge : Charge) : Bool :=
  match charge.status with
  | .pending _ => true
  | _ => false

-- The number of the first charge call since the circuit became HALF_OPEN.
def since (g : GatewayProvider) (log : List HalfOpened) : Nat :=
  ((log.filter (·.gateway = g)).getLast?.map HalfOpened.started).getD 0

def probesFrom (g : GatewayProvider) (n : Nat) (charges : List Charge) : List Charge :=
  (charges.drop n).filter (fun charge => charge.gateway = g ∧ charge.inFlight)

namespace Watched

variable {D : Deployment} {tasks : Pid → Task}

/--
The charge calls to the gateway that were started since its circuit became HALF_OPEN and are in
flight.
-/
def probes (c : WatchedProbes D) (g : GatewayProvider) : List Charge :=
  probesFrom g (since g c.world.2) c.world.1.charges

/--
A call that has inserted its payment may still send a charge to the gateway.
-/
def MayCall (c : WatchedProbes D) (i : Pid) (g : GatewayProvider) : Prop :=
  (∃ row, .inserted i row ∈ c.world.1.history) ∧
    ∃ p, c.pool i = .running p ∧ ¬p.Issues (Cmd.spares g)

/--
A gateway whose circuit is HALF_OPEN is given to one call at a time: it is in the ranking of a new
payment only if no other call may still charge it and no probe is in flight, and a circuit becomes
HALF_OPEN only when at most one call may still charge the gateway.
-/
def Reserved (c : WatchedProbes D) (a : ((machine D).observed seesHalfOpen).Act) : Prop :=
  match a with
  | .run i o =>
    (∀ txn k row w, c.pool i = .running (.op (.insertTransaction txn) k) →
      Exec.insertTransaction i txn o c.world.1 = some (.ok row, w) →
      ∀ g ∈ txn.gateways, c.world.1.HalfOpen g → (∀ j, ¬c.MayCall j g) ∧ c.probes g = []) ∧
    ∀ stats k, c.pool i = .running (.op (.saveStats stats) k) →
      seesHalfOpen i (.saveStats stats) o c.world.1 ≠ [] →
      ∀ j j', c.MayCall j stats.gateway → c.MayCall j' stats.gateway → j = j'
  | _ => True

end Watched

/-!
What becomes of the charge calls in flight.
-/

-- What may happen to the charge calls without a new one.
def Progress (charges charges' : List Charge) : Prop :=
  List.Forall₂ (fun charge charge' : Charge => charge'.gateway = charge.gateway ∧
    (charge'.inFlight = true → charge.inFlight = true)) charges charges'

theorem Progress.refl (charges : List Charge) : Progress charges charges := by
  exact List.forall₂_same.mpr (fun _ _ => ⟨rfl, id⟩)

section Probes

variable {g : GatewayProvider} {n : Nat} {charges charges' : List Charge}

theorem length_probesFrom_le (h : Progress charges charges')
    : (probesFrom g n charges').length ≤ (probesFrom g n charges).length := by
  unfold probesFrom
  have hdrop := List.forall₂_drop n h
  generalize charges.drop n = old at hdrop
  generalize charges'.drop n = new at hdrop
  induction hdrop with
  | nil => exact Nat.le_refl _
  | @cons charge charge' old new hcharge _ ih =>
    rcases hcharge with ⟨hgateway, hflight⟩
    by_cases hnew : charge'.gateway = g ∧ charge'.inFlight = true
    . have hold : charge.gateway = g ∧ charge.inFlight = true := by
        exact ⟨hgateway ▸ hnew.left, hflight hnew.right⟩
      rw [List.filter_cons_of_pos (by simpa using hnew),
        List.filter_cons_of_pos (by simpa using hold)]
      exact Nat.succ_le_succ ih
    . rw [List.filter_cons_of_neg (by simpa using hnew)]
      apply Nat.le_trans ih
      exact (List.Sublist.filter _ (List.sublist_cons_self charge old)).length_le

theorem Progress.set {charge charge' : Charge} {m : Nat} (hcharge : charges[m]? = some charge)
    (hgateway : charge'.gateway = charge.gateway)
    (hflight : charge'.inFlight = true → charge.inFlight = true)
    : Progress charges (charges.set m charge') := by
  induction charges generalizing m with
  | nil => cases hcharge
  | cons first rest ih =>
    cases m with
    | zero =>
      simp only [List.getElem?_cons_zero, Option.some.injEq] at hcharge
      subst hcharge
      exact .cons ⟨hgateway, hflight⟩ (Progress.refl rest)
    | succ m => exact .cons ⟨rfl, id⟩ (ih hcharge)

theorem probesFrom_concat {charge : Charge} (hn : n ≤ charges.length)
    : probesFrom g n (charges ++ [charge]) =
        probesFrom g n charges ++ if charge.gateway = g ∧ charge.inFlight then [charge] else [] := by
  unfold probesFrom
  rw [List.drop_append_of_le_length hn, List.filter_append, List.filter_singleton]
  simp

theorem probesFrom_length : probesFrom g charges.length charges = [] := by
  unfold probesFrom
  rw [List.drop_length]
  rfl

end Probes

section Since

variable {g : GatewayProvider} {log : List HalfOpened}

theorem since_append_of_ne {events : List HalfOpened} (h : ∀ event ∈ events, event.gateway ≠ g)
    : since g (log ++ events) = since g log := by
  unfold since
  have hnil : events.filter (·.gateway = g) = [] := by
    rw [List.filter_eq_nil_iff]
    simpa using h
  rw [List.filter_append, hnil, List.append_nil]

theorem since_concat {event : HalfOpened} (h : event.gateway = g)
    : since g (log ++ [event]) = event.started := by
  unfold since
  simp [List.filter_append, h]

end Since

namespace Watched

variable {D : Deployment} {tasks : Pid → Task} {c c' : WatchedProbes D}

/--
One call at a time is at the gateway or on its way to it.
-/
structure Single (c : WatchedProbes D) (g : GatewayProvider) : Prop where
  callers : ∀ i j, c.MayCall i g → c.MayCall j g → i = j
  apart : c.probes g ≠ [] → ∀ i, ¬c.MayCall i g
  probes : (c.probes g).length ≤ 1

theorem Single.mono {g : GatewayProvider} (h : c.Single g)
    (hcallers : ∀ i, c'.MayCall i g → c.MayCall i g)
    (hprobes : (c'.probes g).length ≤ (c.probes g).length) : c'.Single g := by
  refine ⟨fun i j hi hj => h.callers i j (hcallers i hi) (hcallers j hj), ?_, ?_⟩
  . intro hne i hi
    apply h.apart _ i (hcallers i hi)
    rw [← List.length_pos_iff] at hne ⊢
    exact Nat.lt_of_lt_of_le hne hprobes
  . exact Nat.le_trans hprobes h.probes

theorem MayCall.mono {i : Pid} {g : GatewayProvider} (h : c'.MayCall i g)
    (hhistory : ∀ row, .inserted i row ∈ c'.world.1.history →
      ∃ row, .inserted i row ∈ c.world.1.history)
    (hpool : ∀ p', c'.pool i = .running p' → ∃ p, c.pool i = .running p ∧
      (p.Issues (Cmd.spares g) → p'.Issues (Cmd.spares g)))
    : c.MayCall i g := by
  rcases h with ⟨⟨row, hrow⟩, p', hp', hissues⟩
  rcases hpool p' hp' with ⟨p, hp, himp⟩
  exact ⟨hhistory row hrow, p, hp, fun h => hissues (himp h)⟩

abbrev Walkers (D : Deployment) := ((machine D).observed seesHalfOpen).Parties walkProtocol

/--
What is known of the calls and of the gateways whose circuit is HALF_OPEN.
-/
structure Probing (tasks : Pid → Task) (c : WatchedProbes D) (d : Walkers D) : Prop where
  reachable : c.Reachable tasks
  bounded : ∀ g, since g c.world.2 ≤ c.world.1.charges.length
  unsent : ∀ i, d.state i = none → ∀ row, .inserted i row ∉ c.world.1.history
  waiting : ∀ i g rest, d.state i = some (g :: rest) →
    ∃ row, .inserted i row ∈ c.world.1.history
  nodup : ∀ i gateways, d.state i = some gateways → gateways.Nodup
  single : ∀ g, c.world.1.HalfOpen g → c.Single g

abbrev SimulatedBy (c : WatchedProbes D) (d : Walkers D) : Prop :=
  Machine.Simulates (M := (machine D).observed seesHalfOpen) (P := walkProtocol) (fun _ => none)
    (fun _ => Anywhere) c d

/--
A call goes only where its walk leads.
-/
theorem not_mayCall {d : Walkers D} (hsim : SimulatedBy c d) {i : Pid}
    {gateways : List GatewayProvider} (hstate : d.state i = some gateways) {g : GatewayProvider}
    (hg : g ∉ gateways) : ¬c.MayCall i g := by
  rintro ⟨_, p, hp, hissues⟩
  have hfollows := hsim.follows i
  rw [hp, hstate] at hfollows
  exact hissues (issues_spares hfollows hg)

theorem env_progress {e : EnvAct} {w w' : World} (henv : envStep e w = some w')
    : Progress w.charges w'.charges := by
  cases e with
  | settle n status =>
    simp only [envStep] at henv
    split at henv
    . next charge hcharge =>
      split at henv
      . next captured hstatus =>
        injection henv with henv
        rw [← henv]
        refine Progress.set hcharge rfl ?_
        intro _
        simp [Charge.inFlight, hstatus]
      . cases henv
    . cases henv
  | _ =>
    injection henv with henv
    rw [← henv]
    exact .refl _

theorem exec_progress {i : Pid} {cmd : Cmd} {o : Oracle} {w w' : World} {r : Except Err cmd.Resp}
    (hcmd : ∀ g request, cmd ≠ .charge g request) (hexec : exec D i cmd o w = some (r, w'))
    : Progress w.charges w'.charges := by
  rcases exec_charges hexec with heq | ⟨g, request, heq, _⟩ | ⟨n, charge, captured, _, hcharge,
    hstatus, heq⟩
  . rw [heq]
    exact .refl _
  . exact absurd heq (hcmd g request)
  . rw [heq]
    exact Progress.set hcharge rfl id

theorem MayCall.of_run {i j : Pid} {g : GatewayProvider} {cmd : Cmd} {o : Oracle}
    {k : Except Err cmd.Resp → Program Reply} {r : Except Err cmd.Resp} {w : World}
    (hcall : c'.MayCall j g) (hop : c.pool i = .running (.op cmd k))
    (hexec : exec D i cmd o c.world.1 = some (r, w)) (hworld : c'.world.1 = w)
    (hpool : c'.pool = Function.update c.pool i (.running (k r)))
    (hcmd : j = i → ∀ txn, cmd ≠ .insertTransaction txn) : c.MayCall j g := by
  apply hcall.mono
  . intro row hrow
    rcases exec_tells hexec with ⟨events, heq, htells⟩
    rw [hworld, heq, List.mem_append] at hrow
    rcases hrow with hrow | hrow
    . exact ⟨row, hrow⟩
    . rcases htells _ hrow with ⟨hj, txn, htxn⟩
      exact absurd htxn (hcmd hj txn)
  . intro p' hp'
    rw [hpool] at hp'
    by_cases hj : j = i
    . subst hj
      rw [Function.update_self] at hp'
      injection hp' with hp'
      subst hp'
      exact ⟨_, hop, fun hissues => (hissues.right r trivial).right⟩
    . rw [Function.update_of_ne hj] at hp'
      exact ⟨p', hp', id⟩

namespace Probing

variable {d d' : Walkers D}

/--
No circuit becomes HALF_OPEN, no call is started and no payment inserted.
-/
theorem frame (h : Probing tasks c d) (hreachable : c'.Reachable tasks)
    (hstate : d'.state = d.state) (hlog : c'.world.2 = c.world.2)
    (hhistory : ∀ i row, .inserted i row ∈ c'.world.1.history ↔ .inserted i row ∈ c.world.1.history)
    (hhalfOpen : ∀ g, c'.world.1.HalfOpen g → c.world.1.HalfOpen g)
    (hcharges : Progress c.world.1.charges c'.world.1.charges)
    (hcallers : ∀ i g, c'.MayCall i g → c.MayCall i g) : Probing tasks c' d' := by
  refine ⟨hreachable, ?_, ?_, ?_, ?_, ?_⟩
  . intro g
    rw [hlog, ← hcharges.length_eq]
    exact h.bounded g
  . intro i hi row hrow
    rw [hstate] at hi
    exact h.unsent i hi row ((hhistory i row).mp hrow)
  . intro i g rest hi
    rw [hstate] at hi
    rcases h.waiting i g rest hi with ⟨row, hrow⟩
    exact ⟨row, (hhistory i row).mpr hrow⟩
  . rw [hstate]
    exact h.nodup
  . intro g hg
    apply (h.single g (hhalfOpen g hg)).mono (fun i => hcallers i g)
    unfold probes
    rw [hlog]
    exact length_probesFrom_le hcharges

variable {i : Pid} {o : Oracle} {w : World}

theorem charged (h : Probing tasks c d) (hreachable : c'.Reachable tasks)
    (hsim' : SimulatedBy c' d') {g : GatewayProvider} {request : GatewayChargeRequest}
    {k : Except Err Nat → Program Reply} {rest : List GatewayProvider}
    (hop : c.pool i = .running (.op (.charge g request) k))
    (hdue : d.state i = some (g :: rest))
    (hstate : d'.state = Function.update d.state i (some rest))
    (hlog : c'.world.2 = c.world.2)
    (hworld : c'.world.1 = (Exec.charge i g request c.world.1).2)
    (hcallers : ∀ j g, c'.MayCall j g → c.MayCall j g) : Probing tasks c' d' := by
  have hinserted : ∀ j row, .inserted j row ∈ c'.world.1.history ↔
      .inserted j row ∈ c.world.1.history := by
    intro j row
    simp [hworld, Exec.charge]
  have hcharges : c'.world.1.charges =
      c.world.1.charges ++ [⟨i, g, request, .pending false, false⟩] := by
    rw [hworld]
    rfl
  have hnodup := h.nodup i _ hdue
  rw [List.nodup_cons] at hnodup
  refine ⟨hreachable, ?_, ?_, ?_, ?_, ?_⟩
  . intro g'
    rw [hlog, hcharges, List.length_append]
    exact Nat.le_add_right_of_le (h.bounded g')
  . intro j hj row hrow
    rw [hstate] at hj
    by_cases heq : j = i
    . rw [heq, Function.update_self] at hj
      cases hj
    . rw [Function.update_of_ne heq] at hj
      exact h.unsent j hj row ((hinserted j row).mp hrow)
  . intro j g' rest' hj
    have hold : ∃ row, .inserted j row ∈ c.world.1.history := by
      by_cases heq : j = i
      . rw [heq]
        exact h.waiting i g rest hdue
      . rw [hstate, Function.update_of_ne heq] at hj
        exact h.waiting j g' rest' hj
    rcases hold with ⟨row, hrow⟩
    exact ⟨row, (hinserted j row).mpr hrow⟩
  . intro j gateways hj
    rw [hstate] at hj
    by_cases heq : j = i
    . rw [heq, Function.update_self, Option.some.injEq] at hj
      rw [← hj]
      exact hnodup.right
    . rw [Function.update_of_ne heq] at hj
      exact h.nodup j gateways hj
  . intro g' hg'
    have hopen : c.world.1.HalfOpen g' := by
      rw [hworld] at hg'
      exact hg'
    have hsingle := h.single g' hopen
    by_cases heq : g' = g
    . subst heq
      have hcall : c.MayCall i g' := by
        refine ⟨h.waiting i g' rest hdue, _, hop, fun hissues => ?_⟩
        exact hissues.left rfl
      have hnone : ∀ j, ¬c'.MayCall j g' := by
        intro j hj
        have heq := hsingle.callers j i (hcallers j g' hj) hcall
        rw [heq] at hj
        exact not_mayCall hsim' (by rw [hstate, Function.update_self]) hnodup.left hj
      have hnil : c.probes g' = [] := by
        by_contra hne
        exact hsingle.apart hne i hcall
      refine ⟨fun j _ hj => absurd hj (hnone j), fun _ => hnone, ?_⟩
      unfold probes at hnil ⊢
      rw [hlog, hcharges, probesFrom_concat (h.bounded g'), hnil]
      split <;> simp
    . apply hsingle.mono (fun j => hcallers j g')
      unfold probes
      rw [hlog, hcharges, probesFrom_concat (h.bounded g'), if_neg (fun hand => heq hand.left.symm),
        List.append_nil]

theorem saved (h : Probing tasks c d) (hreachable : c'.Reachable tasks)
    (hstate : d'.state = d.state) {stats : GatewayStats}
    (hlog : c'.world.2 = c.world.2 ++ seesHalfOpen i (.saveStats stats) o c.world.1)
    (hhistory : c'.world.1.history = c.world.1.history)
    (hcharges : c'.world.1.charges = c.world.1.charges)
    (hhalfOpen : ∀ g, c'.world.1.HalfOpen g → c.world.1.HalfOpen g ∨
      g = stats.gateway ∧ seesHalfOpen i (.saveStats stats) o c.world.1 ≠ [])
    (hreserved : seesHalfOpen i (.saveStats stats) o c.world.1 ≠ [] →
      ∀ j j', c.MayCall j stats.gateway → c.MayCall j' stats.gateway → j = j')
    (hcallers : ∀ j g, c'.MayCall j g → c.MayCall j g) : Probing tasks c' d' := by
  have hsees : seesHalfOpen i (.saveStats stats) o c.world.1 = [] ∨
      seesHalfOpen i (.saveStats stats) o c.world.1 =
        [⟨stats.gateway, c.world.1.charges.length⟩] ∧ ¬c.world.1.HalfOpen stats.gateway := by
    dsimp only [seesHalfOpen]
    split
    . next hflip => exact .inr ⟨rfl, hflip.right.right⟩
    . exact .inl rfl
  rcases hsees with hsees | ⟨hsees, hclosed⟩
  . rw [hsees, List.append_nil] at hlog
    apply h.frame hreachable hstate hlog
    . intro j row
      rw [hhistory]
    . intro g hg
      rcases hhalfOpen g hg with hopen | ⟨_, hne⟩
      . exact hopen
      . exact absurd hsees hne
    . rw [hcharges]
      exact .refl _
    . exact hcallers
  . rw [hsees] at hlog hhalfOpen hreserved
    have hsince : ∀ g, g ≠ stats.gateway → since g c'.world.2 =
        since g c.world.2 := by
      intro g hg
      rw [hlog]
      apply since_append_of_ne
      intro event hevent
      rw [List.mem_singleton.mp hevent]
      exact Ne.symm hg
    have hself : since stats.gateway c'.world.2 =
        c.world.1.charges.length := by
      rw [hlog]
      exact since_concat rfl
    refine ⟨hreachable, ?_, ?_, ?_, ?_, ?_⟩
    . intro g
      rw [hcharges]
      by_cases heq : g = stats.gateway
      . rw [heq, hself]
      . rw [hsince g heq]
        exact h.bounded g
    . rw [hstate, hhistory]
      exact h.unsent
    . rw [hstate, hhistory]
      exact h.waiting
    . rw [hstate]
      exact h.nodup
    . intro g hg
      by_cases heq : g = stats.gateway
      . subst heq
        have hnil : c'.probes stats.gateway = [] := by
          unfold probes
          rw [hself, hcharges]
          exact probesFrom_length
        have hunique := hreserved (by simp)
        refine ⟨?_, fun hne => absurd hnil hne, by simp [hnil]⟩
        intro j j' hj hj'
        exact hunique j j' (hcallers j _ hj) (hcallers j' _ hj')
      . have hopen : c.world.1.HalfOpen g := (hhalfOpen g hg).resolve_right (fun hand => heq hand.left)
        apply (h.single g hopen).mono (fun j => hcallers j g)
        unfold probes
        rw [hsince g heq, hcharges]

theorem inserted (h : Probing tasks c d) (hreachable : c'.Reachable tasks)
    (hsim' : SimulatedBy c' d') {gateways : List GatewayProvider}
    (hstate : d'.state = Function.update d.state i (some gateways)) (hnodup : gateways.Nodup)
    (hlog : c'.world.2 = c.world.2) (hcharges : c'.world.1.charges = c.world.1.charges)
    (hstats : c'.world.1.gatewayStats = c.world.1.gatewayStats)
    (hothers : ∀ j row, j ≠ i → (.inserted j row ∈ c'.world.1.history ↔
      .inserted j row ∈ c.world.1.history))
    (hrow : gateways ≠ [] → ∃ row, .inserted i row ∈ c'.world.1.history)
    (hreserved : ∀ g ∈ gateways, c.world.1.HalfOpen g →
      (∀ j, ¬c.MayCall j g) ∧ c.probes g = [])
    (hcallers : ∀ j g, j ≠ i → c'.MayCall j g → c.MayCall j g) : Probing tasks c' d' := by
  have hself : d'.state i = some gateways := by
    rw [hstate, Function.update_self]
  have hother : ∀ j, j ≠ i → d'.state j = d.state j := by
    intro j hj
    rw [hstate, Function.update_of_ne hj]
  have hprobes : ∀ g, c'.probes g = c.probes g := by
    intro g
    unfold probes
    rw [hlog, hcharges]
  refine ⟨hreachable, ?_, ?_, ?_, ?_, ?_⟩
  . rw [hlog, hcharges]
    exact h.bounded
  . intro j hj row hmem
    by_cases heq : j = i
    . rw [heq, hself] at hj
      cases hj
    . rw [hother j heq] at hj
      exact h.unsent j hj row ((hothers j row heq).mp hmem)
  . intro j g rest hj
    by_cases heq : j = i
    . rw [heq, hself, Option.some.injEq] at hj
      rw [heq]
      exact hrow (by simp [hj])
    . rw [hother j heq] at hj
      rcases h.waiting j g rest hj with ⟨row, hmem⟩
      exact ⟨row, (hothers j row heq).mpr hmem⟩
  . intro j gateways' hj
    by_cases heq : j = i
    . rw [heq, hself, Option.some.injEq] at hj
      rw [← hj]
      exact hnodup
    . rw [hother j heq] at hj
      exact h.nodup j gateways' hj
  . intro g hg
    have hopen : c.world.1.HalfOpen g := by
      unfold World.HalfOpen World.statsOf at hg ⊢
      rw [hstats] at hg
      exact hg
    by_cases hmem : g ∈ gateways
    . rcases hreserved g hmem hopen with ⟨hnone, hnil⟩
      have hown : ∀ j, c'.MayCall j g → j = i := by
        intro j hj
        by_contra hne
        exact hnone j (hcallers j g hne hj)
      refine ⟨?_, ?_, ?_⟩
      . intro j j' hj hj'
        rw [hown j hj, hown j' hj']
      . rw [hprobes, hnil]
        exact fun hne => absurd rfl hne
      . simp [hprobes, hnil]
    . apply (h.single g hopen).mono _ (by rw [hprobes])
      intro j hj
      apply hcallers j g _ hj
      intro heq
      rw [heq] at hj
      exact not_mayCall hsim' hself hmem hj

end Probing

/--
A ranking names every gateway once.
-/
theorem Reachable.gateways_nodup (h : c.Reachable tasks) {i : Pid} {txn : NewTransaction}
    {k : Except Err Transaction → Program Reply}
    (hop : c.pool i = .running (.op (.insertTransaction txn) k)) : txn.gateways.Nodup := by
  rcases h.system.exists_service with ⟨d, _, hsim⟩
  have hfollows := hsim.follows i
  rw [show c.system.pool i = .running (.op (.insertTransaction txn) k) from hop] at hfollows
  rcases hfollows.left with ⟨dto, g, fb, _, hnodup, htxn⟩
  rw [htxn]
  exact hnodup

theorem halfOpen_of_saved {w w' : World} {stats : GatewayStats} {o : Oracle} {i : Pid}
    {r : Except Err Unit} (hexec : exec D i (.saveStats stats) o w = some (r, w'))
    {g : GatewayProvider} (hg : w'.HalfOpen g)
    : w.HalfOpen g ∨ g = stats.gateway ∧ seesHalfOpen i (.saveStats stats) o w ≠ [] := by
  by_cases hopen : w.HalfOpen g
  . exact .inl hopen
  right
  have hw : o.fault ≠ .before ∧
      w' = w.mapStats (fun old => if old.gateway = stats.gateway then stats else old) := by
    simp only [exec, Exec.saveStats] at hexec
    cases hfault : o.fault with
    | before =>
      simp only [hfault, Exec.statement, Option.some.injEq, Prod.mk.injEq] at hexec
      rw [← hexec.right] at hg
      exact absurd hg hopen
    | _ =>
      simp only [hfault, Exec.statement, Option.some.injEq, Prod.mk.injEq] at hexec
      exact ⟨by simp, hexec.right.symm⟩
  rcases hw with ⟨hfault, hw⟩
  unfold World.HalfOpen at hg
  rw [hw, World.statsOf_mapStats] at hg
  . rw [Option.map_map, Option.map_eq_some_iff] at hg
    rcases hg with ⟨row, hrow, hstate⟩
    have hgateway := World.gateway_of_statsOf hrow
    by_cases heq : row.gateway = stats.gateway
    . simp only [Function.comp_apply, if_pos heq] at hstate
      have hself : g = stats.gateway := hgateway.symm.trans heq
      refine ⟨hself, ?_⟩
      dsimp only [seesHalfOpen]
      rw [if_pos ⟨hfault, hstate, by rw [← hself]; exact hopen⟩]
      simp
    . simp only [Function.comp_apply, if_neg heq] at hstate
      exact absurd (by rw [World.HalfOpen, hrow, Option.map_some, hstate]) hopen
  . intro row
    split
    . next heq => exact heq.symm
    . rfl

namespace Probing

variable {d d' : Walkers D} {i : Pid} {o : Oracle} {w : World}

theorem run (h : Probing tasks c d) (hreachable : c'.Reachable tasks) (hsim' : SimulatedBy c' d')
    {cmd : Cmd} {k : Except Err cmd.Resp → Program Reply} {r : Except Err cmd.Resp}
    (hop : c.pool i = .running (.op cmd k)) (hallowed : (d.state i).allowed cmd)
    (hreserved : c.Reserved (.run i o)) (hexec : exec D i cmd o c.world.1 = some (r, w))
    (hworld : c'.world = (w, c.world.2 ++ seesHalfOpen i cmd o c.world.1))
    (hpool : c'.pool = Function.update c.pool i (.running (k r)))
    (hstate : d'.state = Function.update d.state i ((d.state i).next cmd r))
    : Probing tasks c' d' := by
  have hw : c'.world.1 = w := by
    rw [hworld]
  have hcallers : (∀ txn, cmd ≠ .insertTransaction txn) →
      ∀ j g, c'.MayCall j g → c.MayCall j g := by
    intro hcmd j g hj
    exact hj.of_run hop hexec hw hpool (fun _ => hcmd)
  have hinserted : ∀ j row, (j = i → ∀ txn, cmd ≠ .insertTransaction txn) →
      (.inserted j row ∈ c'.world.1.history ↔ .inserted j row ∈ c.world.1.history) := by
    intro j row hcmd
    rcases exec_tells hexec with ⟨events, heq, htells⟩
    rw [hw, heq, List.mem_append]
    refine ⟨fun hmem => hmem.resolve_right fun hmem => ?_, .inl⟩
    rcases htells _ hmem with ⟨hj, txn, htxn⟩
    exact hcmd hj txn htxn
  have hstats : (∀ stats, cmd ≠ .saveStats stats) →
      c'.world.1.gatewayStats = c.world.1.gatewayStats := by
    intro hcmd
    rw [hw]
    rcases (exec_touches hexec).gatewayStats with heq | ⟨stats, heq, _⟩
    . exact heq
    . exact absurd heq (hcmd stats)
  have hresting : cmd.resting → (∀ stats, cmd ≠ .saveStats stats) →
      seesHalfOpen i cmd o c.world.1 = [] → Probing tasks c' d' := by
    intro hcmd hsave hsees
    have hne : ∀ txn, cmd ≠ .insertTransaction txn := by
      intro txn heq
      rw [heq] at hcmd
      exact hcmd
    apply h.frame hreachable
    . rw [hstate, hcmd.walk.right r, Function.update_eq_self]
    . rw [hworld, hsees]
      exact List.append_nil _
    . exact fun j row => hinserted j row (fun _ => hne)
    . intro g hg
      unfold World.HalfOpen World.statsOf at hg ⊢
      rw [hstats hsave] at hg
      exact hg
    . rw [hw]
      apply exec_progress _ hexec
      intro g request heq
      rw [heq] at hcmd
      exact hcmd
    . exact hcallers hne
  cases cmd with
  | insertTransaction txn =>
    have hcharges : c'.world.1.charges = c.world.1.charges := by
      rw [hw]
      rcases Exec.insertTransaction_cases hexec with ⟨heq, _⟩ | ⟨_, _, _, heq⟩ <;> rw [heq]
    have hlog : c'.world.2 = c.world.2 := by
      rw [hworld]
      exact List.append_nil _
    have hothers : ∀ j g, j ≠ i → c'.MayCall j g → c.MayCall j g := by
      intro j g hne hj
      exact hj.of_run hop hexec hw hpool (fun heq => absurd heq hne)
    cases r with
    | error e =>
      exact h.inserted hreachable hsim' hstate List.nodup_nil hlog hcharges (hstats (by simp))
        (fun j row hne => hinserted j row (fun heq => absurd heq hne)) (by simp) (by simp) hothers
    | ok row =>
      apply h.inserted hreachable hsim' hstate (h.reachable.gateways_nodup hop) hlog hcharges
        (hstats (by simp)) (fun j row hne => hinserted j row (fun heq => absurd heq hne)) _
        (hreserved.left txn k row w hop hexec) hothers
      intro _
      rcases Exec.insertTransaction_cases hexec with ⟨_, e, hr⟩ | ⟨_, _, _, heq⟩
      . cases hr
      . exact ⟨txn.row o.id, by rw [hw, heq]; simp⟩
  | charge g request =>
    rcases hallowed with ⟨rest, hdue⟩
    simp only [exec, Option.some.injEq, Prod.mk.injEq] at hexec
    apply h.charged hreachable hsim' hop hdue
    . rw [hstate, hdue]
      cases r <;> rfl
    . rw [hworld]
      exact List.append_nil _
    . rw [hw, hexec.right]
    . exact hcallers (by simp)
  | saveStats stats =>
    have hsame : w.history = c.world.1.history ∧ w.charges = c.world.1.charges :=
      exec_of_not_telling rfl hexec
    apply h.saved hreachable
    . rw [hstate, show (d.state i).next (.saveStats stats) r = d.state i from by cases r <;> rfl,
        Function.update_eq_self]
    . rw [hworld]
    . rw [hw, hsame.left]
    . rw [hw, hsame.right]
    . intro g hg
      rw [hw] at hg
      exact halfOpen_of_saved hexec hg
    . exact hreserved.right stats k hop
    . exact hcallers (by simp)
  | _ => exact hresting trivial (by simp) rfl

theorem spawn (h : Probing tasks c d) (hsim : SimulatedBy c d) (hreachable : c'.Reachable tasks)
    (hidle : c.pool i = .idle) {p : Program Reply} (hworld : c'.world = c.world)
    (hpool : c'.pool = Function.update c.pool i (.running p)) : Probing tasks c' d := by
  have hnone : d.state i = none := by
    have hfollows := hsim.follows i
    rw [hidle] at hfollows
    exact hfollows
  apply h.frame hreachable rfl (by rw [hworld]) (by simp [hworld]) (by simp [hworld])
    (by rw [hworld]; exact .refl _)
  intro j g hj
  have hne : j ≠ i := by
    intro heq
    rcases hj.left with ⟨row, hrow⟩
    rw [hworld, heq] at hrow
    exact h.unsent i hnone row hrow
  apply hj.mono
  . intro row hrow
    rw [hworld] at hrow
    exact ⟨row, hrow⟩
  . intro p' hp'
    rw [hpool, Function.update_of_ne hne] at hp'
    exact ⟨p', hp', id⟩

theorem branch (h : Probing tasks c d) (hreachable : c'.Reachable tasks)
    {p p' : Program Reply} (hp : c.pool i = .running p)
    (hissues : ∀ g, p.Issues (Cmd.spares g) → p'.Issues (Cmd.spares g))
    (hworld : c'.world = c.world)
    (hpool : c'.pool = Function.update c.pool i (.running p')) : Probing tasks c' d := by
  apply h.frame hreachable rfl (by rw [hworld]) (by simp [hworld]) (by simp [hworld])
    (by rw [hworld]; exact .refl _)
  intro j g hj
  apply hj.mono
  . intro row hrow
    rw [hworld] at hrow
    exact ⟨row, hrow⟩
  . intro q hq
    rw [hpool] at hq
    by_cases heq : j = i
    . subst heq
      rw [Function.update_self] at hq
      injection hq with hq
      subst hq
      exact ⟨p, hp, hissues g⟩
    . rw [Function.update_of_ne heq] at hq
      exact ⟨q, hq, id⟩

theorem env (h : Probing tasks c d) (hreachable : c'.Reachable tasks) {e : EnvAct}
    (henv : envStep e c.world.1 = some c'.world.1) (hlog : c'.world.2 = c.world.2)
    (hpool : c'.pool = c.pool) (hstate : d'.state = d.state) : Probing tasks c' d' := by
  have hsame := env_tables henv
  apply h.frame hreachable hstate hlog
  . intro j row
    rw [hsame.history]
  . intro g hg
    unfold World.HalfOpen World.statsOf at hg ⊢
    rw [hsame.gatewayStats] at hg
    exact hg
  . exact env_progress henv
  . intro j g hj
    apply hj.mono
    . intro row hrow
      rw [hsame.history] at hrow
      exact ⟨row, hrow⟩
    . intro p hp
      rw [hpool] at hp
      exact ⟨p, hp, id⟩

theorem crash (h : Probing tasks c d) (hreachable : c'.Reachable tasks) {inst : Nat}
    (hworld : c'.world = (crashInst inst c.world.1, c.world.2))
    (hpool : ∀ j p, c'.pool j = .running p → c.pool j = .running p)
    (hstate : d'.state = d.state) : Probing tasks c' d' := by
  apply h.frame hreachable hstate (by rw [hworld]) (by simp [hworld, crashInst])
  . intro g hg
    rw [hworld] at hg
    exact hg
  . rw [hworld]
    exact .refl _
  . intro j g hj
    apply hj.mono
    . intro row hrow
      rw [hworld] at hrow
      exact ⟨row, hrow⟩
    . intro p hp
      exact ⟨p, hpool j p hp, id⟩

end Probing

theorem running_of_crash {proc : Machine.Proc Cmd Cmd.Resp Err Reply} {p : Program Reply}
    (h : proc.crash = .running p) : proc = .running p := by
  cases proc with
  | running q => cases q <;> first | exact h | cases h
  | _ => cases h

variable (D tasks) in
theorem probing_conformsBy
    : Machine.ConformsBy (M := (machine D).observed seesHalfOpen) (P := walkProtocol)
        (fun i => (tasks i).program D) (fun _ => none) (fun _ => Anywhere) Reserved
        (Probing tasks) := by
  refine ⟨fun i => (tasks i).walk_program, fun _ => rfl, fun _ _ _ _ => trivial,
    fun _ _ _ _ _ _ _ _ _ _ _ _ _ _ => trivial, ?_⟩
  intro a c c' d d' hsim h hreserved hmoves hsim'
  have hreachable := h.reachable.tail hmoves.act
  cases hmoves with
  | spawn i hidle => exact h.spawn hsim hreachable hidle rfl rfl
  | run i o cmd k r w hop hallowed hexec =>
    rw [Machine.observed_exec] at hexec
    exact h.run hreachable hsim' hop hallowed hreserved hexec.left
      (Prod.ext rfl hexec.right) rfl rfl
  | left i p q halt => exact h.branch hreachable halt (fun _ hissues => hissues.left) rfl rfl
  | right i p q halt => exact h.branch hreachable halt (fun _ hissues => hissues.right) rfl rfl
  | env e w henv =>
    rw [Machine.observed_env] at henv
    exact h.env hreachable henv.left henv.right rfl rfl
  | crash n =>
    apply h.crash hreachable rfl
    . intro j p hp
      dsimp only at hp
      split at hp
      . exact running_of_crash hp
      . exact hp
    . funext j
      simp only [Machine.Parties.crash]
      split <;> rfl

/--
A gateway that is given to one call at a time while its circuit is HALF_OPEN is probed by one charge
call at a time.
-/
theorem single_probe (h : c.ReachableBy tasks Reserved) {g : GatewayProvider}
    (hopen : c.world.1.HalfOpen g) : (c.probes g).length ≤ 1 := by
  rcases h with ⟨c₀, hstart, hrun⟩
  let d₀ : Walkers D := { world := c₀.world, state := fun _ => none }
  have hsim₀ : SimulatedBy c₀ d₀ := by
    refine ⟨rfl, fun i => ?_⟩
    rw [show c₀.pool i = .idle from hstart.system.idle i]
    rfl
  have hprobing₀ : Probing tasks c₀ d₀ := by
    rcases hstart.system.world with ⟨stats, _, hworld⟩
    have hworld : c₀.world.1 = World.start stats := hworld
    have hnone : ∀ i g, ¬c₀.MayCall i g := by
      rintro i g ⟨⟨row, hrow⟩, _⟩
      rw [hworld] at hrow
      cases hrow
    have hnil : ∀ g, c₀.probes g = [] := by
      intro g
      unfold probes
      rw [hworld]
      simp [World.start, probesFrom]
    refine ⟨⟨c₀, hstart, .refl⟩, ?_, ?_, ?_, ?_, ?_⟩
    . intro g
      rw [hstart.log]
      exact Nat.zero_le _
    . intro i _ row hrow
      rw [hworld] at hrow
      cases hrow
    . exact fun i g rest hi => absurd hi (by simp [d₀])
    . exact fun i gateways hi => absurd hi (by simp [d₀])
    . intro g _
      exact ⟨fun i _ hi => absurd hi (hnone i g), fun _ i => hnone i g, by simp [hnil]⟩
  rcases hsim₀.runBy (probing_conformsBy D tasks) hprobing₀ hrun with ⟨d, _, hprobing⟩
  exact (hprobing.single g hopen).probes

end Watched

namespace Scenario

-- There is one gateway, and its cooldown is over.
def cooledStart : Watched deployment seesHalfOpen where
  world := (World.start [⟨.UPI, 0, 3, 0, 50, .OPEN, 3⟩], [])
  pool := fun _ => .idle

theorem cooledStart_start : cooledStart.Start := by
  exact ⟨⟨fun _ => rfl, _, by decide, rfl⟩, rfl⟩

-- Two payments.
def orders (i : Pid) : Task :=
  .create { order with idempotencyKey := if i.num = 0 then "order-7" else "order-8" }

-- Whether all payments so far are those of process `i`.
def insertsOnly (i : Pid) (w : World) : Bool :=
  w.history.all fun
    | .inserted j _ => j = i
    | _ => true

def reserved (c : WatchedProbes deployment) (a : WatchedAct seesHalfOpen) : Bool :=
  match a with
  | .run i _ =>
    match c.pool i with
    | .running (.op (.insertTransaction txn) _) =>
      !c.world.1.history.any (fun event => event matches .inserted _ _) &&
        txn.gateways.all (fun g => (c.probes g).isEmpty)
    | .running (.op (.saveStats _) _) => insertsOnly i c.world.1
    | _ => true
  | _ => true

theorem reserved_of_reserved {c : WatchedProbes deployment} {a : WatchedAct seesHalfOpen}
    (h : reserved c a = true) : c.Reserved a := by
  cases a with
  | run i o =>
    constructor
    . intro txn k row w hop _ g hg _
      simp only [reserved, hop, Bool.and_eq_true, Bool.not_eq_true', List.any_eq_false,
        List.all_eq_true, List.isEmpty_iff] at h
      refine ⟨?_, h.right g hg⟩
      rintro j ⟨⟨row', hrow'⟩, _⟩
      exact absurd rfl (h.left _ hrow')
    . intro stats k hop _ j j' hj hj'
      simp only [reserved, hop, insertsOnly, List.all_eq_true] at h
      rcases hj.left with ⟨row, hrow⟩
      rcases hj'.left with ⟨row', hrow'⟩
      have heq := of_decide_eq_true (h _ hrow)
      have heq' := of_decide_eq_true (h _ hrow')
      rw [heq, heq']
  | _ => trivial

def probesOutcome (check : Watched deployment seesHalfOpen → WatchedAct seesHalfOpen → Bool)
    (acts : List (WatchedAct seesHalfOpen)) : Option (Watched deployment seesHalfOpen) :=
  ((machine deployment).observed seesHalfOpen).runActsIf (fun i => (orders i).program deployment)
    check acts cooledStart

end Scenario

namespace Watched

open Scenario

theorem single_probe_sent
    : ∃ c : WatchedProbes deployment, c.world.1.HalfOpen .UPI ∧ c.probes .UPI ≠ [] ∧
        (c.probes .UPI).length ≤ 1 := by
  let acts : List Act := .spawn ⟨0, 0⟩ :: steps ⟨0, 0⟩ 7 ++ [.run ⟨0, 0⟩ { id := "txn-1" }] ++
    steps ⟨0, 0⟩ 15
  let p (c : WatchedProbes deployment) : Bool :=
    c.world.1.HalfOpen .UPI ∧ (c.probes .UPI).isEmpty = false
  have hrun : (probesOutcome reserved (watched acts)).any p = true := by
    decide +kernel
  rcases Machine.exists_runBy_of_runActsIf (fun c a _ => reserved_of_reserved) hrun with ⟨c, hc, hp⟩
  rcases of_decide_eq_true hp with ⟨hopen, hne⟩
  refine ⟨c, hopen, by simpa using hne, ?_⟩
  exact single_probe ⟨cooledStart, cooledStart_start, hc⟩ hopen

/--
Nothing fails. The first payment finds the cooldown to be over and is charged; the second one is
charged as well while the first charge is in flight.
-/
theorem two_probes
    : ∃ c : WatchedProbes deployment, c.Reachable orders ∧ c.world.1.HalfOpen .UPI ∧
        (c.probes .UPI).length = 2 := by
  let acts : List Act := .spawn ⟨0, 0⟩ :: steps ⟨0, 0⟩ 7 ++ [.run ⟨0, 0⟩ { id := "txn-1" }] ++
    steps ⟨0, 0⟩ 15 ++ .spawn ⟨0, 1⟩ :: steps ⟨0, 1⟩ 4 ++ [.run ⟨0, 1⟩ { id := "txn-2" }] ++
    steps ⟨0, 1⟩ 15
  let p (c : WatchedProbes deployment) : Bool :=
    c.world.1.HalfOpen .UPI ∧ (c.probes .UPI).length = 2
  have hrun : (probesOutcome (fun _ _ => true) (watched acts)).any p = true := by
    decide +kernel
  rcases Machine.exists_runBy_of_runActsIf (fun _ _ _ _ => trivial) hrun with ⟨c, hc, hp⟩
  exact ⟨c, ⟨cooledStart, cooledStart_start, hc⟩, of_decide_eq_true hp⟩

end Watched

end PaymentOrchestration
