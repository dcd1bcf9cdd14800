import Mathlib.Data.Finset.Card
import PaymentOrchestration.Breaker.Tally
import PaymentOrchestration.Party.Ground
import PaymentOrchestration.Scenario

/-!
This module is about what the gateway statistics say while calls overlap. Updates can be lost, but
every count is that of charge calls, and the costs stay as they are.
-/

namespace PaymentOrchestration

open Protocol RoutingEngine

/--
Different places of a list are different entries of it.
-/
theorem card_le_length_filter {α : Type} {l : List α} {p : α → Bool} {s : Finset Nat}
    (h : ∀ n ∈ s, ∃ x, l[n]? = some x ∧ p x = true) : s.card ≤ (l.filter p).length := by
  induction l using List.reverseRecOn generalizing s with
  | nil =>
    have hs : s = ∅ := by
      apply Finset.eq_empty_of_forall_notMem
      intro n hn
      rcases h n hn with ⟨x, hx, _⟩
      cases hx
    simp [hs]
  | append_singleton l x ih =>
    have herase : (s.erase l.length).card ≤ (l.filter p).length := by
      apply ih
      intro n hn
      rw [Finset.mem_erase] at hn
      rcases h n hn.right with ⟨y, hy, hp⟩
      refine ⟨y, ?_, hp⟩
      have hlt := (List.getElem?_eq_some_iff.mp hy).1
      rw [List.length_append, List.length_singleton] at hlt
      rw [← hy, List.getElem?_append_left (by omega)]
    rw [List.filter_append, List.length_append]
    by_cases hx : l.length ∈ s
    . rcases h _ hx with ⟨y, hy, hp⟩
      simp only [List.getElem?_concat_length, Option.some.injEq] at hy
      subst hy
      have := Finset.card_erase_add_one hx
      simp only [hp, List.filter_cons_of_pos, List.filter_nil, List.length_singleton]
      omega
    . rw [Finset.erase_eq_of_notMem hx] at herase
      omega

/--
How the race for the charge call has come out, as far as the failover loop knows.
-/
def Charge.verdict (charge : Charge) : Option Bool :=
  if charge.timedOut then
    some false
  else
    match charge.status with
    | .pending _ => none
    | .answered response => some response.success
    | .threw _ _ => some false

/--
The charge call may have gone on, but its race has not been run again.
-/
structure Charge.Ages (charge charge' : Charge) : Prop where
  pid : charge'.pid = charge.pid
  gateway : charge'.gateway = charge.gateway
  timedOut : charge'.timedOut = charge.timedOut
  verdict : ∀ success, charge.verdict = some success → charge'.verdict = some success

theorem Charge.Ages.refl (charge : Charge) : charge.Ages charge := by
  exact ⟨rfl, rfl, rfl, fun _ h => h⟩

namespace World

def Ages (w w' : World) : Prop :=
  ∀ (n : Nat) (charge : Charge), w.charges[n]? = some charge →
    ∃ charge', w'.charges[n]? = some charge' ∧ charge.Ages charge'

theorem Ages.of_eq {w w' : World} (h : w'.charges = w.charges) : w.Ages w' := by
  intro n charge hcharge
  exact ⟨charge, by rw [h, hcharge], .refl charge⟩

theorem Ages.of_env {e : EnvAct} {w w' : World} (henv : envStep e w = some w') : w.Ages w' := by
  cases e with
  | settle m status =>
    simp only [envStep] at henv
    split at henv
    . next old hold =>
      split at henv
      . next captured hpending =>
        injection henv with henv
        subst henv
        intro n charge hcharge
        by_cases hn : n = m
        . subst hn
          rw [hcharge] at hold
          injection hold with hold
          subst hold
          have hlt := (List.getElem?_eq_some_iff.mp hcharge).1
          refine ⟨{ charge with status := status }, by simp [hlt], rfl, rfl, rfl, ?_⟩
          intro success hverdict
          unfold Charge.verdict at hverdict ⊢
          dsimp only at hverdict ⊢
          split at hverdict
          . next htimer =>
            rw [if_pos htimer]
            exact hverdict
          . rw [hpending] at hverdict
            cases hverdict
        . refine ⟨charge, ?_, .refl charge⟩
          rw [← hcharge]
          exact List.getElem?_set_ne (Ne.symm hn)
      . cases henv
    . cases henv
  | _ =>
    injection henv with henv
    subst henv
    exact .of_eq rfl

-- The charge calls at a gateway that have come out this way.
def decided (w : World) (g : GatewayProvider) (success : Bool) : List Charge :=
  w.charges.filter (fun charge => charge.gateway = g ∧ charge.verdict = some success)

end World

abbrev TallySystem (D : Deployment) := (machine D).Parties tallyProtocol

-- The charge calls that have been recorded, by gateway and outcome.
abbrev Paid := GatewayProvider → Bool → Finset Nat

/--
Nobody has recorded the charge call with this number.
-/
def Paid.Free (paid : Paid) (n : Nat) : Prop :=
  ∀ g success, n ∉ paid g success

/--
What a process is about to record is a charge call of its own that nobody has recorded.
-/
def Ticket.Valid (paid : Paid) (w : World) (i : Pid) (ticket : Ticket) : Prop :=
  match ticket with
  | .none => True
  | .charged g n =>
    (∃ charge, w.charges[n]? = some charge ∧ charge.pid = i ∧ charge.gateway = g ∧
      charge.timedOut = false) ∧ paid.Free n
  | .due g n success =>
    (∃ charge, w.charges[n]? = some charge ∧ charge.pid = i ∧ charge.gateway = g ∧
      charge.verdict = some success) ∧ paid.Free n

def GatewayStats.count (stats : GatewayStats) (success : Bool) : Nat :=
  if success then stats.successCount else stats.failureCount

/--
The row counts no more than it started with and what has been recorded.
-/
def GatewayStats.Covered (base : GatewayProvider → Bool → Nat) (paid : Paid) (row : GatewayStats)
    : Prop :=
  ∀ success, row.count success ≤ base row.gateway success + (paid row.gateway success).card

/--
`good` is what every amendment keeps of a row.
-/
structure TallySystem.Inv {D : Deployment} (base : GatewayProvider → Bool → Nat)
    (good : GatewayStats → Prop) (paid : Paid) (c : TallySystem D) : Prop where
  backed : ∀ g success, ∀ n ∈ paid g success, ∃ charge, c.world.charges[n]? = some charge ∧
    charge.gateway = g ∧ charge.verdict = some success
  rows : ∀ row ∈ c.world.gatewayStats, row.Covered base paid ∧ good row
  seen : ∀ i, ∀ row ∈ (c.state i).seen, row.Covered base paid ∧ good row
  ticket : ∀ i, (c.state i).ticket.Valid paid c.world i

namespace Ticket

variable {paid : Paid} {w w' : World} {i j : Pid} {ticket : Ticket}

theorem Valid.ages (h : ticket.Valid paid w i) (hages : w.Ages w') : ticket.Valid paid w' i := by
  cases ticket with
  | none => trivial
  | charged g n =>
    rcases h with ⟨⟨charge, hcharge, hpid, hgateway, htimer⟩, hfree⟩
    rcases hages n charge hcharge with ⟨charge', hcharge', hages⟩
    exact ⟨⟨charge', hcharge', hages.pid.trans hpid, hages.gateway.trans hgateway,
      hages.timedOut.trans htimer⟩, hfree⟩
  | due g n success =>
    rcases h with ⟨⟨charge, hcharge, hpid, hgateway, hverdict⟩, hfree⟩
    rcases hages n charge hcharge with ⟨charge', hcharge', hages⟩
    exact ⟨⟨charge', hcharge', hages.pid.trans hpid, hages.gateway.trans hgateway,
      hages.verdict success hverdict⟩, hfree⟩

def number (ticket : Ticket) : Option Nat :=
  match ticket with
  | .none => Option.none
  | .charged _ n => some n
  | .due _ n _ => some n

theorem Valid.exists_charge (h : ticket.Valid paid w i) {n : Nat} (hn : ticket.number = some n)
    : ∃ charge, w.charges[n]? = some charge ∧ charge.pid = i := by
  cases ticket with
  | none => cases hn
  | charged g m | due g m success =>
    injection hn with hn
    subst hn
    rcases h with ⟨⟨charge, hcharge, hpid, _⟩, _⟩
    exact ⟨charge, hcharge, hpid⟩

-- Only the process that has made a charge call is about to record it.
theorem Valid.number_ne (h : ticket.Valid paid w i) {n : Nat} {charge : Charge}
    (hcharge : w.charges[n]? = some charge) (hpid : charge.pid = j) (hne : i ≠ j)
    : ticket.number ≠ some n := by
  intro hn
  rcases h.exists_charge hn with ⟨charge', hcharge', hpid'⟩
  rw [hcharge] at hcharge'
  injection hcharge' with hcharge'
  subst hcharge'
  exact hne (hpid'.symm.trans hpid)

theorem Valid.of_number_ne (h : ticket.Valid paid w i) {paid' : Paid} {m : Nat}
    (hcharges : ∀ n, n ≠ m → w'.charges[n]? = w.charges[n]?)
    (hfree : ∀ n, n ≠ m → paid.Free n → paid'.Free n) (hm : ticket.number ≠ some m)
    : ticket.Valid paid' w' i := by
  cases ticket with
  | none => trivial
  | charged g n | due g n success =>
    have hn : n ≠ m := fun heq => hm (congrArg some heq)
    unfold Valid at h ⊢
    dsimp only at h ⊢
    rw [hcharges n hn]
    exact ⟨h.left, hfree n hn h.right⟩

end Ticket

/--
What is kept of a row by everything the service makes of it.
-/
structure KeptByUpdates (good : GatewayStats → Prop) : Prop where
  promoted : ∀ row, row.circuitState = .OPEN → good row → good (promoted row)
  recorded : ∀ row success latencyMs, good row → good (RoutingEngine.recorded success latencyMs row)

namespace Paid

def spend (paid : Paid) (g : GatewayProvider) (success : Bool) (n : Nat) : Paid :=
  fun g' success' =>
    if g' = g ∧ success' = success then insert n (paid g' success') else paid g' success'

variable {paid : Paid} {g g' : GatewayProvider} {success success' : Bool} {n m : Nat}

theorem mem_spend
    : m ∈ paid.spend g success n g' success' ↔
        m ∈ paid g' success' ∨ m = n ∧ g' = g ∧ success' = success := by
  unfold spend
  split
  . next h =>
    rw [Finset.mem_insert]
    simp only [h, and_self, and_true]
    exact or_comm
  . next h => simp [h]

theorem card_le_spend : (paid g' success').card ≤ (paid.spend g success n g' success').card := by
  apply Finset.card_le_card
  intro m hm
  rw [mem_spend]
  exact .inl hm

theorem card_spend (h : n ∉ paid g success)
    : (paid.spend g success n g success).card = (paid g success).card + 1 := by
  rw [spend, if_pos ⟨rfl, rfl⟩, Finset.card_insert_of_notMem h]

theorem Free.spend (h : paid.Free m) (hne : m ≠ n) : (paid.spend g success n).Free m := by
  intro g' success' hm
  rw [mem_spend] at hm
  rcases hm with hm | ⟨hm, _⟩
  . exact h g' success' hm
  . exact hne hm

end Paid

namespace GatewayStats.Covered

variable {base : GatewayProvider → Bool → Nat} {paid : Paid} {row : GatewayStats}

theorem spend (h : row.Covered base paid) {g : GatewayProvider} {success : Bool} {n : Nat}
    : row.Covered base (paid.spend g success n) := by
  intro success'
  exact (h success').trans (Nat.add_le_add_left Paid.card_le_spend _)

theorem promoted (h : row.Covered base paid) : (RoutingEngine.promoted row).Covered base paid := by
  exact h

theorem recorded (h : row.Covered base paid) {n latencyMs : Nat} {success : Bool}
    (hn : n ∉ paid row.gateway success)
    : (RoutingEngine.recorded success latencyMs row).Covered base
        (paid.spend row.gateway success n) := by
  intro success'
  have hgateway : (RoutingEngine.recorded success latencyMs row).gateway = row.gateway := by
    cases success <;> rfl
  rw [hgateway]
  have hcount := h success'
  by_cases heq : success' = success
  . subst heq
    have hnew : (RoutingEngine.recorded success' latencyMs row).count success' =
        row.count success' + 1 := by
      cases success' <;> rfl
    rw [hnew, Paid.card_spend hn]
    omega
  . have hold : (RoutingEngine.recorded success latencyMs row).count success' =
        row.count success' := by
      cases success <;> cases success' <;> first | rfl | exact absurd rfl heq
    rw [hold]
    exact hcount.trans (Nat.add_le_add_left Paid.card_le_spend _)

end GatewayStats.Covered

namespace TallySystem.Inv

variable {D : Deployment} {base : GatewayProvider → Bool → Nat} {good : GatewayStats → Prop}
  {paid : Paid} {c : TallySystem D} {i : Pid} {w : World}

theorem forall_update {f : Pid → Tally} {s : Tally} (P : Pid → Tally → Prop) (hi : P i s)
    (hrest : ∀ j, j ≠ i → P j (f j)) : ∀ j, P j (Function.update f i s j) := by
  exact (Function.forall_update_iff f P).mpr ⟨hi, hrest⟩

theorem of_ages (h : TallySystem.Inv base good paid c) (hages : c.world.Ages w)
    (hstats : w.gatewayStats = c.world.gatewayStats) {s : Tally}
    (hseen : ∀ row ∈ s.seen, row ∈ (c.state i).seen ∨ row ∈ c.world.gatewayStats)
    (hticket : s.ticket.Valid paid w i)
    : TallySystem.Inv base good paid
        ({ world := w, state := Function.update c.state i s } : TallySystem D) := by
  refine ⟨?_, ?_, ?_, ?_⟩
  . intro g success n hn
    rcases h.backed g success n hn with ⟨charge, hcharge, hgateway, hverdict⟩
    rcases hages n charge hcharge with ⟨charge', hcharge', hages⟩
    exact ⟨charge', hcharge', hages.gateway.trans hgateway, hages.verdict success hverdict⟩
  . intro row hrow
    rw [hstats] at hrow
    exact h.rows row hrow
  . apply forall_update (fun _ s => ∀ row ∈ s.seen, row.Covered base paid ∧ good row)
    . intro row hrow
      rcases hseen row hrow with hrow | hrow
      . exact h.seen i row hrow
      . exact h.rows row hrow
    . intro j _
      exact h.seen j
  . apply forall_update (fun j s => s.ticket.Valid paid w j) hticket
    intro j _
    exact (h.ticket j).ages hages

/--
The timer wins the race for the charge call with this number.
-/
theorem timeout (h : TallySystem.Inv base good paid c) {g : GatewayProvider} {n : Nat}
    {charge : Charge} (hticket : (c.state i).ticket = .charged g n)
    (hcharge : c.world.charges[n]? = some charge)
    (hw : w = { c.world with charges := c.world.charges.set n { charge with timedOut := true } })
    : TallySystem.Inv base good paid
        ({ world := w, state := Function.update c.state i
            { c.state i with ticket := .due g n false } } : TallySystem D) := by
  have hvalid := h.ticket i
  rw [hticket] at hvalid
  rcases hvalid with ⟨⟨charge', hcharge', hpid, hgateway, htimer⟩, hfree⟩
  rw [hcharge] at hcharge'
  injection hcharge' with hcharge'
  subst hcharge'
  have hothers : ∀ m, m ≠ n → w.charges[m]? = c.world.charges[m]? := by
    intro m hm
    rw [hw]
    exact List.getElem?_set_ne (Ne.symm hm)
  refine ⟨?_, ?_, ?_, ?_⟩
  . intro g' success m hm
    rcases h.backed g' success m hm with ⟨charge', hcharge', hbacked⟩
    have hne : m ≠ n := by
      intro heq
      rw [heq] at hm
      exact hfree g' success hm
    exact ⟨charge', by rw [hothers m hne, hcharge'], hbacked⟩
  . intro row hrow
    rw [hw] at hrow
    exact h.rows row hrow
  . apply forall_update (fun _ s => ∀ row ∈ s.seen, row.Covered base paid ∧ good row)
    . exact h.seen i
    . intro j _
      exact h.seen j
  . apply forall_update (fun j s => s.ticket.Valid paid w j)
    . refine ⟨⟨{ charge with timedOut := true }, ?_, hpid, hgateway, rfl⟩, hfree⟩
      have hlt := (List.getElem?_eq_some_iff.mp hcharge).1
      rw [hw]
      simp [hlt]
    . intro j hj
      exact (h.ticket j).of_number_ne hothers (fun _ _ hm => hm)
        ((h.ticket j).number_ne hcharge hpid hj)

/--
A row that has been read some time ago is amended and overwrites the one in the table.
-/
theorem save (h : TallySystem.Inv base good paid c) (hkept : KeptByUpdates good)
    {row stats : GatewayStats} (hrow : row ∈ (c.state i).seen)
    (hamends : (c.state i).Amends row stats)
    (hw : w = { c.world with gatewayStats :=
      c.world.gatewayStats.map (fun old => if old.gateway = stats.gateway then stats else old) })
    : ∃ paid', TallySystem.Inv base good paid'
        ({ world := w, state := Function.update c.state i
            { c.state i with ticket := .none } } : TallySystem D) := by
  have hread := h.seen i row hrow
  have hcharges : w.charges = c.world.charges := by
    rw [hw]
  have hstats : ∀ row' ∈ w.gatewayStats, row' = stats ∨ row' ∈ c.world.gatewayStats := by
    intro row' hrow'
    rw [hw] at hrow'
    simp only [List.mem_map] at hrow'
    rcases hrow' with ⟨old, hold, heq⟩
    split at heq
    . exact .inl heq.symm
    . rw [← heq]
      exact .inr hold
  cases hamends with
  | promote hstate =>
    refine ⟨paid, ?_, ?_, ?_, ?_⟩
    . rw [hcharges]
      exact h.backed
    . intro row' hrow'
      rcases hstats row' hrow' with hrow' | hrow'
      . rw [hrow']
        exact ⟨hread.left.promoted, hkept.promoted row hstate hread.right⟩
      . exact h.rows row' hrow'
    . apply forall_update (fun _ s => ∀ row ∈ s.seen, row.Covered base paid ∧ good row)
      . exact h.seen i
      . intro j _
        exact h.seen j
    . apply forall_update (fun j s => s.ticket.Valid paid w j)
      . trivial
      . intro j _
        exact (h.ticket j).ages (.of_eq hcharges)
  | record n success latencyMs hticket =>
    have hvalid := h.ticket i
    rw [hticket] at hvalid
    rcases hvalid with ⟨⟨charge, hcharge, hpid, hgateway, hverdict⟩, hfree⟩
    refine ⟨paid.spend row.gateway success n, ?_, ?_, ?_, ?_⟩
    . intro g success' m hm
      rw [hcharges]
      rw [Paid.mem_spend] at hm
      rcases hm with hm | ⟨hm, hg, hsuccess⟩
      . exact h.backed g success' m hm
      . rw [hm, hg, hsuccess]
        exact ⟨charge, hcharge, hgateway, hverdict⟩
    . intro row' hrow'
      rcases hstats row' hrow' with hrow' | hrow'
      . rw [hrow']
        exact ⟨hread.left.recorded (hfree _ _), hkept.recorded row success latencyMs hread.right⟩
      . exact ⟨(h.rows row' hrow').left.spend, (h.rows row' hrow').right⟩
    . have hseen : ∀ j, ∀ row' ∈ (c.state j).seen,
          row'.Covered base (paid.spend row.gateway success n) ∧ good row' := by
        intro j row' hrow'
        exact ⟨(h.seen j row' hrow').left.spend, (h.seen j row' hrow').right⟩
      apply forall_update (fun _ s => ∀ row' ∈ s.seen,
        row'.Covered base (paid.spend row.gateway success n) ∧ good row')
      . exact hseen i
      . intro j _
        exact hseen j
    . apply forall_update (fun j s => s.ticket.Valid (paid.spend row.gateway success n) w j)
      . trivial
      . intro j hj
        exact (h.ticket j).of_number_ne (fun m _ => by rw [hcharges])
          (fun m hne hm => hm.spend hne) ((h.ticket j).number_ne hcharge hpid hj)

-- A command that is about neither the statistics nor a charge call.
theorem untallied {cmd : Cmd} {o : Oracle} {r : Except Err cmd.Resp}
    (h : TallySystem.Inv base good paid c) (hcmd : cmd.untallied)
    (hexec : exec D i cmd o c.world = some (r, w))
    : TallySystem.Inv base good paid
        ({ world := w, state := Function.update c.state i ((c.state i).next cmd r) }
          : TallySystem D) := by
  have hcharges : w.charges = c.world.charges := by
    rcases exec_charges hexec with hw | ⟨g, request, heq, _⟩ | ⟨n, charge, captured, ⟨heq, _⟩, _⟩
    . exact hw
    . rw [heq] at hcmd
      exact hcmd.elim
    . rw [heq] at hcmd
      exact hcmd.elim
  have hstats : w.gatewayStats = c.world.gatewayStats := by
    rcases (exec_touches hexec).gatewayStats with hw | ⟨stats, heq, _⟩
    . exact hw
    . rw [heq] at hcmd
      exact hcmd.elim
  rw [hcmd.tally.right r]
  exact h.of_ages (.of_eq hcharges) hstats (fun _ hrow => .inl hrow)
    ((h.ticket i).ages (.of_eq hcharges))

theorem charge {g : GatewayProvider} {request : GatewayChargeRequest} {o : Oracle}
    {r : Except Err Nat} (h : TallySystem.Inv base good paid c)
    (hexec : exec D i (.charge g request) o c.world = some (r, w))
    : TallySystem.Inv base good paid
        ({ world := w
           state := Function.update c.state i ((c.state i).next (.charge g request) r) }
          : TallySystem D) := by
  simp only [exec, Exec.charge, Option.some.injEq, Prod.mk.injEq] at hexec
  rcases hexec with ⟨hr, hw⟩
  subst hr
  have hages : c.world.Ages w := by
    intro n charge hcharge
    refine ⟨charge, ?_, .refl charge⟩
    have hlt := (List.getElem?_eq_some_iff.mp hcharge).1
    rw [← hw, ← hcharge]
    exact List.getElem?_append_left hlt
  refine h.of_ages hages (by rw [← hw]) ?_
    ⟨⟨⟨i, g, request, .pending false, false⟩, ?_, rfl, rfl, rfl⟩, ?_⟩
  . exact fun _ hrow => .inl hrow
  . rw [← hw]
    simp
  -- A number that is recorded belongs to a charge call that has been made before.
  . intro g' success hn
    rcases h.backed g' success _ hn with ⟨charge, hcharge, _⟩
    simp at hcharge

theorem race {n : Nat} {o : Oracle} {r : Except Err GatewayChargeResponse}
    (h : TallySystem.Inv base good paid c) (hallowed : (c.state i).allowed (.race n))
    (hexec : exec D i (.race n) o c.world = some (r, w))
    : TallySystem.Inv base good paid
        ({ world := w, state := Function.update c.state i ((c.state i).next (.race n) r) }
          : TallySystem D) := by
  rcases hallowed with ⟨g, hticket⟩
  have hnext : (c.state i).next (.race n) r = { c.state i with ticket := .due g n (won r) } := by
    simp only [Tally.next, hticket]
  have hvalid := h.ticket i
  rw [hticket] at hvalid
  rcases hvalid with ⟨⟨charge, hcharge, hpid, hgateway, htimer⟩, hfree⟩
  rw [hnext]
  rcases Exec.race_cases hexec with ⟨charge', hcharge', hcases⟩
  rw [hcharge] at hcharge'
  injection hcharge' with hcharge'
  subst hcharge'
  rcases hcases with ⟨response, hstatus, hr, hw⟩ | ⟨message, captured, e, hstatus, hr, hw⟩ |
    ⟨captured, e, _, hr, hw⟩
  . rw [hw]
    refine h.of_ages (.of_eq rfl) rfl ?_ ⟨⟨charge, hcharge, hpid, hgateway, ?_⟩, hfree⟩
    . exact fun _ hrow => .inl hrow
    . simp [Charge.verdict, htimer, hstatus, hr, won]
  . rw [hw]
    refine h.of_ages (.of_eq rfl) rfl ?_ ⟨⟨charge, hcharge, hpid, hgateway, ?_⟩, hfree⟩
    . exact fun _ hrow => .inl hrow
    . simp [Charge.verdict, htimer, hstatus, hr, won]
  . rw [hr]
    exact h.timeout hticket hcharge hw

theorem run {cmd : Cmd} {o : Oracle} {r : Except Err cmd.Resp}
    (h : TallySystem.Inv base good paid c) (hkept : KeptByUpdates good)
    (hallowed : (c.state i).allowed cmd) (hexec : exec D i cmd o c.world = some (r, w))
    : ∃ paid', TallySystem.Inv base good paid'
        ({ world := w, state := Function.update c.state i ((c.state i).next cmd r) }
          : TallySystem D) := by
  cases cmd with
  | saveStats stats =>
    have hnext : (c.state i).next (.saveStats stats) r = { c.state i with ticket := .none } := by
      cases r <;> rfl
    rw [hnext]
    rcases Exec.statement_cases hexec with ⟨hw, _⟩ | ⟨hw, _⟩
    . rcases hallowed with ⟨row, hrow, hamends⟩
      exact h.save hkept hrow hamends hw
    . rw [hw]
      exact ⟨paid, h.of_ages (.of_eq rfl) rfl (fun _ hrow => .inl hrow) trivial⟩
  | charge g request => exact ⟨paid, h.charge hexec⟩
  | race n => exact ⟨paid, h.race hallowed hexec⟩
  | findStats =>
    rcases Exec.query_cases hexec with ⟨hw, hr | ⟨e, hr⟩⟩
    . subst hw
      subst hr
      refine ⟨paid, h.of_ages (.of_eq rfl) rfl ?_ (h.ticket i)⟩
      intro row hrow
      exact List.mem_append.mp hrow
    . subst hw
      subst hr
      exact ⟨paid, h.of_ages (.of_eq rfl) rfl (fun _ hrow => .inl hrow) (h.ticket i)⟩
  | findStatsOf g =>
    rcases Exec.query_cases hexec with ⟨hw, hr | ⟨e, hr⟩⟩
    . subst hw
      subst hr
      refine ⟨paid, ?_⟩
      cases hfind : c.world.gatewayStats.find? (·.gateway = g) with
      | none => exact h.of_ages (.of_eq rfl) rfl (fun _ hrow => .inl hrow) (h.ticket i)
      | some row =>
        refine h.of_ages (.of_eq rfl) rfl ?_ (h.ticket i)
        intro row' hrow'
        rcases List.mem_append.mp hrow' with hrow' | hrow'
        . exact .inl hrow'
        . rw [List.mem_singleton.mp hrow']
          exact .inr (List.mem_of_find?_eq_some hfind)
    . subst hw
      subst hr
      exact ⟨paid, h.of_ages (.of_eq rfl) rfl (fun _ hrow => .inl hrow) (h.ticket i)⟩
  | _ => exact ⟨paid, h.untallied trivial hexec⟩

theorem step (h : TallySystem.Inv base good paid c) (hkept : KeptByUpdates good)
    {c' : TallySystem D} (hstep : (machine D).PartyStep tallyProtocol c c')
    : ∃ paid', TallySystem.Inv base good paid' c' := by
  cases hstep with
  | run i cmd o r w hallowed hexec => exact h.run hkept hallowed hexec
  | env e w henv =>
    refine ⟨paid, ?_, ?_, h.seen, fun j => (h.ticket j).ages (.of_env henv)⟩
    . intro g success n hn
      rcases h.backed g success n hn with ⟨charge, hcharge, hgateway, hverdict⟩
      rcases World.Ages.of_env henv n charge hcharge with ⟨charge', hcharge', hages⟩
      exact ⟨charge', hcharge', hages.gateway.trans hgateway, hages.verdict success hverdict⟩
    . rw [(env_tables henv).gatewayStats]
      exact h.rows
  | crash inst =>
    have hstate : ∀ i, (c.crash inst).state i = c.state i := by
      intro i
      simp only [Machine.Parties.crash]
      split <;> rfl
    refine ⟨paid, h.backed, h.rows, ?_, ?_⟩
    . intro i
      rw [hstate i]
      exact h.seen i
    . intro i
      rw [hstate i]
      exact h.ticket i

end TallySystem.Inv

-- What the statistics count for the gateway.
def World.counts (w : World) (g : GatewayProvider) (success : Bool) : Nat :=
  ((w.statsOf g).map (·.count success)).getD 0

theorem System.Start.unique {D : Deployment} {c : System D} (h : c.Start)
    : UniqueStats c.world := by
  rcases h.world with ⟨stats, hnodup, hworld⟩
  rw [hworld]
  exact hnodup

variable {D : Deployment} {tasks : Pid → Task}

theorem TallySystem.conforms {base : GatewayProvider → Bool → Nat} {good : GatewayStats → Prop}
    (hkept : KeptByUpdates good)
    : Machine.Conforms (M := machine D) (P := tallyProtocol) (fun i => (tasks i).program D)
        (fun _ => ⟨[], .none⟩) (fun _ => Adrift) (fun c => ∃ paid, Inv base good paid c) := by
  refine ⟨fun i => (tasks i).tally_program, fun _ => rfl, fun _ _ _ h => h, ?_, ?_⟩
  . intro c i cmd o r w _ _ hexec
    cases cmd with
    | findStatsOf g =>
      rcases Exec.query_cases hexec with ⟨_, hr | ⟨e, hr⟩⟩
      . subst hr
        cases hfind : c.world.statsOf g with
        | none =>
          rw [World.statsOf] at hfind
          rw [hfind]
          trivial
        | some row =>
          have hgateway := World.gateway_of_statsOf hfind
          rw [World.statsOf] at hfind
          rw [hfind]
          exact hgateway
      . subst hr
        trivial
    | _ => trivial
  . rintro c c' ⟨paid, hinv⟩ hstep
    exact hinv.step hkept hstep

namespace System

/--
What updates keep holds of every row, and what a row counts has been recorded.
-/
theorem exists_paid {c₀ c : System D} (hstart : c₀.Start) {good : GatewayStats → Prop}
    (hkept : KeptByUpdates good) (hgood : ∀ row ∈ c₀.world.gatewayStats, good row)
    (hrun : (machine D).Run (fun i => (tasks i).program D) c₀ c)
    : ∃ (paid : Paid) (d : TallySystem D), d.world = c.world ∧
        d.Inv c₀.world.counts good paid := by
  have hinv : TallySystem.Inv (D := D) c₀.world.counts good (fun _ _ => ∅)
      ⟨c₀.world, fun _ => ⟨[], .none⟩⟩ := by
    refine ⟨?_, ?_, ?_, fun _ => trivial⟩
    . intro g success n hn
      simp at hn
    . intro row hrow
      refine ⟨?_, hgood row hrow⟩
      intro success
      rw [World.counts, hstart.unique.statsOf hrow]
      simp
    . intro i row hrow
      cases hrow
  have hsim : Machine.Simulates (M := machine D) (P := tallyProtocol) (fun _ => ⟨[], .none⟩)
      (fun _ => Adrift) c₀ ⟨c₀.world, fun _ => ⟨[], .none⟩⟩ := by
    refine ⟨rfl, fun i => ?_⟩
    rw [hstart.idle i]
    rfl
  have hconforms := @TallySystem.conforms D tasks c₀.world.counts good hkept
  rcases hsim.run hconforms ⟨_, hinv⟩ hrun with ⟨d, hd, hsim'⟩
  rcases hconforms.invariant ⟨_, hinv⟩ hd with ⟨paid, hinv'⟩
  exact ⟨paid, d, hsim'.world.symm, hinv'⟩

end System

/--
The statistics count no attempt that was not made: each row has come from one of `w₀`, and what it
counts on top has been the outcome of as many charge calls. Its price is the one it had.
-/
structure StatsCovered (w₀ w : World) : Prop where
  rows : ∀ row ∈ w.gatewayStats, ∃ first ∈ w₀.gatewayStats, first.gateway = row.gateway ∧
    first.costBps = row.costBps ∧ ∀ success,
      row.count success ≤ first.count success + (w.decided row.gateway success).length

theorem keptByUpdates_price (stats : List GatewayStats)
    : KeptByUpdates (fun row => ∃ first ∈ stats, first.gateway = row.gateway ∧
        first.costBps = row.costBps) := by
  refine ⟨fun _ _ h => h, ?_⟩
  intro row success latencyMs h
  cases success <;> exact h

namespace System

theorem stats_covered {c₀ c : System D} (hstart : c₀.Start)
    (hrun : (machine D).Run (fun i => (tasks i).program D) c₀ c) : StatsCovered c₀.world c.world := by
  have hgood : ∀ row ∈ c₀.world.gatewayStats, ∃ first ∈ c₀.world.gatewayStats,
      first.gateway = row.gateway ∧ first.costBps = row.costBps :=
    fun row hrow => ⟨row, hrow, rfl, rfl⟩
  rcases exists_paid hstart (keptByUpdates_price _) hgood hrun with ⟨paid, d, hd, hinv⟩
  refine ⟨?_⟩
  rw [← hd]
  intro row hrow
  rcases hinv.rows row hrow with ⟨hcovered, first, hfirst, hgateway, hprice⟩
  refine ⟨first, hfirst, hgateway, hprice, ?_⟩
  intro success
  have hpaid : (paid row.gateway success).card ≤ (d.world.decided row.gateway success).length := by
    apply card_le_length_filter
    intro n hn
    rcases hinv.backed _ _ n hn with ⟨charge, hcharge, hcharge'⟩
    exact ⟨charge, hcharge, by simp [hcharge']⟩
  have hcount := hcovered success
  rw [World.counts, ← hgateway, hstart.unique.statsOf hfirst, hgateway] at hcount
  exact hcount.trans (Nat.add_le_add_left hpaid _)

open Scenario in
/--
One gateway has declined, the next one has accepted.
-/
theorem stats_covered_failover
    : ∃ c : System deployment,
        (c.world.gatewayStats.map (fun row => (row.failureCount, row.successCount))).filter
          (· ≠ (0, 0)) = [(0, 1), (1, 0)] ∧ StatsCovered start.world c.world := by
  have hrun : (outcome (fun _ => .create order)
      (upToCharge ⟨0, 0⟩ "txn-1" ++ settle 0 (.answered (declined "card_declined")) ::
        steps ⟨0, 0⟩ 24 ++ settle 1 (.answered (accepted "pay_1")) :: steps ⟨0, 0⟩ 12)).any
      (fun c => (c.world.gatewayStats.map (fun row => (row.failureCount, row.successCount))).filter
        (· ≠ (0, 0)) = [(0, 1), (1, 0)]) = true := by
    decide +kernel
  rcases Machine.exists_run_of_runActs hrun with ⟨c, hrun, hcounts⟩
  exact ⟨c, of_decide_eq_true hcounts, stats_covered start_start hrun⟩

end System

end PaymentOrchestration
