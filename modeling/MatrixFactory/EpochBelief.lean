/-
# The schema epoch that a holon believes

Every holon keeps the schema epoch in the belief `current_epoch`.  Its start plan asserts 0;
the plan for a publication replaces the epoch believed, if it is another one, and
re-initialises the holon.  The start plan runs again when the holon is resumed, and a resource
holon and an AMR agent pursue it at the end of each re-initialisation.  It asserts 0 again
there, beside the epoch that the holon has adopted.

The belief is the last epoch processed, and every change of it re-initialises the holon once,
as long as no start plan asserts 0 after another epoch, and publications are processed in turn.
-/
import MatrixFactory.ShopRules
import MatrixFactory.Lib.Versions

namespace MatrixFactory

open AgentSpeak

theorem addBelief_eq_insert {α : Type} [DecidableEq α] (b : α) (l : List α) :
    addBelief b l = l.insert b := by
  simp [addBelief, List.insert]

/-! ## The three programs -/

/-- `current_epoch` of an order holon. -/
def OrderHolon.epoch : Versioned OrderBeliefs OrderTrigger OrderStmt ℤ where
  version b := b.currentEpoch
  announced
    | .schemaEpoch e => some e
    | _ => none
  renew := .reinitializeSchema
  role
    | .delCurrentEpoch e => .removes e
    | .addCurrentEpoch e => .adds e
    | .achieve .reinitializeSchema => .renews
    | .achieve (.schemaEpoch _) => .announces
    | .dropIntention .all => .clears
    | _ => .other
  initial := 0

/-- `current_epoch` of a resource holon. -/
def ResourceHolon.epoch : Versioned StationBeliefs StationTrigger StationStmt ℤ where
  version b := b.currentEpoch
  announced
    | .schemaEpoch e => some e
    | _ => none
  renew := .reinitializeSchema
  role
    | .delCurrentEpoch e => .removes e
    | .addCurrentEpoch e => .adds e
    | .achieve .reinitializeSchema => .renews
    | .achieve (.schemaEpoch _) => .announces
    | .dropIntention .all => .clears
    | _ => .other
  initial := 0

/-- `current_epoch` of an AMR agent. -/
def AmrAgent.epoch : Versioned AmrBeliefs AmrTrigger AmrStmt ℤ where
  version b := b.currentEpoch
  announced
    | .schemaEpoch e => some e
    | _ => none
  renew := .reinitializeSchema
  role
    | .delCurrentEpoch e => .removes e
    | .addCurrentEpoch e => .adds e
    | .achieve .reinitializeSchema => .renews
    | .achieve (.schemaEpoch _) => .announces
    | .dropIntention .all => .clears
    | _ => .other
  initial := 0

theorem AmrAgent.epoch_plan_other (me : String) {b : AmrBeliefs} {t : AmrTrigger}
    {body : List AmrStmt} (hno : AmrAgent.epoch.announced t = none)
    (hne : t ≠ AmrAgent.epoch.renew) (hbody : AmrAgent.plan me b t = some body) :
    ∀ s ∈ body, AmrAgent.epoch.critical.stmt s = false := by
  unfold AmrAgent.plan at hbody
  split at hbody
  all_goals (try split at hbody)
  all_goals
    cases hbody <;> first
      | exact Critical.outside_of_any rfl
      | exact absurd rfl hne
      | cases hno

theorem AmrAgent.epoch_exec_other (me : String) (b : AmrBeliefs) {s : AmrStmt} (x : ℚ)
    (hs : AmrAgent.epoch.role s = .other) :
    AmrAgent.epoch.Leaves b (AmrAgent.exec me b s x) := by
  cases s with
  | achieve goal =>
    cases goal <;> simp_all [AmrAgent.exec, AmrAgent.epoch, Versioned.critical, Versioned.Leaves]
  | dropIntention goals =>
    cases goals with
    | transport o =>
      refine ⟨by cases o <;> rfl, fun t ht => ?_⟩
      cases t <;> cases o <;> simp_all [AmrAgent.epoch, AmrDrop.goals]
    | all => cases hs
  | getGridUtilization o =>
    refine ⟨rfl, fun s' hs' => ?_⟩
    split at hs'
    · obtain rfl := List.mem_singleton.mp hs'
      rfl
    · cases hs'
  | delCurrentEpoch e => cases hs
  | addCurrentEpoch e => cases hs
  | _ => exact ⟨rfl, Critical.outside_of_any rfl⟩

theorem AmrAgent.epoch_governs : AmrAgent.epoch.Governs AmrAgent.program where
  announced_renew := rfl
  plan_announced n b t x hx := by
    cases t with
    | schemaEpoch e =>
      obtain rfl := Option.some_inj.mp hx
      simp only [AmrAgent.program, AmrAgent.plan, AmrAgent.epoch]
      cases b.currentEpoch.find? (· ≠ e) <;> rfl
    | _ => cases hx
  plan_renew n b := ⟨_, _, rfl, rfl, by simp [Versioned.critical, AmrAgent.epoch]⟩
  plan_other n b t body hno hne hbody := epoch_plan_other n hno hne hbody
  recover t t' h := by cases h
  exec_removes n b s x old hs := by
    cases s with
    | delCurrentEpoch e =>
      cases hs
      exact ⟨_, _, rfl, rfl⟩
    | achieve goal => cases goal <;> cases hs
    | dropIntention goals => cases goals <;> cases hs
    | _ => cases hs
  exec_adds n b s x new hs := by
    cases s with
    | addCurrentEpoch e =>
      cases hs
      exact ⟨_, _, rfl, addBelief_eq_insert _ _⟩
    | achieve goal => cases goal <;> cases hs
    | dropIntention goals => cases goals <;> cases hs
    | _ => cases hs
  exec_renews n b s x hs := by
    cases s with
    | achieve goal => cases goal <;> first | rfl | cases hs
    | dropIntention goals => cases goals <;> cases hs
    | _ => cases hs
  exec_clears n b s x hs := by
    cases s with
    | dropIntention goals => exact ⟨_, rfl⟩
    | achieve goal => cases goal <;> cases hs
    | _ => cases hs
  exec_other n b s x hs := epoch_exec_other n b x hs

theorem ResourceHolon.epoch_plan_other (me : String) {b : StationBeliefs} {t : StationTrigger}
    {body : List StationStmt} (hno : ResourceHolon.epoch.announced t = none)
    (hne : t ≠ ResourceHolon.epoch.renew) (hbody : ResourceHolon.plan me b t = some body) :
    ∀ s ∈ body, ResourceHolon.epoch.critical.stmt s = false := by
  unfold ResourceHolon.plan at hbody
  split at hbody
  case h_4 =>
    split at hbody
    · obtain ⟨a, -, rfl⟩ := Option.map_eq_some_iff.mp hbody
      simp [Versioned.critical, ResourceHolon.epoch]
    · cases hbody
  all_goals (try split at hbody)
  all_goals (try split at hbody)
  all_goals (try split at hbody)
  all_goals
    cases hbody <;> first
      | exact Critical.outside_of_any rfl
      | exact absurd rfl hne
      | cases hno

theorem ResourceHolon.epoch_exec_other (me : String) (b : StationBeliefs) {s : StationStmt}
    (x : StationInput) (hs : ResourceHolon.epoch.role s = .other) :
    ResourceHolon.epoch.Leaves b (ResourceHolon.exec me b s x) := by
  cases s with
  | achieve goal =>
    cases goal <;>
      simp_all [ResourceHolon.exec, ResourceHolon.epoch, Versioned.critical, Versioned.Leaves]
  | dropIntention goals =>
    cases goals with
    | executePhysicalOperation =>
      refine ⟨rfl, fun t ht => ?_⟩
      cases t <;> simp_all [ResourceHolon.epoch, StationDrop.goals]
    | all => cases hs
  | delCurrentEpoch e => cases hs
  | addCurrentEpoch e => cases hs
  | _ =>
    dsimp only [ResourceHolon.exec]
    (repeat' split) <;> first
      | exact ⟨rfl, Critical.outside_of_any rfl⟩
      | exact trivial

theorem ResourceHolon.epoch_governs : ResourceHolon.epoch.Governs ResourceHolon.program where
  announced_renew := rfl
  plan_announced n b t x hx := by
    cases t with
    | schemaEpoch e =>
      obtain rfl := Option.some_inj.mp hx
      simp only [ResourceHolon.program, ResourceHolon.plan, ResourceHolon.epoch]
      cases b.currentEpoch.find? (· ≠ e) <;> rfl
    | _ => cases hx
  plan_renew n b := ⟨_, _, rfl, rfl, by simp [Versioned.critical, ResourceHolon.epoch]⟩
  plan_other n b t body hno hne hbody := epoch_plan_other n hno hne hbody
  recover t t' h := by
    cases t with
    | callForProposal step stations o sender k =>
      obtain rfl := Option.some_inj.mp h
      exact ⟨rfl, by simp [ResourceHolon.epoch]⟩
    | _ => cases h
  exec_removes n b s x old hs := by
    cases s with
    | delCurrentEpoch e =>
      cases hs
      exact ⟨_, _, rfl, rfl⟩
    | achieve goal => cases goal <;> cases hs
    | dropIntention goals => cases goals <;> cases hs
    | _ => cases hs
  exec_adds n b s x new hs := by
    cases s with
    | addCurrentEpoch e =>
      cases hs
      exact ⟨_, _, rfl, addBelief_eq_insert _ _⟩
    | achieve goal => cases goal <;> cases hs
    | dropIntention goals => cases goals <;> cases hs
    | _ => cases hs
  exec_renews n b s x hs := by
    cases s with
    | achieve goal => cases goal <;> first | rfl | cases hs
    | dropIntention goals => cases goals <;> cases hs
    | _ => cases hs
  exec_clears n b s x hs := by
    cases s with
    | dropIntention goals => exact ⟨_, rfl⟩
    | achieve goal => cases goal <;> cases hs
    | _ => cases hs
  exec_other n b s x hs := epoch_exec_other n b x hs

theorem OrderHolon.epoch_plan_other (me : String) {b : OrderBeliefs} {t : OrderTrigger}
    {body : List OrderStmt} (hno : OrderHolon.epoch.announced t = none)
    (hne : t ≠ OrderHolon.epoch.renew) (hbody : OrderHolon.plan me b t = some body) :
    ∀ s ∈ body, OrderHolon.epoch.critical.stmt s = false := by
  unfold OrderHolon.plan at hbody
  split at hbody
  all_goals (try split at hbody)
  all_goals (try split at hbody)
  all_goals
    cases hbody <;> first
      | exact Critical.outside_of_any rfl
      | exact absurd rfl hne
      | cases hno

theorem OrderHolon.epoch_exec_other (me : String) (b : OrderBeliefs) {s : OrderStmt}
    (x : OrderInput) (hs : OrderHolon.epoch.role s = .other) :
    OrderHolon.epoch.Leaves b (OrderHolon.exec me b s x) := by
  cases s with
  | achieve goal =>
    cases goal <;>
      simp_all [OrderHolon.exec, OrderHolon.epoch, Versioned.critical, Versioned.Leaves]
  | dropIntention goals =>
    cases goals with
    | all => cases hs
    | _ =>
      refine ⟨by simp only [OrderHolon.epoch, OrderDrop.goals], fun t ht => ?_⟩
      cases t <;> simp_all [OrderHolon.epoch, OrderDrop.goals]
  | findStaleWatchdogs =>
    refine ⟨rfl, fun s' hs' => ?_⟩
    obtain ⟨w, -, hw⟩ := List.mem_flatMap.mp hs'
    simp only [List.mem_cons, List.not_mem_nil, or_false] at hw
    rcases hw with rfl | rfl <;> rfl
  | rejectLosers winner o =>
    refine ⟨rfl, fun s' hs' => ?_⟩
    obtain ⟨loser, -, rfl⟩ := List.mem_map.mp hs'
    rfl
  | delCurrentEpoch e => cases hs
  | addCurrentEpoch e => cases hs
  | ifRemaining o step remaining =>
    cases remaining <;> exact ⟨rfl, Critical.outside_of_any rfl⟩
  | _ =>
    dsimp only [OrderHolon.exec]
    (repeat' split) <;> first
      | exact ⟨rfl, Critical.outside_of_any rfl⟩
      | exact trivial

theorem OrderHolon.epoch_governs : OrderHolon.epoch.Governs OrderHolon.program where
  announced_renew := rfl
  plan_announced n b t x hx := by
    cases t with
    | schemaEpoch e =>
      obtain rfl := Option.some_inj.mp hx
      simp only [OrderHolon.program, OrderHolon.plan, OrderHolon.epoch]
      cases b.currentEpoch.find? (· ≠ e) <;> rfl
    | _ => cases hx
  plan_renew n b := ⟨_, _, rfl, rfl, by simp [Versioned.critical, OrderHolon.epoch]⟩
  plan_other n b t body hno hne hbody := epoch_plan_other n hno hne hbody
  recover t t' h := by cases h
  exec_removes n b s x old hs := by
    cases s with
    | delCurrentEpoch e =>
      cases hs
      exact ⟨_, _, rfl, rfl⟩
    | achieve goal => cases goal <;> cases hs
    | dropIntention goals => cases goals <;> cases hs
    | _ => cases hs
  exec_adds n b s x new hs := by
    cases s with
    | addCurrentEpoch e =>
      cases hs
      exact ⟨_, _, rfl, addBelief_eq_insert _ _⟩
    | achieve goal => cases goal <;> cases hs
    | dropIntention goals => cases goals <;> cases hs
    | _ => cases hs
  exec_renews n b s x hs := by
    cases s with
    | achieve goal => cases goal <;> first | rfl | cases hs
    | dropIntention goals => cases goals <;> cases hs
    | _ => cases hs
  exec_clears n b s x hs := by
    cases s with
    | dropIntention goals => exact ⟨_, rfl⟩
    | achieve goal => cases goal <;> cases hs
    | _ => cases hs
  exec_other n b s x hs := epoch_exec_other n b x hs

/-! ## Runs -/

/-- What the holons of each kind have processed. -/
structure EpochHistories where
  orders : String → VersionHistory ℤ := fun _ => {}
  stations : String → VersionHistory ℤ := fun _ => {}
  amrs : String → VersionHistory ℤ := fun _ => {}

/-- A shop floor with what its holons have processed. -/
abbrev Believing := Shop × EpochHistories

namespace Shop

/-- What the holons have processed after an operation. -/
def epochsAfter (s : Shop) (h : EpochHistories) : ShopOp → EpochHistories
  | .orderSelect n => { h with orders := OrderHolon.epoch.onSelect n s.orders h.orders }
  | .orderMove i _ => { h with orders := OrderHolon.epoch.onMove i s.orders h.orders }
  | .stationSelect n => { h with stations := ResourceHolon.epoch.onSelect n s.stations h.stations }
  | .stationMove i => { h with stations := ResourceHolon.epoch.onMove i s.stations h.stations }
  | .amrSelect n => { h with amrs := AmrAgent.epoch.onSelect n s.amrs h.amrs }
  | .amrMove i _ => { h with amrs := AmrAgent.epoch.onMove i s.amrs h.amrs }
  | _ => h

/-- One operation. -/
def epochStep (op : ShopOp) (x : Believing) : Believing := (x.1.exec op, x.1.epochsAfter x.2 op)

/-- The condition on an operation: a start plan asserts its epoch while no other has been
processed; and an epoch is processed while no change is under way, and none but 0 before the
start plan has asserted its own, or it is the one that the change under way has adopted. -/
def EpochInTurn (x : Believing) : ShopOp → Prop
  | .orderSelect n => OrderHolon.epoch.InTurn n x.1.orders (x.2.orders n)
  | .orderMove i _ => OrderHolon.epoch.AddsInTime i x.1.orders x.2.orders
  | .stationSelect n => ResourceHolon.epoch.InTurn n x.1.stations (x.2.stations n)
  | .stationMove i => ResourceHolon.epoch.AddsInTime i x.1.stations x.2.stations
  | .amrSelect n => AmrAgent.epoch.InTurn n x.1.amrs (x.2.amrs n)
  | .amrMove i _ => AmrAgent.epoch.AddsInTime i x.1.amrs x.2.amrs
  | _ => True

instance (x : Believing) (op : ShopOp) : Decidable (EpochInTurn x op) := by
  induction op using ShopOp.casesOn <;> unfold EpochInTurn <;> infer_instance

/-- The belief `current_epoch` of holon `n`: never more than one; the epoch processed last,
once the start plan has asserted one and unless a change is under way; and one
re-initialisation for each change, which is one for each increase if epochs never decrease. -/
def HoldsEpoch {B T S : Type} [DecidableEq T] (v : Versioned B T S ℤ) (n : String)
    (p : Population String B T S) (h : VersionHistory ℤ) : Prop :=
  v.Current n p h ∧ ((h.processed ++ [v.initial]).Pairwise (· ≥ ·) →
    h.changes v.initial = h.increases v.initial)

/-- Every holon holds its epoch. -/
def EpochsHeld (x : Believing) : Prop :=
  ∀ n, HoldsEpoch OrderHolon.epoch n x.1.orders (x.2.orders n) ∧
    HoldsEpoch ResourceHolon.epoch n x.1.stations (x.2.stations n) ∧
    HoldsEpoch AmrAgent.epoch n x.1.amrs (x.2.amrs n)

/-- The invariant of the three populations. -/
structure EpochsKept (x : Believing) : Prop where
  orders : OrderHolon.epoch.Kept x.1.orders x.2.orders
  stations : ResourceHolon.epoch.Kept x.1.stations x.2.stations
  amrs : AmrAgent.epoch.Kept x.1.amrs x.2.amrs

theorem EpochsKept.held {x : Believing} (hx : EpochsKept x) : EpochsHeld x := fun n =>
  ⟨⟨hx.orders.current n, VersionHistory.changes_eq_increases⟩,
    ⟨hx.stations.current n, VersionHistory.changes_eq_increases⟩,
    ⟨hx.amrs.current n, VersionHistory.changes_eq_increases⟩⟩

/-! No event of an agent is the goal that re-initialises it. -/

theorem orderEvent_ne_renew {s : Shop} {op : ShopOp} {e : String × OrderTrigger}
    (he : s.orderEvent op = some e) : e.2 ≠ .reinitializeSchema := by
  intro h
  cases op with
  | deliver j =>
    obtain ⟨m, _, hm⟩ := Option.bind_eq_some_iff.mp he
    split at hm
    · cases hm
      cases h
    · cases hm
  | orderSignal j =>
    obtain ⟨t, _, rfl⟩ := Option.map_eq_some_iff.mp he
    cases h
  | orderEpoch n epoch =>
    cases he
    cases h
  | _ => cases he

theorem stationEvent_ne_renew {s : Shop} {op : ShopOp} {e : String × StationTrigger}
    (he : s.stationEvent op = some e) : e.2 ≠ .reinitializeSchema := by
  intro h
  have hraised := stationEvent_raised he
  rw [h] at hraised
  cases hraised

theorem amrEvent_ne_renew {s : Shop} {op : ShopOp} {e : String × AmrTrigger}
    (he : s.amrEvent op = some e) : e.2 ≠ .reinitializeSchema := by
  intro h
  cases op with
  | deliver j =>
    obtain ⟨m, _, hm⟩ := Option.bind_eq_some_iff.mp he
    split at hm
    · cases hm
      cases h
    · cases hm
      cases h
    · cases hm
  | arrive j =>
    obtain ⟨job, _, rfl⟩ := Option.map_eq_some_iff.mp he
    cases h
  | transportBlocked amr o =>
    cases he
    cases h
  | amrEpoch n epoch =>
    cases he
    cases h
  | _ => cases he

section

variable {x : Believing} {op : ShopOp}

theorem EpochsKept.step_orders (hx : EpochsKept x) (hC : EpochInTurn x op) :
    OrderHolon.epoch.Kept (epochStep op x).1.orders (epochStep op x).2.orders := by
  have hothers (hh : (x.1.epochsAfter x.2 op).orders = x.2.orders)
      (hselect : ∀ n, op ≠ .orderSelect n) (hmove : ∀ i y, op ≠ .orderMove i y) :
      OrderHolon.epoch.Kept (epochStep op x).1.orders (epochStep op x).2.orders := by
    simp only [epochStep, hh]
    refine orders_rule (Q := fun p => OrderHolon.epoch.Kept p x.2.orders) hx.orders ?_ ?_
      (fun n h => absurd h (hselect n)) fun i y θ h => absurd h (hmove i y)
    · intro p n f hf hp
      refine hp.believe fun b => ?_
      obtain ⟨told, heq⟩ := hf b
      rw [heq]
      rfl
    · exact fun p e he hp => hp.post (orderEvent_ne_renew he)
  cases op with
  | orderSelect n => exact hx.orders.select OrderHolon.epoch_governs hC
  | orderMove i y =>
    simp only [epochStep, exec, orderMove, epochsAfter]
    split
    · next hnone =>
      rw [Versioned.onMove, hnone]
      exact hx.orders
    · next θ hθ =>
      rw [run_proj (g := Shop.orders) (by simp)]
      exact hx.orders.move OrderHolon.epoch_governs hθ hC _
  | _ => exact hothers rfl (by simp) (by simp)

theorem EpochsKept.step_stations (hx : EpochsKept x) (hC : EpochInTurn x op) :
    ResourceHolon.epoch.Kept (epochStep op x).1.stations (epochStep op x).2.stations := by
  have hothers (hh : (x.1.epochsAfter x.2 op).stations = x.2.stations)
      (hselect : ∀ n, op ≠ .stationSelect n) (hmove : ∀ i, op ≠ .stationMove i) :
      ResourceHolon.epoch.Kept (epochStep op x).1.stations (epochStep op x).2.stations := by
    simp only [epochStep, hh]
    refine stations_rule (Q := fun p => ResourceHolon.epoch.Kept p x.2.stations) hx.stations ?_ ?_
      (fun n h => absurd h (hselect n)) fun i θ h => absurd h (hmove i)
    · intro p n f hf hp
      refine hp.believe fun b => ?_
      obtain ⟨told, summary, heq, -⟩ := hf b
      rw [heq]
      rfl
    · exact fun p e he hp => hp.post (stationEvent_ne_renew he)
  cases op with
  | stationSelect n => exact hx.stations.select ResourceHolon.epoch_governs hC
  | stationMove i =>
    simp only [epochStep, exec, stationMove, epochsAfter]
    split
    · next hnone =>
      rw [Versioned.onMove, hnone]
      exact hx.stations
    · next θ hθ =>
      rw [run_proj (g := Shop.stations) (by simp)]
      exact hx.stations.move ResourceHolon.epoch_governs hθ hC _
  | _ => exact hothers rfl (by simp) (by simp)

theorem EpochsKept.step_amrs (hx : EpochsKept x) (hC : EpochInTurn x op) :
    AmrAgent.epoch.Kept (epochStep op x).1.amrs (epochStep op x).2.amrs := by
  have hothers (hh : (x.1.epochsAfter x.2 op).amrs = x.2.amrs)
      (hselect : ∀ n, op ≠ .amrSelect n) (hmove : ∀ i u, op ≠ .amrMove i u) :
      AmrAgent.epoch.Kept (epochStep op x).1.amrs (epochStep op x).2.amrs := by
    simp only [epochStep, hh]
    refine amrs_rule (Q := fun p => AmrAgent.epoch.Kept p x.2.amrs) hx.amrs ?_ ?_
      (fun n h => absurd h (hselect n)) fun i u θ h => absurd h (hmove i u)
    · intro p n f hf hp
      refine hp.believe fun b => ?_
      obtain ⟨told, heq⟩ := hf b
      rw [heq]
      rfl
    · exact fun p e he hp => hp.post (amrEvent_ne_renew he)
  cases op with
  | amrSelect n => exact hx.amrs.select AmrAgent.epoch_governs hC
  | amrMove i u =>
    simp only [epochStep, exec, amrMove, epochsAfter]
    split
    · next hnone =>
      rw [Versioned.onMove, hnone]
      exact hx.amrs
    · next θ hθ =>
      rw [run_proj (g := Shop.amrs) (by simp)]
      exact hx.amrs.move AmrAgent.epoch_governs hθ hC _
  | _ => exact hothers rfl (by simp) (by simp)

end

/-- Agents that believe no epoch and have no plan under way. -/
theorem kept_start {B T S : Type} [DecidableEq T] {v : Versioned B T S ℤ}
    {p : Population String B T S} (hb : ∀ n, v.version (p.beliefs n) = [])
    (hi : p.intentions = []) (he : ∀ e ∈ p.events, e.2 ≠ v.renew) :
    v.Kept p fun _ => {} := by
  refine ⟨he, fun n => ?_⟩
  rw [Critical.holders, hi, hb]
  exact ⟨rfl, rfl, fun _ => by simp⟩

theorem EpochsKept.start (c : ShopConfig) : EpochsKept (Shop.start c, {}) where
  orders := kept_start (fun _ => rfl) rfl (by simp [Shop.start, OrderHolon.epoch])
  stations := kept_start (fun _ => rfl) rfl (by simp [Shop.start, ResourceHolon.epoch])
  amrs := kept_start (fun _ => rfl) rfl (by simp [Shop.start, AmrAgent.epoch])

/-- **Every holon holds its epoch.**  In every run in which no start plan asserts 0 after
another epoch has been processed, and epochs are processed in turn, every holon believes the
epoch that it has processed last, and it alone, and has been re-initialised once for each
change of it. -/
theorem epochs_held (c : ShopConfig) {ops : List ShopOp}
    (hops : Runs.Along epochStep EpochInTurn (Shop.start c, {}) ops) :
    EpochsHeld (Runs.run epochStep ops (Shop.start c, {})) :=
  (Runs.run_invariant (I := EpochsKept)
    (fun _ _ hx hC => ⟨hx.step_orders hC, hx.step_stations hC, hx.step_amrs hC⟩)
    (EpochsKept.start c) hops).held

/-- An order holon starts, and the epochs 0 and 1 are published. -/
def adoptedRun : List ShopOp :=
  ShopOp.orderSelect "order_1" :: orderMoves 6 0 ++
    [ShopOp.orderEpoch "order_1" 0, .orderSelect "order_1", .orderEpoch "order_1" 1,
      .orderSelect "order_1"] ++ orderMoves 6 1

/-- The order holon of `adoptedRun` adopts epoch 1 and is re-initialised once. -/
theorem epochs_held_order :
    let x := Runs.run epochStep adoptedRun (Shop.start oneStation, {})
    x.2.orders "order_1" = ⟨[1, 0], 1, true⟩ ∧ EpochsHeld x :=
  ⟨by decide, epochs_held oneStation (by decide)⟩

/-- A resource holon that adopts epoch 1 is re-initialised, and its start plan asserts 0
again. -/
theorem not_epochs_held :
    ¬ ∀ (c : ShopConfig) (ops : List ShopOp),
      EpochsHeld (Runs.run epochStep ops (Shop.start c, {})) := by
  intro h
  have hheld := h oneStation (.stationSelect "station_1" :: stationMoves 5 0 ++
    [.stationEpoch "station_1" 1, .stationSelect "station_1"] ++ stationMoves 14 1)
  exact absurd (hheld "station_1").2.1.1 (by decide)

end Shop

end MatrixFactory
