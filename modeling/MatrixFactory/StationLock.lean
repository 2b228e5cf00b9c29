/-
# The lock of a station that has accepted an order

A resource holon that proposes for an order locks its station and starts a timer for the
bid.  When the proposal is accepted it cancels the timer and registers the lock.  From then
on the station should stay locked or busy for the order until the operation is complete or
aborted, the station is suspended, or the schema changes.

It does so if the timer's expiry does not reach it too late: the signal of a timer that has
expired can no longer be cancelled, and the plan for it cannot tell a lock that is registered
from one that is not.
-/
import MatrixFactory.ShopRules

namespace MatrixFactory

open AgentSpeak

/-! ## Locks -/

/-- The station is locked or busy for the order. -/
def StationBeliefs.serves (b : StationBeliefs) (o : OrderId) : Prop :=
  b.stationState = some (.provisionalLock o) ∨ b.stationState = some (.busyProcessing o)

instance (b : StationBeliefs) (o : OrderId) : Decidable (b.serves o) :=
  inferInstanceAs (Decidable (_ ∨ _))

/-- The plans that end a lock for the order: the completion of its operation, its abort, a
suspension, a schema change, and `start`, which follows the last two. -/
def StationTrigger.ends (o : OrderId) : StationTrigger → Bool
  | .executePhysicalOperation o' => o' = o
  | .told ⟨.abortCurrentOperation o', _⟩ _ => o' = o
  | .told ⟨.suspendIntentions, _⟩ _ | .reinitializeSchema | .start => true
  | _ => false

/-- The statements by which a plan takes the station out of its lock for the order. -/
def StationStmt.unlocks (o : OrderId) : StationStmt → Bool
  | .setStationState state => state ≠ .provisionalLock o ∧ state ≠ .busyProcessing o
  | .queryProcessingCost o' _ _ | .claimStation o' | .ifProvisionalLock o' => o' = o
  | .processOrder _ _ _ | .awaitResult _ _ _ _ => true
  | _ => false

/-- The events whose plans revert a provisional lock for the order to idle: the expiry of
the bid and the order holon's rejection of it. -/
def StationTrigger.reverts (o : OrderId) : StationTrigger → Bool
  | .timerExpired o' => o' = o
  | .told ⟨.rejectProposal o', _⟩ _ => o' = o
  | _ => false

/-- The order of a call for proposals. -/
def StationTrigger.call : StationTrigger → Option OrderId
  | .callForProposal _ _ o _ _ => some o
  | _ => none

/-- The statements of the plans for a call. -/
def StationStmt.ofCall (o : OrderId) : StationStmt → Bool
  | .setStationState (.provisionalLock o') | .queryProcessingCost o' _ _ | .claimStation o'
  | .ifTestHookTtl o' | .startTimer o' _ => o' = o
  | .sendPropose _ _ _ | .sendRefuse _ _ => true
  | _ => false

/-- The goals that plans of a resource holon pursue. -/
def StationTrigger.isGoal : StationTrigger → Bool
  | .start | .executePhysicalOperation _ | .reportDefect _ | .reinitializeSchema => true
  | _ => false

namespace Shop

/-- The locks registered by stations, after an operation: `registerLock` adds one, and a
plan that ends a lock does so by setting the state of the station. -/
def locksAfter (s : Shop) (locks : List (String × OrderId)) : ShopOp → List (String × OrderId)
  | .stationMove i =>
    match s.stations.intentions[i]? with
    | none => locks
    | some θ =>
      match θ.next with
      | some (_, .registerLock o _) => (θ.owner, o) :: locks
      | some (t, .setStationState _) => locks.filter fun l => ¬ (l.1 = θ.owner ∧ t.ends l.2)
      | _ => locks
  | _ => locks

/-- One operation, with the locks that stations have registered. -/
def lockStep (op : ShopOp) (x : Shop × List (String × OrderId)) :
    Shop × List (String × OrderId) :=
  (x.1.exec op, x.1.locksAfter x.2 op)

/-- Station `n` is locked or busy for `o`, and no plan of it under way takes it out of that
except one that ends the lock. -/
def Lockable (s : Shop) (n : String) (o : OrderId) : Prop :=
  (s.stations.beliefs n).serves o ∧
    ∀ θ ∈ s.stations.intentions, θ.owner = n → ∀ f ∈ θ.frames,
      f.trigger.ends o ∨ ∀ stmt ∈ f.body, ¬ stmt.unlocks o

instance (s : Shop) (n : String) (o : OrderId) : Decidable (s.Lockable n o) :=
  inferInstanceAs (Decidable (_ ∧ _))

/-- The condition on an operation: a lock is registered only while no expiry or rejection of
the bid is being carried out, and while a registered lock waits for its item the station
answers neither. -/
def LockInTime (x : Shop × List (String × OrderId)) : ShopOp → Prop
  | .stationSelect n =>
    ∀ l ∈ x.2, l.1 = n →
      (x.1.stations.beliefs n).stationState = some (.provisionalLock l.2) →
      ∀ e ∈ x.1.stations.events.find? (·.1 = n), ¬ e.2.reverts l.2
  | .stationMove i =>
    ∀ θ ∈ x.1.stations.intentions[i]?, ∀ p ∈ θ.next,
      match p.2 with
      | .registerLock o _ => x.1.Lockable θ.owner o
      | _ => True
  | _ => True

instance (x : Shop × List (String × OrderId)) (op : ShopOp) : Decidable (LockInTime x op) :=
  match op with
  | .stationSelect _ => inferInstanceAs (Decidable (∀ l ∈ x.2, _))
  | .stationMove i =>
    have (p : StationTrigger × StationStmt) (θ : Intention String StationTrigger StationStmt) :
        Decidable (match p.2 with
          | .registerLock o _ => x.1.Lockable θ.owner o
          | _ => True) := by
      split <;> infer_instance
    inferInstanceAs (Decidable (∀ θ ∈ x.1.stations.intentions[i]?, ∀ p ∈ θ.next, _))
  | .orderSelect _ | .orderMove _ _ | .amrSelect _ | .amrMove _ _ | .deliver _ | .supervisor _ _
  | .orderTimer _ | .orderSignal _ | .stationTimer _ | .stationSignal _ | .arrive _
  | .transportBlocked _ _ | .finish _ _ _ | .orderEpoch _ _ | .stationEpoch _ _
  | .amrEpoch _ _ => .isTrue trivial

/-! ## What the plans of a resource holon do to a lock -/

/-- The registered locks are respected: a station is locked or busy for its orders, and no
plan under way takes it out of that, except one that ends the lock. -/
def lockProperty (locks : List (String × OrderId)) :
    Property String StationBeliefs StationTrigger StationStmt where
  beliefs n b := ∀ o, (n, o) ∈ locks → b.serves o
  event _ t := ∀ o sender, t ≠ .callForProposalFailed o sender
  goal _ t := t.isGoal
  outer _ t := t.call = none
  stmt n t s := (∀ g, s = .achieve g → g.isGoal) ∧ (∀ o ∈ t.call, s.ofCall o) ∧
    ∀ o, (n, o) ∈ locks → t.ends o ∨ ¬ s.unlocks o

/-- A station is in the lock of one order at most. -/
theorem unique_lock {b : StationBeliefs} {o o' : OrderId} (h : b.serves o)
    (h' : b.stationState = some (.provisionalLock o')) : o' = o := by
  rcases h with h | h <;> simp_all

theorem unique_busy {b : StationBeliefs} {o o' : OrderId} (h : b.serves o)
    (h' : b.stationState = some (.busyProcessing o')) : o' = o := by
  rcases h with h | h <;> simp_all

@[simp] theorem lockProperty_stmt {locks : List (String × OrderId)} {n : String}
    {t : StationTrigger} {s : StationStmt} : (lockProperty locks).stmt n t s ↔
      (∀ g, s = .achieve g → g.isGoal) ∧ (∀ o ∈ t.call, s.ofCall o) ∧
        ∀ o, (n, o) ∈ locks → t.ends o ∨ ¬ s.unlocks o :=
  Iff.rfl

variable {locks : List (String × OrderId)} {n : String} {b : StationBeliefs}

section

attribute [local simp] StationTrigger.call StationStmt.ofCall StationTrigger.isGoal
  StationTrigger.ends StationStmt.unlocks StationTrigger.reverts

/-- The plan for an event keeps the locks, unless it is one that reverts a provisional
lock. -/
theorem plan_lock (hb : ∀ o, (n, o) ∈ locks → b.serves o) {t : StationTrigger}
    (ht : ∀ o, (n, o) ∈ locks → b.stationState = some (.provisionalLock o) → ¬ t.reverts o)
    (hfail : ∀ o sender, t ≠ .callForProposalFailed o sender)
    {body : List StationStmt} (hplan : ResourceHolon.plan n b t = some body) :
    ∀ s ∈ body, (lockProperty locks).stmt n t s := by
  have hidle : ∀ o, (n, o) ∈ locks → b.stationState ≠ some .idle := by
    intro o ho hs
    rcases hb o ho with h | h <;> simp_all
  cases t with
  | start =>
    cases hplan
    simp
  | callForProposal step stations o sender k =>
    simp only [ResourceHolon.plan] at hplan
    split at hplan
    · next h =>
      cases hplan
      have : ∀ o', (n, o') ∉ locks := fun o' ho' => hidle o' ho' h.2.2.1
      simp [this]
    · split at hplan
      · cases hplan
        simp
      · split at hplan
        · cases hplan
          simp
        · cases hplan
  | callForProposalFailed o sender => exact absurd rfl (hfail o sender)
  | executePhysicalOperation o =>
    simp only [ResourceHolon.plan] at hplan
    split at hplan
    · next h =>
      obtain ⟨a, ha, rfl⟩ := Option.map_eq_some_iff.mp hplan
      simpa using fun o' ho' => unique_busy (hb o' ho') h.1
    · cases hplan
  | reportDefect o =>
    cases hplan
    simp
  | reinitializeSchema =>
    cases hplan
    simp
  | timerExpired o =>
    simp only [ResourceHolon.plan] at hplan
    split at hplan
    · next h =>
      cases hplan
      have : ∀ o', (n, o') ∉ locks := by
        intro o' ho'
        obtain rfl := unique_lock (hb o' ho') h.1
        exact ht o ho' h.1 (by simp)
      simp [this]
    · cases hplan
      simp
  | told m k =>
    obtain ⟨c, sender⟩ := m
    cases c with
    | acceptProposal o =>
      simp only [ResourceHolon.plan] at hplan
      split at hplan
      · cases hplan
        simp
      · split at hplan
        · cases hplan
          simp
        · cases hplan
    | rejectProposal o =>
      simp only [ResourceHolon.plan] at hplan
      split at hplan
      · next h =>
        cases hplan
        have : ∀ o', (n, o') ∉ locks := by
          intro o' ho'
          obtain rfl := unique_lock (hb o' ho') h.1
          exact ht o ho' h.1 (by simp)
        simp [this]
      · split at hplan
        · cases hplan
          simp
        · cases hplan
    | itemArrived o =>
      simp only [ResourceHolon.plan] at hplan
      split at hplan
      · next h =>
        cases hplan
        simpa using fun o' ho' => unique_lock (hb o' ho') h.1
      · cases hplan
        simp
    | abortCurrentOperation o =>
      simp only [ResourceHolon.plan] at hplan
      split at hplan
      · next h =>
        cases hplan
        simpa using fun o' ho' => unique_lock (hb o' ho') h.1
      · split at hplan
        · cases hplan
          simp
        · cases hplan
    | suspendIntentions =>
      simp only [ResourceHolon.plan] at hplan
      split at hplan
      · cases hplan
        simp
      · cases hplan
    | resumeIntention =>
      simp only [ResourceHolon.plan] at hplan
      split at hplan
      · cases hplan
        simp
      · cases hplan
  | schemaEpoch epoch =>
    simp only [ResourceHolon.plan] at hplan
    split at hplan
    · cases hplan
      simp
    · cases hplan

end

@[simp] theorem recover_eq_none {t : StationTrigger} (ht : t.call = none) :
    ResourceHolon.program.recover t = none := by
  cases t <;> first | rfl | cases ht

theorem ends_of_call {t : StationTrigger} {o : OrderId} (ht : t.call = some o) (o' : OrderId) :
    t.ends o' = false := by
  cases t <;> first | rfl | cases ht

/-- A plan that is not for a call has no failure plan. -/
theorem recovered_of_call {t : StationTrigger} (ht : t.call = none) :
    (lockProperty locks).Recovered ResourceHolon.program n b t := by
  intro t' body h
  rw [recover_eq_none ht] at h
  cases h

/-- The failure plan for a call for another order keeps the locks. -/
theorem recovered_of_ne {t : StationTrigger}
    (h : ∀ o ∈ t.call, ∀ o', (n, o') ∈ locks → o' ≠ o) :
    (lockProperty locks).Recovered ResourceHolon.program n b t := by
  intro t' body ht' hbody
  cases t with
  | callForProposal step stations o sender k =>
    cases ht'
    cases hbody
    have hne := h o rfl
    refine ⟨by simp [lockProperty, StationTrigger.isGoal], ?_⟩
    simpa [StationTrigger.call, StationStmt.unlocks] using
      fun o' ho' => Or.inr (hne o' ho').symm
  | _ => cases ht'

theorem exec_lock (hb : ∀ o, (n, o) ∈ locks → b.serves o) {t : StationTrigger} {s : StationStmt}
    {x : StationInput} (hs : (lockProperty locks).stmt n t s)
    (hset : ∀ state, s = .setStationState state → ∀ o, (n, o) ∈ locks → ¬ t.ends o) :
    (lockProperty locks).Outcome ResourceHolon.program (fun _ => True) n b t
      (ResourceHolon.exec n b s x) := by
  obtain ⟨hgoal, hcall, hunlock⟩ := hs
  have hsame : ∀ b' : StationBeliefs, b'.stationState = b.stationState →
      (lockProperty locks).beliefs n b' := by
    intro b' hb' o ho
    rw [StationBeliefs.serves, hb']
    exact hb o ho
  have hnone : (∀ o, s.ofCall o = false) → t.call = none := by
    intro h
    cases ht : t.call with
    | none => rfl
    | some o => simpa [h o] using hcall o ht
  have hfail : ∀ acts : List StationAction, (∀ o, s.ofCall o = false) →
      (lockProperty locks).Outcome ResourceHolon.program (fun _ => True) n b t (.failed acts) :=
    fun acts h => ⟨recovered_of_call (hnone h), by simp⟩
  cases s with
  | achieve g => exact ⟨hgoal g rfl, hnone fun _ => rfl⟩
  | setStationState state =>
    refine ⟨fun o ho => ?_, by simp, by simp⟩
    have hu := (hunlock o ho).resolve_left (hset state rfl o ho)
    simp only [StationStmt.unlocks, decide_eq_true_eq, not_and_or, not_not] at hu
    simpa [StationBeliefs.serves] using hu
  | queryProcessingCost o sender k =>
    refine ⟨hb, ?_, by simp⟩
    simp only [StationStmt.ofCall, decide_eq_true_eq, StationStmt.unlocks] at hcall hunlock
    simpa [StationStmt.ofCall, StationStmt.unlocks] using ⟨⟨hcall, hunlock⟩, hcall⟩
  | claimStation o =>
    simp only [ResourceHolon.exec]
    split
    · exact ⟨hsame _ rfl, by simp, by simp⟩
    · refine ⟨recovered_of_ne fun o₁ ho₁ o₂ ho₂ heq => ?_, by simp⟩
      have ho := hcall o₁ ho₁
      have hu := hunlock o₂ ho₂
      simp only [StationStmt.ofCall, StationStmt.unlocks, decide_eq_true_eq] at ho hu
      rcases hu with hu | hu
      · simp [ends_of_call ho₁] at hu
      · exact hu (by rw [ho, heq])
  | queryMyName =>
    simp only [ResourceHolon.exec]
    split
    · exact ⟨hb, by simp, by simp⟩
    · exact hfail _ fun _ => rfl
  | ifProvisionalLock o =>
    simp only [ResourceHolon.exec]
    split
    · next hlock =>
      refine ⟨hb, ?_, by simp⟩
      have := hnone fun _ => rfl
      have hends : ∀ o', (n, o') ∈ locks → t.ends o' := by
        intro o' ho'
        have := unique_lock (hb o' ho') hlock
        simpa [StationStmt.unlocks, this] using hunlock o' ho'
      simpa [this, StationStmt.unlocks] using hends
    · exact ⟨hb, by simp, by simp⟩
  | processOrder o holon step =>
    simp only [ResourceHolon.exec]
    split
    · refine ⟨hsame _ rfl, ?_, by simp⟩
      have := hnone fun _ => rfl
      simpa [this, StationStmt.unlocks] using hunlock
    · exact hfail _ fun _ => rfl
  | awaitResult run o holon step =>
    have hcode : ∀ s : StationStmt, (∀ g, s = .achieve g → g.isGoal) →
        (lockProperty locks).stmt n t s := fun s hs =>
      ⟨hs, by simp [hnone fun _ => rfl],
        fun o ho => Or.inl ((hunlock o ho).resolve_right (by simp [StationStmt.unlocks]))⟩
    simp only [ResourceHolon.exec]
    split
    · trivial
    · refine ⟨hb, fun s hs => hcode s ?_, by simp⟩
      rintro g rfl
      simp only [List.mem_cons, reduceCtorEq, StationStmt.achieve.injEq, false_or, or_false,
        List.not_mem_nil] at hs
      rw [hs]
      rfl
    · refine ⟨hb, fun s hs => hcode s ?_, by simp⟩
      rintro g rfl
      simp at hs
  | ifOccupied =>
    have := hnone fun _ => rfl
    simp only [ResourceHolon.exec]
    split
    · exact ⟨hb, by simp [this, StationStmt.unlocks], by simp⟩
    · exact ⟨hb, by simp [this, StationStmt.unlocks], by simp⟩
    · exact ⟨hb, by simp, by simp⟩
  | queryStationState =>
    have := hnone fun _ => rfl
    simp only [ResourceHolon.exec]
    split
    · exact ⟨hb, by simp [this, StationStmt.unlocks], by simp⟩
    · exact ⟨hb, by simp [this, StationStmt.unlocks], by simp⟩
    · exact ⟨hb, by simp, by simp⟩
    · exact hfail _ fun _ => rfl
  | ifTestHookBlockAck =>
    have := hnone fun _ => rfl
    refine ⟨hb, ?_, by simp⟩
    split <;> simp [this, StationStmt.unlocks]
  | ifTestHookTtl o =>
    refine ⟨hb, ?_, by simp⟩
    simp only [StationStmt.ofCall, decide_eq_true_eq] at hcall
    simpa [StationStmt.ofCall, StationStmt.unlocks] using hcall
  | dropIntention goals => trivial
  | _ => exact ⟨hsame _ rfl, by simp, by simp⟩

theorem plans_lock (hb : ∀ o, (n, o) ∈ locks → b.serves o) :
    (lockProperty locks).Plans ResourceHolon.program n b where
  goal t body ht hbody := by
    refine plan_lock hb (fun o _ _ hr => ?_) (fun o sender h => ?_) hbody
    · cases t <;> first | cases hr | cases ht
    · subst h
      cases ht
  goal_failed t ht := recovered_of_call (by cases t <;> first | rfl | cases ht)
  outer_failed t ht := recovered_of_call ht

theorem stationEvent_ne_failed {s : Shop} {op : ShopOp} {e : String × StationTrigger}
    (he : s.stationEvent op = some e) (o : OrderId) (sender : String) :
    e.2 ≠ .callForProposalFailed o sender := by
  intro h
  have hraised := stationEvent_raised he
  rw [h] at hraised
  cases hraised

/-- The registered locks are respected. -/
def LocksRespected (x : Shop × List (String × OrderId)) : Prop :=
  (lockProperty x.2).All x.1.stations

/-- What an operation does to the registered locks leaves those that are respected. -/
theorem locksAfter_all {x : Shop × List (String × OrderId)} {op : ShopOp}
    (hx : LocksRespected x) (hC : LockInTime x op) :
    (lockProperty (x.1.locksAfter x.2 op)).All x.1.stations := by
  cases op with
  | stationMove i =>
    simp only [locksAfter]
    split
    · exact hx
    · next θ hθ =>
      split
      · next t o holon hnext =>
        obtain ⟨hserves, hothers⟩ := hC θ hθ _ hnext
        refine hx.imp (fun n hn o' ho' => ?_) (fun _ _ h => h) fun θ' hθ' h => ?_
        · rcases List.mem_cons.mp ho' with heq | ho'
          · cases heq
            exact hserves
          · exact hn o' ho'
        · refine h.imp (fun _ h => h) (fun _ h => h) fun f hf s hs h => ?_
          refine ⟨h.1, h.2.1, fun o' ho' => ?_⟩
          rcases List.mem_cons.mp ho' with heq | ho'
          · obtain ⟨howner, rfl⟩ := Prod.mk.inj heq
            exact (hothers θ' hθ' howner f hf).imp_right fun h => h s hs
          · exact h.2.2 o' ho'
      · next t state hnext =>
        refine hx.imp (fun n hn o' ho' => hn o' (List.mem_of_mem_filter ho')) (fun _ _ h => h)
          fun θ' hθ' h => ?_
        exact h.imp (fun _ h => h) (fun _ h => h) fun f hf s hs h =>
          ⟨h.1, h.2.1, fun o' ho' => h.2.2 o' (List.mem_of_mem_filter ho')⟩
      · exact hx
  | _ => exact hx

theorem lockStep_respected {x : Shop × List (String × OrderId)} {op : ShopOp}
    (hx : LocksRespected x) (hC : LockInTime x op) : LocksRespected (lockStep op x) := by
  have hL := locksAfter_all hx hC
  refine stations_rule (Q := (lockProperty (x.1.locksAfter x.2 op)).All) hL ?_ ?_ ?_ ?_
  · intro p n f hf hp
    refine hp.believe fun o ho => ?_
    obtain ⟨told, summary, heq, -⟩ := hf (p.beliefs n)
    rw [heq]
    exact hp.beliefs n o ho
  · intro p e he hp
    exact hp.post (stationEvent_ne_failed he)
  · rintro n rfl
    refine hL.select fun e he body hbody => ?_
    refine plan_lock (hL.beliefs n) (fun o ho hs => hC (n, o) ho rfl hs e he) ?_ hbody
    exact hL.events e (List.mem_of_find?_eq_some he)
  · rintro i θ rfl hθ
    refine (Property.apply_move hL hθ (plans_lock (hL.beliefs _)) fun t s hnext hs =>
      exec_lock (hL.beliefs θ.owner) hs ?_).1
    rintro state rfl o ho hends
    simp [locksAfter, hθ, hnext, hends] at ho

/-! ## Runs -/

theorem locksRespected_start (c : ShopConfig) : LocksRespected (Shop.start c, []) := by
  refine ⟨by simp [lockProperty], fun e he o sender h => ?_, by simp [Shop.start]⟩
  obtain ⟨n, _, rfl⟩ := List.mem_map.mp he
  cases h

end Shop

end MatrixFactory
