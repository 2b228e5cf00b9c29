/-
# A call of `processOrder` that fails

`processOrder` fails where the artifact is not locked for the order, and where an exception leaves
it later.  By then the plan has set the state of the station, believes the order active and holds
its lock in the registry.  `execute_physical_operation` has no failure plan, and neither has the
plan that pursues it.
-/
import MatrixFactory.StationLock
import MatrixFactory.Lib.Plans

namespace MatrixFactory

open AgentSpeak Runs

/-- The operations of the shop floor, and the exception by which the call fails that intention `i`
of the resource holons waits for. -/
inductive FaultyOp where
  | shop (op : ShopOp)
  | raise (i : ℕ)

/-- A call of `processOrder` that fails: the intention that makes it, its station, and the order,
its holon and the step as the plan knows them. -/
structure FailedCall where
  intention : ℕ
  station : String
  o : OrderId
  holon : String
  step : ℕ

namespace Shop

/-! ## Calls that fail -/

/-- The program of a resource holon whose call of `processOrder` ends in an exception. -/
def raising :
    Program String StationBeliefs StationTrigger StationStmt StationInput StationAction :=
  { ResourceHolon.program with
    exec := fun me b s x =>
      match s with
      | .awaitResult _ _ _ _ => .failed []
      | s => ResourceHolon.exec me b s x }

/-- The call that intention `i` waits for raises an exception, unless it has returned. -/
def raise (i : ℕ) (s : Shop) : Shop :=
  match s.stations.intentions[i]? with
  | none => s
  | some θ =>
    match θ.head with
    | some (.awaitResult run _ _ _) =>
      if ∃ r ∈ s.runs, r.run = run then
        { s with
          runs := s.runs.filter (·.run ≠ run)
          stations := s.stations.apply i
            (raising.move (s.stationInput θ) (s.stations.beliefs θ.owner) θ) }
      else s
    | _ => s

/-- One operation. -/
def execFaulty : FaultyOp → Shop → Shop
  | .shop op, s => s.exec op
  | .raise i, s => s.raise i

/-- The call of `processOrder` that an operation lets fail. -/
def failing (s : Shop) : FaultyOp → Option FailedCall
  | .shop (.stationMove i) =>
    s.stations.intentions[i]?.bind fun θ =>
      match θ.head with
      | some (.processOrder o holon step) =>
        if (s.stations.beliefs θ.owner).summary = ⟨.provisionalLock, some o⟩ then none
        else some ⟨i, θ.owner, o, holon, step⟩
      | _ => none
  | .raise i =>
    s.stations.intentions[i]?.bind fun θ =>
      match θ.head with
      | some (.awaitResult run o holon step) =>
        if ∃ r ∈ s.runs, r.run = run then some ⟨i, θ.owner, o, holon, step⟩ else none
      | _ => none
  | _ => none

/-- The state in which a failed call should end: the agent is idle, the artifact is released, the
lock of the order is removed, the order is not believed active, and its holon has been told since
`s` that the step has failed. -/
structure Compensated (f : FailedCall) (s s' : Shop) : Prop where
  idle : (s'.stations.beliefs f.station).stationState = some .idle
  released : (s'.stations.beliefs f.station).summary = ⟨.idle, none⟩
  unlocked : ∀ l ∈ s'.registry, l.1 ≠ f.o
  inactive : ∀ a ∈ (s'.stations.beliefs f.station).activeOrder, a.1 ≠ f.o
  told : ∃ m ∈ s'.mail.drop s.mail.length, m.sender = f.station ∧ m.receiver = f.holon ∧
    ∃ reason, m.content = .order (.stepFailed f.o f.step reason)

/-- Where an operation lets a call fail, the intention that made the call compensates for it by
what it still does. -/
def Compensates (s : Shop) (op : FaultyOp) : Prop :=
  ∀ f ∈ s.failing op, ∃ k, Compensated f s
    (run execFaulty (List.replicate k (.shop (.stationMove f.intention))) (s.execFaulty op))

/-! ## The intention of the call -/

/-- The plans of every intention are stacked as the program stacks them, whatever is locked. -/
def Stacked (s : Shop) : Prop := (lockProperty []).All s.stations

theorem stacked_start (c : ShopConfig) : (Shop.start c).Stacked := locksRespected_start c

/-- No plan that is at work with a call of `processOrder` has a failure plan. -/
theorem Stacked.recover {s : Shop} (hs : s.Stacked)
    {θ : Intention String StationTrigger StationStmt}
    (hθ : θ ∈ s.stations.intentions) {t : StationTrigger} {stmt : StationStmt}
    (hnext : θ.next = some (t, stmt)) (hcall : ∀ o, stmt.ofCall o = false) :
    ∀ f ∈ θ.frames, ResourceHolon.program.recover f.trigger = none := by
  obtain ⟨-, body, frames, hframes⟩ := θ.frames_of_next hnext
  have hstack := (hs.intentions θ hθ).frames
  rw [hframes] at hstack ⊢
  have hnone : t.call = none := by
    rcases ht : t.call with _ | o
    · rfl
    · have hof := (hstack.head stmt List.mem_cons_self).2.1 o ht
      rw [hcall o] at hof
      cases hof
  intro f hf
  rcases List.mem_cons.mp hf with rfl | hf
  · exact recover_eq_none hnone
  · exact recover_eq_none (hstack.outer f hf)

theorem plans_raising (n : String) (b : StationBeliefs) :
    (lockProperty []).Plans raising n b := by
  have hserves : ∀ o, (n, o) ∈ ([] : List (String × OrderId)) → b.serves o := by simp
  have hplans := plans_lock hserves
  exact ⟨hplans.goal, hplans.goal_failed, hplans.outer_failed⟩

/-- **An operation keeps the plans stacked.** -/
theorem Stacked.exec {s : Shop} (hs : s.Stacked) (op : FaultyOp) : (s.execFaulty op).Stacked := by
  have hbeliefs : ∀ b : StationBeliefs, ∀ n o, (n, o) ∈ ([] : List (String × OrderId)) →
      b.serves o := by simp
  match op with
  | .shop op =>
    refine stations_rule (Q := (lockProperty []).All) hs ?_ ?_ ?_ ?_
    · intro p n f _ hp
      exact hp.believe (hbeliefs _ n)
    · intro p e he hp
      exact hp.post (stationEvent_ne_failed he)
    · rintro n rfl
      refine Property.All.select hs fun e he body hbody => ?_
      exact plan_lock (hbeliefs _ n) (by simp) (hs.events e (List.mem_of_find?_eq_some he)) hbody
    · rintro i θ rfl hθ
      refine (Property.apply_move hs hθ (plans_lock (hbeliefs _ _)) fun t stmt _ hstmt =>
        exec_lock (hbeliefs _ _) hstmt ?_).1
      simp
  | .raise i =>
    show (s.raise i).Stacked
    unfold raise
    rcases hθ : s.stations.intentions[i]? with _ | θ
    · exact hs
    · dsimp only
      split
      · next run o holon step hhead =>
        split_ifs
        · have hexec : ∀ t stmt, θ.next = some (t, stmt) →
              (lockProperty []).stmt θ.owner t stmt →
              (lockProperty []).Outcome raising (fun _ => True) θ.owner (s.stations.beliefs θ.owner)
                t (raising.exec θ.owner (s.stations.beliefs θ.owner) stmt (s.stationInput θ)) := by
            intro t stmt hnext hstmt
            obtain rfl : stmt = .awaitResult run o holon step := by
              have h := Intention.head_of_next hnext
              rw [hhead] at h
              exact (Option.some.inj h).symm
            have hnone : t.call = none := by
              rcases ht : t.call with _ | o'
              · rfl
              · cases hstmt.2.1 o' ht
            exact ⟨recovered_of_call hnone, by simp⟩
          exact (Property.apply_move hs hθ (plans_raising _ _) hexec).1
        · exact hs
      · exact hs

theorem stacked_run (c : ShopConfig) (ops : List FaultyOp) :
    (run execFaulty ops (Shop.start c)).Stacked :=
  run_invariant (C := fun _ _ => True) (fun _ op hs _ => hs.exec op) (stacked_start c)
    (along_of_forall fun _ _ _ => trivial)

/-! ## What a failure changes -/

/-- **A failed call ends its intention** and changes nothing else that the agents, the mail or the
registry hold. -/
theorem failing_exec {s : Shop} (hs : s.Stacked) {op : FaultyOp} {f : FailedCall}
    (hf : s.failing op = some f) :
    (s.execFaulty op).stations =
        { s.stations with
          intentions := s.stations.intentions.set f.intention { owner := f.station } } ∧
      f.intention < s.stations.intentions.length ∧
      (s.execFaulty op).mail = s.mail ∧ (s.execFaulty op).registry = s.registry := by
  match op with
  | .shop (.stationMove i) =>
    obtain ⟨θ, hθ, hf⟩ := Option.bind_eq_some_iff.mp hf
    obtain ⟨hlt, -⟩ := List.getElem?_eq_some_iff.mp hθ
    split at hf
    · next o holon step hhead =>
      split_ifs at hf with hlocked
      cases hf
      obtain ⟨t, hnext⟩ := Intention.next_of_head hhead
      have hfailed : ResourceHolon.program.exec θ.owner (s.stations.beliefs θ.owner)
          (.processOrder o holon step) (s.stationInput θ) = .failed [.processOrder o] :=
        if_neg hlocked
      obtain ⟨happly, hacts⟩ := Population.apply_failed hθ hnext hfailed
        (hs.recover (List.mem_of_getElem? hθ) hnext fun _ => rfl)
      show (s.stationMove i).stations = _ ∧ _ ∧ (s.stationMove i).mail = _ ∧
        (s.stationMove i).registry = _
      simp only [stationMove, hθ, hacts]
      exact ⟨happly, hlt, rfl, rfl⟩
    · cases hf
  | .raise i =>
    obtain ⟨θ, hθ, hf⟩ := Option.bind_eq_some_iff.mp hf
    obtain ⟨hlt, -⟩ := List.getElem?_eq_some_iff.mp hθ
    split at hf
    · next run o holon step hhead =>
      split_ifs at hf with hrun
      cases hf
      obtain ⟨t, hnext⟩ := Intention.next_of_head hhead
      have hfailed : raising.exec θ.owner (s.stations.beliefs θ.owner)
          (.awaitResult run o holon step) (s.stationInput θ) = .failed [] := rfl
      obtain ⟨happly, -⟩ := Population.apply_failed hθ hnext hfailed
        (hs.recover (List.mem_of_getElem? hθ) hnext fun _ => rfl)
      have hraise : s.raise i = { s with
          runs := s.runs.filter (·.run ≠ run)
          stations := s.stations.apply i
            (raising.move (s.stationInput θ) (s.stations.beliefs θ.owner) θ) } := by
        simp only [raise, hθ, hhead, if_pos hrun]
      show (s.raise i).stations = _ ∧ _ ∧ (s.raise i).mail = _ ∧ (s.raise i).registry = _
      rw [hraise]
      exact ⟨happly, hlt, rfl, rfl⟩
    · cases hf

/-- An intention that has ended makes no difference. -/
theorem run_ended {s : Shop} {i : ℕ} {n : String}
    (hi : s.stations.intentions[i]? = some { owner := n }) (k : ℕ) :
    run execFaulty (List.replicate k (.shop (.stationMove i))) s = s := by
  induction k with
  | zero => rfl
  | succ k ih =>
    have hmove : s.execFaulty (.shop (.stationMove i)) = s := by
      show s.stationMove i = s
      simp only [stationMove, hi]
      show { s with stations := s.stations.apply i _ } = s
      rw [(Population.apply_ended hi).1]
    rw [List.replicate_succ, run_cons, hmove, ih]

theorem not_compensated {s : Shop} (hs : s.Stacked) {op : FaultyOp}
    (hf : (s.failing op).isSome) : ¬s.Compensates op := by
  obtain ⟨f, hf⟩ := Option.isSome_iff_exists.mp hf
  intro h
  obtain ⟨k, hk⟩ := h f hf
  obtain ⟨hstations, hlt, hmail, -⟩ := failing_exec hs hf
  have hended : (s.execFaulty op).stations.intentions[f.intention]? =
      some { owner := f.station } := by
    rw [hstations]
    exact List.getElem?_set_self hlt
  rw [run_ended hended] at hk
  -- the holon of the order has been told nothing
  obtain ⟨m, hm, -⟩ := hk.told
  rw [hmail, List.drop_length] at hm
  cases hm

/-- **A failed call is never compensated for**: in no run, and wherever the call fails, does the
station agent reach the state in which it should end. -/
theorem not_compensates (c : ShopConfig) (ops : List FaultyOp) (op : FaultyOp)
    (hf : ((run execFaulty ops (Shop.start c)).failing op).isSome) :
    ¬(run execFaulty ops (Shop.start c)).Compensates op :=
  not_compensated (stacked_run c ops) hf

/-- The station works on the order of `acceptedRun`, and an exception ends the work. -/
theorem not_compensates_raised :
    ¬(run execFaulty ((acceptedRun ++ arrivedRun).map .shop) (Shop.start oneStation)).Compensates
      (.raise 3) :=
  not_compensates oneStation _ (.raise 3) (by decide +kernel)

/-- A run in which a call fails and is not compensated for: the station stays busy with the order
of `acceptedRun`. -/
theorem not_along_compensates :
    ¬∀ (c : ShopConfig) (ops : List FaultyOp), Along execFaulty Compensates (Shop.start c) ops := by
  intro h
  have hrun := h oneStation ((acceptedRun ++ arrivedRun).map .shop ++ [.raise 3])
  rw [along_append, along_cons] at hrun
  exact not_compensated (stacked_run oneStation _) (by decide +kernel) hrun.2.1

end Shop

end MatrixFactory
