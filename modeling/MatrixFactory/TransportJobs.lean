/-
# Transport jobs and the attempts they are for

Every attempt commits one transport job at most, and what follows from a job happens at most
once: it is under way, or its arrival is being answered, or its order holon has been
notified.  The plans of an AMR agent that answer an arrival and an abort have no subgoals, so
they run alone in their intentions.
-/
import MatrixFactory.ShopWeight

namespace MatrixFactory

open AgentSpeak

/-! ## The number of attempts -/

/-- Only the next attempt begins. -/
theorem OrderHolon.begins_eq {n : String} {b b' : OrderBeliefs} {s : OrderStmt} {x : OrderInput}
    {code : List OrderStmt} {acts : List OrderAction} (h : exec n b s x = .next b' code acts)
    {k : Attempt} (hk : .begins k ∈ acts) : k = x.attempt := by
  cases s with
  | ifRemaining o step remaining =>
    cases remaining <;> (cases h; simp at hk)
  | setCnpWinner o winner step =>
    cases h
    simpa using hk
  | sendCallForProposal stations step o =>
    cases h
    simpa using hk
  | _ =>
    simp only [exec] at h
    (repeat' split at h) <;> cases h <;> simp at hk

theorem OrderHolon.exec_failed {n : String} {b : OrderBeliefs} {s : OrderStmt} {x : OrderInput}
    {acts : List OrderAction} (h : exec n b s x = .failed acts) : acts = [] := by
  cases s with
  | ifRemaining o step remaining => cases remaining <;> cases h
  | _ =>
    simp only [exec] at h
    (repeat' split at h) <;> cases h <;> rfl

namespace Shop

theorem orderAct_attempts {me : String} {a : OrderAction} {m : ℕ} {s : Shop}
    (ha : ∀ k, a = .begins k → k.number = m) (hs : s.attempts = m ∨ s.attempts = m + 1) :
    (orderAct me a s).attempts = m ∨ (orderAct me a s).attempts = m + 1 := by
  cases a with
  | begins k => exact Or.inr (congrArg (· + 1) (ha k rfl))
  | _ => exact hs

theorem run_orderAct_attempts (me : String) {m : ℕ} (acts : List OrderAction) {s : Shop}
    (ha : ∀ k, .begins k ∈ acts → k.number = m) (hs : s.attempts = m ∨ s.attempts = m + 1) :
    (Runs.run (orderAct me) acts s).attempts = m ∨
      (Runs.run (orderAct me) acts s).attempts = m + 1 := by
  induction acts generalizing s with
  | nil => exact hs
  | cons a acts ih =>
    refine ih (fun k hk => ha k (List.mem_cons_of_mem a hk)) (orderAct_attempts ?_ hs)
    rintro k rfl
    exact ha k List.mem_cons_self

/-- The attempts are numbered upwards. -/
theorem attempts_le (op : ShopOp) (s : Shop) : s.attempts ≤ (s.exec op).attempts := by
  cases op with
  | orderMove i x =>
    simp only [exec, orderMove]
    split
    · exact le_rfl
    · next θ hθ =>
      have hbegins : ∀ k, .begins k ∈ (OrderHolon.program.move (s.orderInput θ x)
          (s.orders.beliefs θ.owner) θ).actions → k.number = s.attempts := by
        intro k hk
        rcases OrderHolon.program.move_effect (s.orderInput θ x) (s.orders.beliefs θ.owner) θ with
          ⟨_, hacts⟩ | ⟨st, _, ⟨code, hexec⟩ | ⟨_, hexec⟩⟩
        · rw [hacts] at hk
          cases hk
        · rw [OrderHolon.begins_eq hexec hk]
          rfl
        · rw [OrderHolon.exec_failed hexec] at hk
          cases hk
      have := run_orderAct_attempts θ.owner _ hbegins
        (s := { s with orders := s.orders.apply i (OrderHolon.program.move (s.orderInput θ x)
          (s.orders.beliefs θ.owner) θ) }) (Or.inl rfl)
      omega
  | stationMove i =>
    simp only [exec, stationMove]
    split
    · exact le_rfl
    · rw [run_proj (g := Shop.attempts) (fun a s => by cases a <;> rfl)]
  | amrMove i u =>
    simp only [exec, amrMove]
    split
    · exact le_rfl
    · rw [run_proj (g := Shop.attempts) (fun a s => by cases a <;> rfl)]
  | deliver j =>
    simp only [exec, deliver]
    split
    · exact le_rfl
    · split
      · exact le_rfl
      · unfold receive
        split <;> exact le_rfl
  | arrive j =>
    simp only [exec, arrive]
    split <;> exact le_rfl
  | finish j code summary =>
    simp only [exec, finish]
    split <;> exact le_rfl
  | _ => first | exact le_rfl | (simp only [exec]; split <;> exact le_rfl)

/-- The choice of a winner begins the next attempt. -/
theorem attempts_setCnpWinner {s : Shop} {i : ℕ} {x : OrderInput}
    {θ : Intention String OrderTrigger OrderStmt} {o : OrderId} {winner : String} {step : ℕ}
    (hθ : s.orders.intentions[i]? = some θ) (hhead : θ.head = some (.setCnpWinner o winner step)) :
    (s.exec (.orderMove i x)).attempts = s.attempts + 1 := by
  have hacts := (Program.move_of_next OrderHolon.program (x := s.orderInput θ x)
    (b := s.orders.beliefs θ.owner) hhead rfl).2
  simp only [exec, orderMove, hθ, hacts]
  rfl

end Shop

/-! ## Dispatch -/

/-- The part of attempt `k` in the dispatch of transports: its order to dispatch one, the
job under way (which weighs `d`), the answer to its arrival and the notification, and the
record of the job (which weighs `c`). -/
def dispatchWeight (k : Attempt) (d c : ℕ) : ShopWeight where
  order :=
    { trigger := fun _ t =>
        match t with
        | .requestTransport _ _ _ k' => if k' = k then 1 else 0
        | _ => 0
      stmt := fun _ s =>
        match s with
        | .queryCurrentLocation _ _ k' | .reserveTransport _ _ _ k'
        | .achieve (.requestTransport _ _ _ k') => if k' = k then 1 else 0
        | _ => 0 }
  station := { trigger := fun _ _ => 0, stmt := fun _ _ => 0 }
  amr :=
    { trigger := fun _ t =>
        match t with
        | .amrArrived _ k' => if k' = k then d else 0
        | _ => 0
      stmt := fun _ s =>
        match s with
        | .sendTransportDone _ _ k' | .achieve (.amrArrived _ k') => if k' = k then d else 0
        | _ => 0 }
  mail _ := 0
  timer _ := 0
  job j := if j.attempt = k then d else 0
  run _ := 0
  result _ := 0
  committed j := if j.attempt = k then c else 0
  notified k' := if k' = k then d else 0
  orderGain _ _ s x :=
    match s with
    | .setCnpWinner _ _ _ => if x.attempt = k then 1 else 0
    | _ => 0

namespace ShopWeight

variable {k : Attempt} {d c : ℕ}

@[simp] theorem dispatch_notified (k' : Attempt) :
    (dispatchWeight k d c).notified k' = if k' = k then d else 0 := rfl

@[simp] theorem dispatch_committed (job : CommittedJob) :
    (dispatchWeight k d c).committed job = if job.attempt = k then c else 0 := rfl

theorem dispatch_orderPlans (n : String) (b : OrderBeliefs) :
    (dispatchWeight k d c).order.Plans OrderHolon.program n b := by
  refine ⟨fun t body h => ?_, fun t t' body h => by cases h⟩
  suffices hbody : (dispatchWeight k d c).order.body n body
      = (dispatchWeight k d c).order.trigger n t from hbody.le
  cases t with
  | timerExpired key k' =>
    cases key <;> simp only [OrderHolon.program, OrderHolon.plan] at h <;>
      (repeat' split at h) <;> cases h <;> rfl
  | told m k' =>
    obtain ⟨m, source⟩ := m
    cases m <;> simp only [OrderHolon.program, OrderHolon.plan] at h <;>
      (repeat' split at h) <;> cases h <;> rfl
  | requestTransport o fromStation toStation k' =>
    cases h
    simp [Weight.body, dispatchWeight]
  | _ =>
    simp only [OrderHolon.program, OrderHolon.plan] at h
    (repeat' split at h) <;> cases h <;> rfl

theorem dispatch_stationPlans (n : String) (b : StationBeliefs) :
    (dispatchWeight k d c).station.Plans ResourceHolon.program n b := by
  have hzero : ∀ body, (dispatchWeight k d c).station.body n body = 0 := fun body => by
    simp [Weight.body, dispatchWeight]
  exact ⟨fun t body _ => (hzero body).le.trans (Nat.zero_le _), fun t t' body _ _ => hzero body⟩

theorem dispatch_amrPlans (n : String) (b : AmrBeliefs) :
    (dispatchWeight k d c).amr.Plans AmrAgent.program n b := by
  refine ⟨fun t body h => ?_, fun t t' body h => by cases h⟩
  suffices hbody : (dispatchWeight k d c).amr.body n body
      = (dispatchWeight k d c).amr.trigger n t from hbody.le
  cases t with
  | amrArrived o k' =>
    simp only [AmrAgent.program, AmrAgent.plan] at h
    split at h <;> cases h
    simp [Weight.body, dispatchWeight]
  | told m k' =>
    obtain ⟨m, source⟩ := m
    cases m <;> simp only [AmrAgent.program, AmrAgent.plan] at h <;>
      (repeat' split at h) <;> cases h <;> rfl
  | _ =>
    simp only [AmrAgent.program, AmrAgent.plan] at h
    repeat' split at h
    all_goals cases h
    all_goals rfl

theorem dispatch_orderExec (hdc : d + c ≤ 1) (n : String) (b : OrderBeliefs) (s : OrderStmt)
    (x : OrderInput) :
    (dispatchWeight k d c).order.Outcome ((dispatchWeight k d c).orderCost n) n
      ((dispatchWeight k d c).order.stmt n s + (dispatchWeight k d c).orderGain n b s x)
      (OrderHolon.exec n b s x) := by
  cases s with
  | reserveTransport fromStation toStation o k' =>
    simp only [OrderHolon.exec, Weight.Outcome, Weight.body, dispatchWeight, orderCost,
      List.map_cons, List.map_nil, List.sum_cons, List.sum_nil]
    split <;> omega
  | findStaleWatchdogs =>
    have : ∀ l : List (OrderId × ℕ × String), (l.flatMap fun _ => [0, 0]).sum = 0 := by
      intro l
      induction l with
      | nil => rfl
      | cons w l ih => simpa using ih
    simpa [OrderHolon.exec, Weight.Outcome, Weight.body, dispatchWeight, List.map_flatMap]
      using this _
  | rejectLosers winner o =>
    simp [OrderHolon.exec, Weight.Outcome, Weight.body, dispatchWeight, Function.comp_def]
  | sendCallForProposal stations step o =>
    simp [OrderHolon.exec, Weight.Outcome, Weight.body, dispatchWeight, orderCost,
      Function.comp_def]
  | ifRemaining o step remaining =>
    cases remaining <;>
      simp [OrderHolon.exec, Weight.Outcome, Weight.body, dispatchWeight, orderCost]
  | achieve goal =>
    cases goal <;> simp [OrderHolon.exec, Weight.Outcome, dispatchWeight]
  | queryCurrentLocation o winner k' =>
    simp only [OrderHolon.exec]
    split
    · simp [Weight.Outcome, Weight.body, dispatchWeight]
    · exact Nat.zero_le _
  | setCnpWinner o winner step => simp [OrderHolon.exec, Weight.Outcome, Weight.body,
      dispatchWeight, orderCost]
  | _ =>
    simp only [OrderHolon.exec]
    repeat' split
    all_goals first | exact Nat.zero_le _ | trivial

theorem dispatch_stationExec (n : String) (b : StationBeliefs) (s : StationStmt)
    (x : StationInput) (m : ℕ) :
    (dispatchWeight k d c).station.Outcome ((dispatchWeight k d c).stationCost n) n m
      (ResourceHolon.exec n b s x) := by
  have hcost : ∀ acts : List StationAction,
      (acts.map ((dispatchWeight k d c).stationCost n)).sum = 0 := by
    intro acts
    rw [List.sum_eq_zero]
    intro a ha
    obtain ⟨act, _, rfl⟩ := List.mem_map.mp ha
    cases act <;> rfl
  cases h : ResourceHolon.exec n b s x with
  | next b' code acts =>
    rw [Weight.Outcome, hcost]
    simp [Weight.body, dispatchWeight]
  | subgoal g => exact Nat.zero_le _
  | drop goals => trivial
  | blocked => trivial
  | failed acts => exact (hcost acts).le.trans (Nat.zero_le _)

theorem dispatch_amrExec (n : String) (b : AmrBeliefs) (s : AmrStmt) (u : ℚ) :
    (dispatchWeight k d c).amr.Outcome ((dispatchWeight k d c).amrCost n) n
      ((dispatchWeight k d c).amr.stmt n s) (AmrAgent.exec n b s u) := by
  cases s with
  | achieve goal => cases goal <;> simp [AmrAgent.exec, Weight.Outcome, dispatchWeight]
  | _ =>
    simp only [AmrAgent.exec]
    (repeat' split) <;> simp [Weight.Outcome, Weight.body, dispatchWeight, amrCost]

/-- The weight of an attempt's dispatch passes along, when a job and its record weigh no more
than the order to dispatch it. -/
theorem dispatch_lawful (hdc : d + c ≤ 1) : (dispatchWeight k d c).Lawful where
  orderPlans := dispatch_orderPlans
  stationPlans := dispatch_stationPlans
  amrPlans := dispatch_amrPlans
  orderExec := dispatch_orderExec hdc
  stationExec n b s x _ := dispatch_stationExec n b s x _
  amrExec := dispatch_amrExec
  received m := by
    unfold received
    split <;> exact le_rfl
  supervisor _ _ := rfl
  timers _ := Nat.zero_le _
  orderEvents _ _ := rfl
  stationEvents _ _ _ := ⟨rfl, rfl⟩
  amrEvents _ _ _ := ⟨rfl, rfl⟩

theorem dispatch_reads (s : Shop) : (dispatchWeight k d c).Reads s :=
  fun _ _ _ _ _ _ _ _ _ _ => dispatch_stationExec _ _ _ _ _

/-- Only the choice of the winner of attempt `k` adds to the weight of its dispatch. -/
theorem dispatch_gain {s : Shop} {op : ShopOp} (hgain : (dispatchWeight k d c).gain s op ≠ 0) :
    (dispatchWeight k d c).gain s op = 1 ∧ s.attempts = k.number ∧
      (s.exec op).attempts = k.number + 1 := by
  cases op with
  | orderMove i x =>
    simp only [gain, headGain] at hgain ⊢
    cases hθ : s.orders.intentions[i]? with
    | none => simp [hθ] at hgain
    | some θ =>
      cases hhead : θ.head with
      | none => simp [hθ, hhead] at hgain
      | some st =>
        simp only [hθ, hhead, Option.map_some, Option.getD_some] at hgain ⊢
        cases st with
        | setCnpWinner o winner step =>
          by_cases hk : (s.orderInput θ x).attempt = k
          · have hnumber : s.attempts = k.number := congrArg Attempt.number hk
            refine ⟨?_, hnumber, ?_⟩
            · simp [dispatchWeight, hk]
            · rw [Shop.attempts_setCnpWinner hθ hhead, hnumber]
          · simp [dispatchWeight, hk] at hgain
        | _ => exact absurd rfl hgain
  | arrive j =>
    simp only [gain] at hgain
    cases hj : s.jobs[j]? <;> simp [hj, dispatchWeight] at hgain
  | finish j code summary =>
    simp only [gain] at hgain
    cases hj : s.runs[j]? <;> simp [hj, dispatchWeight] at hgain
  | _ => exact absurd rfl hgain

/-- An attempt's dispatch weighs one at most, and nothing before the attempt begins. -/
def DispatchedOnce (k : Attempt) (d c : ℕ) (s : Shop) : Prop :=
  (dispatchWeight k d c).total s ≤ 1 ∧
    (s.attempts ≤ k.number → (dispatchWeight k d c).total s = 0)

theorem dispatchedOnce_exec (hdc : d + c ≤ 1) (op : ShopOp) {s : Shop}
    (hs : DispatchedOnce k d c s) : DispatchedOnce k d c (s.exec op) := by
  obtain ⟨hone, hzero⟩ := hs
  have hle := exec_le (dispatch_lawful (k := k) hdc) op s (dispatch_reads s)
  have hmono := Shop.attempts_le op s
  by_cases hgain : (dispatchWeight k d c).gain s op = 0
  · refine ⟨by omega, fun h => ?_⟩
    have := hzero (by omega)
    omega
  · obtain ⟨hg, hs, hexec⟩ := dispatch_gain hgain
    have := hzero (by omega)
    refine ⟨by omega, fun h => ?_⟩
    omega

theorem dispatchedOnce_start (config : ShopConfig) :
    DispatchedOnce k d c (Shop.start config) := by
  have : (dispatchWeight k d c).total (Shop.start config) = 0 := by
    simp [total, Weight.total, Shop.start, dispatchWeight, Function.comp_def]
  exact ⟨by omega, fun _ => this⟩

/-- **An attempt commits one job at most, and its arrival is answered once at most.** -/
theorem dispatchedOnce_run (config : ShopConfig) (hdc : d + c ≤ 1) (ops : List ShopOp) :
    DispatchedOnce k d c (Runs.run Shop.exec ops (Shop.start config)) :=
  Runs.run_invariant (C := fun _ _ => True) (fun _ op hs _ => dispatchedOnce_exec hdc op hs)
    (dispatchedOnce_start config) (Runs.along_of_forall fun _ _ _ => trivial)

end ShopWeight

/-- The elements with a property, counted. -/
theorem length_filter_eq_sum {α : Type*} (q : α → Prop) [DecidablePred q] (l : List α) :
    (l.filter q).length = (l.map fun a => if q a then 1 else 0).sum := by
  induction l with
  | nil => rfl
  | cons a l ih =>
    by_cases ha : q a
    · rw [List.filter_cons_of_pos (by simpa using ha), List.length_cons, ih, List.map_cons,
        List.sum_cons, if_pos ha, Nat.add_comm]
    · rw [List.filter_cons_of_neg (by simpa using ha), ih, List.map_cons, List.sum_cons, if_neg ha,
        Nat.zero_add]

/-! ## The plans of an AMR agent -/

namespace AmrAgent

/-- The goals that plans of an AMR agent pursue. -/
def isGoal : AmrTrigger → Prop
  | .start | .notifyGridSaturation _ | .reinitializeSchema => True
  | _ => False

/-- The events and goals whose plans wait for a goal. -/
def isOuter : AmrTrigger → Prop
  | .transport _ _ _ _ | .told ⟨.resumeIntention, _⟩ _ | .schemaEpoch _
  | .reinitializeSchema => True
  | _ => False

/-- The plan a statement belongs to: an arrival is notified in its answer, and a transport is
cancelled in the answer to `abort_transport`. -/
def belongs (t : AmrTrigger) : AmrStmt → Prop
  | .achieve g => isGoal g ∧ isOuter t
  | .sendTransportDone _ o k => t = .amrArrived o k
  | .cancelTransport o k => ∃ sender, t = .told ⟨.abortTransport o, sender⟩ k
  | _ => True

/-- Every goal is one of the program, and every statement belongs to its plan. -/
def shape : Property String AmrBeliefs AmrTrigger AmrStmt where
  beliefs _ _ := True
  event _ _ := True
  goal _ t := isGoal t
  outer _ t := isOuter t
  stmt _ t s := belongs t s

theorem plan_shape (n : String) {b : AmrBeliefs} {t : AmrTrigger} {body : List AmrStmt}
    (h : plan n b t = some body) : ∀ s ∈ body, belongs t s := by
  cases t with
  | told m k =>
    obtain ⟨m, source⟩ := m
    cases m <;> simp only [plan] at h <;> (repeat' split at h) <;> cases h <;>
      simp [belongs, isGoal, isOuter]
  | _ =>
    simp only [plan] at h
    repeat' split at h
    all_goals cases h
    all_goals simp [belongs, isGoal, isOuter]

theorem plan_goal {t : AmrTrigger} (ht : isGoal t) (n : String) (b : AmrBeliefs) :
    plan n b t ≠ none := by
  cases t <;> simp [plan, isGoal] at ht ⊢

theorem exec_ne_failed (n : String) (b : AmrBeliefs) (s : AmrStmt) (u : ℚ)
    (acts : List AmrAction) : exec n b s u ≠ .failed acts := by
  cases s <;> simp [exec]

theorem exec_shape {n : String} {b : AmrBeliefs} {t : AmrTrigger} {s : AmrStmt} (hs : belongs t s)
    (u : ℚ) : shape.Outcome program (fun _ => True) n b t (exec n b s u) := by
  cases s with
  | achieve g => exact hs
  | dropIntention goals => trivial
  | getGridUtilization o =>
    refine ⟨trivial, ?_, by simp⟩
    split <;> simp [shape, belongs]
  | _ => exact ⟨trivial, by simp, by simp⟩

theorem plans_shape (n : String) (b : AmrBeliefs) : shape.Plans program n b where
  goal _ _ _ h := plan_shape n h
  goal_failed _ _ _ _ h := by cases h
  outer_failed _ _ _ _ h := by cases h

/-- Only dropping all intentions drops one with a single plan that is not for a transport. -/
theorem keeps_of_alone {θ θ' : Intention String AmrTrigger AmrStmt} {b : AmrBeliefs} {u : ℚ}
    {f : Frame AmrTrigger AmrStmt} (hpend : θ'.pending = none) (hframes : θ'.frames = [f])
    (htrigger : ∀ o x y z, f.trigger ≠ .transport o x y z)
    (hall : θ.head = some (.dropIntention .all) → θ'.owner ≠ θ.owner) :
    Population.keeps (program.move u b θ) θ' := by
  rw [Population.keeps, hpend, hframes, Program.move_owner]
  rcases program.move_drops u b θ with hd | ⟨stmt, hhead, hd⟩
  · simp [hd]
  · cases stmt with
    | dropIntention goals =>
      obtain hd : (program.move u b θ).drops = goals.goals := (Outcome.drop.inj hd).symm
      rw [hd]
      cases goals with
      | transport o =>
        have : AmrDrop.goals (.transport o) f.trigger = false := by
          cases hf : f.trigger with
          | transport o' x y z => exact absurd hf (htrigger o' x y z)
          | _ => cases o <;> rfl
        simp [this]
      | all => simp [hall hhead]
    | _ => simp [program, exec] at hd

end AmrAgent

namespace Shop

open AmrAgent

theorem amrs_shape_exec {op : ShopOp} {s : Shop} (hs : shape.All s.amrs) :
    shape.All (s.exec op).amrs := by
  refine amrs_rule (Q := shape.All) hs ?_ ?_ ?_ ?_
  · exact fun p n f _ hp => hp.believe trivial
  · exact fun p e _ hp => hp.post trivial
  · exact fun n _ => hs.select fun e _ body h => plan_shape n h
  · intro i u θ _ hθ
    exact (Property.apply_move hs hθ (plans_shape _ _) fun t st _ hst => exec_shape hst u).1

theorem amrs_shape_start (c : ShopConfig) : shape.All (Shop.start c).amrs :=
  ⟨fun _ => trivial, fun _ _ => trivial, by simp [Shop.start]⟩

/-- A plan for an arrival or an abort is alone in its intention. -/
theorem alone_of_shape {s : Shop} (hs : shape.All s.amrs)
    {θ : Intention String AmrTrigger AmrStmt} (hθ : θ ∈ s.amrs.intentions)
    {f : Frame AmrTrigger AmrStmt} (hf : f ∈ θ.frames) (hgoal : ¬ isGoal f.trigger)
    (houter : ¬ isOuter f.trigger) : θ.pending = none ∧ θ.frames = [f] := by
  obtain ⟨hframes, hpend⟩ := hs.intentions θ hθ
  have halone := hframes.alone hf hgoal houter
  refine ⟨?_, halone⟩
  cases hp : θ.pending with
  | none => rfl
  | some g =>
    obtain ⟨_, f', hf', ho⟩ := hpend g hp
    rw [halone] at hf'
    cases hf'
    exact absurd ho houter

end Shop

end MatrixFactory
