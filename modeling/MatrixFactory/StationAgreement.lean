/-
# The state of a station, kept twice

A resource holon believes in a `station_state`, and its artifact keeps a summary.  Every plan
that changes one changes the other, in two steps, so the two disagree while such a plan is
under way.  For a plan at work the question is whether carrying out the rest of it, from the
present belief and summary, ends in agreement; `restores` computes this from the agenda of its
intention.

A run of `processOrder` writes the summary when it ends, whatever has become of the intention
that called it.  The two agree between plans as long as no plan that changes the state begins
while another one, or the run that it waits for, is under way.
-/
import MatrixFactory.ShopRules
import MatrixFactory.StationArtifact
import MatrixFactory.Lib.Agenda
import MatrixFactory.Lib.Critical

namespace MatrixFactory

open AgentSpeak

/-! ## Agreement -/

/-- The summary that goes with a state. -/
def StationState.summary : StationState → StationSummary
  | .idle => .free
  | .provisionalLock o => .locked o
  | .busyProcessing o => .busy o
  | .offline => .off

/-- The belief and the summary agree. -/
def StationBeliefs.Agrees (b : StationBeliefs) : Prop :=
  ∀ state ∈ b.stationState, b.summary = state.summary

instance (b : StationBeliefs) : Decidable b.Agrees :=
  inferInstanceAs (Decidable (∀ state ∈ b.stationState, _))

/-- What the plans that change the state of a station look at. -/
structure StationView where
  state : Option StationState
  summary : StationSummary
  myName : Bool
  myStation : Bool
  deriving DecidableEq

/-- The view of a belief base. -/
def StationBeliefs.view (b : StationBeliefs) : StationView :=
  ⟨b.stationState, b.summary, b.myName, b.myStation⟩

namespace StationView

/-- The belief and the summary agree, and a station that is not offline knows which station it
is. -/
def Settled (v : StationView) : Prop :=
  ∀ state ∈ v.state, v.summary = state.summary ∧ (state ≠ .offline → v.myStation)

/-- After the start plan. -/
def started : StationView := ⟨some .idle, .free, true, true⟩

theorem settled_started : started.Settled := by
  intro state hstate
  obtain rfl := Option.some_inj.mp hstate
  exact ⟨rfl, fun _ => rfl⟩

theorem settled_of {v : StationView} {state : StationState} (hstate : v.state = some state)
    (hsummary : v.summary = state.summary) (hstation : state ≠ .offline → v.myStation) :
    v.Settled := by
  intro state' hstate'
  obtain rfl := Option.some_inj.mp (hstate.symm.trans hstate')
  exact ⟨hsummary, hstation⟩

/-- The artifact is released if the station is locked or busy. -/
def vacated (v : StationView) : StationView :=
  match v.state with
  | some (.busyProcessing _) | some (.provisionalLock _) => { v with summary := .free }
  | _ => v

end StationView

namespace ResourceHolon

/-! ## The plans that change the state -/

/-- What belongs to a change of the state, from the plan that begins it to the last statement
that has to do with it. -/
def changes : Critical StationTrigger StationStmt where
  goal
    | .reportDefect _ => false
    | _ => true
  stmt
    | .achieve (.reportDefect _) => false
    | .achieve _ | .addMyName | .queryMyName | .addMyStation | .setStationState _
    | .queryProcessingCost _ _ _ | .claimStation _ | .releaseStation _ | .setStationOffline
    | .ifProvisionalLock _ | .delActiveOrder _ _ _ | .processOrder _ _ _ | .awaitResult _ _ _ _
    | .ifOccupied | .queryStationState | .dropIntention _ => true
    | _ => false

/-- An item of an agenda. -/
abbrev Item := StationTrigger ⊕ StationStmt

/-- Pursuing the goal, and then `rest`, ends in agreement. -/
def pursues (last : Prop) (rest : StationView → Prop) (v : StationView) : StationTrigger → Prop
  | .start => rest .started
  | .reinitializeSchema => if v.myName ∧ v.state.isSome then rest .started else v.Settled
  | .executePhysicalOperation o =>
    v.state = some (.busyProcessing o) ∧ v.summary = .locked o ∧ v.myStation ∧ last
  | .reportDefect _ => rest v
  | _ => False

/-- Executing the statement, and then `rest`, ends in agreement. -/
def performs (last : Prop) (rest : StationView → Prop) (v : StationView) : StationStmt → Prop
  | .achieve g => pursues last rest v g
  | .addMyName => rest { v with myName := true }
  | .queryMyName => if v.myName then rest v else v.Settled
  | .addMyStation => rest { v with myStation := true }
  | .setStationState state => rest { v with state := some state }
  | .queryProcessingCost o _ _ | .claimStation o =>
    v.summary.state = .idle ∧ rest { v with summary := .locked o }
  | .releaseStation _ => rest { v with summary := .free }
  | .setStationOffline => rest { v with summary := .off }
  | .ifOccupied => rest v.vacated
  | .queryStationState => if v.myName ∧ v.state.isSome then rest v.vacated else v.Settled
  | .processOrder o _ _ =>
    v.state = some (.busyProcessing o) ∧ v.summary = .locked o ∧ v.myStation ∧ last
  | .ifProvisionalLock _ | .awaitResult _ _ _ _ => False
  | _ => rest v

/-- Carrying out an agenda that calls no artifact and waits for none ends in agreement. -/
def restores : List Item → StationView → Prop
  | [], v => v.Settled
  | .inl g :: rest, v => pursues (rest = []) (restores rest) v g
  | .inr s :: rest, v => performs (rest = []) (restores rest) v s

@[simp] theorem restores_nil (v : StationView) : restores [] v = v.Settled := rfl

@[simp] theorem restores_goal (g : StationTrigger) (rest : List Item) (v : StationView) :
    restores (.inl g :: rest) v = pursues (rest = []) (restores rest) v g := rfl

@[simp] theorem restores_stmt (s : StationStmt) (rest : List Item) (v : StationView) :
    restores (.inr s :: rest) v = performs (rest = []) (restores rest) v s := rfl

/-- An agenda that has nothing to do with the state leaves it. -/
theorem restores_outside {l : List Item} (hgoal : ∀ g, .inl g ∈ l → changes.goal g = false)
    (hstmt : ∀ s, .inr s ∈ l → changes.stmt s = false) (v : StationView) :
    restores l v = v.Settled := by
  induction l with
  | nil => rfl
  | cons item l ih =>
    have hrest := ih (fun g hg => hgoal g (List.mem_cons_of_mem _ hg))
      (fun s hs => hstmt s (List.mem_cons_of_mem _ hs))
    cases item with
    | inl g =>
      have hg := hgoal g List.mem_cons_self
      cases g <;> first | exact hrest | cases hg
    | inr s =>
      have hs := hstmt s List.mem_cons_self
      cases s with
      | achieve g => cases g <;> first | exact hrest | cases hs
      | _ => first | exact hrest | cases hs

/-- The goal is, or the statement pursues, the operation on the order. -/
def operates (o : OrderId) : Item → Bool
  | .inl (.executePhysicalOperation o') => o' = o
  | .inr (.achieve (.executePhysicalOperation o')) => o' = o
  | _ => false

/-- The run of `processOrder` that an agenda waits for. -/
def awaited : List Item → Option (ℕ × OrderId)
  | .inr (.awaitResult run o _ _) :: _ => some (run, o)
  | _ => none

/-! ## Moves of a plan that changes the state -/

section

variable {me : String} {b : StationBeliefs} {x : StationInput} {rest : List Item}

/-- Answering a goal leaves what the agenda restores. -/
theorem restores_goal_advance {g : StationTrigger} (h : restores (.inl g :: rest) b.view)
    (hactive : ∀ o, operates o (.inl g) → (valueFor o b.activeOrder).isSome) :
    restores (program.advance x me b (.inl g :: rest)) b.view := by
  cases g with
  | start => exact h
  | executePhysicalOperation o =>
    obtain ⟨hstate, hsummary, hstation, hlast⟩ := h
    obtain ⟨a, ha⟩ := Option.isSome_iff_exists.mp (hactive o (by simp [operates]))
    have hplan : program.plan me b (.executePhysicalOperation o)
        = some [.processOrder o a.1 a.2] := by
      simp only [program, plan]
      rw [if_pos ⟨hstate, hstation⟩, ha]
      rfl
    rw [Program.advance, hplan]
    exact ⟨hstate, hsummary, hstation, hlast⟩
  | reportDefect o => exact h
  | reinitializeSchema =>
    -- the plan drops all intentions, releases the station and pursues `start`
    simp only [restores_goal, pursues] at h
    have hquery : restores (.inr .queryStationState :: .inr (.setStationState .idle) ::
        .inr (.achieve .start) :: rest) b.view := by
      rw [restores_stmt, performs]
      split
      · next hc =>
        rw [if_pos hc] at h
        exact h
      · next hc =>
        rw [if_neg hc] at h
        exact h
    exact hquery
  | _ => exact h.elim

/-- Executing a statement other than `processOrder` leaves what the agenda restores. -/
theorem restores_stmt_advance {s : StationStmt} (h : restores (.inr s :: rest) b.view)
    (hs : ∀ o holon step, s ≠ .processOrder o holon step) :
    restores (program.advance x me b (.inr s :: rest))
      (program.effect x me b (.inr s :: rest)).1.view := by
  cases s with
  | processOrder o holon step => exact absurd rfl (hs o holon step)
  | awaitResult run o holon step => exact h.elim
  | ifProvisionalLock o => exact h.elim
  | queryMyName =>
    simp only [restores_stmt, performs] at h
    simp only [Program.advance, Program.effect, program, exec]
    cases hb : b.myName with
    | true =>
      rw [if_pos (by simpa [StationBeliefs.view] using hb)] at h
      exact h
    | false =>
      rw [if_neg (by simpa [StationBeliefs.view] using hb)] at h
      exact h
  | claimStation o =>
    obtain ⟨hidle, hrest⟩ := h
    have he : program.exec me b (.claimStation o) x
        = .next { b with summary := ⟨.provisionalLock, some o⟩ } [] [] := if_pos hidle
    simp only [Program.advance, Program.effect, he]
    exact hrest
  | ifOccupied =>
    obtain ⟨_, _, _, _, _, state, _, _, _, _, _⟩ := b
    rcases state with _ | _ | _ | _ | _ <;> exact h
  | queryStationState =>
    obtain ⟨_, _, myName, _, _, state, _, _, _, _, _⟩ := b
    simp only [restores_stmt, performs] at h
    cases myName with
    | false =>
      rw [if_neg (by simp [StationBeliefs.view])] at h
      exact h
    | true =>
      rcases state with _ | _ | _ | _ | _
      · rw [if_neg (by simp [StationBeliefs.view])] at h
        exact h
      all_goals
        rw [if_pos (by simp [StationBeliefs.view])] at h
        exact h
  | ifTestHookBlockAck =>
    simp only [Program.advance, Program.effect, program, exec]
    split <;> exact h
  | _ => exact h

/-- `processOrder` starts a run. -/
theorem processOrder_advance (me : String) (x : StationInput) {o : OrderId} {holon : String}
    {step : ℕ} (h : restores (.inr (.processOrder o holon step) :: rest) b.view) :
    rest = [] ∧ b.stationState = some (.busyProcessing o) ∧ b.myStation ∧
      program.exec me b (.processOrder o holon step) x
        = .next { b with summary := .busy o } [.awaitResult x.run o holon step]
            [.processOrder o, .startRun x.run o] := by
  obtain ⟨hstate, hsummary, hstation, hlast⟩ := h
  exact ⟨hlast, hstate, hstation, if_pos hsummary⟩

/-- The result of a run ends the operation. -/
theorem restores_result (me : String) (run : ℕ) (o : OrderId) (holon : String) (step : ℕ)
    {code : ResultCode} (hx : x.result = some code) (hstation : b.myStation)
    (hok : code.Leaves b.summary) :
    restores (program.advance x me b [.inr (.awaitResult run o holon step)]) b.view ∧
      program.effect x me b [.inr (.awaitResult run o holon step)] = (b, [.readResult run]) := by
  have hsettled : ∀ summary, summary = StationSummary.free →
      StationView.Settled ⟨some .idle, summary, b.myName, b.myStation⟩ := by
    rintro summary rfl state hstate
    obtain rfl := Option.some_inj.mp hstate
    exact ⟨rfl, fun _ => hstation⟩
  simp only [Program.advance, Program.effect, program, exec, hx]
  cases code with
  | ok => exact ⟨hsettled _ (hok rfl), rfl⟩
  | defect => exact ⟨hsettled _ rfl, rfl⟩

/-- The action starts a run of `processOrder` or reads its result. -/
def ofRun : StationAction → Bool
  | .startRun _ _ | .readResult _ => true
  | _ => false

/-- The item forgets for which holon and step an order is active. -/
def forgets : Item → Bool
  | .inr (.delActiveOrder _ _ _) => true
  | _ => false

/-- The statement begins an operation, or forgets an order. -/
def handles : StationStmt → Bool
  | .achieve (.executePhysicalOperation _) | .delActiveOrder _ _ _ => true
  | _ => false

theorem valueFor_addBelief {o : OrderId} {a : OrderId × String × ℕ}
    {l : List (OrderId × String × ℕ)} (h : (valueFor o l).isSome) :
    (valueFor o (addBelief a l)).isSome := by
  unfold addBelief
  split
  · exact h
  · unfold valueFor at h ⊢
    rw [List.find?_cons]
    split
    · rfl
    · exact h

/-- What a statement comes to that has nothing to do with runs: no action on one, no statement
that begins an operation, and it keeps the active orders. -/
def Tame (b : StationBeliefs) (s : StationStmt) :
    Outcome StationBeliefs StationTrigger StationStmt StationAction → Prop
  | .next b' code acts => acts.any ofRun = false ∧ code.any handles = false ∧
      (forgets (.inr s) = false → ∀ o, (valueFor o b.activeOrder).isSome →
        (valueFor o b'.activeOrder).isSome)
  | .subgoal g => s = .achieve g
  | .drop _ => True
  | .blocked => True
  | .failed acts => acts = []

/-- Every statement but `processOrder` and the wait for its result is tame. -/
theorem exec_tame (me : String) (b : StationBeliefs) (x : StationInput) {s : StationStmt}
    (hs : ∀ o holon step, s ≠ .processOrder o holon step)
    (hw : ∀ run o holon step, s ≠ .awaitResult run o holon step) :
    Tame b s (exec me b s x) := by
  cases s with
  | processOrder o holon step => exact absurd rfl (hs o holon step)
  | awaitResult run o holon step => exact absurd rfl (hw run o holon step)
  | achieve g => rfl
  | addActiveOrder o holon step => exact ⟨rfl, rfl, fun _ _ h => valueFor_addBelief h⟩
  | delActiveOrder o holon step => exact ⟨rfl, rfl, fun h => by cases h⟩
  | releaseStation o => cases o <;> exact ⟨rfl, rfl, fun _ _ h => h⟩
  | ifTestHookBlockAck =>
    dsimp only [exec]
    cases b.testHookBlockAck <;> exact ⟨rfl, rfl, fun _ _ h => h⟩
  | _ =>
    dsimp only [exec]
    (repeat' split) <;> first
      | exact ⟨rfl, rfl, fun _ _ h => h⟩
      | exact trivial
      | rfl

/-- A statement other than `processOrder` and the wait for its result has nothing to do with
runs. -/
theorem effect_ofRun (rest : List Item) {s : StationStmt}
    (hs : ∀ o holon step, s ≠ .processOrder o holon step)
    (hw : ∀ run o holon step, s ≠ .awaitResult run o holon step) :
    (program.effect x me b (.inr s :: rest)).2.any ofRun = false := by
  have htame := exec_tame me b x hs hw
  simp only [Program.effect, program]
  revert htame
  cases exec me b s x with
  | next b' code acts => exact fun h => h.1
  | failed acts =>
    rintro rfl
    rfl
  | _ => exact fun _ => rfl

/-- An order whose operation is ahead is active, and nothing ahead forgets it. -/
def Operable (b : StationBeliefs) (l : List Item) : Prop :=
  ∀ o, l.any (operates o) → (valueFor o b.activeOrder).isSome ∧ l.any forgets = false

theorem not_handles {code : List StationStmt} (h : code.any handles = false) (o : OrderId) :
    (code.map Sum.inr).any (operates o) = false ∧ (code.map Sum.inr).any forgets = false := by
  rw [List.any_eq_false] at h
  constructor
  · rw [List.any_map, List.any_eq_false]
    intro s hs hop
    cases s with
    | achieve g => cases g <;> first | exact h _ hs rfl | cases hop
    | _ => cases hop
  · rw [List.any_map, List.any_eq_false]
    intro s hs hop
    cases s <;> first | exact h _ hs rfl | cases hop

/-- The orders of the operations ahead stay active when the item at the head gives way to code
that has nothing to do with them. -/
theorem Operable.replace {item : Item} {b' : StationBeliefs} {code : List StationStmt}
    (h : Operable b (item :: rest)) (hcode : code.any handles = false)
    (hb : forgets item = false → ∀ o, (valueFor o b.activeOrder).isSome →
      (valueFor o b'.activeOrder).isSome) : Operable b' (code.map Sum.inr ++ rest) := by
  intro o ho
  obtain ⟨hoperates, hforgets⟩ := not_handles hcode o
  rw [List.any_append, hoperates, Bool.false_or] at ho
  obtain ⟨hactive, hnone⟩ := h o (by rw [List.any_cons, ho, Bool.or_true])
  rw [List.any_cons, Bool.or_eq_false_iff] at hnone
  rw [List.any_append, hforgets]
  exact ⟨hb hnone.1 o hactive, hnone.2⟩

/-- Answering a goal leaves the orders of the operations ahead active. -/
theorem operable_goal {g : StationTrigger} (hr : restores (.inl g :: rest) b.view)
    (h : Operable b (.inl g :: rest)) : Operable b (program.advance x me b (.inl g :: rest)) := by
  rw [Program.advance]
  cases hbody : program.plan me b g with
  | none =>
    intro o ho
    cases ho
  | some body =>
    refine h.replace ?_ fun _ _ h => h
    cases g with
    | start =>
      cases hbody
      rfl
    | executePhysicalOperation o =>
      simp only [program, plan] at hbody
      split at hbody
      · obtain ⟨a, -, rfl⟩ := Option.map_eq_some_iff.mp hbody
        rfl
      · cases hbody
    | reportDefect o =>
      cases hbody
      rfl
    | reinitializeSchema =>
      cases hbody
      rfl
    | _ => exact hr.elim

/-- Executing a statement leaves the orders of the operations ahead active. -/
theorem operable_stmt {s : StationStmt} (h : Operable b (.inr s :: rest))
    (hs : ∀ o holon step, s ≠ .processOrder o holon step)
    (hw : ∀ run o holon step, s ≠ .awaitResult run o holon step) :
    Operable (program.effect x me b (.inr s :: rest)).1
      (program.advance x me b (.inr s :: rest)) := by
  have htame := exec_tame me b x hs hw
  have hempty : ∀ b, Operable b [] := fun b o ho => by cases ho
  simp only [Program.effect, Program.advance, program]
  revert htame
  cases exec me b s x with
  | next b' code acts => exact fun htame => h.replace htame.2.1 htame.2.2
  | subgoal g =>
    rintro rfl
    intro o ho
    have := h o
    cases g <;> simp_all [operates, forgets]
  | drop goals =>
    intro _
    show Operable b (([] : List StationStmt).map Sum.inr ++ rest)
    exact h.replace rfl fun _ _ h => h
  | blocked => exact fun _ => h
  | failed acts => exact fun _ => hempty b

/-! ## Intentions that change the state -/

/-- The statements of the plan that answers a call for proposals with a bid. -/
def ofBid : StationStmt → Bool
  | .setStationState _ | .queryProcessingCost _ _ _ | .claimStation _ | .sendPropose _ _ _
  | .ifTestHookTtl _ | .startTimer _ _ => true
  | _ => false

/-- What does not belong to a bid. -/
def otherThanBid : Critical StationTrigger StationStmt where
  goal _ := true
  stmt s := !ofBid s

/-- The intention makes a bid, or its plans have no failure plan. -/
def Sound (θ : Intention String StationTrigger StationStmt) : Prop :=
  (∀ f ∈ θ.frames, program.recover f.trigger = none) ∨ otherThanBid.holds θ = false

/-- The intention is at work: carrying out the rest of it ends in agreement. -/
structure Working (b : StationBeliefs) (θ : Intention String StationTrigger StationStmt) :
    Prop where
  settled : θ.Settled
  sound : Sound θ
  restores : ResourceHolon.restores θ.agenda b.view
  operable : Operable b θ.agenda

/-- The intention waits for a run of `processOrder`. -/
structure Awaiting (b : StationBeliefs) (run : ℕ) (o : OrderId)
    (θ : Intention String StationTrigger StationStmt) : Prop where
  settled : θ.Settled
  triggers : ∀ f ∈ θ.frames, program.recover f.trigger = none
  agenda : ∃ holon step, θ.agenda = [.inr (.awaitResult run o holon step)]
  busy : b.stationState = some (.busyProcessing o)
  station : b.myStation

/-- A goal that an agenda pursues has no failure plan. -/
theorem recover_of_restores {g : StationTrigger} {v : StationView}
    (h : restores (.inl g :: rest) v) : program.recover g = none := by
  cases g <;> first | rfl | exact False.elim h

section

variable {θ : Intention String StationTrigger StationStmt}

theorem agenda_of_pending {g : StationTrigger} (h : θ.pending = some g) :
    ∃ rest, θ.agenda = .inl g :: rest := by
  rw [Intention.agenda, h]
  exact ⟨_, rfl⟩

/-- The rules for the agenda of an intention at work. -/
theorem Working.move_agenda (h : Working b θ) (x : StationInput) :
    (program.move x b θ).intention.Settled ∧
      (program.move x b θ).intention.agenda = program.advance x θ.owner b θ.agenda ∧
      ((program.move x b θ).beliefs, (program.move x b θ).actions)
        = program.effect x θ.owner b θ.agenda := by
  refine program.move_agenda_of h.settled (fun g hg _ => ?_) fun s hs acts he => ?_
  · obtain ⟨rest, hagenda⟩ := agenda_of_pending hg
    have hr := h.restores
    rw [hagenda] at hr
    refine ⟨recover_of_restores hr, fun f hf => ?_⟩
    rcases h.sound with hrecover | hbid
    · exact hrecover f hf
    · cases (Critical.not_holds_iff.mp hbid).1 g hg
  · intro f hf
    rcases h.sound with hrecover | hbid
    · exact hrecover f hf
    · -- a statement of a bid that fails would be a claim, and the station is free
      exfalso
      obtain ⟨rest, hagenda⟩ := Program.agenda_of_head hs
      have hr := h.restores
      rw [hagenda] at hr
      obtain ⟨f, hf, hmem⟩ := Critical.mem_of_head hs
      have hs' := (Critical.not_holds_iff.mp hbid).2 f hf s hmem
      cases s with
      | claimStation o =>
        rw [show program.exec θ.owner b (.claimStation o) x = _ from if_pos hr.1] at he
        cases he
      | _ => first | cases he | cases hs'

/-- A move leaves an intention sound. -/
theorem Working.move_sound (h : Working b θ) (x : StationInput) :
    Sound (program.move x b θ).intention := by
  rcases h.sound with hrecover | hbid
  · refine Or.inl (program.move_triggers (fun g hg => ?_) hrecover fun _ ht => ht)
    obtain ⟨rest, hagenda⟩ := agenda_of_pending hg
    have hr := h.restores
    rw [hagenda] at hr
    exact recover_of_restores hr
  · have hpending := (Critical.not_holds_iff.mp hbid).1
    refine Or.inr (Critical.not_holds_move hbid (fun g hg => ?_) (fun g hg => ?_) fun s hs => ?_)
    · cases hpending g hg
    · cases hpending g hg
    · obtain ⟨f, hf, hmem⟩ := Critical.mem_of_head hs
      have hs' := (Critical.not_holds_iff.mp hbid).2 f hf s hmem
      cases s with
      | claimStation o =>
        obtain ⟨rest, hagenda⟩ := Program.agenda_of_head hs
        have hr := h.restores
        rw [hagenda] at hr
        rw [show program.exec θ.owner b (.claimStation o) x = _ from if_pos hr.1]
        exact Critical.outside_of_any rfl
      | _ => first | exact Critical.outside_of_any rfl | cases hs'

/-- **A move of an intention at work** starts the run of an operation, or leaves it at work. -/
theorem Working.move (h : Working b θ) (x : StationInput) :
    (∃ o, Awaiting (program.move x b θ).beliefs x.run o (program.move x b θ).intention ∧
        (program.move x b θ).beliefs = { b with summary := .busy o } ∧
        (program.move x b θ).actions = [.processOrder o, .startRun x.run o]) ∨
      (Working (program.move x b θ).beliefs (program.move x b θ).intention ∧
        (program.move x b θ).actions.any ofRun = false) := by
  obtain ⟨hsettled, hadvance, heffect⟩ := h.move_agenda x
  have hbeliefs := (Prod.mk.inj heffect).1
  have hactions := (Prod.mk.inj heffect).2
  have hsound := h.move_sound x
  have hr := h.restores
  have hop := h.operable
  cases hagenda : θ.agenda with
  | nil =>
    rw [hagenda] at hadvance hbeliefs hactions hr
    right
    refine ⟨⟨hsettled, hsound, ?_, ?_⟩, by rw [hactions]; rfl⟩
    · rw [hadvance, hbeliefs]
      exact hr
    · rw [hadvance]
      exact fun o ho => by cases ho
  | cons item rest =>
    rw [hagenda] at hadvance hbeliefs hactions hr hop
    cases item with
    | inl g =>
      right
      have hb : (program.move x b θ).beliefs = b := hbeliefs
      refine ⟨⟨hsettled, hsound, ?_, ?_⟩, by rw [hactions]; rfl⟩
      · rw [hadvance, hb]
        refine restores_goal_advance hr fun o ho => (hop o ?_).1
        rw [List.any_cons, ho, Bool.true_or]
      · rw [hadvance, hb]
        exact operable_goal hr hop
    | inr s =>
      by_cases hs : ∃ o holon step, s = .processOrder o holon step
      · obtain ⟨o, holon, step, rfl⟩ := hs
        obtain ⟨rfl, hstate, hstation, he⟩ := processOrder_advance θ.owner x hr
        simp only [Program.advance, he] at hadvance hbeliefs hactions
        refine Or.inl ⟨o, ⟨hsettled, ?_, ⟨holon, step, hadvance⟩, ?_, ?_⟩, hbeliefs, hactions⟩
        · rcases hsound with hrecover | hbid
          · exact hrecover
          · -- the wait for the result belongs to no bid
            have hmem : .inr (.awaitResult x.run o holon step)
                ∈ (program.move x b θ).intention.agenda := by
              rw [hadvance]
              exact List.mem_cons_self
            obtain ⟨f, hf, hs⟩ := mem_agenda_stmt.mp hmem
            cases (Critical.not_holds_iff.mp hbid).2 f hf _ hs
        · rw [hbeliefs]
          exact hstate
        · rw [hbeliefs]
          exact hstation
      · have hno : ∀ o holon step, s ≠ .processOrder o holon step := fun o holon step heq =>
          hs ⟨o, holon, step, heq⟩
        have hwait : ∀ run o holon step, s ≠ .awaitResult run o holon step := by
          rintro run o holon step rfl
          exact hr
        right
        refine ⟨⟨hsettled, hsound, ?_, ?_⟩, ?_⟩
        · rw [hadvance, hbeliefs]
          exact restores_stmt_advance hr hno
        · rw [hadvance, hbeliefs]
          exact operable_stmt hop hno hwait
        · rw [hactions]
          exact effect_ofRun rest hno hwait

/-- An intention that waits for a run has nothing to do until the run has a result. -/
theorem Awaiting.head {run : ℕ} {o : OrderId} (h : Awaiting b run o θ) :
    ∃ holon step, θ.head = some (.awaitResult run o holon step) := by
  obtain ⟨holon, step, hagenda⟩ := h.agenda
  exact ⟨holon, step, Program.head_of_agenda h.settled hagenda⟩

theorem Awaiting.move_none {run : ℕ} {o : OrderId} (h : Awaiting b run o θ)
    (hx : x.result = none) :
    program.move x b θ = { beliefs := b, intention := θ } := by
  obtain ⟨holon, step, hhead⟩ := h.head
  have he : program.exec θ.owner b (.awaitResult run o holon step) x = .blocked := by
    simp only [program, exec, hx]
  unfold Intention.head at hhead
  split at hhead
  · next t s body frames hp hf =>
    obtain rfl := Option.some_inj.mp hhead
    rw [Program.move, hp]
    dsimp only
    rw [hf]
    dsimp only
    rw [he]
  · cases hhead

/-- The result of the run puts the intention to work. -/
theorem Awaiting.move_some {run : ℕ} {o : OrderId} {code : ResultCode} (h : Awaiting b run o θ)
    (hx : x.result = some code) (hok : code.Leaves b.summary) :
    Working (program.move x b θ).beliefs (program.move x b θ).intention ∧
      (program.move x b θ).beliefs = b ∧ (program.move x b θ).actions = [.readResult run] := by
  obtain ⟨holon, step, hagenda⟩ := h.agenda
  have hpending : ∀ g, g ∉ θ.pending := fun g hg => by
    have := mem_agenda_goal.mpr hg
    rw [hagenda] at this
    simp at this
  obtain ⟨hsettled, hadvance, heffect⟩ := program.move_agenda_of (x := x) (b := b) h.settled
    (fun g hg => absurd hg (hpending g)) fun _ _ _ _ => h.triggers
  rw [hagenda] at hadvance heffect
  obtain ⟨hrestores, heffect'⟩ := restores_result θ.owner run o holon step hx
    h.station hok
  rw [heffect'] at heffect
  have hbeliefs := (Prod.mk.inj heffect).1
  refine ⟨⟨hsettled, Or.inl ?_, ?_, ?_⟩, hbeliefs, (Prod.mk.inj heffect).2⟩
  · exact program.move_triggers (fun g hg => absurd hg (hpending g)) h.triggers fun _ ht => ht
  · rw [hadvance, hbeliefs]
    exact hrestores
  · rw [hadvance, hbeliefs]
    intro o' ho'
    exfalso
    revert ho'
    simp only [Program.advance, program, exec, hx]
    cases code <;> simp [operates]

end

/-! ## Intentions that do not change the state -/

/-- A statement outside the changes keeps what they look at. -/
theorem exec_outside (me : String) (b : StationBeliefs) (x : StationInput) {s : StationStmt}
    (hs : changes.stmt s = false) :
    (∃ b' code acts, exec me b s x = .next b' code acts ∧ b'.view = b.view ∧
        code.any changes.stmt = false) ∨
      ∃ o, s = .achieve (.reportDefect o) := by
  cases s with
  | achieve g => cases g <;> first | exact Or.inr ⟨_, rfl⟩ | cases hs
  | ifTestHookBlockAck =>
    refine Or.inl ⟨_, _, _, rfl, rfl, ?_⟩
    cases b.testHookBlockAck <;> rfl
  | _ => first | exact Or.inl ⟨_, _, _, rfl, rfl, rfl⟩ | cases hs

/-- **A move outside the changes** keeps what they look at, and stays outside. -/
theorem outside_move {θ : Intention String StationTrigger StationStmt}
    (hθ : changes.holds θ = false) (b : StationBeliefs) (x : StationInput) :
    changes.holds (program.move x b θ).intention = false ∧
      (program.move x b θ).beliefs.view = b.view ∧
      (∀ o, (valueFor o b.activeOrder).isSome →
        (valueFor o (program.move x b θ).beliefs.activeOrder).isSome) ∧
      (program.move x b θ).actions.any ofRun = false ∧
      (program.move x b θ).drops = fun _ => false := by
  obtain ⟨hpending, hframes⟩ := Critical.not_holds_iff.mp hθ
  have hhead : ∀ s, θ.head = some s → changes.stmt s = false := fun s hs => by
    obtain ⟨f, hf, hmem⟩ := Critical.mem_of_head hs
    exact hframes f hf s hmem
  have htame : ∀ s, θ.head = some s → Tame b s (program.exec θ.owner b s x) := fun s hs =>
    exec_tame θ.owner b x (by rintro o holon step rfl; cases hhead _ hs)
      (by rintro run o holon step rfl; cases hhead _ hs)
  refine ⟨?_, ?_⟩
  · refine Critical.not_holds_move hθ (fun g hg body hbody => ?_) (fun g hg hnone => ?_)
      fun s hs => ?_
    · cases g with
      | reportDefect o =>
        cases hbody
        simp
      | _ => cases hpending _ hg
    · cases g with
      | reportDefect o => cases hnone
      | _ => cases hpending _ hg
    · rcases exec_outside θ.owner b x (hhead s hs) with ⟨b', code, acts, he, -, hcode⟩ | ⟨o, rfl⟩
      · rw [show program.exec θ.owner b s x = _ from he]
        exact Critical.outside_of_any hcode
      · rfl
  · have hdrops : (program.move x b θ).drops = fun _ => false := by
      rcases program.move_drops x b θ with hd | ⟨s, hs, he⟩
      · exact hd
      · rcases exec_outside θ.owner b x (hhead s hs) with ⟨b', code, acts, he', -⟩ | ⟨o, rfl⟩
        · rw [show program.exec θ.owner b s x = _ from he'] at he
          cases he
        · cases he
    rcases program.move_effect x b θ with ⟨hb, ha⟩ | ⟨s, hs, ⟨code, he⟩ | ⟨hb, he⟩⟩
    · rw [hb, ha]
      exact ⟨rfl, fun _ h => h, rfl, hdrops⟩
    · have ht := htame s hs
      rw [he] at ht
      rcases exec_outside θ.owner b x (hhead s hs) with ⟨b', code', acts, he', hview, -⟩ | ⟨o, rfl⟩
      · rw [show program.exec θ.owner b s x = _ from he'] at he
        cases he
        refine ⟨hview, ht.2.2 ?_, ht.1, hdrops⟩
        have hc := hhead s hs
        cases s <;> first | rfl | cases hc
      · cases he
    · have ht := htame s hs
      rw [he] at ht
      rw [hb, show (program.move x b θ).actions = [] from ht]
      exact ⟨rfl, fun _ h => h, rfl, hdrops⟩

/-- A change does not depend on what such a move may alter. -/
theorem Working.congr {θ : Intention String StationTrigger StationStmt} {b' : StationBeliefs}
    (h : Working b θ) (hview : b'.view = b.view)
    (hactive : ∀ o, (valueFor o b.activeOrder).isSome → (valueFor o b'.activeOrder).isSome) :
    Working b' θ where
  settled := h.settled
  sound := h.sound
  restores := by
    rw [hview]
    exact h.restores
  operable o ho := ⟨hactive o (h.operable o ho).1, (h.operable o ho).2⟩

theorem Awaiting.congr {θ : Intention String StationTrigger StationStmt} {b' : StationBeliefs}
    {run : ℕ} {o : OrderId} (h : Awaiting b run o θ) (hstate : b'.stationState = b.stationState)
    (hstation : b'.myStation = b.myStation) : Awaiting b' run o θ where
  settled := h.settled
  triggers := h.triggers
  agenda := h.agenda
  busy := by
    rw [hstate]
    exact h.busy
  station := by
    rw [hstation]
    exact h.station

/-! ## Plans that begin a change -/

theorem operable_of_not_handles {code : List StationStmt} (h : code.any handles = false) :
    Operable b (code.map Sum.inr) := by
  intro o ho
  rw [(not_handles h o).1] at ho
  cases ho

/-- A plan that begins a change, where belief and summary agree, ends in agreement. -/
theorem plan_restores {t : StationTrigger} {body : List StationStmt} (ht : raised t)
    (hb : b.view.Settled) (hplan : plan me b t = some body) (hch : body.any changes.stmt) :
    restores (body.map Sum.inr) b.view ∧ Operable b (body.map Sum.inr) ∧
      (program.recover t = none ∨ ∀ s ∈ body, ofBid s) := by
  have hlocked : ∀ {o}, b.stationState = some (.provisionalLock o) →
      b.summary = .locked o ∧ b.myStation := fun hstate =>
    ⟨(hb _ hstate).1, (hb _ hstate).2 (by simp)⟩
  -- a plan that reverts the lock leaves the station idle
  have hidle : ∀ {o}, b.stationState = some (.provisionalLock o) →
      StationView.Settled ⟨some .idle, .free, b.myName, b.myStation⟩ := fun hstate =>
    StationView.settled_of rfl rfl fun _ => (hlocked hstate).2
  cases t with
  | start =>
    cases hplan
    exact ⟨StationView.settled_started, operable_of_not_handles rfl, Or.inl rfl⟩
  | callForProposal step stations o sender k =>
    simp only [plan] at hplan
    split at hplan
    · next hc =>
      cases hplan
      obtain ⟨hsummary, hstation⟩ := hb _ hc.2.2.1
      have hfree : b.summary.state = .idle := congrArg StationSummary.state hsummary
      refine ⟨⟨hfree, ?_⟩, operable_of_not_handles rfl, Or.inr (by simp [ofBid])⟩
      exact StationView.settled_of rfl rfl fun _ => hstation (by simp)
    · split at hplan
      · cases hplan
        cases hch
      · split at hplan
        · cases hplan
          cases hch
        · cases hplan
  | timerExpired o =>
    simp only [plan] at hplan
    split at hplan
    · next hc =>
      cases hplan
      exact ⟨hidle hc.1, operable_of_not_handles rfl, Or.inl rfl⟩
    · cases hplan
      cases hch
  | told m k =>
    obtain ⟨content, sender⟩ := m
    cases content with
    | acceptProposal o =>
      simp only [plan] at hplan
      split at hplan
      · cases hplan
        cases hch
      · split at hplan <;> cases hplan
        cases hch
    | itemArrived o =>
      simp only [plan] at hplan
      split at hplan
      · next hc =>
        cases hplan
        obtain ⟨hstate, -, a, ha, rfl, -⟩ := hc
        obtain ⟨hsummary, hstation⟩ := hlocked hstate
        refine ⟨⟨rfl, hsummary, hstation, rfl⟩, fun o ho => ⟨?_, rfl⟩, Or.inl rfl⟩
        obtain rfl : a.1 = o := by simpa [operates] using ho
        rw [valueFor, Option.isSome_map]
        exact List.find?_isSome.mpr ⟨a, ha, by simp⟩
      · cases hplan
        cases hch
    | rejectProposal o =>
      simp only [plan] at hplan
      split at hplan
      · next hc =>
        cases hplan
        exact ⟨hidle hc.1, operable_of_not_handles rfl, Or.inl rfl⟩
      · split at hplan <;> cases hplan
        cases hch
    | abortCurrentOperation o =>
      simp only [plan] at hplan
      split at hplan
      · next hc =>
        cases hplan
        exact ⟨hidle hc.1, operable_of_not_handles rfl, Or.inl rfl⟩
      · split at hplan <;> cases hplan
        cases hch
    | suspendIntentions =>
      simp only [plan] at hplan
      split at hplan
      · cases hplan
        refine ⟨?_, operable_of_not_handles rfl, Or.inl rfl⟩
        show if b.view.myName then _ else _
        split
        · exact StationView.settled_of rfl rfl fun h => absurd rfl h
        · exact hb
      · cases hplan
    | resumeIntention =>
      simp only [plan] at hplan
      split at hplan
      · cases hplan
        exact ⟨StationView.settled_started, operable_of_not_handles rfl, Or.inl rfl⟩
      · cases hplan
  | schemaEpoch epoch =>
    simp only [plan] at hplan
    split at hplan
    · cases hplan
      refine ⟨?_, operable_of_not_handles rfl, Or.inl rfl⟩
      show if b.view.myName ∧ b.view.state.isSome then _ else _
      split
      · exact StationView.settled_started
      · exact hb
    · cases hplan
  | _ => cases ht

end

/-! ## Runs of `processOrder` -/

/-- The runs under way in the artifact of station `n`. -/
def runsOf (n : String) (runs : List StationRun) : List StationRun :=
  runs.filter (·.station = n)

/-- The results that station `n` has not read. -/
def resultsOf (n : String) (results : List RunResult) : List RunResult :=
  results.filter (·.station = n)

/-- The run that station `n` waits for is the only one of it, and the summary is that of the run
until it ends, and free after it has ended well. -/
def RunOf (n : String) (run : ℕ) (o : OrderId) (summary : StationSummary)
    (runs : List StationRun) (results : List RunResult) : Prop :=
  (runs = [⟨run, n, o⟩] ∧ results = [] ∧ summary = .busy o) ∨
    (runs = [] ∧ ∃ code, results = [⟨run, n, o, code⟩] ∧ code.Leaves summary)

/-- What holds of a station, given the intentions of it that change its state. -/
def OnDuty (n : String) (b : StationBeliefs) (runs : List StationRun) (results : List RunResult) :
    List (Intention String StationTrigger StationStmt) → Prop
  | [] => b.view.Settled ∧ runs = [] ∧ results = []
  | [θ] => (Working b θ ∧ runs = [] ∧ results = []) ∨
      ∃ run o, Awaiting b run o θ ∧ RunOf n run o b.summary runs results
  | _ :: _ :: _ => False

/-- The invariant of the stations. -/
structure InStep (p : Population String StationBeliefs StationTrigger StationStmt)
    (runs : List StationRun) (results : List RunResult) : Prop where
  events : ∀ e ∈ p.events, raised e.2
  onDuty : ∀ n, OnDuty n (p.beliefs n) (runsOf n runs) (resultsOf n results)
    (changes.holders n p)

theorem stationActs_runs (me : String) {acts : List StationAction} (h : acts.any ofRun = false)
    (s : Shop) : (Runs.run (Shop.stationAct me) acts s).runs = s.runs ∧
      (Runs.run (Shop.stationAct me) acts s).results = s.results := by
  induction acts generalizing s with
  | nil => exact ⟨rfl, rfl⟩
  | cons a acts ih =>
    rw [List.any_cons, Bool.or_eq_false_iff] at h
    obtain ⟨hruns, hresults⟩ := ih h.2 (Shop.stationAct me a s)
    rw [Runs.run_cons, hruns, hresults]
    cases a <;> first | exact ⟨rfl, rfl⟩ | cases h.1

/-- What an intention waits for is a result of its station. -/
theorem resultFor_of_awaiting {θ : Intention String StationTrigger StationStmt}
    {b : StationBeliefs} {run : ℕ} {o : OrderId} (h : Awaiting b run o θ) (s : Shop) :
    s.resultFor θ = (resultsOf θ.owner s.results).find? (·.run = run) := by
  obtain ⟨holon, step, hhead⟩ := h.head
  rw [Shop.resultFor, hhead, resultsOf, List.find?_filter]
  dsimp only
  congr 1
  funext r
  simp [and_comm]

theorem resultsOf_eraseP {me n : String} {run : ℕ} {results : List RunResult} :
    resultsOf n (results.eraseP fun r => r.run = run ∧ r.station = me)
      = if n = me then (resultsOf n results).eraseP (·.run = run) else resultsOf n results := by
  induction results with
  | nil => simp [resultsOf]
  | cons r results ih =>
    simp only [resultsOf] at ih ⊢
    by_cases hr : r.run = run ∧ r.station = me
    · rw [List.eraseP_cons_of_pos (by simpa using hr)]
      obtain ⟨rfl, rfl⟩ := hr
      by_cases hn : n = r.station
      · subst hn
        simp
      · simp [hn, Ne.symm hn]
    · rw [List.eraseP_cons_of_neg (by simpa using hr), List.filter_cons, ih]
      by_cases hn : n = me
      · subst hn
        by_cases hs : r.station = n
        · have hrun : r.run ≠ run := fun h => hr ⟨h, hs⟩
          simp [hs, hrun]
        · simp [hs]
      · rw [if_neg hn, if_neg hn, List.filter_cons]

/-! ## The invariant over a step -/

section

variable {p : Population String StationBeliefs StationTrigger StationStmt}
  {runs : List StationRun} {results : List RunResult} {n : String}

/-- What is held on duty does not depend on anything but the view and the active orders. -/
theorem OnDuty.congr {b b' : StationBeliefs}
    {l : List (Intention String StationTrigger StationStmt)}
    (h : OnDuty n b runs results l) (hview : b'.view = b.view)
    (hactive : ∀ o, (valueFor o b.activeOrder).isSome → (valueFor o b'.activeOrder).isSome) :
    OnDuty n b' runs results l := by
  have hstate : b'.stationState = b.stationState := congrArg StationView.state hview
  have hsummary : b'.summary = b.summary := congrArg StationView.summary hview
  have hstation : b'.myStation = b.myStation := congrArg StationView.myStation hview
  match l with
  | [] =>
    refine ⟨?_, h.2⟩
    rw [hview]
    exact h.1
  | [θ] =>
    rcases h with ⟨hwork, hruns⟩ | ⟨run, o, hawait, hrun⟩
    · exact Or.inl ⟨hwork.congr hview hactive, hruns⟩
    · refine Or.inr ⟨run, o, hawait.congr hstate hstation, ?_⟩
      rw [hsummary]
      exact hrun
  | _ :: _ :: _ => exact h

theorem InStep.post (h : InStep p runs results) {t : StationTrigger} (ht : raised t) :
    InStep (p.post n t) runs results := by
  refine ⟨fun e he => ?_, h.onDuty⟩
  rcases List.mem_append.mp he with he | he
  · exact h.events e he
  · rw [List.mem_singleton.mp he]
    exact ht

/-- A belief that no change looks at may be updated. -/
theorem InStep.tell (h : InStep p runs results) {f : StationBeliefs → StationBeliefs}
    (hf : ∀ b, ∃ told, f b = { b with told := told }) :
    InStep (p.believe n f) runs results := by
  refine ⟨h.events, fun m => ?_⟩
  rw [Critical.holders_believe]
  by_cases hm : m = n
  · subst hm
    obtain ⟨told, heq⟩ := hf (p.beliefs m)
    have hb : (p.believe m f).beliefs m = { p.beliefs m with told := told } := by
      simp [Population.believe, heq]
    rw [hb]
    exact (h.onDuty m).congr rfl fun _ h => h
  · have hb : (p.believe n f).beliefs m = p.beliefs m := by
      simp [Population.believe, hm]
    rw [hb]
    exact h.onDuty m

/-- A station answers an event: no change is under way, or the plan makes none. -/
theorem InStep.select (h : InStep p runs results)
    (hC : ∀ e ∈ p.events.find? (·.1 = n), ∀ body ∈ plan n (p.beliefs n) e.2,
      body.any changes.stmt → changes.holders n p = []) :
    InStep (p.select program n) runs results := by
  refine ⟨fun e he => h.events e (Critical.mem_select_events he), fun m => ?_⟩
  have hduty := h.onDuty m
  rw [Critical.select_beliefs]
  by_cases hm : m = n
  · subst hm
    by_cases hch : ∃ e ∈ p.events.find? (·.1 = m), ∃ body ∈ plan m (p.beliefs m) e.2,
        body.any changes.stmt
    · obtain ⟨e, he, body, hbody, hany⟩ := hch
      have hnil := hC e he body hbody hany
      rw [hnil] at hduty
      rw [Critical.holders_select_of_enters he hbody (by simpa using hany), hnil]
      obtain ⟨hrestores, hoperable, hsound⟩ :=
        plan_restores (h.events e (List.mem_of_find?_eq_some he)) hduty.1 hbody hany
      have hne : body ≠ [] := by
        rintro rfl
        cases hany
      have hagenda : (⟨m, none, [⟨e.2, body⟩]⟩ : Intention String StationTrigger
          StationStmt).agenda = body.map Sum.inr := by
        simp [Intention.agenda]
      refine Or.inl ⟨⟨fun _ f hf => ?_, ?_, ?_, ?_⟩, hduty.2⟩
      · obtain rfl := Option.some_inj.mp hf
        exact hne
      · rcases hsound with hrecover | hbid
        · exact Or.inl fun f hf => by rwa [List.mem_singleton.mp hf]
        · refine Or.inr (Critical.not_holds_iff.mpr ⟨by simp, fun f hf s hs => ?_⟩)
          rw [List.mem_singleton.mp hf] at hs
          simp [otherThanBid, hbid s hs]
      · rw [hagenda]
        exact hrestores
      · rw [hagenda]
        exact hoperable
    · rw [Critical.holders_select_of_outside]
      · exact hduty
      · intro e he body hbody
        apply Critical.outside_of_any
        by_contra hany
        exact hch ⟨e, he, body, hbody, by simpa using hany⟩
  · rw [Critical.holders_select_of_ne (Ne.symm hm)]
    exact hduty

end

/-! ## The invariant over a move -/

/-- The actions of a station have to do with its own runs and results only. -/
theorem stationActs_of_ne {me m : String} (hm : m ≠ me) (acts : List StationAction) (s : Shop) :
    runsOf m (Runs.run (Shop.stationAct me) acts s).runs = runsOf m s.runs ∧
      resultsOf m (Runs.run (Shop.stationAct me) acts s).results = resultsOf m s.results := by
  induction acts generalizing s with
  | nil => exact ⟨rfl, rfl⟩
  | cons a acts ih =>
    obtain ⟨hruns, hresults⟩ := ih (Shop.stationAct me a s)
    rw [Runs.run_cons, hruns, hresults]
    cases a with
    | startRun run o =>
      refine ⟨?_, rfl⟩
      simp [Shop.stationAct, runsOf, Ne.symm hm]
    | readResult run => exact ⟨rfl, by rw [Shop.stationAct, resultsOf_eraseP, if_neg hm]⟩
    | _ => exact ⟨rfl, rfl⟩

section

variable {s : Shop} {θ : Intention String StationTrigger StationStmt}

/-- An intention at work, or done, keeps its station on duty. -/
theorem onDuty_of_working {n : String} {b : StationBeliefs} (h : Working b θ) :
    OnDuty n b [] [] (if changes.holds θ then [θ] else []) := by
  split
  · exact Or.inl ⟨h, rfl, rfl⟩
  · next hno =>
    obtain ⟨hgoal, hstmt⟩ := Critical.not_holds_iff.mp (Bool.eq_false_iff.mpr hno)
    refine ⟨?_, rfl, rfl⟩
    rw [← restores_outside (fun g hg => hgoal g (mem_agenda_goal.mp hg)) fun s hs => ?_]
    · exact h.restores
    · obtain ⟨f, hf, hmem⟩ := mem_agenda_stmt.mp hs
      exact hstmt f hf s hmem

/-- The move of the intention that changes the state. -/
theorem onDuty_move (hduty : OnDuty θ.owner (s.stations.beliefs θ.owner) (runsOf θ.owner s.runs)
      (resultsOf θ.owner s.results) [θ]) (hθ : changes.holds θ) (p) :
    OnDuty θ.owner (program.move (s.stationInput θ) (s.stations.beliefs θ.owner) θ).beliefs
      (runsOf θ.owner (Runs.run (Shop.stationAct θ.owner)
        (program.move (s.stationInput θ) (s.stations.beliefs θ.owner) θ).actions
        { s with stations := p }).runs)
      (resultsOf θ.owner (Runs.run (Shop.stationAct θ.owner)
        (program.move (s.stationInput θ) (s.stations.beliefs θ.owner) θ).actions
        { s with stations := p }).results)
      (if changes.holds (program.move (s.stationInput θ) (s.stations.beliefs θ.owner) θ).intention
        then [(program.move (s.stationInput θ) (s.stations.beliefs θ.owner) θ).intention]
        else []) := by
  rcases hduty with ⟨hwork, hruns, hresults⟩ | ⟨run, o, hawait, hrun⟩
  · rcases hwork.move (s.stationInput θ) with ⟨o, hawait, hbeliefs, hactions⟩ | ⟨hwork', hactions⟩
    · -- a run starts
      obtain ⟨holon, step, hhead⟩ := hawait.head
      rw [if_pos (Critical.holds_of_head hhead rfl), hactions]
      refine Or.inr ⟨_, o, hawait, Or.inl ⟨?_, hresults, ?_⟩⟩
      · simp only [Runs.run_cons, Runs.run_nil, Shop.stationAct, runsOf,
          List.filter_append] at hruns ⊢
        rw [hruns]
        simp [Shop.stationInput]
      · rw [hbeliefs]
    · obtain ⟨hr, hr'⟩ := stationActs_runs θ.owner hactions { s with stations := p }
      rw [hr, hr']
      dsimp only
      rw [hruns, hresults]
      exact onDuty_of_working hwork'
  · have hresult := resultFor_of_awaiting hawait s
    rcases hrun with ⟨hruns, hresults, hsummary⟩ | ⟨hruns, code, hresults, hok⟩
    · -- the run has not ended
      have hx : (s.stationInput θ).result = none := by
        rw [Shop.stationInput, hresult, hresults]
        rfl
      rw [hawait.move_none hx, if_pos hθ]
      exact Or.inr ⟨run, o, hawait, Or.inl ⟨hruns, hresults, hsummary⟩⟩
    · have hx : (s.stationInput θ).result = some code := by
        rw [Shop.stationInput, hresult, hresults]
        simp
      obtain ⟨hwork, hbeliefs, hactions⟩ := hawait.move_some hx hok
      rw [hactions]
      simp only [Runs.run_cons, Runs.run_nil, Shop.stationAct]
      rw [resultsOf_eraseP, if_pos rfl, hresults, hruns]
      have : [(⟨run, θ.owner, o, code⟩ : RunResult)].eraseP (·.run = run) = [] := by simp
      rw [this]
      exact onDuty_of_working hwork

/-- **A move of an intention** keeps every station on duty. -/
theorem InStep.stationMove (h : InStep s.stations s.runs s.results) (i : ℕ) :
    InStep (s.stationMove i).stations (s.stationMove i).runs (s.stationMove i).results := by
  unfold Shop.stationMove
  split
  · exact h
  · next θ hθ =>
    dsimp only
    rw [run_proj (g := Shop.stations) (by simp)]
    refine ⟨h.events, fun n => ?_⟩
    have hduty := h.onDuty n
    by_cases hn : n = θ.owner
    · subst hn
      rw [show (s.stations.apply i _).beliefs θ.owner = (program.move (s.stationInput θ)
        (s.stations.beliefs θ.owner) θ).beliefs by simp [Population.apply]]
      by_cases hholds : changes.holds θ
      · have hmem : θ ∈ changes.holders θ.owner s.stations :=
          Critical.mem_holders.mpr ⟨List.mem_of_getElem? hθ, rfl, hholds⟩
        -- it is the only one
        rcases hl : changes.holders θ.owner s.stations with _ | ⟨θ', _ | ⟨_, _⟩⟩
        · rw [hl] at hmem
          cases hmem
        · obtain ⟨rfl, hafter⟩ := Critical.holders_apply_of_holder hθ rfl
            (program.move_owner _ _ _) hholds hl
          rw [hafter]
          rw [hl] at hduty
          exact onDuty_move hduty hholds _
        · rw [hl] at hduty
          exact hduty.elim
      · obtain ⟨hout, hview, hactive, hactions, hdrops⟩ := outside_move
          (Bool.eq_false_iff.mpr hholds) (s.stations.beliefs θ.owner) (s.stationInput θ)
        obtain ⟨hruns, hresults⟩ := stationActs_runs θ.owner hactions _
        rw [hruns, hresults, Critical.holders_apply_of_outside hθ (Bool.eq_false_iff.mpr hholds)
          hout fun θ' _ => by simp [Population.keeps, hdrops]]
        exact hduty.congr hview hactive
    · rw [(stationActs_of_ne hn _ _).1, (stationActs_of_ne hn _ _).2,
        Critical.holders_apply_of_ne hθ (by simp) (Ne.symm hn),
        show (s.stations.apply i _).beliefs n = s.stations.beliefs n by
          simp [Population.apply, hn]]
      exact hduty

end

end ResourceHolon

/-! ## The end of a run -/

open ResourceHolon

section

variable {s : Shop} {runs : List StationRun} {results : List RunResult} {r : StationRun} {j : ℕ}

/-- The runs of the other stations stay when a run ends. -/
theorem ResourceHolon.runsOf_eraseIdx_of_ne (hr : runs[j]? = some r) {n : String}
    (hn : r.station ≠ n) : runsOf n (runs.eraseIdx j) = runsOf n runs := by
  obtain ⟨hlt, rfl⟩ := List.getElem?_eq_some_iff.mp hr
  conv_rhs => rw [← List.take_append_drop j runs, List.drop_eq_getElem_cons hlt]
  rw [List.eraseIdx_eq_take_drop_succ, runsOf, runsOf, List.filter_append, List.filter_append,
    List.filter_cons_of_neg (by simpa using hn)]

/-- The only run of a station ends. -/
theorem ResourceHolon.runsOf_eraseIdx_of_only (hr : runs[j]? = some r) {r' : StationRun}
    (honly : runsOf r.station runs = [r']) :
    r = r' ∧ runsOf r.station (runs.eraseIdx j) = [] := by
  obtain ⟨hlt, hget⟩ := List.getElem?_eq_some_iff.mp hr
  rw [← List.take_append_drop j runs, List.drop_eq_getElem_cons hlt, hget, runsOf,
    List.filter_append, List.filter_cons_of_pos (by simp)] at honly
  rw [List.eraseIdx_eq_take_drop_succ, runsOf, List.filter_append]
  rcases List.append_eq_singleton_iff.mp honly with ⟨hbefore, h⟩ | ⟨_, h⟩
  · obtain ⟨heq, hafter⟩ := List.cons_eq_cons.mp h
    exact ⟨heq, by rw [hbefore, hafter]; rfl⟩
  · cases h

/-- **The end of a run** keeps every station on duty. -/
theorem ResourceHolon.InStep.finish (h : InStep s.stations s.runs s.results) {code : ResultCode}
    {summary : StationSummary} (hok : code.Leaves summary) (j : ℕ) :
    InStep (s.finish j code summary).stations (s.finish j code summary).runs
      (s.finish j code summary).results := by
  unfold Shop.finish
  split
  · exact h
  · next r hr =>
    refine ⟨h.events, fun n => ?_⟩
    rw [Critical.holders_believe]
    have hduty := h.onDuty n
    by_cases hn : r.station = n
    · subst hn
      have hmem : r ∈ runsOf r.station s.runs :=
        List.mem_filter.mpr ⟨List.mem_of_getElem? hr, by simp⟩
      rw [show (s.stations.believe r.station fun b => { b with summary := summary }).beliefs
        r.station = { s.stations.beliefs r.station with summary := summary } by
          simp [Population.believe]]
      -- the agent waits for this run
      rcases hl : changes.holders r.station s.stations with _ | ⟨θ, _ | ⟨_, _⟩⟩
      · rw [hl] at hduty
        rw [hduty.2.1] at hmem
        cases hmem
      · rw [hl] at hduty
        rcases hduty with ⟨-, hruns, -⟩ | ⟨run, o, hawait, ⟨hruns, hresults, -⟩ | ⟨hruns, -⟩⟩
        · rw [hruns] at hmem
          cases hmem
        · obtain ⟨hthis, hnone⟩ := runsOf_eraseIdx_of_only hr hruns
          refine Or.inr ⟨run, o, hawait.congr rfl rfl, Or.inr ⟨hnone, code, ?_, hok⟩⟩
          rw [resultsOf, List.filter_cons_of_pos (by simp), congrArg StationRun.run hthis,
            congrArg StationRun.o hthis]
          exact congrArg (_ :: ·) hresults
        · rw [hruns] at hmem
          cases hmem
      · rw [hl] at hduty
        exact hduty.elim
    · rw [runsOf_eraseIdx_of_ne hr hn, resultsOf, List.filter_cons_of_neg (by simpa using hn),
        show (s.stations.believe r.station fun b => { b with summary := summary }).beliefs n
          = s.stations.beliefs n by simp [Population.believe, Ne.symm hn]]
      exact hduty

end

/-! ## Every operation -/

namespace Shop

/-- Only a move of a station and the end of a run concern the runs. -/
theorem runs_exec {op : ShopOp} (hmove : ∀ i, op ≠ .stationMove i)
    (hfinish : ∀ j code summary, op ≠ .finish j code summary) (s : Shop) :
    (s.exec op).runs = s.runs ∧ (s.exec op).results = s.results := by
  have hpair : ((s.exec op).runs, (s.exec op).results) = (s.runs, s.results) := by
    let view : Shop → List StationRun × List RunResult := fun s => (s.runs, s.results)
    cases op with
    | stationMove i => exact absurd rfl (hmove i)
    | finish j code summary => exact absurd rfl (hfinish j code summary)
    | orderMove i x =>
      simp only [exec, orderMove]
      split
      · rfl
      · exact run_proj (g := view) (fun a s => by cases a <;> rfl) _ _
    | amrMove i u =>
      simp only [exec, amrMove]
      split
      · rfl
      · exact run_proj (g := view) (fun a s => by cases a <;> rfl) _ _
    | deliver j =>
      simp only [exec, deliver, receive]
      (repeat' split) <;> rfl
    | arrive j =>
      simp only [exec, arrive]
      split <;> rfl
    | _ => first | rfl | (simp only [exec]; split <;> rfl)
  exact Prod.mk.inj hpair

/-- The condition on an operation: a station begins no plan that changes its state while another
such plan, or the run that it waits for, is under way; a run that ends with "ok" leaves the
station free. -/
def ChangesInTurn (s : Shop) : ShopOp → Prop
  | .stationSelect n => ∀ e ∈ s.stations.events.find? (·.1 = n),
      ∀ body ∈ ResourceHolon.plan n (s.stations.beliefs n) e.2,
        body.any changes.stmt → changes.holders n s.stations = []
  | .finish _ code summary => code.Leaves summary
  | _ => True

instance (s : Shop) (op : ShopOp) : Decidable (s.ChangesInTurn op) := by
  induction op using ShopOp.casesOn <;> unfold ChangesInTurn <;> infer_instance

/-- **An operation keeps every station on duty** under the condition. -/
theorem inStep_exec {s : Shop} {op : ShopOp} (h : InStep s.stations s.runs s.results)
    (hC : s.ChangesInTurn op) :
    InStep (s.exec op).stations (s.exec op).runs (s.exec op).results := by
  by_cases hmove : ∃ i, op = .stationMove i
  · obtain ⟨i, rfl⟩ := hmove
    exact h.stationMove i
  by_cases hfinish : ∃ j code summary, op = .finish j code summary
  · obtain ⟨j, code, summary, rfl⟩ := hfinish
    exact h.finish hC j
  have hno : ∀ j code summary, op ≠ .finish j code summary := fun j code summary heq =>
    hfinish ⟨j, code, summary, heq⟩
  obtain ⟨hruns, hresults⟩ := runs_exec (fun i heq => hmove ⟨i, heq⟩) hno s
  rw [hruns, hresults]
  refine stations_rule (Q := fun p => InStep p s.runs s.results) h ?_ ?_ ?_
    fun i θ heq => absurd ⟨i, heq⟩ hmove
  · intro p n f hf hp
    refine hp.tell fun b => ?_
    obtain ⟨told, summary, heq, hsummary⟩ := hf b
    rw [hsummary hno] at heq
    exact ⟨told, heq⟩
  · exact fun p e he hp => hp.post (stationEvent_raised he)
  · rintro n rfl
    exact h.select hC

theorem inStep_start (c : ShopConfig) :
    InStep (start c).stations (start c).runs (start c).results where
  events e he := by
    obtain ⟨n, -, rfl⟩ := List.mem_map.mp he
    rfl
  onDuty n := by
    refine ⟨fun state hstate => ?_, rfl, rfl⟩
    cases hstate

/-! ## Agreement between plans -/

/-- The statement waits for a run of `processOrder`. -/
def waits : StationStmt → Bool
  | .awaitResult _ _ _ _ => true
  | _ => false

/-- Station `n` has no event to answer, and each of its intentions is done or waits for a run of
`processOrder` that has not ended. -/
def BetweenPlans (n : String) (s : Shop) : Prop :=
  (∀ e ∈ s.stations.events, e.1 ≠ n) ∧ ∀ θ ∈ s.stations.intentions, θ.owner = n →
    θ.agenda = [] ∨ (θ.head.any waits ∧ s.resultFor θ = none)

instance (n : String) (s : Shop) : Decidable (s.BetweenPlans n) :=
  inferInstanceAs (Decidable (_ ∧ _))

/-- A station that is on duty and between plans agrees with its artifact. -/
theorem agrees_of_inStep {s : Shop} {n : String} (h : InStep s.stations s.runs s.results)
    (hrest : s.BetweenPlans n) : (s.stations.beliefs n).Agrees := by
  have hduty := h.onDuty n
  have hsettled : (s.stations.beliefs n).view.Settled → (s.stations.beliefs n).Agrees :=
    fun h state hstate => (h state hstate).1
  match hl : changes.holders n s.stations with
  | [] =>
    rw [hl] at hduty
    exact hsettled hduty.1
  | _ :: _ :: _ =>
    rw [hl] at hduty
    exact hduty.elim
  | [θ] =>
    have hmem : θ ∈ changes.holders n s.stations := by
      rw [hl]
      exact List.mem_cons_self
    obtain ⟨hθ, rfl, -⟩ := Critical.mem_holders.mp hmem
    rw [hl] at hduty
    rcases hrest.2 θ hθ rfl with hdone | ⟨hwaits, hresult⟩
    · rcases hduty with ⟨hwork, -⟩ | ⟨run, o, hawait, -⟩
      · -- nothing is left to do
        have hrestores := hwork.restores
        rw [hdone] at hrestores
        exact hsettled hrestores
      · obtain ⟨holon, step, hagenda⟩ := hawait.agenda
        rw [hdone] at hagenda
        cases hagenda
    · rcases hduty with ⟨hwork, -⟩ | ⟨run, o, hawait, hrun⟩
      · -- an intention at work does not wait
        obtain ⟨stmt, hhead, hstmt⟩ := (Option.any_eq_true _ _).mp hwaits
        obtain ⟨rest, hagenda⟩ := Program.agenda_of_head hhead
        have hrestores := hwork.restores
        rw [hagenda] at hrestores
        cases stmt <;> first | exact False.elim hrestores | cases hstmt
      · rcases hrun with ⟨-, -, hsummary⟩ | ⟨-, code, hresults, -⟩
        · intro state hstate
          obtain rfl := Option.some_inj.mp (hawait.busy.symm.trans hstate)
          exact hsummary
        · rw [resultFor_of_awaiting hawait, hresults] at hresult
          simp at hresult

/-- After `arrivedRun`: the station is suspended while it carries out the order, and the run
that nobody waits for ends. -/
def lateFinishRun : List ShopOp :=
  acceptedRun ++ arrivedRun ++
    [ShopOp.supervisor "station_1" .suspendStation, .deliver 5, .stationSelect "station_1"] ++
    stationMoves 1 4 ++ stationMoves 9 3 ++ [ShopOp.finish 0 .ok .free]

end Shop

end MatrixFactory
