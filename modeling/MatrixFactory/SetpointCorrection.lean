/-
# The correction of setpoints

`correct_setpoint` of the supervisor, the plan of the resource holon that answers it, and the
setpoints of the station artifacts, which the control endpoint changes as well.

The plan does not retract the belief it answers, so the second correction of a station raises no
event.  Every correction leaves its value iff each one that is not applied comes after no other
change, or after one to its own value.
-/
import MatrixFactory.Lib.AgentSpeak
import MatrixFactory.ControlEndpoint
import MatrixFactory.DefectDrift

namespace MatrixFactory

open Text Runs

namespace QualityStation

/-- The parameter that `correct_setpoint` names for a station. -/
def param : QualityStation → Text
  | .S1 => lit "t_press_k"
  | .S2 => lit "v_coat_m_s"
  | .S3 => lit "press_force_kn"
  | .S4 => lit "torque_bolt_0"

/-- The value that `correct_setpoint` names for a station. -/
def corrective : QualityStation → ℚ
  | .S1 => 433.15
  | .S2 => 0.15
  | .S3 => 120.0
  | .S4 => 46.0

/-- The nominal setpoints, after `init`. -/
def nominalSetpoints : QualityStation → List (Text × ℚ)
  | .S1 => [(lit "t_press_k", 433.15), (lit "dwell_time_s", 180.0)]
  | .S2 => [(lit "v_coat_m_s", 0.15), (lit "mu_slurry_pa_s", 0.050)]
  | .S3 => [(lit "press_force_kn", 120.0), (lit "w0_initial_wear", 0.0)]
  | .S4 => [(lit "torque_bolt_0", 46.0), (lit "torque_bolt_1", 46.0), (lit "torque_bolt_2", 46.0),
      (lit "torque_bolt_3", 46.0), (lit "mu_friction_0", 0.15), (lit "mu_friction_1", 0.15),
      (lit "mu_friction_2", 0.15), (lit "mu_friction_3", 0.15), (lit "mu_friction_4", 0.15),
      (lit "mu_friction_5", 0.15), (lit "mu_friction_6", 0.15), (lit "mu_friction_7", 0.15)]

/-- The corrective value is the nominal one. -/
theorem lookup_param (st : QualityStation) :
    st.nominalSetpoints.lookup st.param = some st.corrective := by
  cases st <;> rfl

end QualityStation

/-- `adjust_setpoint`, as a belief or as the action of a plan. -/
structure AdjustSetpoint (V : Type) where
  param : Text
  value : V
  deriving DecidableEq

/-- The supervisor's messages on their way, for each station the beliefs of its agent and its
intentions that answer one, and the artifacts.  `changes` keeps the values that the control
endpoint has set since the last correction was applied, for the parameter that is corrected. -/
structure CorrectionLoop (V : Type) where
  inbox : QualityStation → List (AdjustSetpoint V)
  beliefs : QualityStation → List (AdjustSetpoint V)
  intentions : QualityStation → List (AdjustSetpoint V)
  artifacts : QualityStation → SetpointArtifact V
  changes : QualityStation → List V

/-- What can happen: the supervisor corrects a station, the station's agent takes its next message,
executes the action of an intention or drops its intentions, or the control endpoint changes a
setpoint. -/
inductive CorrectionOp (V : Type)
  | correctSetpoint (st : QualityStation)
  | receive (st : QualityStation)
  | adjustSetpoint (st : QualityStation)
  | dropAllIntentions (st : QualityStation)
  | stationSetpoint (st : QualityStation) (param : Text) (value : V)

namespace CorrectionLoop

variable {V : Type}

/-- The message of `correct_setpoint`; `double` is the value of a number in the code. -/
def correction (double : ℚ → V) (st : QualityStation) : AdjustSetpoint V :=
  ⟨st.param, double st.corrective⟩

/-- After `init`. -/
def start (double : ℚ → V) : CorrectionLoop V where
  inbox _ := []
  beliefs _ := []
  intentions _ := []
  artifacts st := ⟨lit st.stationId, fun p => (st.nominalSetpoints.lookup p).map double⟩
  changes _ := []

/-- The next message of a station's agent; one whose literal is held already raises no event. -/
def receive [DecidableEq V] (st : QualityStation) (s : CorrectionLoop V) : CorrectionLoop V :=
  match s.inbox st with
  | [] => s
  | m :: inbox =>
    let (beliefs, new) := AgentSpeak.tell id m (s.beliefs st)
    { s with
      inbox := Function.update s.inbox st inbox
      beliefs := Function.update s.beliefs st beliefs
      intentions := Function.update s.intentions st
        (if new then s.intentions st ++ [m] else s.intentions st) }

/-- The action of the plan `+adjust_setpoint`. -/
def adjust (st : QualityStation) (s : CorrectionLoop V) : CorrectionLoop V :=
  match s.intentions st with
  | [] => s
  | m :: intentions =>
    { s with
      intentions := Function.update s.intentions st intentions
      artifacts := Function.update s.artifacts st
        ((s.artifacts st).adjustSetpoint m.param m.value)
      changes := Function.update s.changes st [] }

/-- One step. -/
def exec [DecidableEq V] (double : ℚ → V) (op : CorrectionOp V) (s : CorrectionLoop V) :
    CorrectionLoop V :=
  match op with
  | .correctSetpoint st =>
    { s with inbox := Function.update s.inbox st (s.inbox st ++ [correction double st]) }
  | .receive st => s.receive st
  | .adjustSetpoint st => s.adjust st
  | .dropAllIntentions st => { s with intentions := Function.update s.intentions st [] }
  | .stationSetpoint st param value =>
    { s with
      artifacts := Function.update s.artifacts st ((s.artifacts st).adjustSetpoint param value)
      changes := Function.update s.changes st
        (if param = st.param then s.changes st ++ [value] else s.changes st) }

/-- The message that the agent takes is held already. -/
def Repeated (s : CorrectionLoop V) (st : QualityStation) : Prop :=
  ∃ m ∈ (s.inbox st).head?, m ∈ s.beliefs st

/-- The step with which the processing of a correction of `st` ends. -/
def Processed (s : CorrectionLoop V) (st : QualityStation) : CorrectionOp V → Prop
  | .receive st' => st' = st ∧ s.Repeated st
  | .adjustSetpoint st' | .dropAllIntentions st' => st' = st ∧ s.intentions st ≠ []
  | _ => False

/-- When a correction is processed, the setpoint has the corrective value. -/
def Corrects [DecidableEq V] (double : ℚ → V) (s : CorrectionLoop V) (op : CorrectionOp V) : Prop :=
  ∀ st, s.Processed st op →
    ((s.exec double op).artifacts st).setpoints st.param = some (double st.corrective)

/-- The last change of the parameter since a correction was applied is to the corrective value, if
there is one. -/
def Unchanged (double : ℚ → V) (s : CorrectionLoop V) (st : QualityStation) : Prop :=
  ∀ v ∈ (s.changes st).getLast?, v = double st.corrective

/-- A correction that is not applied comes after no change to another value. -/
def Applied (double : ℚ → V) (s : CorrectionLoop V) : CorrectionOp V → Prop
  | .receive st => s.Repeated st → s.Unchanged double st
  | .dropAllIntentions st => s.intentions st ≠ [] → s.Unchanged double st
  | _ => True

/-! ## Only the correction of a station is told to its agent -/

variable {double : ℚ → V} {s : CorrectionLoop V}

/-- **The invariant**: messages and intentions are corrections, and the setpoint is the corrective
value, or the last one that the control endpoint has set since. -/
structure Consistent (double : ℚ → V) (s : CorrectionLoop V) (st : QualityStation) : Prop where
  inbox : ∀ m ∈ s.inbox st, m = correction double st
  intentions : ∀ m ∈ s.intentions st, m = correction double st
  setpoint : (s.artifacts st).setpoints st.param =
    some ((s.changes st).getLast?.getD (double st.corrective))

theorem consistent_start (double : ℚ → V) (st : QualityStation) :
    Consistent double (start double) st := by
  refine ⟨fun _ hm => absurd hm List.not_mem_nil, fun _ hm => absurd hm List.not_mem_nil, ?_⟩
  show (st.nominalSetpoints.lookup st.param).map double = _
  rw [st.lookup_param]
  rfl

/-- The setpoint is the corrective value iff no other value was set last. -/
theorem Consistent.setpoint_iff {st : QualityStation} (h : Consistent double s st) :
    (s.artifacts st).setpoints st.param = some (double st.corrective) ↔
      s.Unchanged double st := by
  rw [h.setpoint, Unchanged]
  cases (s.changes st).getLast? with
  | none =>
    show some (double st.corrective) = _ ↔ _
    constructor
    · exact fun _ v hv => nomatch hv
    · exact fun _ => rfl
  | some v =>
    show some v = _ ↔ _
    constructor
    · intro heq v' hv'
      rw [← Option.some.inj hv']
      exact Option.some.inj heq
    · exact fun hv => congrArg some (hv v rfl)

/-- A step at another station. -/
theorem Consistent.of_eq {s' : CorrectionLoop V} {st : QualityStation}
    (h : Consistent double s st) (hi : s'.inbox st = s.inbox st)
    (ht : s'.intentions st = s.intentions st) (ha : s'.artifacts st = s.artifacts st)
    (hc : s'.changes st = s.changes st) : Consistent double s' st :=
  ⟨hi ▸ h.inbox, ht ▸ h.intentions, by rw [ha, hc]; exact h.setpoint⟩

/-- The action of an intention sets the corrective value. -/
theorem Consistent.adjust {st : QualityStation} (h : Consistent double s st) :
    Consistent double (s.adjust st) st := by
  unfold CorrectionLoop.adjust
  split
  · exact h
  · next m intentions hintentions =>
    have hm : m = correction double st :=
      h.intentions m (by rw [hintentions]; exact List.mem_cons_self)
    refine ⟨h.inbox, ?_, ?_⟩
    · show ∀ m' ∈ Function.update s.intentions st intentions st, m' = correction double st
      rw [Function.update_self]
      exact fun m' hm' => h.intentions m' (by rw [hintentions]; exact List.mem_cons_of_mem _ hm')
    · show (Function.update s.artifacts st _ st).setpoints st.param =
        some ((Function.update s.changes st [] st).getLast?.getD _)
      rw [Function.update_self, Function.update_self, hm]
      exact Function.update_self _ _ _

variable [DecidableEq V]

/-- What taking a message changes. -/
theorem Consistent.receive {st : QualityStation} (h : Consistent double s st) :
    Consistent double (s.receive st) st := by
  unfold CorrectionLoop.receive
  split
  · exact h
  · next m inbox hinbox =>
    have hm : m = correction double st := h.inbox m (by rw [hinbox]; exact List.mem_cons_self)
    refine ⟨?_, ?_, h.setpoint⟩
    · show ∀ m' ∈ Function.update s.inbox st inbox st, m' = correction double st
      rw [Function.update_self]
      exact fun m' hm' => h.inbox m' (by rw [hinbox]; exact List.mem_cons_of_mem _ hm')
    · show ∀ m' ∈ Function.update s.intentions st _ st, m' = correction double st
      rw [Function.update_self]
      split
      · intro m' hm'
        rcases List.mem_append.1 hm' with hm' | hm'
        · exact h.intentions m' hm'
        · rw [List.mem_singleton.1 hm', hm]
      · exact h.intentions

/-- **One step** keeps the invariant. -/
theorem Consistent.exec {st : QualityStation} (h : Consistent double s st) (op : CorrectionOp V) :
    Consistent double (s.exec double op) st := by
  have hother : ∀ {α : Type} {st' : QualityStation} (f : QualityStation → α) (a : α), st ≠ st' →
      Function.update f st' a st = f st := fun f a hne => Function.update_of_ne hne a f
  cases op with
  | correctSetpoint st' =>
    by_cases hst : st = st'
    · subst hst
      refine ⟨?_, h.intentions, h.setpoint⟩
      show ∀ m ∈ Function.update s.inbox st _ st, m = correction double st
      rw [Function.update_self]
      intro m hm
      rcases List.mem_append.1 hm with hm | hm
      · exact h.inbox m hm
      · exact List.mem_singleton.1 hm
    · exact h.of_eq (hother _ _ hst) rfl rfl rfl
  | receive st' =>
    by_cases hst : st = st'
    · subst hst
      exact h.receive
    · show Consistent double (s.receive st') st
      unfold CorrectionLoop.receive
      split
      · exact h
      · exact h.of_eq (hother _ _ hst) (hother _ _ hst) rfl rfl
  | adjustSetpoint st' =>
    by_cases hst : st = st'
    · subst hst
      exact h.adjust
    · show Consistent double (s.adjust st') st
      unfold CorrectionLoop.adjust
      split
      · exact h
      · exact h.of_eq rfl (hother _ _ hst) (hother _ _ hst) (hother _ _ hst)
  | dropAllIntentions st' =>
    by_cases hst : st = st'
    · subst hst
      refine ⟨h.inbox, ?_, h.setpoint⟩
      show ∀ m ∈ Function.update s.intentions st [] st, m = correction double st
      rw [Function.update_self]
      exact fun m hm => absurd hm List.not_mem_nil
    · exact h.of_eq rfl (hother _ _ hst) rfl rfl
  | stationSetpoint st' param value =>
    by_cases hst : st = st'
    · subst hst
      refine ⟨h.inbox, h.intentions, ?_⟩
      show (Function.update s.artifacts st _ st).setpoints st.param =
        some ((Function.update s.changes st _ st).getLast?.getD _)
      rw [Function.update_self, Function.update_self]
      show Function.update (s.artifacts st).setpoints param (some value) st.param = _
      by_cases hparam : param = st.param
      · rw [if_pos hparam, hparam, Function.update_self, List.getLast?_append]
        rfl
      · rw [if_neg hparam, Function.update_of_ne (Ne.symm hparam)]
        exact h.setpoint
    · exact h.of_eq rfl rfl (hother _ _ hst) (hother _ _ hst)

/-! ## Where a correction takes effect -/

/-- A repeated message changes no setpoint. -/
theorem artifacts_receive (st : QualityStation) : (s.receive st).artifacts = s.artifacts := by
  unfold receive
  split <;> rfl

/-- **A step** that ends the processing of a correction leaves the corrective value iff it applies
it or the setpoint has no other value. -/
theorem corrects_iff (h : ∀ st, Consistent double s st) (op : CorrectionOp V) :
    s.Corrects double op ↔ s.Applied double op := by
  cases op with
  | correctSetpoint => exact ⟨fun _ => trivial, fun _ _ hp => hp.elim⟩
  | stationSetpoint => exact ⟨fun _ => trivial, fun _ _ hp => hp.elim⟩
  | receive st =>
    have hset := (h st).setpoint_iff
    constructor
    · intro hc hrep
      have hafter := hc st ⟨rfl, hrep⟩
      rw [exec, artifacts_receive] at hafter
      exact hset.1 hafter
    · rintro happ st' ⟨rfl, hrep⟩
      rw [exec, artifacts_receive]
      exact hset.2 (happ hrep)
  | dropAllIntentions st =>
    have hset := (h st).setpoint_iff
    constructor
    · exact fun hc hne => hset.1 (hc st ⟨rfl, hne⟩)
    · rintro happ st' ⟨rfl, hne⟩
      exact hset.2 (happ hne)
  | adjustSetpoint st =>
    refine ⟨fun _ => trivial, ?_⟩
    rintro - st' ⟨rfl, hne⟩
    -- the action empties the changes
    refine ((h st).exec (.adjustSetpoint st)).setpoint_iff.2 ?_
    have hchanges : (s.adjust st).changes st = [] := by
      unfold adjust
      split
      · next hnil => exact absurd hnil hne
      · exact Function.update_self _ _ _
    intro v hv
    rw [show (s.exec double (.adjustSetpoint st)).changes st = [] from hchanges] at hv
    exact nomatch hv

/-- **In a run every correction that is processed leaves its value in the artifact iff none of
those that are not applied comes after a change to another value.** -/
theorem corrects_run (double : ℚ → V) (ops : List (CorrectionOp V)) :
    Along (exec double) (Corrects double) (start double) ops ↔
      Along (exec double) (Applied double) (start double) ops := by
  have hrun : ∀ (ops : List (CorrectionOp V)) {s : CorrectionLoop V},
      (∀ st, Consistent double s st) →
        (Along (exec double) (Corrects double) s ops ↔
          Along (exec double) (Applied double) s ops) := by
    intro ops
    induction ops with
    | nil => exact fun _ => Iff.rfl
    | cons op ops ih =>
      intro s h
      rw [along_cons, along_cons, corrects_iff h, ih fun st => (h st).exec op]
  exact hrun ops (consistent_start double)

/-- The second correction of station `S1` is not applied: its message is held already. -/
def secondCorrection : List (CorrectionOp ℚ) :=
  [.correctSetpoint .S1, .receive .S1, .adjustSetpoint .S1,
    .stationSetpoint .S1 (lit "t_press_k") 500, .correctSetpoint .S1, .receive .S1]

/-- The control endpoint's value stays. -/
theorem not_corrects : ¬ Along (exec id) (Corrects id) (start id) secondCorrection := by
  intro h
  have hrepeated : Repeated (run (exec id) (secondCorrection.take 5) (start id)) .S1 :=
    ⟨⟨lit "t_press_k", 433.15⟩, by decide +kernel, by decide +kernel⟩
  have hlast : Corrects id (run (exec id) (secondCorrection.take 5) (start id)) (.receive .S1) :=
    h.2.2.2.2.2.1
  have hvalue := hlast .S1 ⟨rfl, hrepeated⟩
  exact absurd hvalue (by decide +kernel)

end CorrectionLoop

end MatrixFactory
