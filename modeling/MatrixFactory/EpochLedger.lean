/-
# The ledger of the schema epoch

The transition that `MainSimulator` shares between two threads: the artifact's, with
`initiateTransition` and `commitTransition`, and the tick loop's, with
`clearCommittedTransition`.  The simulator's methods are synchronized, but the
artifact's `commitTransition` reads the transition before it takes the lock, so its
read and its call are two steps here, and the tick loop may clear in between.  The two
operations of the artifact exclude each other, as those of one CArtAgO artifact do.

The `history`, newest event first, records reservations and commits; no definition of
the code reads it.
-/
import MatrixFactory.Lib.Runs
import Mathlib.Data.Rat.Defs

namespace MatrixFactory

namespace EpochLedger

/-- `TransitionPhase`. -/
inductive TransitionPhase where
  | drain
  | suspend
  | committed
  deriving DecidableEq, Repr

/-- `OrgSchemaTransition`; `none` as the time is `NaN`. -/
structure OrgSchemaTransition where
  targetSchema : String
  newEpoch : ℕ
  phaseStartSimTimeS : Option ℚ
  phase : TransitionPhase
  deriving DecidableEq, Repr

namespace OrgSchemaTransition

/-- `startDrain`. -/
def startDrain (targetSchema : String) (newEpoch : ℕ) (simTimeS : ℚ) : OrgSchemaTransition :=
  ⟨targetSchema, newEpoch, some simTimeS, .drain⟩

/-- `advanceTo`. -/
def advanceTo (next : TransitionPhase) (simTimeS : Option ℚ) (t : OrgSchemaTransition) :
    OrgSchemaTransition :=
  ⟨t.targetSchema, t.newEpoch, simTimeS, next⟩

end OrgSchemaTransition

/-- What the history records: a transition as it was reserved, and as it was handed to
the simulator's `commitTransition`. -/
inductive LedgerEvent where
  | reserved (t : OrgSchemaTransition)
  | committed (t : OrgSchemaTransition)
  deriving DecidableEq, Repr

/-- The shared fields; `committing` is the argument of a commit whose artifact operation
has read the transition and has not yet called the simulator. -/
structure EpochState where
  schemaEpoch : ℕ := 0
  activeOrgSchema : String := "centralized"
  activeTransition : Option OrgSchemaTransition := none
  committing : Option OrgSchemaTransition := none
  history : List LedgerEvent := []
  deriving DecidableEq, Repr

/-- The steps of the two threads. -/
inductive EpochOp where
  | initiateTransition (targetSchema : String) (simTimeS : ℚ)
  | readForCommit (simTimeS : ℚ)
  | callCommit
  | clearCommittedTransition
  deriving DecidableEq, Repr

namespace EpochState

/-- `MainSimulator.beginTransition`. -/
def beginTransition (targetSchema : String) (simTimeS : ℚ) (s : EpochState) : EpochState :=
  let t := OrgSchemaTransition.startDrain targetSchema (s.schemaEpoch + 1) simTimeS
  { s with activeTransition := some t, history := .reserved t :: s.history }

/-- `MainSimulator.commitTransition`. -/
def commitTransition (t : OrgSchemaTransition) (s : EpochState) : EpochState :=
  { s with
    schemaEpoch := t.newEpoch
    activeOrgSchema := t.targetSchema
    activeTransition := some (t.advanceTo .committed none)
    history := .committed t :: s.history }

/-- `clearCommittedTransition`. -/
def clearCommittedTransition (s : EpochState) : EpochState :=
  match s.activeTransition with
  | some t => if t.phase = .committed then { s with activeTransition := none } else s
  | none => s

/-- The read of the artifact's `commitTransition`, and its test. -/
def readForCommit (simTimeS : ℚ) (s : EpochState) : EpochState :=
  match s.activeTransition with
  | none => s
  | some t =>
    if t.phase = .committed then s
    else { s with committing := some (t.advanceTo .committed (some simTimeS)) }

/-- One step; an artifact operation waits while a commit is under way. -/
def exec : EpochOp → EpochState → EpochState
  | .initiateTransition target time, s =>
    if s.committing.isSome then s else s.beginTransition target time
  | .readForCommit time, s => if s.committing.isSome then s else s.readForCommit time
  | .callCommit, s =>
    match s.committing with
    | none => s
    | some t => { s with committing := none }.commitTransition t
  | .clearCommittedTransition, s => s.clearCommittedTransition

/-- The transitions committed, the last one first. -/
def commits (s : EpochState) : List OrgSchemaTransition :=
  s.history.filterMap fun
    | .committed t => some t
    | .reserved _ => none

/-! ## The invariant -/

/-- A transition that is not committed is open: it was reserved, for the next epoch. -/
def Open (t : OrgSchemaTransition) (s : EpochState) : Prop :=
  t.newEpoch = s.schemaEpoch + 1 ∧ .reserved t ∈ s.history

/-- The law of the ledger, with what a commit under way has read. -/
structure Law (s : EpochState) : Prop where
  count : s.schemaEpoch = s.commits.length
  schema : s.activeOrgSchema = (s.commits.head?.map (·.targetSchema)).getD "centralized"
  active : ∀ t, s.activeTransition = some t → t.phase ≠ .committed → s.Open t
  reading : ∀ t', s.committing = some t' → ∃ t time, t' = t.advanceTo .committed (some time) ∧
    s.activeTransition = some t ∧ t.phase ≠ .committed

theorem law_start : Law {} where
  count := rfl
  schema := rfl
  active := nofun
  reading := nofun

theorem Law.beginTransition {s : EpochState} (h : s.Law) (hidle : s.committing = none)
    (target : String) (time : ℚ) : (s.beginTransition target time).Law where
  count := h.count
  schema := h.schema
  active := by
    intro t ht _
    obtain rfl := Option.some.inj ht
    exact ⟨rfl, List.mem_cons_self⟩
  reading := by
    intro t' ht'
    rw [show (s.beginTransition target time).committing = s.committing from rfl, hidle] at ht'
    cases ht'

theorem Law.readForCommit {s : EpochState} (h : s.Law) (time : ℚ) : (s.readForCommit time).Law := by
  unfold EpochState.readForCommit
  split
  · exact h
  · next t ht =>
    split
    · exact h
    · next hphase =>
      refine ⟨h.count, h.schema, h.active, ?_⟩
      intro t' ht'
      obtain rfl := Option.some.inj ht'
      exact ⟨t, time, rfl, ht, hphase⟩

theorem Law.clear {s : EpochState} (h : s.Law) : s.clearCommittedTransition.Law := by
  unfold clearCommittedTransition
  split
  · next t ht =>
    split
    · next hphase =>
      refine ⟨h.count, h.schema, nofun, ?_⟩
      intro t' ht'
      obtain ⟨t₀, time, -, hactive, hopen⟩ := h.reading t' ht'
      -- the transition a commit has read is not committed, so it is not cleared
      obtain rfl : t = t₀ := Option.some.inj (ht.symm.trans hactive)
      exact absurd hphase hopen
    · exact h
  · exact h

/-- A commit under way applies the open transition. -/
theorem Law.callCommit {s : EpochState} (h : s.Law) {t' : OrgSchemaTransition}
    (ht' : s.committing = some t') :
    t'.newEpoch = s.schemaEpoch + 1 ∧
      ∃ t, s.activeTransition = some t ∧ t.phase ≠ .committed ∧ .reserved t ∈ s.history ∧
        t'.newEpoch = t.newEpoch ∧ t'.targetSchema = t.targetSchema := by
  obtain ⟨t, time, rfl, hactive, hopen⟩ := h.reading t' ht'
  obtain ⟨hepoch, hres⟩ := h.active t hactive hopen
  exact ⟨hepoch, t, hactive, hopen, hres, rfl, rfl⟩

theorem Law.commitTransition {s : EpochState} (h : s.Law) {t' : OrgSchemaTransition}
    (ht' : s.committing = some t') :
    ({ s with committing := none }.commitTransition t').Law where
  count := by
    show t'.newEpoch = s.commits.length + 1
    rw [(h.callCommit ht').1, h.count]
  schema := rfl
  active := by
    intro t ht hopen
    obtain rfl := Option.some.inj ht
    exact absurd rfl hopen
  reading := nofun

theorem Law.exec {s : EpochState} (h : s.Law) (op : EpochOp) : (exec op s).Law := by
  cases op with
  | initiateTransition target time =>
    simp only [EpochState.exec]
    split
    · exact h
    · next hidle => exact h.beginTransition (Option.not_isSome_iff_eq_none.mp hidle) target time
  | readForCommit time =>
    simp only [EpochState.exec]
    split
    · exact h
    · exact h.readForCommit time
  | callCommit =>
    simp only [EpochState.exec]
    split
    · exact h
    · next t ht => exact h.commitTransition ht
  | clearCommittedTransition => exact h.clear

theorem law_run (ops : List EpochOp) : (Runs.run exec ops {}).Law :=
  Runs.run_invariant (C := fun _ _ => True) (fun _ op hs _ => hs.exec op) law_start
    (Runs.along_of_forall fun _ _ _ => trivial)

/-- A step that is no effective commit leaves epoch, schema and commits as they are. -/
theorem exec_of_no_commit {s : EpochState} {op : EpochOp}
    (hno : op ≠ .callCommit ∨ s.committing = none) :
    (exec op s).schemaEpoch = s.schemaEpoch ∧ (exec op s).activeOrgSchema = s.activeOrgSchema ∧
      (exec op s).commits = s.commits := by
  cases op with
  | initiateTransition target time =>
    simp only [exec]
    split <;> exact ⟨rfl, rfl, rfl⟩
  | readForCommit time =>
    simp only [exec, EpochState.readForCommit]
    (repeat' split) <;> exact ⟨rfl, rfl, rfl⟩
  | callCommit =>
    rw [exec, hno.resolve_left (fun h => h rfl)]
    exact ⟨rfl, rfl, rfl⟩
  | clearCommittedTransition =>
    simp only [exec, EpochState.clearCommittedTransition]
    (repeat' split) <;> exact ⟨rfl, rfl, rfl⟩

/-- A reservation replaced by another one, a commit with the tick loop in between, and a
second commit that is ignored. -/
example : (Runs.run exec [.initiateTransition "prosa" 1, .initiateTransition "adacor" 2,
      .readForCommit 3, .clearCommittedTransition, .callCommit, .readForCommit 4, .callCommit]
      {}).commits.map (·.targetSchema) = ["adacor"] := by
  decide

end EpochState

end EpochLedger

end MatrixFactory
