/-
# The rate of the telemetry frames

`TelemetryArtifact.broadcast` turns a frame away that comes too early after the frame whose delivery
was confirmed last.  The confirmations and the failures of the deliveries come from the sessions,
one for each of them, at any time.

So the limiter keeps the accepted frames apart as long as the confirmation of the last accepted
frame is the last to have arrived when the next frame comes within the interval; and a frame is
counted as dropped once as long as it fails at one session at most.
-/
import MatrixFactory.SessionMaps
import Mathlib.Algebra.Order.Field.Rat
import Mathlib.Tactic.Linarith

namespace MatrixFactory

open Runs

/-- `TelemetryFrameSnapshot`, as far as the artifact reads it. -/
structure TelemetryFrameSnapshot where
  payload : List UInt8
  simTimeS : ℚ
  deriving DecidableEq

structure PendingFrame (R : Type) where
  runId : R
  frameBytes : List UInt8
  simTimeS : ℚ
  deriving DecidableEq

/-- The artifact, with the frame that the consumer has taken and the sends that are under way.
`accepted` are the frames that were put into the queue, the last one first, `raised` those that have
raised the counter, and `rejected` counts the frames that found the queue full. -/
structure TelemetryArtifact (R : Type) where
  queue : List (PendingFrame R)
  droppedTelemetryFrameCount : ℕ
  lastPublishedSimTimeS : Option ℚ
  taken : Option (PendingFrame R)
  sends : List (PendingFrame R)
  accepted : List (PendingFrame R)
  raised : List (PendingFrame R)
  rejected : ℕ

/-- What can happen: a call of `broadcast`, the two steps of `consumeLoop`, with the hub as it is
then, and the completion of a send. -/
inductive TelemetryOp (σ ι τ R : Type)
  | broadcast (snap : Option TelemetryFrameSnapshot) (runId : R)
  | take
  | send (hub : TelemetryHub σ ι τ R) (entries : List (ι × R))
  | complete (i : ℕ) (isOK : Bool)

namespace TelemetryArtifact

def QUEUE_CAPACITY : ℕ := 5000

def PUBLISH_INTERVAL_S : ℚ := 1 / 18

variable {σ ι τ R : Type}

def start : TelemetryArtifact R where
  queue := []
  droppedTelemetryFrameCount := 0
  lastPublishedSimTimeS := none
  taken := none
  sends := []
  accepted := []
  raised := []
  rejected := 0

/-- The guard of `broadcast`; before the first confirmation the last time is minus infinity. -/
def tooEarly (s : TelemetryArtifact R) (simTimeS : ℚ) : Prop :=
  ∃ last ∈ s.lastPublishedSimTimeS, simTimeS - last < PUBLISH_INTERVAL_S

instance (s : TelemetryArtifact R) (simTimeS : ℚ) : Decidable (s.tooEarly simTimeS) :=
  inferInstanceAs (Decidable (∃ last ∈ s.lastPublishedSimTimeS, _))

/-- A confirmation of a delivery. -/
def confirmedDelivery (pending : PendingFrame R) (s : TelemetryArtifact R) : TelemetryArtifact R :=
  { s with lastPublishedSimTimeS := some pending.simTimeS }

/-- A failure of a delivery. -/
def failedDelivery (pending : PendingFrame R) (s : TelemetryArtifact R) : TelemetryArtifact R :=
  { s with
    droppedTelemetryFrameCount := s.droppedTelemetryFrameCount + 1
    raised := pending :: s.raised }

/-- `broadcast` on a snapshot. -/
def offer (snap : TelemetryFrameSnapshot) (runId : R) (s : TelemetryArtifact R) :
    TelemetryArtifact R :=
  if s.tooEarly snap.simTimeS then s
  else if s.queue.length < QUEUE_CAPACITY then
    { s with
      queue := s.queue ++ [⟨runId, snap.payload, snap.simTimeS⟩]
      accepted := ⟨runId, snap.payload, snap.simTimeS⟩ :: s.accepted }
  else
    { s with
      droppedTelemetryFrameCount := s.droppedTelemetryFrameCount + 1
      rejected := s.rejected + 1 }

/-- One step. -/
def exec [DecidableEq R] : TelemetryOp σ ι τ R → TelemetryArtifact R → TelemetryArtifact R
  | .broadcast none _, s => s
  | .broadcast (some snap) runId, s => s.offer snap runId
  | .take, s =>
    match s.taken, s.queue with
    | none, pending :: queue => { s with queue, taken := some pending }
    | _, _ => s
  | .send hub entries, s =>
    match s.taken with
    | none => s
    | some pending =>
      let sent := hub.broadcast pending.runId entries
      let s' := { s with taken := none, sends := s.sends ++ sent.1.map fun _ => pending }
      if sent.2 then s'.failedDelivery pending else s'
  | .complete i isOK, s =>
    match s.sends[i]? with
    | none => s
    | some pending =>
      let s' := { s with sends := s.sends.eraseIdx i }
      if isOK then s'.confirmedDelivery pending else s'.failedDelivery pending

/-- The simulation time of a call of `broadcast`. -/
def callTime : TelemetryOp σ ι τ R → Option ℚ
  | .broadcast snap _ => snap.map (·.simTimeS)
  | _ => none

/-- The accepted frames are the interval apart, and each has raised the counter once at most. -/
structure Limited [DecidableEq R] (s : TelemetryArtifact R) : Prop where
  spaced : s.accepted.Pairwise fun f g => PUBLISH_INTERVAL_S ≤ |f.simTimeS - g.simTimeS|
  counted : s.droppedTelemetryFrameCount = s.rejected + s.raised.length
  once : ∀ f ∈ s.accepted, s.raised.count f ≤ 1

/-- A frame that comes less than the interval after the last accepted one finds that one confirmed
last, or the queue full; and a send fails only if no other send of its frame has failed. -/
def Meets (s : TelemetryArtifact R) : TelemetryOp σ ι τ R → Prop
  | .broadcast (some snap) _ => QUEUE_CAPACITY ≤ s.queue.length ∨ ∀ f ∈ s.accepted.head?,
      s.lastPublishedSimTimeS = some f.simTimeS ∨ PUBLISH_INTERVAL_S ≤ snap.simTimeS - f.simTimeS
  | .complete i false => ∀ f ∈ s.sends[i]?, f ∉ s.raised
  | _ => True

instance decidableMeets [DecidableEq R] (s : TelemetryArtifact R) :
    ∀ op : TelemetryOp σ ι τ R, Decidable (s.Meets op)
  | .broadcast (some _) _ => inferInstanceAs (Decidable (_ ∨ ∀ f ∈ s.accepted.head?, _))
  | .complete i false => inferInstanceAs (Decidable (∀ f ∈ s.sends[i]?, f ∉ s.raised))
  | .broadcast none _ => .isTrue trivial
  | .take => .isTrue trivial
  | .send _ _ => .isTrue trivial
  | .complete _ true => .isTrue trivial

/-! ## Where a frame is -/

/-- A frame waits, is sent or has raised the counter after it was accepted, and what waits has
neither been sent nor raised the counter. -/
structure Tracked (s : TelemetryArtifact R) : Prop where
  published : ∀ last ∈ s.lastPublishedSimTimeS, ∃ f ∈ s.accepted, f.simTimeS = last
  decreasing : s.accepted.Pairwise fun f g => g.simTimeS < f.simTimeS
  waiting_nodup : (s.taken.toList ++ s.queue).Nodup
  waiting : ∀ f ∈ s.taken.toList ++ s.queue, f ∈ s.accepted ∧ f ∉ s.sends ∧ f ∉ s.raised
  sent : ∀ f ∈ s.sends, f ∈ s.accepted
  raised : ∀ f ∈ s.raised, f ∈ s.accepted
  counted : s.droppedTelemetryFrameCount = s.rejected + s.raised.length

theorem tracked_start : Tracked (start : TelemetryArtifact R) where
  published _ h := nomatch h
  decreasing := .nil
  waiting_nodup := .nil
  waiting _ h := nomatch h
  sent _ h := nomatch h
  raised _ h := nomatch h
  counted := rfl

variable {s : TelemetryArtifact R}

/-- A failure raises the counter. -/
theorem Tracked.failedDelivery (h : Tracked s) {pending : PendingFrame R}
    (hmem : pending ∈ s.accepted) (hgone : pending ∉ s.taken.toList ++ s.queue) :
    Tracked (s.failedDelivery pending) where
  published := h.published
  decreasing := h.decreasing
  waiting_nodup := h.waiting_nodup
  waiting f hf := by
    obtain ⟨haccepted, hsent, hraised⟩ := h.waiting f hf
    refine ⟨haccepted, hsent, ?_⟩
    rintro (_ | ⟨_, hmem⟩)
    · exact hgone hf
    · exact hraised hmem
  sent := h.sent
  raised f hf := by
    rcases List.mem_cons.mp hf with rfl | hf
    · exact hmem
    · exact h.raised f hf
  counted := by
    show s.droppedTelemetryFrameCount + 1 = s.rejected + (s.raised.length + 1)
    rw [h.counted, Nat.add_assoc]

/-- A call of `broadcast` that is not older than the frames before it. -/
theorem Tracked.offer (h : Tracked s) {snap : TelemetryFrameSnapshot} (runId : R)
    (hlater : ∀ f ∈ s.accepted, f.simTimeS < snap.simTimeS) : Tracked (s.offer snap runId) := by
  unfold TelemetryArtifact.offer
  split_ifs with hearly hroom
  · exact h
  · have hnew : (⟨runId, snap.payload, snap.simTimeS⟩ : PendingFrame R) ∉ s.accepted :=
      fun hmem => lt_irrefl _ (hlater _ hmem)
    refine ⟨fun last hlast => ?_, List.pairwise_cons.mpr ⟨hlater, h.decreasing⟩, ?_, ?_, ?_, ?_,
      h.counted⟩
    · obtain ⟨f, hf, htime⟩ := h.published last hlast
      exact ⟨f, List.mem_cons_of_mem _ hf, htime⟩
    · show (s.taken.toList ++ (s.queue ++ [_])).Nodup
      rw [← List.append_assoc]
      refine List.nodup_append.mpr ⟨h.waiting_nodup, List.nodup_singleton _, ?_⟩
      rintro f hf g hg rfl
      rw [List.mem_singleton.mp hg] at hf
      exact hnew (h.waiting _ hf).1
    · intro f hf
      have hf : f ∈ (s.taken.toList ++ s.queue) ++ [⟨runId, snap.payload, snap.simTimeS⟩] := by
        rw [List.append_assoc]
        exact hf
      rcases List.mem_append.mp hf with hf | hf
      · obtain ⟨haccepted, hrest⟩ := h.waiting f hf
        exact ⟨List.mem_cons_of_mem _ haccepted, hrest⟩
      · rw [List.mem_singleton.mp hf]
        exact ⟨List.mem_cons_self, fun hmem => hnew (h.sent _ hmem),
          fun hmem => hnew (h.raised _ hmem)⟩
    · exact fun f hf => List.mem_cons_of_mem _ (h.sent f hf)
    · exact fun f hf => List.mem_cons_of_mem _ (h.raised f hf)
  · refine ⟨h.published, h.decreasing, h.waiting_nodup, h.waiting, h.sent, h.raised, ?_⟩
    show s.droppedTelemetryFrameCount + 1 = s.rejected + 1 + s.raised.length
    rw [h.counted]
    omega

/-- The taken frame is sent to the sessions, or there is none. -/
theorem Tracked.send (h : Tracked s) {pending : PendingFrame R} (htaken : s.taken = some pending)
    (n : ℕ) (failed : Bool) :
    let s' := { s with taken := none, sends := s.sends ++ List.replicate n pending }
    Tracked (if failed then s'.failedDelivery pending else s') := by
  intro s'
  have hall := h.waiting
  have hnodup := h.waiting_nodup
  rw [htaken, Option.toList_some, List.singleton_append] at hall hnodup
  obtain ⟨hgone, hqueue⟩ := List.nodup_cons.mp hnodup
  obtain ⟨haccepted, hsent, hraised⟩ := hall pending List.mem_cons_self
  have hmem : ∀ f ∈ s'.sends, f ∈ s.sends ∨ f = pending := fun f hf =>
    (List.mem_append.mp hf).imp id List.eq_of_mem_replicate
  have h' : Tracked s' := by
    refine ⟨h.published, h.decreasing, hqueue, fun f hf => ?_, fun f hf => ?_, h.raised, h.counted⟩
    · have hf : f ∈ s.queue := hf
      obtain ⟨hfaccepted, hfsent, hfraised⟩ := hall f (List.mem_cons_of_mem _ hf)
      refine ⟨hfaccepted, fun hsends => ?_, hfraised⟩
      rcases hmem f hsends with hsends | rfl
      · exact hfsent hsends
      · exact hgone hf
    · rcases hmem f hf with hf | rfl
      · exact h.sent f hf
      · exact haccepted
  split_ifs
  · exact h'.failedDelivery haccepted hgone
  · exact h'

/-- A send is completed. -/
theorem Tracked.complete (h : Tracked s) {i : ℕ} {pending : PendingFrame R}
    (hi : s.sends[i]? = some pending) (isOK : Bool) :
    let s' := { s with sends := s.sends.eraseIdx i }
    Tracked (if isOK then s'.confirmedDelivery pending else s'.failedDelivery pending) := by
  intro s'
  have hsends : pending ∈ s.sends := List.mem_of_getElem? hi
  have haccepted := h.sent pending hsends
  have hgone : pending ∉ s.taken.toList ++ s.queue :=
    fun hmem => (h.waiting pending hmem).2.1 hsends
  have hsub : ∀ f ∈ s'.sends, f ∈ s.sends := fun f hf => List.mem_of_mem_eraseIdx hf
  have h' : Tracked s' := by
    refine ⟨h.published, h.decreasing, h.waiting_nodup, fun f hf => ?_,
      fun f hf => h.sent f (hsub f hf), h.raised, h.counted⟩
    obtain ⟨hfaccepted, hfsent, hfraised⟩ := h.waiting f hf
    exact ⟨hfaccepted, fun hmem => hfsent (hsub f hmem), hfraised⟩
  split_ifs
  · refine ⟨fun last hlast => ?_, h'.decreasing, h'.waiting_nodup, h'.waiting, h'.sent, h'.raised,
      h'.counted⟩
    exact ⟨pending, haccepted, Option.some.inj hlast⟩
  · exact h'.failedDelivery haccepted hgone

variable [DecidableEq R]

/-- **One step keeps track of the frames.** -/
theorem Tracked.exec (h : Tracked s) {op : TelemetryOp σ ι τ R}
    (hlater : ∀ t ∈ callTime op, ∀ f ∈ s.accepted, f.simTimeS < t) : Tracked (s.exec op) := by
  cases op with
  | broadcast snap runId =>
    cases snap with
    | none => exact h
    | some snap => exact h.offer runId (hlater snap.simTimeS rfl)
  | take =>
    simp only [TelemetryArtifact.exec]
    split
    next pending queue htaken hqueue =>
      have hnodup := h.waiting_nodup
      have hall := h.waiting
      rw [htaken, hqueue] at hnodup hall
      exact ⟨h.published, h.decreasing, hnodup, hall, h.sent, h.raised, h.counted⟩
    next => exact h
  | send hub entries =>
    simp only [TelemetryArtifact.exec]
    split
    next => exact h
    next pending htaken =>
      have hsent : (hub.broadcast pending.runId entries).1.map (fun _ => pending) =
          List.replicate (hub.broadcast pending.runId entries).1.length pending :=
        List.map_const'
      simp only [hsent]
      exact h.send htaken _ _
  | complete i isOK =>
    simp only [TelemetryArtifact.exec]
    split
    next => exact h
    next pending hi => exact h.complete hi isOK

/-! ## One step of the limiter -/

/-- A failure is counted once iff it is the first one of its frame. -/
theorem limited_failedDelivery (hl : Limited s) {pending : PendingFrame R}
    (hmem : pending ∈ s.accepted) :
    Limited (s.failedDelivery pending) ↔ pending ∉ s.raised := by
  constructor
  · intro hl'
    have honce : (pending :: s.raised).count pending ≤ 1 := hl'.once pending hmem
    rw [List.count_cons_self] at honce
    exact List.count_eq_zero.mp (by omega)
  · intro hnew
    refine ⟨hl.spaced, ?_, fun f hf => ?_⟩
    · show s.droppedTelemetryFrameCount + 1 = s.rejected + (s.raised.length + 1)
      rw [hl.counted, Nat.add_assoc]
    · show (pending :: s.raised).count f ≤ 1
      by_cases hf' : f = pending
      · rw [hf', List.count_cons_self, List.count_eq_zero.mpr hnew]
      · rw [List.count_cons_of_ne (Ne.symm hf')]
        exact hl.once f hf

/-- Every accepted frame other than the last one is the interval older than it. -/
theorem older_of_limited (h : Tracked s) (hl : Limited s) {f g : PendingFrame R}
    (hf : f ∈ s.accepted.head?) (hg : g ∈ s.accepted) :
    g = f ∨ PUBLISH_INTERVAL_S ≤ f.simTimeS - g.simTimeS := by
  obtain ⟨older, hcons⟩ := List.head?_eq_some_iff.mp hf
  have hdecreasing := h.decreasing
  have hspaced := hl.spaced
  rw [hcons] at hdecreasing hspaced hg
  rcases List.mem_cons.mp hg with rfl | hg
  · exact .inl rfl
  · have hlt : g.simTimeS < f.simTimeS := (List.pairwise_cons.mp hdecreasing).1 g hg
    have hapart := (List.pairwise_cons.mp hspaced).1 g hg
    rw [abs_of_pos (sub_pos.mpr hlt)] at hapart
    exact .inr hapart

/-- **A call of `broadcast`** keeps the frames apart iff it meets its condition. -/
theorem limited_offer (h : Tracked s) (hl : Limited s) {snap : TelemetryFrameSnapshot} (runId : R)
    (hlater : ∀ f ∈ s.accepted, f.simTimeS < snap.simTimeS) :
    Limited (s.offer snap runId) ↔ QUEUE_CAPACITY ≤ s.queue.length ∨ ∀ f ∈ s.accepted.head?,
      s.lastPublishedSimTimeS = some f.simTimeS ∨
        PUBLISH_INTERVAL_S ≤ snap.simTimeS - f.simTimeS := by
  have hcounted := (h.offer runId hlater).counted
  unfold TelemetryArtifact.offer at hcounted ⊢
  split_ifs at hcounted ⊢ with hearly hroom
  · -- the limiter turns the call away: its last time is that of the last frame
    obtain ⟨last, hlast, hlt⟩ := hearly
    obtain ⟨g, hg, rfl⟩ := h.published last hlast
    refine iff_of_true hl (.inr fun f hf => .inl ?_)
    rcases older_of_limited h hl hf hg with rfl | holder
    · exact hlast
    · have hnewer := hlater f (List.mem_of_mem_head? hf)
      exact absurd hlt (not_lt.mpr (by linarith))
  · have hfull : ¬QUEUE_CAPACITY ≤ s.queue.length := not_le.mpr hroom
    rw [or_iff_right hfull]
    constructor
    · intro hl' f hf
      have hmem := List.mem_of_mem_head? hf
      have hapart := (List.pairwise_cons.mp hl'.spaced).1 f hmem
      rw [abs_of_pos (sub_pos.mpr (hlater f hmem))] at hapart
      exact .inr hapart
    · intro hmeets
      have hapart : ∀ g ∈ s.accepted, PUBLISH_INTERVAL_S ≤ snap.simTimeS - g.simTimeS := by
        intro g hg
        obtain ⟨f, hf⟩ := Option.isSome_iff_exists.mp
          (List.isSome_head?.mpr (List.ne_nil_of_mem hg))
        have hfirst : PUBLISH_INTERVAL_S ≤ snap.simTimeS - f.simTimeS := by
          rcases hmeets f hf with hlast | hfirst
          · exact not_lt.mp fun hlt => hearly ⟨f.simTimeS, hlast, hlt⟩
          · exact hfirst
        rcases older_of_limited h hl hf hg with rfl | holder
        · exact hfirst
        · have hpos : (0 : ℚ) < PUBLISH_INTERVAL_S := by
            unfold PUBLISH_INTERVAL_S
            norm_num
          linarith
      refine ⟨List.pairwise_cons.mpr ⟨fun g hg => ?_, hl.spaced⟩, hcounted, fun f hf => ?_⟩
      · exact (hapart g hg).trans (le_abs_self _)
      · rcases List.mem_cons.mp hf with rfl | hf
        · have hnew : (⟨runId, snap.payload, snap.simTimeS⟩ : PendingFrame R) ∉ s.raised :=
            fun hmem => lt_irrefl _ (hlater _ (h.raised _ hmem))
          show s.raised.count _ ≤ 1
          rw [List.count_eq_zero.mpr hnew]
          exact Nat.zero_le 1
        · exact hl.once f hf
  · exact iff_of_true ⟨hl.spaced, hcounted, hl.once⟩ (.inl (not_lt.mp hroom))

/-- **One step keeps the limits** iff it meets its condition. -/
theorem limited_exec (h : Tracked s) (hl : Limited s) {op : TelemetryOp σ ι τ R}
    (hlater : ∀ t ∈ callTime op, ∀ f ∈ s.accepted, f.simTimeS < t) :
    Limited (s.exec op) ↔ s.Meets op := by
  cases op with
  | broadcast snap runId =>
    cases snap with
    | none => exact iff_of_true hl trivial
    | some snap => exact limited_offer h hl runId (hlater snap.simTimeS rfl)
  | take =>
    refine iff_of_true ?_ trivial
    simp only [TelemetryArtifact.exec]
    split
    · exact ⟨hl.spaced, hl.counted, hl.once⟩
    · exact hl
  | send hub entries =>
    refine iff_of_true ?_ trivial
    simp only [TelemetryArtifact.exec]
    split
    next => exact hl
    next pending htaken =>
      obtain ⟨haccepted, -, hraised⟩ := h.waiting pending (by
        rw [htaken]
        exact List.mem_cons_self)
      split_ifs
      · exact (limited_failedDelivery
          (s := { s with taken := none, sends := s.sends ++ _ })
          ⟨hl.spaced, hl.counted, hl.once⟩ haccepted).mpr hraised
      · exact ⟨hl.spaced, hl.counted, hl.once⟩
  | complete i isOK =>
    cases isOK with
    | true =>
      refine iff_of_true ?_ trivial
      simp only [TelemetryArtifact.exec]
      split
      · exact hl
      · exact ⟨hl.spaced, hl.counted, hl.once⟩
    | false =>
      simp only [TelemetryArtifact.exec, Meets]
      split
      next hi => exact iff_of_true hl (by simp [hi])
      next pending hi =>
        have haccepted : pending ∈ s.accepted := h.sent pending (List.mem_of_getElem? hi)
        have hiff := limited_failedDelivery
          (s := { s with sends := s.sends.eraseIdx i }) ⟨hl.spaced, hl.counted, hl.once⟩ haccepted
        simp only [Bool.false_eq_true, if_false, hi, Option.mem_some_iff, forall_eq']
        exact hiff

/-! ## The runs -/

/-- An accepted frame was accepted before, or is that of the call. -/
theorem accepted_exec (s : TelemetryArtifact R) (op : TelemetryOp σ ι τ R) :
    ∀ f ∈ (s.exec op).accepted, f ∈ s.accepted ∨ f.simTimeS ∈ callTime op := by
  intro f hf
  cases op with
  | broadcast snap runId =>
    cases snap with
    | none => exact .inl hf
    | some snap =>
      simp only [TelemetryArtifact.exec, TelemetryArtifact.offer] at hf
      split_ifs at hf
      · exact .inl hf
      · rcases List.mem_cons.mp hf with rfl | hf
        · exact .inr rfl
        · exact .inl hf
      · exact .inl hf
  | take =>
    simp only [TelemetryArtifact.exec] at hf
    split at hf
    · exact .inl hf
    · exact .inl hf
  | send hub entries =>
    simp only [TelemetryArtifact.exec] at hf
    split at hf
    · exact .inl hf
    · split_ifs at hf
      · exact .inl hf
      · exact .inl hf
  | complete i isOK =>
    simp only [TelemetryArtifact.exec] at hf
    split at hf
    · exact .inl hf
    · split_ifs at hf
      · exact .inl hf
      · exact .inl hf

theorem limited_start : Limited (start : TelemetryArtifact R) :=
  ⟨.nil, rfl, fun _ h => nomatch h⟩

/-- A run from a state that is tracked and within the limits. -/
theorem limited_run (ops : List (TelemetryOp σ ι τ R)) {s : TelemetryArtifact R} (h : Tracked s)
    (hl : Limited s) (hinc : (ops.filterMap callTime).Pairwise (· < ·))
    (hlater : ∀ t ∈ ops.filterMap callTime, ∀ f ∈ s.accepted, f.simTimeS < t) :
    (∀ before, before <+: ops → Limited (run exec before s)) ↔ Along exec Meets s ops := by
  -- induction on the run; a step that breaks the limits is the first that misses its condition
  induction ops generalizing s with
  | nil =>
    refine iff_of_true (fun before hbefore => ?_) trivial
    rw [List.prefix_nil.mp hbefore]
    exact hl
  | cons op ops ih =>
    have hnow : ∀ t ∈ callTime op, ∀ f ∈ s.accepted, f.simTimeS < t :=
      fun t ht => hlater t (List.mem_filterMap.mpr ⟨op, List.mem_cons_self, ht⟩)
    have hops : ∀ t ∈ ops.filterMap callTime, ∀ t' ∈ callTime op, t' < t := by
      intro t ht t' ht'
      rw [List.filterMap_cons_some ht'] at hinc
      exact (List.pairwise_cons.mp hinc).1 t ht
    have hinc' : (ops.filterMap callTime).Pairwise (· < ·) :=
      hinc.sublist ((List.sublist_cons_self op ops).filterMap callTime)
    have hlater' : ∀ t ∈ ops.filterMap callTime, ∀ f ∈ (s.exec op).accepted, f.simTimeS < t := by
      intro t ht f hf
      rcases accepted_exec s op f hf with hf | hf
      · obtain ⟨op', hop', ht'⟩ := List.mem_filterMap.mp ht
        exact hlater t (List.mem_filterMap.mpr ⟨op', List.mem_cons_of_mem _ hop', ht'⟩) f hf
      · exact hops t ht f.simTimeS hf
    have hsplit : (∀ before, before <+: op :: ops → Limited (run exec before s)) ↔
        ∀ before, before <+: ops → Limited (run exec before (s.exec op)) := by
      constructor
      · intro hall before hbefore
        exact hall (op :: before) (List.cons_prefix_cons.mpr ⟨rfl, hbefore⟩)
      · intro hall before hbefore
        cases before with
        | nil => exact hl
        | cons op' before =>
          obtain ⟨rfl, htail⟩ := List.cons_prefix_cons.mp hbefore
          exact hall before htail
    rw [hsplit, along_cons, ← limited_exec h hl hnow]
    constructor
    · intro hall
      have hl' : Limited (s.exec op) := hall [] List.nil_prefix
      exact ⟨hl', (ih (h.exec hnow) hl' hinc' hlater').mp hall⟩
    · rintro ⟨hl', halong⟩
      exact (ih (h.exec hnow) hl' hinc' hlater').mpr halong

/-- **The limiter keeps its limits in every state of a run** iff every step meets its condition. -/
theorem limited_iff (ops : List (TelemetryOp σ ι τ R))
    (hinc : (ops.filterMap callTime).Pairwise (· < ·)) :
    (∀ before, before <+: ops → Limited (run exec before start)) ↔ Along exec Meets start ops :=
  limited_run ops tracked_start limited_start hinc fun _ _ _ hf => nomatch hf

/-- A hub with two open sessions of the run 0. -/
def twoSessions : TelemetryHub ℕ ℕ ℕ ℕ where
  sessionsById i := if i < 2 then some i else none
  runIdBySessionId i := if i < 2 then some 0 else none
  sessionByClientToken i := if i < 2 then some i else none
  isOpen _ := true

/-- A frame that fails at one of two sessions, and the next one after its confirmation. -/
def confirmedRun : List (TelemetryOp ℕ ℕ ℕ ℕ) :=
  [.broadcast (some ⟨[1], 0⟩) 0, .take, .send twoSessions [(0, 0), (1, 0)], .complete 0 false,
    .complete 0 true, .broadcast (some ⟨[2], 1 / 36⟩) 0, .broadcast (some ⟨[3], 1 / 18⟩) 0]

theorem limited_iff_confirmed : Limited (run exec confirmedRun start) :=
  (limited_iff confirmedRun (by decide +kernel)).mpr (by decide +kernel) _ List.prefix_rfl

/-- Two frames come before the first one is confirmed, and a frame fails at both sessions. -/
theorem not_limited :
    ¬Limited (run exec ([.broadcast (some ⟨[1], 0⟩) 0, .broadcast (some ⟨[2], 1 / 36⟩) 0] :
        List (TelemetryOp ℕ ℕ ℕ ℕ)) start) ∧
      ¬Limited (run exec ([.broadcast (some ⟨[1], 0⟩) 0, .take,
        .send twoSessions [(0, 0), (1, 0)], .complete 0 false, .complete 0 false] :
          List (TelemetryOp ℕ ℕ ℕ ℕ)) start) := by
  constructor
  · intro h
    have hspaced := h.spaced
    revert hspaced
    decide +kernel
  · intro h
    have honce := h.once
    revert honce
    decide

end TelemetryArtifact

end MatrixFactory
