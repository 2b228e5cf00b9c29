/-
# The frames in their order

`TelemetryArtifact` puts the accepted frames into a bounded queue, and its one consumer takes them
out and hands each of them to the hub, which sends it to the sessions of its run.

The log of what was handed over and sent to whom follows the artifact through any interleaving of
calls, takes, sends and confirmations.  What was handed over, what the consumer holds and what waits
are the accepted frames in their order.  A session gets frames in that order and none of them
twice, and one that stays registered and open gets all those of its run.
-/
import MatrixFactory.TelemetryRate

namespace MatrixFactory

open Runs

/-- The artifact, with the frames that were handed to the hub and those that were sent to a session,
the oldest first. -/
structure DeliveryLog (σ R : Type) where
  artifact : TelemetryArtifact R
  handed : List (PendingFrame R)
  received : List (σ × PendingFrame R)

namespace TelemetryOp

variable {σ ι τ R : Type}

/-- The frame that a step hands to the hub. -/
def handedBy : TelemetryOp σ ι τ R → Option (PendingFrame R) → List (PendingFrame R)
  | .send _ _, taken => taken.toList
  | _, _ => []

/-- The sessions that a step sends the frame to. -/
def sentBy [DecidableEq R] :
    TelemetryOp σ ι τ R → Option (PendingFrame R) → List (σ × PendingFrame R)
  | .send hub entries, some pending =>
    (hub.broadcast pending.runId entries).1.map fun x => (x, pending)
  | _, _ => []

/-- A send finds the maps of the hub as its calls leave them, and goes over the entries of one. -/
def HubHolds (getId : σ → ι) : TelemetryOp σ ι τ R → Prop
  | .send hub entries => (∃ registered, hub.Holds getId registered) ∧
      TelemetryHub.EntrySet hub.runIdBySessionId entries
  | _ => True

/-- The session is registered for the run of a frame and open when it is sent. -/
def Reaches (getId : σ → ι) (x : σ) (runId : R) : TelemetryOp σ ι τ R → Prop
  | .send hub _ => hub.runIdBySessionId (getId x) = some runId ∧ hub.isOpen x
  | _ => True

instance decidableReaches [DecidableEq R] (getId : σ → ι) (x : σ) (runId : R) :
    ∀ op : TelemetryOp σ ι τ R, Decidable (op.Reaches getId x runId)
  | .send hub _ =>
    inferInstanceAs (Decidable (hub.runIdBySessionId (getId x) = some runId ∧ hub.isOpen x))
  | .broadcast _ _ => .isTrue trivial
  | .take => .isTrue trivial
  | .complete _ _ => .isTrue trivial

end TelemetryOp

/-! ## One step of the artifact -/

/-- **One step** hands over the frames at the front of those that wait, and puts the accepted ones
behind them. -/
theorem TelemetryArtifact.flow_exec {σ ι τ R : Type} [DecidableEq R] (op : TelemetryOp σ ι τ R)
    {s : TelemetryArtifact R} (hroom : s.queue.length ≤ TelemetryArtifact.QUEUE_CAPACITY) :
    ∃ added, op.handedBy s.taken ++ ((s.exec op).taken.toList ++ (s.exec op).queue) =
        s.taken.toList ++ s.queue ++ added ∧
      (s.exec op).accepted = added.reverse ++ s.accepted ∧
      (s.exec op).queue.length ≤ TelemetryArtifact.QUEUE_CAPACITY := by
  have hsame : ∀ (taken : Option (PendingFrame R)) (queue : List (PendingFrame R)),
      taken.toList ++ queue = s.taken.toList ++ s.queue →
        taken.toList ++ queue = s.taken.toList ++ s.queue ++ [] := fun _ _ h => by
    rw [h, List.append_nil]
  cases op with
  | broadcast snap runId =>
    cases snap with
    | none => exact ⟨[], hsame _ _ rfl, rfl, hroom⟩
    | some snap =>
      simp only [TelemetryArtifact.exec, TelemetryArtifact.offer]
      split_ifs with hearly hfree
      · exact ⟨[], hsame _ _ rfl, rfl, hroom⟩
      · refine ⟨[⟨runId, snap.payload, snap.simTimeS⟩], ?_, rfl, ?_⟩
        · show s.taken.toList ++ (s.queue ++ [_]) = _
          rw [← List.append_assoc]
        · rw [List.length_append]
          exact hfree
      · exact ⟨[], hsame _ _ rfl, rfl, hroom⟩
  | take =>
    simp only [TelemetryArtifact.exec]
    split
    next pending queue htaken hqueue =>
      rw [hqueue, List.length_cons] at hroom
      refine ⟨[], hsame _ _ ?_, rfl, Nat.le_of_succ_le hroom⟩
      rw [htaken, hqueue]
      rfl
    next => exact ⟨[], hsame _ _ rfl, rfl, hroom⟩
  | send hub entries =>
    simp only [TelemetryArtifact.exec, TelemetryOp.handedBy]
    split
    next htaken =>
      refine ⟨[], ?_, rfl, hroom⟩
      rw [htaken, List.append_nil]
      rfl
    next pending htaken =>
      refine ⟨[], ?_, ?_, ?_⟩
      · rw [htaken, List.append_nil]
        split_ifs <;> rfl
      · split_ifs <;> rfl
      · split_ifs <;> exact hroom
  | complete i isOK =>
    simp only [TelemetryArtifact.exec]
    split
    next => exact ⟨[], hsame _ _ rfl, rfl, hroom⟩
    next pending hi =>
      refine ⟨[], ?_, ?_, ?_⟩
      · rw [List.append_nil]
        split_ifs <;> rfl
      · split_ifs <;> rfl
      · split_ifs <;> exact hroom

/-- Calls with increasing times keep track of the frames. -/
theorem TelemetryArtifact.tracked_run {σ ι τ R : Type} [DecidableEq R]
    {ops : List (TelemetryOp σ ι τ R)} (hinc : (ops.filterMap callTime).Pairwise (· < ·))
    {s : TelemetryArtifact R} (h : s.Tracked)
    (hlater : ∀ t ∈ ops.filterMap callTime, ∀ f ∈ s.accepted, f.simTimeS < t) :
    (run TelemetryArtifact.exec ops s).Tracked := by
  induction ops generalizing s with
  | nil => exact h
  | cons op ops ih =>
    have hinc' : (ops.filterMap callTime).Pairwise (· < ·) :=
      hinc.sublist ((List.sublist_cons_self op ops).filterMap callTime)
    have hnow : ∀ t ∈ callTime op, ∀ f ∈ s.accepted, f.simTimeS < t :=
      fun t ht => hlater t (List.mem_filterMap.mpr ⟨op, List.mem_cons_self, ht⟩)
    refine ih hinc' (h.exec hnow) fun t ht f hf => ?_
    rcases accepted_exec s op f hf with hf | hf
    · obtain ⟨op', hop', ht'⟩ := List.mem_filterMap.mp ht
      exact hlater t (List.mem_filterMap.mpr ⟨op', List.mem_cons_of_mem _ hop', ht'⟩) f hf
    · rw [List.filterMap_cons_some hf] at hinc
      exact (List.pairwise_cons.mp hinc).1 t ht

namespace TelemetryOp

variable {σ ι τ R : Type} [DecidableEq σ] [DecidableEq R] {getId : σ → ι}

/-- The frames that a session got. -/
def receivedBy (x : σ) (received : List (σ × PendingFrame R)) : List (PendingFrame R) :=
  (received.filter fun e => e.1 = x).map (·.2)

omit [DecidableEq R] in
theorem receivedBy_append (x : σ) (l l' : List (σ × PendingFrame R)) :
    receivedBy x (l ++ l') = receivedBy x l ++ receivedBy x l' := by
  rw [receivedBy, List.filter_append, List.map_append]
  rfl

omit [DecidableEq R] in
theorem receivedBy_map (x : σ) (sessions : List σ) (f : PendingFrame R) :
    receivedBy x (sessions.map fun y => (y, f)) = List.replicate (sessions.count x) f := by
  induction sessions with
  | nil => rfl
  | cons y sessions ih =>
    by_cases hy : y = x
    · rw [hy, List.count_cons_self, List.replicate_succ, ← ih]
      simp [receivedBy]
    · rw [List.count_cons_of_ne hy, ← ih]
      simp [receivedBy, hy]

/-- **A send** gives a session the frame once if it reaches it, and not else. -/
theorem receivedBy_sentBy {op : TelemetryOp σ ι τ R} (hop : op.HubHolds getId) (x : σ)
    (taken : Option (PendingFrame R)) :
    receivedBy x (op.sentBy taken) =
      (op.handedBy taken).filter fun f => op.Reaches getId x f.runId := by
  cases op with
  | send hub entries =>
    cases taken with
    | none => rfl
    | some pending =>
      obtain ⟨⟨registered, hholds⟩, hentries⟩ := hop
      rw [sentBy, receivedBy_map, TelemetryHub.count_broadcast hholds pending.runId hentries x,
        ← hholds.runIds]
      by_cases hreach : hub.runIdBySessionId (getId x) = some pending.runId ∧ hub.isOpen x
      · simp [handedBy, Reaches, hreach]
      · rw [if_neg hreach]
        simp [handedBy, Reaches, hreach]
  | _ => rfl

end TelemetryOp

namespace DeliveryLog

variable {σ ι τ R : Type} [DecidableEq R]

def start : DeliveryLog σ R := ⟨.start, [], []⟩

/-- One step of the artifact, logged. -/
def exec (op : TelemetryOp σ ι τ R) (l : DeliveryLog σ R) : DeliveryLog σ R where
  artifact := l.artifact.exec op
  handed := l.handed ++ op.handedBy l.artifact.taken
  received := l.received ++ op.sentBy l.artifact.taken

theorem artifact_run (ops : List (TelemetryOp σ ι τ R)) (l : DeliveryLog σ R) :
    (run exec ops l).artifact = run TelemetryArtifact.exec ops l.artifact := by
  induction ops generalizing l with
  | nil => rfl
  | cons op ops ih => exact ih (l.exec op)

/-! ## First in, first out -/

/-- The frames are handed over in the order of their acceptance, and the queue is bounded. -/
structure InOrder (l : DeliveryLog σ R) : Prop where
  fifo : l.handed ++ l.artifact.taken.toList ++ l.artifact.queue = l.artifact.accepted.reverse
  bounded : l.artifact.queue.length ≤ TelemetryArtifact.QUEUE_CAPACITY

omit [DecidableEq R] in
theorem inOrder_start : InOrder (start : DeliveryLog σ R) := ⟨rfl, Nat.zero_le _⟩

theorem InOrder.exec {l : DeliveryLog σ R} (h : InOrder l) (op : TelemetryOp σ ι τ R) :
    InOrder (l.exec op) := by
  obtain ⟨added, hflow, haccepted, hroom⟩ := TelemetryArtifact.flow_exec op h.bounded
  refine ⟨?_, hroom⟩
  calc (l.exec op).handed ++ (l.exec op).artifact.taken.toList ++ (l.exec op).artifact.queue
      = l.handed ++ (op.handedBy l.artifact.taken ++
          ((l.artifact.exec op).taken.toList ++ (l.artifact.exec op).queue)) := by
        simp only [DeliveryLog.exec, List.append_assoc]
    _ = l.handed ++ l.artifact.taken.toList ++ l.artifact.queue ++ added := by
        rw [hflow]
        simp only [List.append_assoc]
    _ = (l.exec op).artifact.accepted.reverse := by
        rw [h.fifo, DeliveryLog.exec, haccepted, List.reverse_append, List.reverse_reverse]

theorem inOrder_run (ops : List (TelemetryOp σ ι τ R)) {l : DeliveryLog σ R} (h : InOrder l) :
    InOrder (run exec ops l) := by
  induction ops generalizing l with
  | nil => exact h
  | cons op ops ih => exact ih (h.exec op)

/-! ## What a session gets -/

variable [DecidableEq σ] {getId : σ → ι}

/-- The frames that a session got are handed over ones, in their order. -/
theorem sublist_run {ops : List (TelemetryOp σ ι τ R)} (hops : ∀ op ∈ ops, op.HubHolds getId)
    (x : σ) {l : DeliveryLog σ R} (h : (TelemetryOp.receivedBy x l.received).Sublist l.handed) :
    (TelemetryOp.receivedBy x (run exec ops l).received).Sublist (run exec ops l).handed := by
  induction ops generalizing l with
  | nil => exact h
  | cons op ops ih =>
    refine ih (fun o ho => hops o (List.mem_cons_of_mem _ ho)) ?_
    rw [exec, TelemetryOp.receivedBy_append,
      TelemetryOp.receivedBy_sentBy (hops op List.mem_cons_self)]
    exact h.append List.filter_sublist

/-- A session that every send finds registered for a run and open gets all frames of it. -/
theorem steady_run {ops : List (TelemetryOp σ ι τ R)} (hops : ∀ op ∈ ops, op.HubHolds getId)
    {x : σ} {runId : R} (hsteady : ∀ op ∈ ops, op.Reaches getId x runId) {l : DeliveryLog σ R}
    (h : TelemetryOp.receivedBy x l.received = l.handed.filter (·.runId = runId)) :
    TelemetryOp.receivedBy x (run exec ops l).received =
      (run exec ops l).handed.filter (·.runId = runId) := by
  induction ops generalizing l with
  | nil => exact h
  | cons op ops ih =>
    refine ih (fun o ho => hops o (List.mem_cons_of_mem _ ho))
      (fun o ho => hsteady o (List.mem_cons_of_mem _ ho)) ?_
    have hfilter : (op.handedBy l.artifact.taken).filter
        (fun f => op.Reaches getId x f.runId) =
        (op.handedBy l.artifact.taken).filter (·.runId = runId) := by
      have hreach := hsteady op List.mem_cons_self
      cases op with
      | send hub entries =>
        refine List.filter_congr fun f _ => decide_eq_decide.mpr ?_
        rw [TelemetryOp.Reaches, hreach.1, Option.some.injEq, eq_comm]
        exact and_iff_left hreach.2
      | _ => rfl
    rw [exec, TelemetryOp.receivedBy_append,
      TelemetryOp.receivedBy_sentBy (hops op List.mem_cons_self), h, hfilter, List.filter_append]

/-- **The frames reach the sessions in the order of their times, each once.**  In every state of
every run whose calls of `broadcast` come with increasing times: what was handed to the hub, what
the consumer holds and what waits in the bounded queue are the accepted frames in their order; the
frames that a session got are some of those, later ones later; and one that every send found
registered for a run and open got all frames of the run that were handed over. -/
theorem frames_in_order {ops : List (TelemetryOp σ ι τ R)}
    (hinc : (ops.filterMap TelemetryArtifact.callTime).Pairwise (· < ·))
    (hhubs : ∀ op ∈ ops, op.HubHolds getId) :
    let l := run exec ops start
    (l.handed ++ l.artifact.taken.toList ++ l.artifact.queue = l.artifact.accepted.reverse ∧
        l.artifact.queue.length ≤ TelemetryArtifact.QUEUE_CAPACITY) ∧
      (∀ x, (TelemetryOp.receivedBy x l.received).Sublist l.handed ∧
        (TelemetryOp.receivedBy x l.received).Pairwise fun f g => f.simTimeS < g.simTimeS) ∧
      ∀ x runId, (∀ op ∈ ops, op.Reaches getId x runId) →
        TelemetryOp.receivedBy x l.received = l.handed.filter (·.runId = runId) := by
  intro l
  have horder : InOrder l := inOrder_run ops inOrder_start
  have htracked : l.artifact.Tracked := by
    rw [artifact_run]
    exact TelemetryArtifact.tracked_run hinc TelemetryArtifact.tracked_start
      fun _ _ _ hf => nomatch hf
  have hincreasing : l.handed.Pairwise fun f g => f.simTimeS < g.simTimeS := by
    have hall := List.pairwise_reverse.mpr htracked.decreasing
    rw [← horder.fifo, List.append_assoc] at hall
    exact (List.pairwise_append.mp hall).1
  refine ⟨⟨horder.fifo, horder.bounded⟩, fun x => ?_, fun x runId hsteady => ?_⟩
  · have hsub := sublist_run hhubs x (l := start) (List.Sublist.refl _)
    exact ⟨hsub, hincreasing.sublist hsub⟩
  · exact steady_run hhubs hsteady rfl

/-- A hub with one open session of the run 0. -/
def oneSession : TelemetryHub ℕ ℕ ℕ ℕ :=
  { TelemetryHub.empty.register id 7 0 1 true with isOpen := fun _ => true }

theorem oneSession_holds : (TelemetryOp.send oneSession [(7, 0)]).HubHolds id := by
  have hempty : TelemetryHub.Holds id (TelemetryHub.empty : TelemetryHub ℕ ℕ ℕ ℕ) fun _ => none :=
    TelemetryHub.holds_empty
  obtain ⟨hsessions, hrunIds, hnone, htokens⟩ := hempty.register Function.injective_id 7 0 1 true
  refine ⟨⟨_, hsessions, hrunIds, hnone, htokens⟩, ?_⟩
  refine ⟨List.nodup_singleton _, fun i r => ?_⟩
  rw [List.mem_singleton, Prod.mk.injEq]
  show _ ↔ Function.update (fun _ => none) 7 (some 0) i = some r
  by_cases hi : i = 7
  · rw [hi, Function.update_self]
    simp [eq_comm]
  · rw [Function.update_of_ne hi]
    simp [hi]

/-- Two frames, of which the first one is sent. -/
theorem frames_in_order_one :
    let ops : List (TelemetryOp ℕ ℕ ℕ ℕ) := [.broadcast (some ⟨[1], 0⟩) 0, .take,
      .send oneSession [(7, 0)], .complete 0 true, .broadcast (some ⟨[2], 1⟩) 0]
    TelemetryOp.receivedBy 7 (run exec ops start).received =
      (run exec ops start).handed.filter (·.runId = 0) := by
  intro ops
  have hall : ∀ op ∈ ops, op.HubHolds id ∧ op.Reaches id 7 0 := by
    intro op hop
    simp only [ops, List.mem_cons, List.not_mem_nil, or_false] at hop
    rcases hop with rfl | rfl | rfl | rfl | rfl
    · exact ⟨trivial, trivial⟩
    · exact ⟨trivial, trivial⟩
    · exact ⟨oneSession_holds, rfl, rfl⟩
    · exact ⟨trivial, trivial⟩
    · exact ⟨trivial, trivial⟩
  exact (frames_in_order (by decide) fun op hop => (hall op hop).1).2.2 7 0
    fun op hop => (hall op hop).2

end DeliveryLog

end MatrixFactory
