/-
# The acknowledgements of Phase 1

The recursion of `await_phase1_acks` over holons that have all acknowledged.  `.wait` binds its
variable to some acknowledgement that is believed; no plan takes an acknowledgement back, so it may
bind the same one again and again.
-/
import MatrixFactory.SupervisorAgent

namespace MatrixFactory

open AgentSpeak

namespace SupervisorAgent

/-- An intention of the supervisor. -/
abbrev SupervisorIntention := Intention Unit SupervisorTrigger SupervisorStmt

/-- The goal `await_phase1_acks(pending)`, about to be answered. -/
def awaiting (pending : List String) (k : ℕ)
    (frames : List (Frame SupervisorTrigger SupervisorStmt)) : SupervisorIntention :=
  ⟨(), some (.awaitPhase1Acks pending k), frames⟩

/-- The intention after `n` of its moves.  A round of the recursion takes three of them: the plan,
the wait and the goal again; the wait of round `m` binds `w m`.  The beliefs may change in
between. -/
def awaitRun (r : Roster) (beliefs : ℕ → SupervisorBeliefs) (w : ℕ → String)
    (θ : SupervisorIntention) : ℕ → SupervisorIntention
  | 0 => θ
  | n + 1 =>
    ((program r).move { who := w (n / 3) } (beliefs n) (awaitRun r beliefs w θ n)).intention

/-- Each wait binds an acknowledgement that is believed when it is executed. -/
def BindsAcks (beliefs : ℕ → SupervisorBeliefs) (w : ℕ → String) : Prop :=
  ∀ m, w m ∈ (beliefs (3 * m + 1)).suspendAck

/-- The recursion comes to the empty list. -/
def ReachesEmpty (r : Roster) (beliefs : ℕ → SupervisorBeliefs) (w : ℕ → String)
    (θ : SupervisorIntention) : Prop :=
  ∃ n k, (awaitRun r beliefs w θ n).pending = some (.awaitPhase1Acks [] k)

/-- The holons that are left after `m` rounds. -/
def leftAfter (w : ℕ → String) (pending : List String) : ℕ → List String
  | 0 => pending
  | m + 1 => (leftAfter w pending m).filter (· ≠ w m)

theorem mem_leftAfter {w : ℕ → String} {pending : List String} {h : String} {m : ℕ} :
    h ∈ leftAfter w pending m ↔ h ∈ pending ∧ ∀ i < m, w i ≠ h := by
  induction m with
  | zero => simp [leftAfter]
  | succ m ih =>
    rw [leftAfter, List.mem_filter, ih, and_assoc, decide_eq_true_iff]
    constructor
    · rintro ⟨hmem, hbefore, hm⟩
      refine ⟨hmem, fun i hi => ?_⟩
      rcases Nat.lt_succ_iff_lt_or_eq.mp hi with hlt | rfl
      · exact hbefore i hlt
      · exact Ne.symm hm
    · rintro ⟨hmem, hall⟩
      exact ⟨hmem, fun i hi => hall i (by omega), (hall m (by omega)).symm⟩

/-- **A round**: the list loses the holon that the wait has bound. -/
theorem awaitRun_round (r : Roster) {beliefs : ℕ → SupervisorBeliefs} {w : ℕ → String}
    (hbinds : BindsAcks beliefs w) {θ : SupervisorIntention} {m k : ℕ} {pending : List String}
    {frames : List (Frame SupervisorTrigger SupervisorStmt)} (hne : pending ≠ [])
    (h : awaitRun r beliefs w θ (3 * m) = awaiting pending k frames) :
    (awaitRun r beliefs w θ (3 * m + 1)).pending = none ∧
      (awaitRun r beliefs w θ (3 * m + 2)).pending = none ∧
      ∃ frames', awaitRun r beliefs w θ (3 * (m + 1)) =
        awaiting (pending.filter (· ≠ w m)) k frames' := by
  obtain ⟨h₁, rest, rfl⟩ := List.exists_cons_of_ne_nil hne
  have hplan : awaitRun r beliefs w θ (3 * m + 1) =
      ⟨(), none,
        ⟨.awaitPhase1Acks (h₁ :: rest) k, [.waitSuspendAck (h₁ :: rest) k]⟩ :: frames⟩ := by
    rw [awaitRun, h]
    rfl
  have hwait : awaitRun r beliefs w θ (3 * m + 2) =
      ⟨(), none, ⟨.awaitPhase1Acks (h₁ :: rest) k,
        [.achieve (.awaitPhase1Acks ((h₁ :: rest).filter (· ≠ w m)) k)]⟩ :: frames⟩ := by
    have hm : (3 * m + 1) / 3 = m := by omega
    rw [awaitRun, hplan, hm]
    simp [Program.move, program, exec, hbinds m, Program.settle]
  refine ⟨by rw [hplan], by rw [hwait], ⟨.awaitPhase1Acks (h₁ :: rest) k, []⟩ :: frames, ?_⟩
  rw [show 3 * (m + 1) = 3 * m + 2 + 1 from by omega, awaitRun, hwait]
  rfl

/-- After `m` rounds, as long as none of them has come to the empty list. -/
theorem awaitRun_rounds (r : Roster) {beliefs : ℕ → SupervisorBeliefs} {w : ℕ → String}
    (hbinds : BindsAcks beliefs w) (pending : List String) (k : ℕ)
    (frames : List (Frame SupervisorTrigger SupervisorStmt)) {m : ℕ}
    (hne : ∀ i < m, leftAfter w pending i ≠ []) :
    ∃ frames', awaitRun r beliefs w (awaiting pending k frames) (3 * m) =
      awaiting (leftAfter w pending m) k frames' := by
  induction m with
  | zero => exact ⟨frames, rfl⟩
  | succ m ih =>
    obtain ⟨frames', hrun⟩ := ih fun i hi => hne i (by omega)
    exact (awaitRun_round r hbinds (hne m (by omega)) hrun).2.2

/-- A holon that no wait binds is never left out. -/
theorem not_reachesEmpty (r : Roster) {beliefs : ℕ → SupervisorBeliefs} {w : ℕ → String}
    (hbinds : BindsAcks beliefs w) {pending : List String} {k : ℕ}
    {frames : List (Frame SupervisorTrigger SupervisorStmt)} {h : String} (hmem : h ∈ pending)
    (hnever : ∀ m, w m ≠ h) : ¬ReachesEmpty r beliefs w (awaiting pending k frames) := by
  have hne : ∀ m, leftAfter w pending m ≠ [] := fun m =>
    List.ne_nil_of_mem (mem_leftAfter.mpr ⟨hmem, fun i _ => hnever i⟩)
  rintro ⟨n, k', hn⟩
  obtain ⟨frames', hrun⟩ := awaitRun_rounds r hbinds pending k frames (m := n / 3) fun i _ => hne i
  obtain ⟨h1, h2, -⟩ := awaitRun_round r hbinds (hne _) hrun
  -- at the goal the list is not empty, and in between no goal is pending
  have hcases : n = 3 * (n / 3) ∨ n = 3 * (n / 3) + 1 ∨ n = 3 * (n / 3) + 2 := by omega
  rcases hcases with hcase | hcase | hcase
  · rw [hcase, hrun] at hn
    simp only [awaiting, Option.some.injEq, SupervisorTrigger.awaitPhase1Acks.injEq] at hn
    exact hne _ hn.1
  · rw [hcase, h1] at hn
    cases hn
  · rw [hcase, h2] at hn
    cases hn

/-- **The recursion comes to the empty list iff each of the holons is bound by some wait.** -/
theorem reaches_empty (r : Roster) (beliefs : ℕ → SupervisorBeliefs) (w : ℕ → String)
    (pending : List String) (k : ℕ) (frames : List (Frame SupervisorTrigger SupervisorStmt))
    (hbinds : BindsAcks beliefs w) :
    ReachesEmpty r beliefs w (awaiting pending k frames) ↔ ∀ h ∈ pending, ∃ m, w m = h := by
  constructor
  · intro hreaches h hmem
    by_contra hnever
    exact not_reachesEmpty r hbinds hmem (fun m hm => hnever ⟨m, hm⟩) hreaches
  · intro hall
    -- the first round whose list is empty
    have hex : ∃ m, leftAfter w pending m = [] := by
      choose! round hround using hall
      refine ⟨(pending.map round).sum + 1, List.eq_nil_iff_forall_not_mem.mpr fun h hmem => ?_⟩
      rw [mem_leftAfter] at hmem
      have hle : round h ≤ (pending.map round).sum :=
        List.single_le_sum (fun _ _ => Nat.zero_le _) _ (List.mem_map_of_mem hmem.1)
      exact hmem.2 (round h) (by omega) (hround h hmem.1)
    obtain ⟨frames', hrun⟩ := awaitRun_rounds r hbinds pending k frames (m := Nat.find hex)
      fun i hi => Nat.find_min hex hi
    refine ⟨3 * Nat.find hex, k, ?_⟩
    rw [hrun, Nat.find_spec hex]
    rfl

/-- Two holons have acknowledged. -/
def twoAcks : SupervisorBeliefs := { suspendAck := ["order_holon", "station_s1"] }

theorem reaches_empty_two : ReachesEmpty ⟨["order_holon"], ["station_s1"], []⟩ (fun _ => twoAcks)
    (fun m => if m = 0 then "order_holon" else "station_s1")
    (awaiting ["order_holon", "station_s1"] 0 []) := by
  refine (reaches_empty _ _ _ _ 0 [] fun m => ?_).mpr fun h hmem => ?_
  · show (if m = 0 then "order_holon" else "station_s1") ∈ twoAcks.suspendAck
    split_ifs <;> decide
  · rcases List.mem_pair.mp hmem with rfl | rfl
    · exact ⟨0, rfl⟩
    · exact ⟨1, rfl⟩

/-- Where every wait binds the first acknowledgement, the second holon is waited for without
end. -/
theorem not_reaches_empty : ¬∀ (r : Roster) (beliefs : ℕ → SupervisorBeliefs) (w : ℕ → String)
    (pending : List String) (k : ℕ) (frames : List (Frame SupervisorTrigger SupervisorStmt)),
    pending ≠ [] → (∀ n, ∀ h ∈ pending, h ∈ (beliefs n).suspendAck) → BindsAcks beliefs w →
      ReachesEmpty r beliefs w (awaiting pending k frames) := by
  intro hall
  have hbinds : BindsAcks (fun _ => twoAcks) fun _ => "order_holon" :=
    fun _ => List.mem_cons_self
  have hreaches := hall ⟨["order_holon"], ["station_s1"], []⟩ (fun _ => twoAcks)
    (fun _ => "order_holon") ["order_holon", "station_s1"] 0 [] (by decide)
    (fun _ => by decide) hbinds
  have hmem : "station_s1" ∈ ["order_holon", "station_s1"] := by decide
  exact not_reachesEmpty _ hbinds hmem (fun _ => by decide) hreaches

end SupervisorAgent

end MatrixFactory
