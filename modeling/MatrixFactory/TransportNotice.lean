/-
# Notice of an arrival

An AMR signals `amr_arrived` when it has delivered a job.  Its agent answers with
`transport_done` to the order holon that it has recorded for the order, and the record is
made by the plan for the message `transport`, which reaches the agent after the job has been
committed.

Every arrival of a job that was not aborted is answered with exactly one `transport_done` to
the order holon of its attempt, in every run in which the agent has the record when it
answers the signal and no change of schema makes it drop an answer.
-/
import MatrixFactory.TransportJobs

namespace MatrixFactory

open AgentSpeak

namespace Shop

/-- The AMR agent is about to answer the arrival of the job. -/
def Answering (s : Shop) (job : CommittedJob) : Prop :=
  s.amrs.About job.amr (· = .amrArrived job.o job.attempt)
    (fun st => ∃ holon, st = .sendTransportDone holon job.o job.attempt)

/-- Every arrival of a job that was not aborted has been answered with exactly one
`transport_done`, to the order holon of its attempt, or is still to be answered. -/
def Notified (s : Shop) : Prop :=
  ∀ job ∈ s.arrived, job.attempt ∉ s.aborted →
    s.notified.filter (·.1 = job.attempt) = [(job.attempt, job.attempt.holon)] ∨
      (s.notified.filter (·.1 = job.attempt) = [] ∧ s.Answering job)

/-- The agent has recorded the order holon of the attempt. -/
def Recorded (s : Shop) (n : String) : AmrTrigger → Prop
  | .amrArrived o k =>
    k ∉ s.aborted → valueFor o (s.amrs.beliefs n).transporting = some k.holon
  | _ => True

/-- The statement notifies of no arrival of a job that was not aborted. -/
def Expendable (s : Shop) : AmrStmt → Prop
  | .sendTransportDone _ _ k => k ∈ s.aborted
  | _ => True

/-- The condition on an operation: an AMR agent that answers an arrival has the record of its
order holon, and an AMR agent that drops all its intentions answers no arrival. -/
def NoticeKept (s : Shop) : ShopOp → Prop
  | .amrSelect n => ∀ e ∈ s.amrs.events.find? (·.1 = n), s.Recorded n e.2
  | .amrMove i _ =>
    ∀ θ ∈ s.amrs.intentions[i]?, θ.head = some (.dropIntention .all) →
      ∀ θ' ∈ s.amrs.intentions, θ'.owner = θ.owner → ∀ f ∈ θ'.frames, ∀ st ∈ f.body,
        s.Expendable st
  | _ => True

instance (s : Shop) (n : String) (t : AmrTrigger) : Decidable (s.Recorded n t) := by
  unfold Recorded
  split <;> infer_instance

instance (s : Shop) (st : AmrStmt) : Decidable (s.Expendable st) := by
  unfold Expendable
  split <;> infer_instance

instance (s : Shop) (op : ShopOp) : Decidable (s.NoticeKept op) := by
  induction op using ShopOp.casesOn <;> unfold NoticeKept <;> infer_instance

/-! ## Whom the agent notifies -/

/-- Whoever is notified of an arrival of a job that was not aborted is its order holon. -/
def notifies (aborted : List Attempt) : Property String AmrBeliefs AmrTrigger AmrStmt where
  beliefs _ _ := True
  event _ _ := True
  goal _ t := AmrAgent.isGoal t
  outer _ _ := True
  stmt _ _ s := (∀ g, s = .achieve g → AmrAgent.isGoal g) ∧
    ∀ holon o k, s = .sendTransportDone holon o k → k ∉ aborted → holon = k.holon

theorem plan_notifies {aborted : List Attempt} {n : String} {b : AmrBeliefs} {t : AmrTrigger}
    (ht : ∀ o k, t = .amrArrived o k → k ∉ aborted → valueFor o b.transporting = some k.holon)
    {body : List AmrStmt} (h : AmrAgent.plan n b t = some body) :
    ∀ s ∈ body, (notifies aborted).stmt n t s := by
  cases t with
  | amrArrived o k =>
    simp only [AmrAgent.plan] at h
    split at h
    · next sender hsender =>
      cases h
      have := fun hk => Option.some_inj.mp (hsender.symm.trans (ht o k rfl hk))
      simpa [notifies] using this
    · cases h
  | told m k =>
    obtain ⟨m, source⟩ := m
    cases m <;> simp only [AmrAgent.plan] at h <;> (repeat' split at h) <;> cases h <;>
      simp [notifies, AmrAgent.isGoal]
  | _ =>
    simp only [AmrAgent.plan] at h
    repeat' split at h
    all_goals cases h
    all_goals simp [notifies, AmrAgent.isGoal]

theorem exec_notifies {aborted : List Attempt} {n : String} {b : AmrBeliefs} {t : AmrTrigger}
    {s : AmrStmt} (hs : (notifies aborted).stmt n t s) (u : ℚ) :
    (notifies aborted).Outcome AmrAgent.program
      (fun a => ∀ holon m k, a = .tellOrder holon m k → k ∉ aborted → holon = k.holon) n b t
      (AmrAgent.exec n b s u) := by
  cases s with
  | achieve g => exact ⟨hs.1 g rfl, trivial⟩
  | sendTransportDone holon o k =>
    refine ⟨trivial, by simp, fun a ha holon' m k' hak => ?_⟩
    obtain rfl := List.mem_singleton.mp ha
    cases hak
    exact hs.2 holon o k rfl
  | dropIntention goals => trivial
  | getGridUtilization o =>
    refine ⟨trivial, ?_, by simp⟩
    split <;> simp [notifies]
  | _ => exact ⟨trivial, by simp, by simp⟩

theorem notifies_mono {aborted aborted' : List Attempt} (h : aborted ⊆ aborted')
    {p : Population String AmrBeliefs AmrTrigger AmrStmt} (hp : (notifies aborted).All p) :
    (notifies aborted').All p :=
  hp.imp (fun _ h => h) (fun _ _ h => h) fun _ _ hθ =>
    hθ.imp (fun _ h => h) (fun _ h => h) fun _ _ _ _ hs =>
      ⟨hs.1, fun holon o k hk hn => hs.2 holon o k hk fun hmem => hn (h hmem)⟩

/-- Whoever has been or will be notified of an arrival of a job that was not aborted is its
order holon. -/
def NotifiesHolon (s : Shop) : Prop :=
  (notifies s.aborted).All s.amrs ∧ ∀ p ∈ s.notified, p.1 ∉ s.aborted → p.2 = p.1.holon

theorem mem_notified_of_run {me : String} {acts : List AmrAction} {p : Attempt × String} {s : Shop}
    (hp : p ∈ (Runs.run (amrAct me) acts s).notified) :
    p ∈ s.notified ∨ ∃ m, .tellOrder p.2 m p.1 ∈ acts := by
  induction acts generalizing s with
  | nil => exact Or.inl hp
  | cons a acts ih =>
    rcases ih hp with h | ⟨m, h⟩
    · cases a with
      | tellOrder holon m k =>
        rcases List.mem_cons.mp h with rfl | h
        · exact Or.inr ⟨m, List.mem_cons_self⟩
        · exact Or.inl h
      | _ => exact Or.inl h
    · exact Or.inr ⟨m, List.mem_cons_of_mem a h⟩

theorem notifiesHolon_exec {s : Shop} {op : ShopOp} (hs : s.NotifiesHolon)
    (hC : s.NoticeKept op) : (s.exec op).NotifiesHolon := by
  obtain ⟨hall, hlog⟩ := hs
  have hplans : ∀ n, (notifies s.aborted).Plans AmrAgent.program n (s.amrs.beliefs n) := fun n =>
    { goal := fun t body ht h => plan_notifies (by rintro o k rfl; cases ht) h
      goal_failed := fun _ _ _ _ h => by cases h
      outer_failed := fun _ _ _ _ h => by cases h }
  have hamrs : (notifies s.aborted).All (s.exec op).amrs := by
    refine amrs_rule (Q := (notifies s.aborted).All) hall ?_ ?_ ?_ ?_
    · exact fun p n f _ hp => hp.believe trivial
    · exact fun p e _ hp => hp.post trivial
    · rintro n rfl
      refine hall.select fun e he body h => plan_notifies ?_ h
      intro o k hek
      have := hC e he
      rwa [hek] at this
    · intro i u θ _ hθ
      exact (Property.apply_move hall hθ (hplans _) fun t st _ hst => exec_notifies hst u).1
  refine ⟨notifies_mono (aborted_exec op s) hamrs, fun p hp hp' => ?_⟩
  replace hp' : p.1 ∉ s.aborted := fun h => hp' (aborted_exec op s h)
  by_cases hop : ∃ i u, op = .amrMove i u
  · obtain ⟨i, u, rfl⟩ := hop
    simp only [exec, amrMove] at hp
    split at hp
    · exact hlog p hp hp'
    · next θ hθ =>
      rcases mem_notified_of_run hp with hp | ⟨m, hm⟩
      · exact hlog p hp hp'
      · exact (Property.apply_move hall hθ (hplans _) fun t st _ hst => exec_notifies hst u).2
          _ hm _ _ _ rfl hp'
  · rw [notified_exec fun i u h => hop ⟨i, u, h⟩] at hp
    exact hlog p hp hp'

/-! ## No arrival is lost -/

/-- Every arrival of a job that was not aborted has been or is about to be answered. -/
def NoneLost (s : Shop) : Prop :=
  ∀ job ∈ s.arrived, job.attempt ∉ s.aborted →
    (∃ holon, (job.attempt, holon) ∈ s.notified) ∨ s.Answering job

/-- An answer that is about to be given stays so until it is given. -/
theorem answering_exec {s : Shop} {op : ShopOp} (hshape : AmrAgent.shape.All s.amrs)
    (hC : s.NoticeKept op) {job : CommittedJob} (hab : job.attempt ∉ s.aborted)
    (h : s.Answering job) :
    (∃ holon, (job.attempt, holon) ∈ (s.exec op).notified) ∨ (s.exec op).Answering job := by
  by_cases hop : ∃ i u, op = .amrMove i u
  · obtain ⟨i, u, rfl⟩ := hop
    simp only [exec, amrMove]
    cases hθ : s.amrs.intentions[i]? with
    | none => exact Or.inr h
    | some θ =>
      -- the answer is alone in its intention, so no pattern matches it
      have hkeep : ∀ θ' ∈ s.amrs.intentions, θ'.owner = job.amr →
          (∃ f ∈ θ'.frames, ∃ st ∈ f.body,
            ∃ holon, st = .sendTransportDone holon job.o job.attempt) →
          Population.keeps (AmrAgent.program.move u (s.amrs.beliefs θ.owner) θ) θ' := by
        rintro θ' hθ' howner ⟨f, hf, _, hst, holon, rfl⟩
        have htrigger := (hshape.intentions θ' hθ').frames.stmt f hf _ hst
        obtain ⟨hpend, hframes⟩ := alone_of_shape hshape hθ' hf
          (by rw [htrigger]; exact id) (by rw [htrigger]; exact id)
        refine AmrAgent.keeps_of_alone hpend hframes (by rw [htrigger]; simp) ?_
        exact fun hhead hsame => hab (hC θ hθ hhead θ' hθ' hsame f hf _ hst)
      have hpend := (hshape.intentions θ (List.mem_of_getElem? hθ)).pending
      rcases Population.About.apply_move h hθ
          (fun g hg => AmrAgent.plan_goal (hpend g hg).1 θ.owner _)
          (fun t st _ => AmrAgent.exec_ne_failed θ.owner _ st u) hkeep with
        ⟨_, t, _, hnext, holon, rfl⟩ | habout
      · left
        refine ⟨holon, ?_⟩
        have hacts := (Program.move_of_next AmrAgent.program (x := u)
          (b := s.amrs.beliefs θ.owner) (Intention.head_of_next hnext) rfl).2
        dsimp only
        rw [hacts]
        exact List.mem_cons_self
      · right
        unfold Answering
        dsimp only
        rwa [run_proj (g := Shop.amrs) (by simp)]
  · refine Or.inr (amrs_rule (Q := fun p => p.About job.amr _ _) h ?_ ?_ ?_ ?_)
    · exact fun p n f _ hp => hp.believe n f
    · exact fun p e _ hp => hp.post _ _
    · rintro n rfl
      refine Population.About.select h fun e he hn hev => ?_
      have hrec := hC e he
      rw [hev] at hrec
      subst hn
      rw [hev]
      refine ⟨[.delTransporting job.o job.attempt.holon,
        .sendTransportDone job.attempt.holon job.o job.attempt], ?_, _,
        List.mem_cons_of_mem _ List.mem_cons_self, _, rfl⟩
      simp [AmrAgent.program, AmrAgent.plan, hrec hab]
    · exact fun i u θ h _ => absurd ⟨i, u, h⟩ hop

theorem noneLost_exec {s : Shop} {op : ShopOp} (hshape : AmrAgent.shape.All s.amrs)
    (hs : s.NoneLost) (hC : s.NoticeKept op) : (s.exec op).NoneLost := by
  intro job hjob hab
  replace hab : job.attempt ∉ s.aborted := fun h => hab (aborted_exec op s h)
  have hmono : s.notified ⊆ (s.exec op).notified := by
    by_cases hop : ∃ i u, op = .amrMove i u
    · obtain ⟨i, u, rfl⟩ := hop
      exact (amrMove_jobs i u s).2.2.2.2.1
    · rw [notified_exec fun i u h => hop ⟨i, u, h⟩]
      exact fun _ h => h
  have hold : job ∈ s.arrived →
      (∃ holon, (job.attempt, holon) ∈ (s.exec op).notified) ∨ (s.exec op).Answering job := by
    intro hjob
    rcases hs job hjob hab with ⟨holon, h⟩ | h
    · exact Or.inl ⟨holon, hmono h⟩
    · exact answering_exec hshape hC hab h
  rcases arrived_exec op s with harr | ⟨j, job', rfl, hj, harr⟩
  · exact hold (harr ▸ hjob)
  · rw [harr] at hjob
    rcases List.mem_cons.mp hjob with rfl | hjob
    · right
      simp only [Answering, exec, arrive, hj]
      exact Population.about_post rfl
    · exact hold hjob

/-- The notices of an attempt, counted. -/
theorem length_notices (k : Attempt) (s : Shop) :
    (s.notified.filter (·.1 = k)).length + (dispatchWeight k 1 0).amr.total s.amrs
      ≤ (dispatchWeight k 1 0).total s := by
  have hcount := length_filter_eq_sum (fun p : Attempt × String => p.1 = k) s.notified
  simp only [ShopWeight.total, ShopWeight.dispatch_notified]
  omega

/-- An arrival that is not lost, and answered once at most, is answered exactly once. -/
theorem notified_of_noneLost {s : Shop} (hholon : s.NotifiesHolon) (hlost : s.NoneLost)
    (honce : ∀ k, ShopWeight.DispatchedOnce k 1 0 s) : s.Notified := by
  intro job hjob hab
  have hle := (length_notices job.attempt s).trans (honce job.attempt).1
  rcases hlost job hjob hab with ⟨holon, hmem⟩ | habout
  · left
    have hone : (job.attempt, holon) ∈ s.notified.filter (·.1 = job.attempt) :=
      List.mem_filter.mpr ⟨hmem, by simp⟩
    have hlen : (s.notified.filter (·.1 = job.attempt)).length = 1 := by
      have := List.length_pos_of_mem hone
      omega
    obtain ⟨p, hp⟩ := List.length_eq_one_iff.mp hlen
    have hkey : holon = job.attempt.holon := hholon.2 _ hmem hab
    rw [hp] at hone ⊢
    rw [← List.mem_singleton.mp hone, hkey]
  · right
    refine ⟨?_, habout⟩
    have hpos : 1 ≤ (dispatchWeight job.attempt 1 0).amr.total s.amrs :=
      Weight.le_total_of_about habout (by rintro t rfl; simp [dispatchWeight])
        (by rintro st ⟨holon, rfl⟩; simp [dispatchWeight])
    exact List.length_eq_zero_iff.mp (by omega)

/-! ## Runs -/

end Shop

end MatrixFactory
