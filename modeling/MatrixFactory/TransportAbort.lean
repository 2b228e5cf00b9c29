/-
# Abort of a transport

An order holon that gives up an attempt sends `abort_transport` to the agent of the AMR that
`dispatched_amr` names, and the agent cancels every job of the order on its AMR.  The message
names the order only, so it may meet the job of another attempt.

Every abort cancels exactly the job of its attempt, unless that has been delivered, in every
run in which no job of the order is committed to an AMR while an abort is on its way there
and the agent has the order on record when it answers the abort.
-/
import MatrixFactory.TransportJobs

namespace MatrixFactory

open AgentSpeak

/-! ## What an order holon commits and aborts -/

/-- An action that commits a job or tells an AMR agent is the only one of its statement. -/
theorem OrderHolon.transport_act {n : String} {b b' : OrderBeliefs} {s : OrderStmt}
    {x : OrderInput} {code : List OrderStmt} {acts : List OrderAction}
    (h : exec n b s x = .next b' code acts) :
    (∃ fromStation toStation o k, s = .reserveTransport fromStation toStation o k ∧
        acts = [.reserveTransport x.amr fromStation toStation o k]) ∨
      (∃ amr o k, s = .sendAbortTransport amr o k ∧
        acts = [.tellAmr amr (.abortTransport o) k]) ∨
      ∀ a ∈ acts, (∀ amr fromStation toStation o k,
        a ≠ .reserveTransport amr fromStation toStation o k) ∧ ∀ amr m k, a ≠ .tellAmr amr m k := by
  cases s with
  | reserveTransport fromStation toStation o k =>
    cases h
    exact Or.inl ⟨_, _, _, _, rfl, rfl⟩
  | sendAbortTransport amr o k =>
    cases h
    exact Or.inr (Or.inl ⟨_, _, _, rfl, rfl⟩)
  | ifRemaining o step remaining =>
    refine Or.inr (Or.inr ?_)
    cases remaining <;> (cases h; simp)
  | sendCallForProposal stations step o =>
    refine Or.inr (Or.inr ?_)
    cases h
    simp
  | _ =>
    refine Or.inr (Or.inr ?_)
    simp only [exec] at h
    (repeat' split at h) <;> cases h <;> simp

namespace Shop

/-- A message to an AMR agent that is told. -/
def toAmr (m : Message) : Bool :=
  match m.content with
  | .amr _ => true
  | _ => false

/-- The jobs, the jobs committed so far, and what is under way to the AMR agents. -/
def transports (s : Shop) : List CommittedJob × List CommittedJob × List Message :=
  (s.jobs, s.committed, s.mail.filter toAmr)

theorem transports_eq {s : Shop} {jobs committed : List CommittedJob} {mail : List Message} :
    s.transports = (jobs, committed, mail) ↔
      s.jobs = jobs ∧ s.committed = committed ∧ s.mail.filter toAmr = mail := by
  simp [transports]

theorem run_transports {me : String} {acts : List OrderAction}
    (h : ∀ a ∈ acts, (∀ amr fromStation toStation o k,
      a ≠ .reserveTransport amr fromStation toStation o k) ∧ ∀ amr m k, a ≠ .tellAmr amr m k)
    (s : Shop) : (Runs.run (orderAct me) acts s).transports = s.transports := by
  induction acts generalizing s with
  | nil => rfl
  | cons a acts ih =>
    rw [Runs.run_cons, ih fun a' ha' => h a' (List.mem_cons_of_mem a ha')]
    obtain ⟨hreserve, htell⟩ := h a List.mem_cons_self
    cases a with
    | reserveTransport amr fromStation toStation o k => exact absurd rfl (hreserve _ _ _ _ _)
    | tellAmr amr m k => exact absurd rfl (htell _ _ _)
    | achieveTransport | achieveCallForProposal | tellStation =>
      simp [transports, orderAct, send, toAmr]
    | _ => rfl

/-- A move of an order holon commits one job, or sends one abort, or neither. -/
theorem orderMove_transports (i : ℕ) (x : OrderInput) (s : Shop) :
    (∃ θ fromStation toStation o k, s.orders.intentions[i]? = some θ ∧
        θ.head = some (.reserveTransport fromStation toStation o k) ∧
        (s.orderMove i x).transports =
          (s.jobs ++ [⟨x.amr, fromStation, toStation, o, k⟩],
            ⟨x.amr, fromStation, toStation, o, k⟩ :: s.committed, s.mail.filter toAmr)) ∨
      (∃ θ amr o k, s.orders.intentions[i]? = some θ ∧
        θ.head = some (.sendAbortTransport amr o k) ∧
        (s.orderMove i x).transports =
          (s.jobs, s.committed,
            s.mail.filter toAmr ++ [⟨θ.owner, amr, .amr (.abortTransport o), some k⟩])) ∨
      (s.orderMove i x).transports = s.transports := by
  unfold orderMove
  cases hθ : s.orders.intentions[i]? with
  | none => exact Or.inr (Or.inr rfl)
  | some θ =>
    dsimp only
    rcases OrderHolon.program.move_effect (s.orderInput θ x) (s.orders.beliefs θ.owner) θ with
      ⟨_, hacts⟩ | ⟨st, hhead, ⟨code, hexec⟩ | ⟨_, hexec⟩⟩
    · rw [hacts]
      exact Or.inr (Or.inr rfl)
    · rcases OrderHolon.transport_act hexec with
        ⟨f, t, o, k, rfl, hacts⟩ | ⟨amr, o, k, rfl, hacts⟩ | hother
      · rw [hacts]
        exact Or.inl ⟨θ, f, t, o, k, rfl, hhead, rfl⟩
      · rw [hacts]
        refine Or.inr (Or.inl ⟨θ, amr, o, k, rfl, hhead, ?_⟩)
        simp [transports, orderAct, send, toAmr]
      · exact Or.inr (Or.inr (run_transports hother _))
    · rw [OrderHolon.exec_failed hexec]
      exact Or.inr (Or.inr rfl)

/-- No other operation commits a job or puts an abort under way. -/
theorem transports_exec {op : ShopOp} (hop : ∀ i x, op ≠ .orderMove i x) (s : Shop) :
    (s.exec op).committed = s.committed ∧ (s.exec op).jobs ⊆ s.jobs ∧
      ∀ m ∈ (s.exec op).mail, toAmr m → m ∈ s.mail ∨
        (m.attempt = none ∧ ∀ o, m.content ≠ .amr (.abortTransport o)) := by
  refine ⟨?_, ?_, ?_⟩
  · by_cases hjobs : concernsJobs op
    · cases op with
      | orderMove i x => exact absurd rfl (hop i x)
      | amrMove i u => exact (amrMove_jobs i u s).1
      | deliver j => exact congrArg JobView.committed (deliver_jobs j s)
      | arrive j =>
        have h := congrArg JobView.committed (arrive_jobs j s)
        split at h <;> exact h
      | _ => cases hjobs
    · exact congrArg JobView.committed (jobView_exec (Bool.eq_false_iff.mpr hjobs) s)
  · by_cases hjobs : concernsJobs op
    · cases op with
      | orderMove i x => exact absurd rfl (hop i x)
      | amrMove i u => exact (amrMove_jobs i u s).2.2.2.2.2
      | deliver j =>
        have h : (s.exec (.deliver j)).jobs = s.jobs := congrArg JobView.jobs (deliver_jobs j s)
        rw [h]
        exact List.Subset.refl _
      | arrive j =>
        have h := congrArg JobView.jobs (arrive_jobs j s)
        show (s.arrive j).jobView.jobs ⊆ s.jobs
        rw [h]
        split
        · exact List.Subset.refl _
        · exact List.eraseIdx_subset
      | _ => cases hjobs
    · have h : (s.exec op).jobs = s.jobs :=
        congrArg JobView.jobs (jobView_exec (Bool.eq_false_iff.mpr hjobs) s)
      rw [h]
      exact List.Subset.refl _
  · intro m hm hamr
    have hrun : ∀ {A : Type} {act : A → Shop → Shop},
        (∀ a s, (act a s).mail.filter toAmr = s.mail.filter toAmr) → ∀ acts s',
        s'.mail = s.mail → m ∈ (Runs.run act acts s').mail → m ∈ s.mail := by
      intro A act hact acts s' hs' hm
      have := List.mem_filter.mpr ⟨hm, hamr⟩
      rw [run_proj (g := fun s : Shop => s.mail.filter toAmr) hact acts s', hs'] at this
      exact List.mem_of_mem_filter this
    cases op with
    | orderMove i x => exact absurd rfl (hop i x)
    | stationMove i =>
      simp only [exec, stationMove] at hm
      split at hm
      · exact Or.inl hm
      · refine Or.inl (hrun (fun a s => ?_) _ _ ?_ hm)
        · cases a <;> simp [stationAct, send, toAmr]
        · rfl
    | amrMove i u =>
      simp only [exec, amrMove] at hm
      split at hm
      · exact Or.inl hm
      · refine Or.inl (hrun (fun a s => ?_) _ _ ?_ hm)
        · cases a <;> simp [amrAct, send, toAmr]
        · rfl
    | deliver j =>
      simp only [exec, deliver] at hm
      split at hm
      · exact Or.inl hm
      · split at hm
        · exact Or.inl hm
        · refine Or.inl (List.mem_of_mem_eraseIdx (i := j) ?_)
          unfold receive at hm
          split at hm <;> exact hm
    | supervisor receiver c =>
      rcases List.mem_append.mp hm with hm | hm
      · exact Or.inl hm
      · obtain rfl := List.mem_singleton.mp hm
        exact Or.inr ⟨rfl, fun o => by cases c <;> simp [SupervisorMsg.content]⟩
    | arrive j =>
      simp only [exec, arrive] at hm
      split at hm <;> exact Or.inl hm
    | finish j code summary =>
      simp only [exec, finish] at hm
      split at hm <;> exact Or.inl hm
    | _ =>
      left
      first
        | exact hm
        | (simp only [exec] at hm
           split at hm <;> exact hm)

/-! ## What an AMR agent cancels -/

theorem mem_cancelled_of_run {me : String} {acts : List AmrAction}
    {p : CommittedJob × Option Attempt} {s : Shop}
    (hp : p ∈ (Runs.run (amrAct me) acts s).cancelled) :
    p ∈ s.cancelled ∨ (p.1 ∈ s.jobs ∧ p.1.amr = me ∧ .cancelTransport p.1.o p.2 ∈ acts) := by
  induction acts generalizing s with
  | nil => exact Or.inl hp
  | cons a acts ih =>
    rcases ih hp with h | ⟨hjob, hamr, hmem⟩
    · cases a with
      | cancelTransport o k =>
        rcases List.mem_append.mp h with h | h
        · obtain ⟨job, hjob, rfl⟩ := List.mem_map.mp h
          obtain ⟨hmem, hcond⟩ := List.mem_filter.mp hjob
          obtain ⟨hamr, rfl⟩ := of_decide_eq_true hcond
          exact Or.inr ⟨hmem, hamr, List.mem_cons_self⟩
        · exact Or.inl h
      | _ => exact Or.inl h
    · refine Or.inr ⟨?_, hamr, List.mem_cons_of_mem a hmem⟩
      cases a with
      | cancelTransport o k => exact List.mem_of_mem_filter hjob
      | _ => exact hjob

theorem not_mem_jobs_of_run {me : String} {acts : List AmrAction} {job : CommittedJob}
    {k : Option Attempt} (hamr : job.amr = me) (hk : .cancelTransport job.o k ∈ acts) (s : Shop) :
    job ∉ (Runs.run (amrAct me) acts s).jobs := by
  induction acts generalizing s with
  | nil => cases hk
  | cons a acts ih =>
    rcases List.mem_cons.mp hk with rfl | hk
    · intro hjob
      have hmono : ∀ acts (s : Shop), (Runs.run (amrAct me) acts s).jobs ⊆ s.jobs := by
        intro acts
        induction acts with
        | nil => exact fun s _ h => h
        | cons a acts ih =>
          intro s _ h
          replace h := ih _ h
          cases a with
          | cancelTransport o k => exact List.mem_of_mem_filter h
          | _ => exact h
      have := List.of_mem_filter (hmono acts _ hjob)
      simp [hamr] at this
    · exact ih hk _

/-- Only an abort that reaches its agent is recorded as received. -/
theorem received_exec (op : ShopOp) (s : Shop) :
    (s.exec op).received = s.received ∨
      ∃ j m, op = .deliver j ∧ s.mail[j]? = some m ∧ toAmr m ∧
        (s.exec op).received = m.attempt.toList ++ s.received := by
  by_cases hjobs : concernsJobs op
  · cases op with
    | orderMove i x => exact Or.inl (orderMove_jobs i x s).2.2.1
    | amrMove i u => exact Or.inl (amrMove_jobs i u s).2.2.2.1
    | deliver j =>
      simp only [exec, deliver]
      split
      · exact Or.inl rfl
      · next m hm =>
        split
        · exact Or.inl rfl
        · unfold receive
          split
          all_goals first
            | exact Or.inl rfl
            | exact Or.inr ⟨j, m, rfl, hm, by simp [toAmr, *], rfl⟩
    | arrive j =>
      have h := congrArg JobView.received (arrive_jobs j s)
      left
      split at h <;> exact h
    | _ => cases hjobs
  · exact Or.inl (congrArg JobView.received (jobView_exec (Bool.eq_false_iff.mpr hjobs) s))

/-- Only a move of an AMR agent cancels. -/
theorem cancelled_exec {op : ShopOp} (hop : ∀ i u, op ≠ .amrMove i u) (s : Shop) :
    (s.exec op).cancelled = s.cancelled := by
  by_cases hjobs : concernsJobs op
  · cases op with
    | orderMove i x => exact (orderMove_jobs i x s).2.2.2.1
    | amrMove i u => exact absurd rfl (hop i u)
    | deliver j => exact congrArg JobView.cancelled (deliver_jobs j s)
    | arrive j =>
      have h := congrArg JobView.cancelled (arrive_jobs j s)
      split at h <;> exact h
    | _ => cases hjobs
  · exact congrArg JobView.cancelled (jobView_exec (Bool.eq_false_iff.mpr hjobs) s)

/-! ## The condition -/

/-- The event of an abort of the order. -/
def abortEvent (o : OrderId) : AmrTrigger → Bool
  | .told ⟨.abortTransport o', _⟩ _ => o' = o
  | _ => false

/-- The statement that cancels the jobs of the order. -/
def abortStmt (o : OrderId) : AmrStmt → Bool
  | .cancelTransport o' _ => o' = o
  | _ => false

/-- An abort of the order is under way to the agent of the AMR, or is being answered. -/
def AbortUnderWay (s : Shop) (amr : String) (o : OrderId) : Prop :=
  (∃ m ∈ s.mail, m.receiver = amr ∧ m.content = .amr (.abortTransport o)) ∨
    s.amrs.About amr (abortEvent o ·) (abortStmt o ·)

/-- The job of the attempt is neither delivered nor cancelled. -/
def Undelivered (s : Shop) (k : Attempt) : Prop :=
  ∃ job ∈ s.jobs, job.attempt = k

/-- The job of the attempt has been committed, to the AMR unless that job is no longer under
way, and the AMR has no other job of the order. -/
def Dispatched (s : Shop) (amr : String) (o : OrderId) (k : Attempt) : Prop :=
  (∃ job ∈ s.committed, job.attempt = k ∧ (job ∈ s.jobs → job.amr = amr ∧ job.o = o)) ∧
    ∀ job ∈ s.jobs, job.amr = amr → job.o = o → job.attempt = k

/-- An order holon commits no job of an order that is being aborted at the AMR, and aborts
the attempt at the AMR that has its job and no other job of the order. -/
def Coordinated (s : Shop) (amr : String) : OrderStmt → Prop
  | .reserveTransport _ _ o _ => ¬ s.AbortUnderWay amr o
  | .sendAbortTransport amr o k => s.Dispatched amr o k
  | _ => True

/-- An abort whose job is under way is none that the agent already holds. -/
def Fresh (s : Shop) (m : Message) : Prop :=
  match m.content, m.attempt with
  | .amr c, some k => s.Undelivered k → ⟨c, m.sender⟩ ∉ (s.amrs.beliefs m.receiver).told
  | _, _ => True

/-- The agent has the order of an abort whose job is under way on record. -/
def OnRecord (s : Shop) (n : String) : AmrTrigger → Prop
  | .told ⟨.abortTransport o, sender⟩ (some k) =>
    s.Undelivered k → (o, sender) ∈ (s.amrs.beliefs n).transporting ∧ (s.amrs.beliefs n).myName
  | _ => True

/-- The statement cancels no job under way. -/
def Idle (s : Shop) : AmrStmt → Prop
  | .cancelTransport _ (some k) => ¬ s.Undelivered k
  | _ => True

/-- The condition on an operation. -/
def AbortKept (s : Shop) : ShopOp → Prop
  | .orderMove i x =>
    ∀ θ ∈ s.orders.intentions[i]?, ∀ st ∈ θ.head, s.Coordinated x.amr st
  | .deliver j => ∀ m ∈ s.mail[j]?, s.Fresh m
  | .amrSelect n => ∀ e ∈ s.amrs.events.find? (·.1 = n), s.OnRecord n e.2
  | .amrMove i _ =>
    ∀ θ ∈ s.amrs.intentions[i]?, θ.head = some (.dropIntention .all) →
      ∀ θ' ∈ s.amrs.intentions, θ'.owner = θ.owner → ∀ f ∈ θ'.frames, ∀ st ∈ f.body, s.Idle st
  | _ => True

instance (s : Shop) (amr : String) (o : OrderId) : Decidable (s.AbortUnderWay amr o) := by
  unfold AbortUnderWay Population.About
  infer_instance

instance (s : Shop) (k : Attempt) : Decidable (s.Undelivered k) := by
  unfold Undelivered
  infer_instance

instance (s : Shop) (amr : String) (o : OrderId) (k : Attempt) :
    Decidable (s.Dispatched amr o k) := by
  unfold Dispatched
  infer_instance

instance (s : Shop) (amr : String) (st : OrderStmt) : Decidable (s.Coordinated amr st) := by
  unfold Coordinated
  split <;> infer_instance

instance (s : Shop) (m : Message) : Decidable (s.Fresh m) := by
  unfold Fresh
  split <;> infer_instance

instance (s : Shop) (n : String) (t : AmrTrigger) : Decidable (s.OnRecord n t) := by
  unfold OnRecord
  split <;> infer_instance

instance (s : Shop) (st : AmrStmt) : Decidable (s.Idle st) := by
  unfold Idle
  split <;> infer_instance

instance (s : Shop) (op : ShopOp) : Decidable (s.AbortKept op) := by
  induction op using ShopOp.casesOn <;> unfold AbortKept <;> infer_instance

/-! ## Aborts fit the jobs they meet -/

/-- The jobs of the order on the AMR are those of the attempt. -/
def Fits (jobs : List CommittedJob) (amr : String) (o : OrderId) (k : Option Attempt) : Prop :=
  ∀ job ∈ jobs, job.amr = amr → job.o = o → k = some job.attempt

/-- Every abort that the agents answer is of the attempt whose jobs it meets. -/
def abortFits (jobs : List CommittedJob) : Property String AmrBeliefs AmrTrigger AmrStmt where
  beliefs _ _ := True
  event n t := ∀ o source k, t = .told ⟨.abortTransport o, source⟩ k → Fits jobs n o k
  goal _ t := AmrAgent.isGoal t
  outer _ _ := True
  stmt n _ s := (∀ g, s = .achieve g → AmrAgent.isGoal g) ∧
    ∀ o k, s = .cancelTransport o k → Fits jobs n o k

theorem plan_fits {jobs : List CommittedJob} {n : String} {b : AmrBeliefs} {t : AmrTrigger}
    (ht : (abortFits jobs).event n t) {body : List AmrStmt}
    (h : AmrAgent.plan n b t = some body) : ∀ s ∈ body, (abortFits jobs).stmt n t s := by
  cases t with
  | told m k =>
    obtain ⟨m, source⟩ := m
    cases m with
    | abortTransport o =>
      have hfits : Fits jobs n o k := ht o source k rfl
      simp only [AmrAgent.plan] at h
      split at h
      all_goals cases h
      all_goals simp [abortFits, hfits]
    | _ =>
      simp only [AmrAgent.plan] at h
      repeat' split at h
      all_goals cases h
      all_goals simp [abortFits, AmrAgent.isGoal]
  | _ =>
    simp only [AmrAgent.plan] at h
    repeat' split at h
    all_goals cases h
    all_goals simp [abortFits, AmrAgent.isGoal]

theorem exec_fits {jobs : List CommittedJob} {n : String} {b : AmrBeliefs} {t : AmrTrigger}
    {s : AmrStmt} (hs : (abortFits jobs).stmt n t s) (u : ℚ) :
    (abortFits jobs).Outcome AmrAgent.program
      (fun a => ∀ o k, a = .cancelTransport o k → Fits jobs n o k) n b t
      (AmrAgent.exec n b s u) := by
  cases s with
  | achieve g => exact ⟨hs.1 g rfl, trivial⟩
  | cancelTransport o k =>
    refine ⟨trivial, by simp, fun a ha o' k' hak => ?_⟩
    obtain rfl := List.mem_singleton.mp ha
    cases hak
    exact hs.2 o k rfl
  | dropIntention goals => trivial
  | getGridUtilization o =>
    refine ⟨trivial, ?_, by simp⟩
    split <;> simp [abortFits]
  | _ => exact ⟨trivial, by simp, by simp⟩

theorem plans_fits (jobs : List CommittedJob) (n : String) (b : AmrBeliefs) :
    (abortFits jobs).Plans AmrAgent.program n b where
  goal t body ht h := by
    refine plan_fits ?_ h
    rintro o source k rfl
    cases ht
  goal_failed _ _ _ _ h := by cases h
  outer_failed _ _ _ _ h := by cases h

/-- Aborts that fit the jobs fit fewer jobs, and one more that no abort is about. -/
theorem fits_imp {jobs jobs' : List CommittedJob}
    {p : Population String AmrBeliefs AmrTrigger AmrStmt} (hp : (abortFits jobs).All p)
    (h : ∀ job ∈ jobs', job ∈ jobs ∨ ¬ p.About job.amr (abortEvent job.o ·) (abortStmt job.o ·)) :
    (abortFits jobs').All p := by
  refine hp.imp (fun _ h => h) ?_ ?_
  · intro e he hfits o source k ht job hjob hamr ho
    rcases h job hjob with hold | hnone
    · exact hfits o source k ht job hold hamr ho
    · exact absurd (Or.inl ⟨e, he, hamr.symm, by simp [ht, abortEvent, ho]⟩) hnone
  · intro θ hθ hall
    refine hall.imp (fun _ h => h) (fun _ h => h) fun f hf st hst hfits => ⟨hfits.1, ?_⟩
    intro o k heq job hjob hamr ho
    rcases h job hjob with hold | hnone
    · exact hfits.2 o k heq job hold hamr ho
    · exact absurd (Or.inr ⟨θ, hθ, hamr.symm, f, hf, st, hst, by simp [heq, abortStmt, ho]⟩) hnone

/-! ## Jobs and attempts -/

theorem sum_committed_le {k : Attempt} {s : Shop} (h : ShopWeight.DispatchedOnce k 0 1 s) :
    (dispatchWeight k 0 1).order.total s.orders
      + (s.committed.filter (·.attempt = k)).length ≤ 1 := by
  have hcount := length_filter_eq_sum (fun job : CommittedJob => job.attempt = k) s.committed
  have hweight : (dispatchWeight k 0 1).committed
      = fun job : CommittedJob => if job.attempt = k then 1 else 0 := rfl
  have hle := h.1
  rw [ShopWeight.total, hweight] at hle
  omega

/-- An attempt commits one job. -/
theorem committed_unique {k : Attempt} {s : Shop} (h : ShopWeight.DispatchedOnce k 0 1 s)
    {job job' : CommittedJob} (hjob : job ∈ s.committed) (hjob' : job' ∈ s.committed)
    (hk : job.attempt = k) (hk' : job'.attempt = k) : job = job' := by
  have hmem : job ∈ s.committed.filter (·.attempt = k) :=
    List.mem_filter.mpr ⟨hjob, decide_eq_true hk⟩
  have hmem' : job' ∈ s.committed.filter (·.attempt = k) :=
    List.mem_filter.mpr ⟨hjob', decide_eq_true hk'⟩
  have hlen : (s.committed.filter (·.attempt = k)).length = 1 := by
    have := sum_committed_le h
    have := List.length_pos_of_mem hmem
    omega
  obtain ⟨a, ha⟩ := List.length_eq_one_iff.mp hlen
  rw [ha, List.mem_singleton] at hmem hmem'
  rw [hmem, hmem']

/-- An attempt that is about to commit its job has committed none. -/
theorem not_committed_of_head {k : Attempt} {s : Shop} (h : ShopWeight.DispatchedOnce k 0 1 s)
    {i : ℕ} {θ : Intention String OrderTrigger OrderStmt} {fromStation toStation : String}
    {o : OrderId} (hθ : s.orders.intentions[i]? = some θ)
    (hhead : θ.head = some (.reserveTransport fromStation toStation o k)) :
    ∀ job ∈ s.committed, job.attempt ≠ k := by
  intro job hjob hk
  have hmem : job ∈ s.committed.filter (·.attempt = k) :=
    List.mem_filter.mpr ⟨hjob, decide_eq_true hk⟩
  have hone : 1 ≤ (dispatchWeight k 0 1).order.stmt θ.owner
      (.reserveTransport fromStation toStation o k) := by
    simp [dispatchWeight]
  have hstmt := Weight.stmt_le_intention (w := (dispatchWeight k 0 1).order) hhead
  have htotal := Weight.intention_le_total (w := (dispatchWeight k 0 1).order) hθ
  have := sum_committed_le h
  have := List.length_pos_of_mem hmem
  omega

theorem dispatched_anti {s s' : Shop} (hcommitted : s'.committed = s.committed)
    (hjobs : s'.jobs ⊆ s.jobs) {amr : String} {o : OrderId} {k : Attempt}
    (h : s.Dispatched amr o k) : s'.Dispatched amr o k := by
  obtain ⟨⟨job, hjob, hk, hat⟩, hothers⟩ := h
  refine ⟨⟨job, hcommitted ▸ hjob, hk, fun hmem => hat (hjobs hmem)⟩, ?_⟩
  exact fun job' hjob' => hothers job' (hjobs hjob')

/-- A job committed for another attempt, and elsewhere, leaves what is dispatched. -/
theorem dispatched_commit {s s' : Shop} {new : CommittedJob}
    (hcommitted : s'.committed = new :: s.committed) (hjobs : s'.jobs = s.jobs ++ [new])
    (hnew : ∀ job ∈ s.committed, job.attempt ≠ new.attempt) {amr : String} {o : OrderId}
    (hat : ¬ (new.amr = amr ∧ new.o = o)) {k : Attempt} (h : s.Dispatched amr o k) :
    s'.Dispatched amr o k := by
  obtain ⟨⟨job, hjob, hk, hjobat⟩, hothers⟩ := h
  constructor
  · refine ⟨job, by rw [hcommitted]; exact List.mem_cons_of_mem _ hjob, hk, fun hmem => ?_⟩
    rw [hjobs] at hmem
    rcases List.mem_append.mp hmem with hmem | hmem
    · exact hjobat hmem
    · exact absurd (congrArg CommittedJob.attempt (List.mem_singleton.mp hmem)) (hnew job hjob)
  · intro job' hjob' hamr ho
    rw [hjobs] at hjob'
    rcases List.mem_append.mp hjob' with hjob' | hjob'
    · exact hothers job' hjob' hamr ho
    · obtain rfl := List.mem_singleton.mp hjob'
      exact absurd ⟨hamr, ho⟩ hat

/-! ## Every abort cancels its job -/

/-- The agent is about to cancel the job for the abort of its attempt. -/
def Aborting (s : Shop) (job : CommittedJob) : Prop :=
  s.amrs.About job.amr (fun t => ∃ sender, t = .told ⟨.abortTransport job.o, sender⟩
    (some job.attempt)) (· = .cancelTransport job.o (some job.attempt))

/-- Every cancelled job was cancelled by the abort of its attempt; and a job still under way
whose abort has reached an agent is about to be cancelled. -/
def AbortedExactly (s : Shop) : Prop :=
  (∀ p ∈ s.cancelled, p.2 = some p.1.attempt) ∧
    ∀ job ∈ s.jobs, job.attempt ∈ s.received → s.Aborting job

/-- What is under way to an AMR agent is an abort that was dispatched to it, or not for an
attempt. -/
def AbortsDispatched (s : Shop) : Prop :=
  ∀ m ∈ s.mail, ∀ c, m.content = .amr c →
    (m.attempt = none ∧ ∀ o, c ≠ .abortTransport o) ∨
      ∃ o k, c = .abortTransport o ∧ m.attempt = some k ∧ s.Dispatched m.receiver o k

/-- The invariant of the aborts. -/
structure AbortInvariant (s : Shop) : Prop where
  exactly : s.AbortedExactly
  shape : AmrAgent.shape.All s.amrs
  fits : (abortFits s.jobs).All s.amrs
  dispatched : s.AbortsDispatched
  once : ∀ k, ShopWeight.DispatchedOnce k 0 1 s
  jobs : s.jobs ⊆ s.committed
  received : ∀ k ∈ s.received, ∃ job ∈ s.committed, job.attempt = k

/-! ## One operation -/

/-- The event of an abort comes from a message that was dispatched. -/
theorem fits_of_message {s : Shop} (hs : s.AbortsDispatched) {op : ShopOp}
    {e : String × AmrTrigger} (he : s.amrEvent op = some e) :
    (abortFits s.jobs).event e.1 e.2 := by
  intro o source k htold
  cases op with
  | deliver j =>
    obtain ⟨m, hm, he⟩ := Option.bind_eq_some_iff.mp he
    split at he
    · next c hc =>
      cases he
      cases htold
      rcases hs m (List.mem_of_getElem? hm) _ hc with ⟨_, hno⟩ | ⟨o', k', ho', hk, hdisp⟩
      · exact absurd rfl (hno o)
      · cases ho'
        intro job hjob hamr ho
        rw [hk, hdisp.2 job hjob hamr ho]
    · cases he
      cases htold
    · cases he
  | arrive j =>
    obtain ⟨job, _, rfl⟩ := Option.map_eq_some_iff.mp he
    cases htold
  | transportBlocked amr o' =>
    cases he
    cases htold
  | amrEpoch n epoch =>
    cases he
    cases htold
  | _ => cases he

/-- The aborts that the agents answer fit the jobs before an operation; and a move of an
agent cancels none but jobs of the attempt. -/
theorem fits_exec {s : Shop} (hs : s.AbortInvariant) (op : ShopOp) :
    (abortFits s.jobs).All (s.exec op).amrs ∧
      ∀ p ∈ (s.exec op).cancelled, p.2 = some p.1.attempt := by
  constructor
  · refine amrs_rule (Q := (abortFits s.jobs).All) hs.fits ?_ ?_ ?_ ?_
    · exact fun p n f _ hp => hp.believe trivial
    · exact fun p e he hp => hp.post (fits_of_message hs.dispatched he)
    · rintro n rfl
      refine hs.fits.select fun e he body h => plan_fits ?_ h
      have hn : e.1 = n := by simpa using List.find?_some he
      exact hn ▸ hs.fits.events e (List.mem_of_find?_eq_some he)
    · intro i u θ _ hθ
      exact (Property.apply_move hs.fits hθ (plans_fits _ _ _) fun t st _ hst =>
        exec_fits hst u).1
  · intro p hp
    by_cases hop : ∃ i u, op = .amrMove i u
    · obtain ⟨i, u, rfl⟩ := hop
      simp only [exec, amrMove] at hp
      split at hp
      · exact hs.exactly.1 p hp
      · next θ hθ =>
        rcases mem_cancelled_of_run hp with hp | ⟨hjob, hamr, hact⟩
        · exact hs.exactly.1 p hp
        · have hfits := (Property.apply_move hs.fits hθ (plans_fits _ _ _) fun t st _ hst =>
            exec_fits hst u).2 _ hact _ _ rfl
          exact hfits p.1 hjob hamr rfl
    · rw [cancelled_exec fun i u h => hop ⟨i, u, h⟩] at hp
      exact hs.exactly.1 p hp

/-- An abort that is about to be answered stays so until it cancels the job. -/
theorem aborting_exec {s : Shop} {op : ShopOp} (hshape : AmrAgent.shape.All s.amrs)
    (hC : s.AbortKept op) {job : CommittedJob} (hjob : job ∈ s.jobs) (h : s.Aborting job) :
    job ∉ (s.exec op).jobs ∨ (s.exec op).Aborting job := by
  have hunder : s.Undelivered job.attempt := ⟨job, hjob, rfl⟩
  by_cases hop : ∃ i u, op = .amrMove i u
  · obtain ⟨i, u, rfl⟩ := hop
    simp only [exec, amrMove]
    cases hθ : s.amrs.intentions[i]? with
    | none => exact Or.inr h
    | some θ =>
      -- the abort is alone in its intention, so only dropping all intentions drops it
      have hkeep : ∀ θ' ∈ s.amrs.intentions, θ'.owner = job.amr →
          (∃ f ∈ θ'.frames, ∃ st ∈ f.body, st = .cancelTransport job.o (some job.attempt)) →
          Population.keeps (AmrAgent.program.move u (s.amrs.beliefs θ.owner) θ) θ' := by
        rintro θ' hθ' howner ⟨f, hf, _, hst, rfl⟩
        obtain ⟨sender, htrigger⟩ := (hshape.intentions θ' hθ').frames.stmt f hf _ hst
        obtain ⟨hpend, hframes⟩ := alone_of_shape hshape hθ' hf
          (by rw [htrigger]; exact id) (by rw [htrigger]; exact id)
        refine AmrAgent.keeps_of_alone hpend hframes (by rw [htrigger]; simp) ?_
        exact fun hhead hsame => hC θ hθ hhead θ' hθ' hsame f hf _ hst hunder
      have hpend := (hshape.intentions θ (List.mem_of_getElem? hθ)).pending
      rcases Population.About.apply_move h hθ
          (fun g hg => AmrAgent.plan_goal (hpend g hg).1 θ.owner _)
          (fun t st _ => AmrAgent.exec_ne_failed θ.owner _ st u) hkeep with
        ⟨howner, t, _, hnext, rfl⟩ | habout
      · left
        have hacts := (Program.move_of_next AmrAgent.program (x := u)
          (b := s.amrs.beliefs θ.owner) (Intention.head_of_next hnext) rfl).2
        refine not_mem_jobs_of_run howner.symm (k := some job.attempt) ?_ _
        rw [hacts]
        exact List.mem_cons_self
      · right
        unfold Aborting
        dsimp only
        rwa [run_proj (g := Shop.amrs) (by simp)]
  · refine Or.inr (amrs_rule (Q := fun p => p.About job.amr _ _) h ?_ ?_ ?_ ?_)
    · exact fun p n f _ hp => hp.believe n f
    · exact fun p e _ hp => hp.post _ _
    · rintro n rfl
      refine Population.About.select h fun e he hn hev => ?_
      obtain ⟨sender, hev⟩ := hev
      have hrec := hC e he
      rw [hev] at hrec
      subst hn
      rw [hev]
      refine ⟨_, if_pos (hrec hunder), _, ?_, rfl⟩
      simp
    · exact fun i u θ h _ => absurd ⟨i, u, h⟩ hop

/-- An abort that reaches the agent of its job is about to be answered. -/
theorem aborting_deliver {s : Shop} (hs : s.AbortInvariant) {j : ℕ} {m : Message}
    (hC : s.AbortKept (.deliver j)) (hm : s.mail[j]? = some m)
    (hrec : (s.deliver j).received ≠ s.received) {job : CommittedJob} (hjob : job ∈ s.jobs)
    (hk : m.attempt = some job.attempt) (hamr : toAmr m) : (s.deliver j).Aborting job := by
  have hfresh := hC m hm
  have hmail := hs.dispatched m (List.mem_of_getElem? hm)
  unfold toAmr at hamr
  split at hamr
  · next c hc =>
    rcases hmail c hc with ⟨hnone, _⟩ | ⟨o, k, rfl, hk', hdisp⟩
    · rw [hnone] at hk
      cases hk
    · obtain rfl : k = job.attempt := Option.some_inj.mp (hk'.symm.trans hk)
      obtain ⟨job', hjob', hat', hplace⟩ := hdisp.1
      obtain rfl := committed_unique (hs.once _) hjob' (hs.jobs hjob) hat' rfl
      obtain ⟨hreceiver, rfl⟩ := hplace hjob
      simp only [Fresh, hc, hk] at hfresh
      have hnew := hfresh ⟨job', hjob, rfl⟩
      unfold deliver at hrec ⊢
      rw [hm] at hrec ⊢
      dsimp only at hrec ⊢
      split
      · next hblocked => simp [hblocked] at hrec
      · have htell : tell id ⟨.abortTransport job'.o, m.sender⟩ (s.amrs.beliefs m.receiver).told
            = (⟨.abortTransport job'.o, m.sender⟩ :: (s.amrs.beliefs m.receiver).told, true) :=
          if_neg (by simpa using hnew)
        have hpost : ∃ p, ({ s with mail := s.mail.eraseIdx j }.receive m).amrs
            = Population.post m.receiver (.told ⟨.abortTransport job'.o, m.sender⟩
              (some job'.attempt)) p := by
          simp only [receive, hc, hk, htell]
          exact ⟨_, rfl⟩
        obtain ⟨p, hpost⟩ := hpost
        unfold Aborting
        rw [hpost, hreceiver]
        exact Population.about_post ⟨m.sender, rfl⟩
  · cases hamr

theorem content_of_toAmr {m : Message} (h : toAmr m) : ∃ c, m.content = .amr c := by
  unfold toAmr at h
  split at h
  · next c hc => exact ⟨c, hc⟩
  · cases h

/-- Jobs whose abort has been received are still about to be cancelled, or gone. -/
theorem aborting_received {s : Shop} {op : ShopOp} (hs : s.AbortInvariant) (hC : s.AbortKept op)
    {job : CommittedJob} (hold : job ∈ s.jobs) (hjob : job ∈ (s.exec op).jobs)
    (hk : job.attempt ∈ (s.exec op).received) : (s.exec op).Aborting job := by
  by_cases hreceived : job.attempt ∈ s.received
  · exact (aborting_exec hs.shape hC hold (hs.exactly.2 job hold hreceived)).resolve_left
      fun h => h hjob
  · rcases received_exec op s with heq | ⟨j, m, rfl, hm, hamr, heq⟩
    · exact absurd (heq ▸ hk) hreceived
    · have hattempt : m.attempt = some job.attempt := by
        rw [heq] at hk
        exact Option.mem_toList.mp ((List.mem_append.mp hk).resolve_right hreceived)
      refine aborting_deliver hs hC hm (fun h => hreceived ?_) hold hattempt hamr
      rw [← h]
      exact hk

/-- The invariant is kept by an operation that no order holon carries out. -/
theorem abortInvariant_surroundings {s : Shop} {op : ShopOp} (hs : s.AbortInvariant)
    (hC : s.AbortKept op) (hop : ∀ i x, op ≠ .orderMove i x) : (s.exec op).AbortInvariant := by
  obtain ⟨hcommitted, hjobs, hmail⟩ := transports_exec hop s
  obtain ⟨hfits, hcancelled⟩ := fits_exec hs op
  refine ⟨⟨hcancelled, fun job hjob hk => aborting_received hs hC (hjobs hjob) hjob hk⟩,
    amrs_shape_exec hs.shape, fits_imp hfits fun job hjob => Or.inl (hjobs hjob), ?_,
    fun k => ShopWeight.dispatchedOnce_exec (by omega) op (hs.once k), ?_, ?_⟩
  · intro m hm c hc
    rcases hmail m hm (by simp [toAmr, hc]) with hold | ⟨hnone, hno⟩
    · refine (hs.dispatched m hold c hc).imp_right ?_
      rintro ⟨o, k, ho, hk, hdisp⟩
      exact ⟨o, k, ho, hk, dispatched_anti hcommitted hjobs hdisp⟩
    · exact Or.inl ⟨hnone, fun o h => hno o (h ▸ hc)⟩
  · rw [hcommitted]
    exact List.Subset.trans hjobs hs.jobs
  · intro k hk
    rw [hcommitted]
    rcases received_exec op s with heq | ⟨j, m, rfl, hm, hamr, heq⟩
    · exact hs.received k (heq ▸ hk)
    · rw [heq] at hk
      rcases List.mem_append.mp hk with hk | hk
      · obtain ⟨c, hc⟩ := content_of_toAmr hamr
        have hattempt := Option.mem_toList.mp hk
        rcases hs.dispatched m (List.mem_of_getElem? hm) c hc with ⟨hnone, _⟩ | ⟨o, k', _, hk', hd⟩
        · rw [hnone] at hattempt
          cases hattempt
        · obtain rfl : k' = k := Option.some_inj.mp (hk'.symm.trans hattempt)
          obtain ⟨job, hjob, hat, _⟩ := hd.1
          exact ⟨job, hjob, hat⟩
      · exact hs.received k hk

/-- The invariant is kept by a move of an order holon. -/
theorem abortInvariant_orderMove {s : Shop} {i : ℕ} {x : OrderInput} (hs : s.AbortInvariant)
    (hC : s.AbortKept (.orderMove i x)) : (s.orderMove i x).AbortInvariant := by
  have hamrs : (s.orderMove i x).amrs = s.amrs := by
    unfold orderMove
    split
    · rfl
    · rw [run_proj (g := Shop.amrs) (by simp)]
  have hrec : (s.orderMove i x).received = s.received := (orderMove_jobs i x s).2.2.1
  have hcan : (s.orderMove i x).cancelled = s.cancelled := (orderMove_jobs i x s).2.2.2.1
  have hshape : AmrAgent.shape.All (s.orderMove i x).amrs := hamrs ▸ hs.shape
  have honce : ∀ k, ShopWeight.DispatchedOnce k 0 1 (s.orderMove i x) := fun k =>
    ShopWeight.dispatchedOnce_exec (by omega) (.orderMove i x) (hs.once k)
  have hmem : ∀ m ∈ (s.orderMove i x).mail, ∀ c, m.content = .amr c →
      m ∈ (s.orderMove i x).mail.filter toAmr := fun m hm c hc =>
    List.mem_filter.mpr ⟨hm, by simp [toAmr, hc]⟩
  have haborting : ∀ job, s.Aborting job → (s.orderMove i x).Aborting job := fun job h => by
    unfold Aborting
    rwa [hamrs]
  rcases orderMove_transports i x s with ⟨θ, f, t, o, k, hθ, hhead, h⟩ |
    ⟨θ, amr, o, k, hθ, hhead, h⟩ | h <;>
    obtain ⟨hjobs, hcommitted, hmail⟩ := transports_eq.mp h
  · -- the job is new, and no abort of its order is under way to its AMR
    have hnew := not_committed_of_head (hs.once k) hθ hhead
    have hnone : ¬ s.AbortUnderWay x.amr o := hC θ hθ _ hhead
    refine ⟨⟨hcan ▸ hs.exactly.1, fun job hjob hk => ?_⟩, hshape, ?_, ?_, honce, ?_, ?_⟩
    · rw [hjobs] at hjob
      rw [hrec] at hk
      rcases List.mem_append.mp hjob with hjob | hjob
      · exact haborting job (hs.exactly.2 job hjob hk)
      · obtain rfl := List.mem_singleton.mp hjob
        obtain ⟨job, hjob, hat⟩ := hs.received k hk
        exact absurd hat (hnew job hjob)
    · rw [hamrs]
      refine fits_imp hs.fits fun job hjob => ?_
      rw [hjobs] at hjob
      rcases List.mem_append.mp hjob with hjob | hjob
      · exact Or.inl hjob
      · obtain rfl := List.mem_singleton.mp hjob
        exact Or.inr fun h => hnone (Or.inr h)
    · intro m hm c hc
      have hold := hmem m hm c hc
      rw [hmail] at hold
      refine (hs.dispatched m (List.mem_of_mem_filter hold) c hc).imp_right ?_
      rintro ⟨o', k', rfl, hk', hdisp⟩
      refine ⟨o', k', rfl, hk', dispatched_commit hcommitted hjobs hnew ?_ hdisp⟩
      rintro ⟨hat, ho⟩
      exact hnone (Or.inl ⟨m, List.mem_of_mem_filter hold, hat.symm, by rw [hc, ← ho]⟩)
    · rw [hjobs, hcommitted]
      intro job hjob
      rcases List.mem_append.mp hjob with hjob | hjob
      · exact List.mem_cons_of_mem _ (hs.jobs hjob)
      · obtain rfl := List.mem_singleton.mp hjob
        exact List.mem_cons_self
    · intro k' hk'
      rw [hrec] at hk'
      obtain ⟨job, hjob, hat⟩ := hs.received k' hk'
      exact ⟨job, by rw [hcommitted]; exact List.mem_cons_of_mem _ hjob, hat⟩
  all_goals
    have hsub : (s.orderMove i x).jobs ⊆ s.jobs := by rw [hjobs]; exact List.Subset.refl _
    refine ⟨⟨hcan ▸ hs.exactly.1, fun job hjob hk =>
      haborting job (hs.exactly.2 job (hsub hjob) (hrec ▸ hk))⟩, hshape,
      by rw [hamrs, hjobs]; exact hs.fits, ?_, honce, by rw [hjobs, hcommitted]; exact hs.jobs,
      fun k hk => by rw [hcommitted]; exact hs.received k (hrec ▸ hk)⟩
    intro m hm c hc
    have hold := hmem m hm c hc
    rw [hmail] at hold
  · rcases List.mem_append.mp hold with hold | hold
    · refine (hs.dispatched m (List.mem_of_mem_filter hold) c hc).imp_right ?_
      rintro ⟨o', k', rfl, hk', hdisp⟩
      exact ⟨o', k', rfl, hk', dispatched_anti hcommitted hsub hdisp⟩
    · obtain rfl := List.mem_singleton.mp hold
      cases hc
      exact Or.inr ⟨o, k, rfl, rfl, dispatched_anti hcommitted hsub (hC θ hθ _ hhead)⟩
  · refine (hs.dispatched m (List.mem_of_mem_filter hold) c hc).imp_right ?_
    rintro ⟨o', k', rfl, hk', hdisp⟩
    exact ⟨o', k', rfl, hk', dispatched_anti hcommitted hsub hdisp⟩

/-! ## Runs -/

theorem abortInvariant_start (c : ShopConfig) : (Shop.start c).AbortInvariant where
  exactly := ⟨by simp [Shop.start], by simp [Shop.start]⟩
  shape := amrs_shape_start c
  fits := by
    refine ⟨fun _ => trivial, fun e he o source k h => ?_, by simp [Shop.start]⟩
    obtain ⟨n, _, rfl⟩ := List.mem_map.mp he
    cases h
  dispatched m hm := by cases hm
  once _ := ShopWeight.dispatchedOnce_start c
  jobs _ h := by cases h
  received _ h := by cases h

/-- The transport of `acceptedRun` is committed, and its message is on its way. -/
def committedRun : List ShopOp := acceptedRun ++ stationMoves 3 2 ++ orderMoves 12 2

/-- The wait for the start of the station ends with its timer, and the abort of the transport
reaches the agent. -/
def abortedRun : List ShopOp :=
  [ShopOp.orderTimer 0, .orderSignal 0, .orderSelect "order_1"] ++ orderMoves 1 3 ++
    orderMoves 6 2 ++ [ShopOp.deliver 4, .amrSelect "amr_1"]

end Shop

end MatrixFactory
