/-
# The reservation registry

A station that accepts an order registers a lock of it for the order holon, and the plans that
take the station out of the order release the lock.  The registry is keyed by the order alone,
so a release does not tell the lock of one station from that of another; and the plan for a new
schema releases none.

If a station is set up anew only without a lock, accepts and gives up an order only while no
other station has a lock of it, and hears of the end of its bid in time, then the registry
holds the locks that the stations have accepted and not given up since, and those of aborted
orders that are about to be released.
-/
import MatrixFactory.StationLock
import MatrixFactory.Lib.Plans
import Mathlib.Data.List.Nodup

namespace MatrixFactory

open AgentSpeak

/-! ## The locks that are held -/

/-- The plans that set a station up: at the start, after a suspension and for a new schema. -/
def StationTrigger.restarts : StationTrigger → Bool
  | .start | .reinitializeSchema => true
  | _ => false

/-- The plan for an abort. -/
def StationTrigger.isAbort : StationTrigger → Bool
  | .told ⟨.abortCurrentOperation _, _⟩ _ => true
  | _ => false

/-- The order that the plan for an event gives up: its bid has expired, or it is aborted. -/
def StationTrigger.givesUp : StationTrigger → Option OrderId
  | .timerExpired o | .told ⟨.abortCurrentOperation o, _⟩ _ => some o
  | _ => none

namespace Shop

/-- The state of the shop floor with the locks that are held: accepted, and not given up
since. -/
abbrev Reserving := Shop × List (OrderId × String × String)

/-- The locks that are held, as stations with their orders. -/
def locksOf (held : List (OrderId × String × String)) : List (String × OrderId) :=
  held.map fun p => (p.2.1, p.1)

/-- The locks that are held after an operation: `registerLock` adds one, and a plan that ends
a lock takes it away when it releases it or sets the state of the station. -/
def heldAfter (s : Shop) (held : List (OrderId × String × String)) :
    ShopOp → List (OrderId × String × String)
  | .stationMove i =>
    match s.stations.intentions[i]? with
    | none => held
    | some θ =>
      match θ.next with
      | some (_, .registerLock o holon) => (o, θ.owner, holon) :: held
      | some (t, .releaseLock o) =>
        held.filter fun p => ¬ (p.2.1 = θ.owner ∧ p.1 = o ∧ t.ends p.1)
      | some (t, .setStationState _) => held.filter fun p => ¬ (p.2.1 = θ.owner ∧ t.ends p.1)
      | _ => held
  | _ => held

/-- One operation, with the locks that are held. -/
def reserveStep (op : ShopOp) (x : Reserving) : Reserving :=
  (x.1.exec op, x.1.heldAfter x.2 op)

/-! ## The property and the condition -/

/-- The plan for an abort has set the state of the station and is about to release the lock. -/
def Releasing (s : Shop) (p : OrderId × String × String) : Prop :=
  ∃ θ ∈ s.stations.intentions, θ.owner = p.2.1 ∧ θ.pending = none ∧
    ∃ f, θ.frames = [f] ∧ f.trigger.isAbort ∧ .releaseLock p.1 ∈ f.body

/-- The registry holds the locks that are held, for which their stations are locked or busy,
and beside them only those of aborted orders that are about to be released. -/
def Reserved (x : Reserving) : Prop :=
  (∀ p ∈ x.2, p ∈ x.1.registry ∧ (x.1.stations.beliefs p.2.1).serves p.1) ∧
    ∀ p ∈ x.1.registry, p ∈ x.2 ∨ x.1.Releasing p

/-- The registry holds no lock of the order for another station. -/
def Alone (s : Shop) (n : String) (o : OrderId) : Prop :=
  ∀ p ∈ s.registry, p.1 = o → p.2.1 = n

/-- The registry holds no lock for the station. -/
def Unlocked (s : Shop) (n : String) : Prop :=
  ∀ p ∈ s.registry, p.2.1 ≠ n

/-- The rest of a plan that ends a lock of `o` releases it, if it takes the station out of the
order: it sets the state of the station after it has released the lock, or releases it after an
abort has set the state. -/
def leaves (o : OrderId) (aborts : Bool) : List StationStmt → Bool
  | [] => true
  | .setStationState _ :: rest => aborts && .releaseLock o ∈ rest
  | .releaseLock o' :: rest => o' = o || leaves o aborts rest
  | .ifOccupied :: _ => true
  | _ :: rest => leaves o aborts rest

/-- The order is free for station `n`: no lock of it is registered or about to be released, and
no plan of the station that ends its lock has got past the release. -/
def Free (s : Shop) (n : String) (o : OrderId) : Prop :=
  (∀ p ∈ s.registry, p.1 ≠ o) ∧
    ∀ θ ∈ s.stations.intentions, ∀ f ∈ θ.frames, .releaseLock o ∉ f.body ∧
      (θ.owner = n → f.trigger.ends o → f.trigger.restarts ∨ leaves o f.trigger.isAbort f.body)

/-- The condition on a statement of a plan of station `n`. -/
def ReservableStmt (s : Shop) (n : String) (result : Bool) (t : StationTrigger) :
    StationStmt → Prop
  | .registerLock o _ => s.Free n o
  | .ifOccupied => ∀ p ∈ s.registry, (s.stations.beliefs n).serves p.1 → p.2.1 = n
  | .awaitResult _ o _ _ => result → s.Alone n o
  | .setStationState _ => t.restarts → s.Unlocked n
  | .dropIntention .all => s.Unlocked n
  | _ => True

/-- The condition on an operation. -/
def Reservable (x : Reserving) (op : ShopOp) : Prop :=
  LockInTime (x.1, locksOf x.2) op ∧
    match op with
    | .stationSelect n => ∀ e ∈ x.1.stations.events.find? (·.1 = n), ∀ o ∈ e.2.givesUp,
      (x.1.stations.beliefs n).stationState = some (.provisionalLock o) → x.1.Alone n o
    | .stationMove i => ∀ θ ∈ x.1.stations.intentions[i]?, ∀ q ∈ θ.next,
      x.1.ReservableStmt θ.owner (x.1.resultFor θ).isSome q.1 q.2
    | _ => True

instance (s : Shop) (n : String) (o : OrderId) : Decidable (s.Alone n o) :=
  inferInstanceAs (Decidable (∀ p ∈ s.registry, _))

instance (s : Shop) (n : String) : Decidable (s.Unlocked n) :=
  inferInstanceAs (Decidable (∀ p ∈ s.registry, _))

instance (s : Shop) (n : String) (o : OrderId) : Decidable (s.Free n o) :=
  inferInstanceAs (Decidable (_ ∧ _))

instance (s : Shop) (p : OrderId × String × String) : Decidable (s.Releasing p) :=
  have (θ : Intention String StationTrigger StationStmt) : Decidable (∃ f, θ.frames = [f] ∧
      f.trigger.isAbort ∧ .releaseLock p.1 ∈ f.body) :=
    match h : θ.frames with
    | [f] => decidable_of_iff (f.trigger.isAbort ∧ .releaseLock p.1 ∈ f.body)
      ⟨fun hf => ⟨f, rfl, hf⟩, fun ⟨_, hf, hrest⟩ => by cases hf; exact hrest⟩
    | [] => .isFalse fun ⟨_, hf, _⟩ => by cases hf
    | _ :: _ :: _ => .isFalse fun ⟨_, hf, _⟩ => by cases hf
  inferInstanceAs (Decidable (∃ θ ∈ s.stations.intentions, _))

instance (x : Reserving) : Decidable (Reserved x) :=
  inferInstanceAs (Decidable (_ ∧ _))

instance (s : Shop) (n : String) (result : Bool) (t : StationTrigger) (stmt : StationStmt) :
    Decidable (s.ReservableStmt n result t stmt) := by
  unfold ReservableStmt
  split <;> infer_instance

instance (x : Reserving) (op : ShopOp) : Decidable (Reservable x op) :=
  match op with
  | .stationSelect n => inferInstanceAs (Decidable
      (LockInTime (x.1, locksOf x.2) (.stationSelect n) ∧
        ∀ e ∈ x.1.stations.events.find? (·.1 = n), ∀ o ∈ e.2.givesUp,
          (x.1.stations.beliefs n).stationState = some (.provisionalLock o) → x.1.Alone n o))
  | .stationMove i => inferInstanceAs (Decidable (LockInTime (x.1, locksOf x.2) (.stationMove i) ∧
      ∀ θ ∈ x.1.stations.intentions[i]?, ∀ q ∈ θ.next,
        x.1.ReservableStmt θ.owner (x.1.resultFor θ).isSome q.1 q.2))
  | .orderSelect _ | .orderMove _ _ | .amrSelect _ | .amrMove _ _ | .deliver _ | .supervisor _ _
  | .orderTimer _ | .orderSignal _ | .stationTimer _ | .stationSignal _ | .arrive _
  | .transportBlocked _ _ | .finish _ _ _ | .orderEpoch _ _ | .stationEpoch _ _
  | .amrEpoch _ _ => inferInstanceAs (Decidable (True ∧ True))

/-! ## The registry -/

/-- Only a move of a resource holon changes the registry. -/
theorem registry_eq {op : ShopOp} (hop : ∀ i, op ≠ .stationMove i) (s : Shop) :
    (s.exec op).registry = s.registry := by
  cases op with
  | stationMove i => exact absurd rfl (hop i)
  | orderMove i x =>
    simp only [exec, orderMove]
    split
    · rfl
    · rw [run_proj (g := Shop.registry) fun a s => by cases a <;> rfl]
  | amrMove i u =>
    simp only [exec, amrMove]
    split
    · rfl
    · rw [run_proj (g := Shop.registry) fun a s => by cases a <;> rfl]
  | deliver j =>
    simp only [exec, deliver]
    split
    · rfl
    · split
      · rfl
      · simp only [receive]
        split <;> rfl
  | arrive j =>
    simp only [exec, arrive]
    split <;> rfl
  | finish j code summary =>
    simp only [exec, finish]
    split <;> rfl
  | _ => first | rfl | (simp only [exec]; split <;> rfl)

/-- An action of a resource holon keeps one lock for each order. -/
theorem keys_stationAct (me : String) (a : StationAction) {s : Shop}
    (h : (s.registry.map (·.1)).Nodup) : ((stationAct me a s).registry.map (·.1)).Nodup := by
  have hfilter : ∀ o, ((s.registry.filter (·.1 ≠ o)).map (·.1)).Nodup := fun o =>
    h.sublist (List.filter_sublist.map _)
  cases a with
  | registerLock o holon =>
    refine List.nodup_cons.mpr ⟨fun hmem => ?_, hfilter o⟩
    obtain ⟨p, hp, heq⟩ := List.mem_map.mp hmem
    simp [heq] at hp
  | releaseLock o => exact hfilter o
  | _ => exact h

/-- The registry holds one lock for each order. -/
theorem keys_exec {op : ShopOp} {s : Shop} (h : (s.registry.map (·.1)).Nodup) :
    ((s.exec op).registry.map (·.1)).Nodup := by
  by_cases hop : ∃ i, op = .stationMove i
  · obtain ⟨i, rfl⟩ := hop
    simp only [exec, stationMove]
    split
    · exact h
    · next θ hi =>
      refine Runs.run_invariant (I := fun s : Shop => (s.registry.map (·.1)).Nodup)
        (C := fun _ _ => True) (fun s a hs _ => keys_stationAct θ.owner a hs) ?_
        (Runs.along_of_forall fun _ _ _ => trivial)
      exact h
  · rw [registry_eq (fun i heq => hop ⟨i, heq⟩)]
    exact h

/-- The action changes the registry. -/
def reserves : StationAction → Bool
  | .registerLock _ _ | .releaseLock _ => true
  | _ => false

theorem registry_of_not_reserves {me : String} {acts : List StationAction}
    (h : ∀ a ∈ acts, reserves a = false) (s : Shop) :
    (Runs.run (stationAct me) acts s).registry = s.registry := by
  induction acts generalizing s with
  | nil => rfl
  | cons a acts ih =>
    rw [Runs.run_cons, ih fun a ha => h a (List.mem_cons_of_mem _ ha)]
    have ha := h a List.mem_cons_self
    cases a <;> first | rfl | cases ha

/-- A statement other than the two does not change the registry. -/
theorem exec_reserves {n : String} {b : StationBeliefs} {stmt : StationStmt} {x : StationInput}
    (hregister : ∀ o holon, stmt ≠ .registerLock o holon) (hrelease : ∀ o, stmt ≠ .releaseLock o)
    {acts : List StationAction}
    (he : (∃ b' code, ResourceHolon.exec n b stmt x = .next b' code acts) ∨
      ResourceHolon.exec n b stmt x = .failed acts) :
    ∀ a ∈ acts, reserves a = false := by
  cases stmt with
  | registerLock o holon => exact absurd rfl (hregister o holon)
  | releaseLock o => exact absurd rfl (hrelease o)
  | releaseStation o =>
    rcases he with ⟨b', code, he⟩ | he <;> cases he
    cases o <;> simp [reserves]
  | queryMyName | claimStation | ifProvisionalLock | processOrder | ifOccupied
  | queryStationState =>
    simp only [ResourceHolon.exec] at he
    split at he <;> rcases he with ⟨b', code, he⟩ | he <;> cases he <;> simp [reserves]
  | awaitResult run o holon step =>
    simp only [ResourceHolon.exec] at he
    split at he <;> rcases he with ⟨b', code, he⟩ | he <;> cases he <;> simp [reserves]
  | _ =>
    rcases he with ⟨b', code, he⟩ | he <;> cases he
    all_goals simp [reserves]

/-- The registry after a move. -/
theorem stationMove_registry {s : Shop} {i : ℕ}
    {θ : Intention String StationTrigger StationStmt} (hi : s.stations.intentions[i]? = some θ) :
    (s.stationMove i).registry = match θ.next with
      | some (_, .registerLock o holon) =>
        (o, θ.owner, holon) :: s.registry.filter (·.1 ≠ o)
      | some (_, .releaseLock o) => s.registry.filter (·.1 ≠ o)
      | _ => s.registry := by
  simp only [stationMove, hi]
  split
  · next o holon hnext =>
    have hmove := ResourceHolon.program.move_of_next (x := s.stationInput θ)
      (b := s.stations.beliefs θ.owner) (Intention.head_of_next hnext) rfl
    rw [hmove.2]
    rfl
  · next o hnext =>
    have hmove := ResourceHolon.program.move_of_next (x := s.stationInput θ)
      (b := s.stations.beliefs θ.owner) (Intention.head_of_next hnext) rfl
    rw [hmove.2]
    rfl
  · next hregister hrelease =>
    rw [registry_of_not_reserves]
    rcases ResourceHolon.program.move_effect (s.stationInput θ) (s.stations.beliefs θ.owner) θ with
      ⟨-, hnil⟩ | ⟨stmt, hhead, he⟩
    · simp [hnil]
    · obtain ⟨t, hnext⟩ := Intention.next_of_head hhead
      refine exec_reserves (fun o holon heq => ?_) (fun o heq => ?_)
        (he.imp (fun h => ⟨_, h⟩) And.right)
      · exact hregister t o holon (by rw [hnext, heq])
      · exact hrelease t o (by rw [hnext, heq])

/-! ## What the plans do to the registry -/

/-- The statements of the plan for an abort. -/
def ofAbort : StationStmt → Bool
  | .retract _ | .setStationState _ | .cancelTimer _ | .releaseStation _ | .releaseLock _
  | .sendAbortAck _ _ => true
  | _ => false

/-- A plan releases a lock only for its own station, and one that is held only if it ends it;
and the statements that lead to a release stand where they may. -/
def ReservationStmt (registry held : List (OrderId × String × String)) (n : String)
    (t : StationTrigger) : StationStmt → Prop
  | .achieve g => g.isGoal ∧ ¬ t.isAbort
  | .processOrder o _ _ | .awaitResult _ o _ _ => t = .executePhysicalOperation o
  | .ifOccupied => (∀ o, t.ends o) ∧ ¬ t.isAbort
  | .ifProvisionalLock _ => ∀ o, ¬ t.ends o
  | .releaseLock o =>
    (∀ p ∈ registry, p.1 = o → p.2.1 = n) ∧ ∀ p ∈ held, p.1 = o → t.ends o
  | stmt => t.isAbort → ofAbort stmt

/-- The plans of the resource holons with respect to the locks. -/
def reservation (registry held : List (OrderId × String × String)) :
    Property String StationBeliefs StationTrigger StationStmt where
  beliefs _ _ := True
  event _ _ := True
  goal _ t := t.isGoal
  outer _ t := ¬ t.isAbort
  stmt := ReservationStmt registry held

/-- What is left of a plan that ends a held lock of its station releases it in time. -/
def Leaving (held : List (OrderId × String × String)) (n : String) (t : StationTrigger)
    (body : List StationStmt) : Prop :=
  ∀ p ∈ held, p.2.1 = n → t.ends p.1 → t.restarts ∨ leaves p.1 t.isAbort body

variable {registry held : List (OrderId × String × String)} {n : String} {b : StationBeliefs}

theorem ReservationStmt.ofAbort {t : StationTrigger} {stmt : StationStmt}
    (h : ReservationStmt registry held n t stmt) (ht : t.isAbort) : ofAbort stmt := by
  cases stmt with
  | achieve g => exact absurd ht h.2
  | processOrder o holon step | awaitResult run o holon step =>
    obtain rfl : t = .executePhysicalOperation o := h
    cases ht
  | ifOccupied => exact absurd ht h.2
  | ifProvisionalLock o =>
    cases t with
    | told m k =>
      obtain ⟨c, sender⟩ := m
      cases c with
      | abortCurrentOperation o' => exact absurd (by simp [StationTrigger.ends]) (h o')
      | _ => cases ht
    | _ => cases ht
  | releaseLock o => rfl
  | _ => exact h ht

/-- Fewer locks are respected as well. -/
theorem ReservationStmt.mono {registry' held' : List (OrderId × String × String)}
    {t : StationTrigger} {stmt : StationStmt} (h : ReservationStmt registry held n t stmt)
    (hregistry : registry' ⊆ registry) (hheld : held' ⊆ held) :
    ReservationStmt registry' held' n t stmt := by
  cases stmt with
  | releaseLock o =>
    exact ⟨fun p hp => h.1 p (hregistry hp), fun p hp => h.2 p (hheld hp)⟩
  | _ => exact h

section

attribute [local simp] ReservationStmt StationTrigger.isGoal StationTrigger.isAbort
  StationTrigger.ends ofAbort

/-- The plan for an event releases only what it may, if an order is given up only while no other
station has a lock of it, and held by the station only for an abort. -/
theorem plan_reservation {t : StationTrigger} {body : List StationStmt}
    (hplan : ResourceHolon.plan n b t = some body)
    (hgive : ∀ o ∈ t.givesUp, b.stationState = some (.provisionalLock o) →
      ReservationStmt registry held n t (.releaseLock o)) :
    ∀ stmt ∈ body, ReservationStmt registry held n t stmt := by
  cases t with
  | start | reportDefect o | reinitializeSchema | callForProposalFailed o sender =>
    cases hplan
    simp
  | callForProposal step stations o sender k =>
    simp only [ResourceHolon.plan] at hplan
    split at hplan
    · cases hplan
      simp
    · split at hplan
      · cases hplan
        simp
      · split at hplan <;> cases hplan
        simp
  | executePhysicalOperation o =>
    simp only [ResourceHolon.plan] at hplan
    split at hplan
    · obtain ⟨a, ha, rfl⟩ := Option.map_eq_some_iff.mp hplan
      simp
    · cases hplan
  | timerExpired o =>
    simp only [ResourceHolon.plan] at hplan
    split at hplan
    · next h =>
      cases hplan
      have hrelease := hgive o rfl h.1
      simpa using hrelease
    · cases hplan
      simp
  | told m k =>
    obtain ⟨c, sender⟩ := m
    cases c with
    | abortCurrentOperation o =>
      simp only [ResourceHolon.plan] at hplan
      split at hplan
      · next h =>
        cases hplan
        have hrelease := hgive o rfl h.1
        simpa using hrelease
      · split at hplan <;> cases hplan
        simp
    | _ =>
      simp only [ResourceHolon.plan] at hplan
      repeat' split at hplan
      all_goals cases hplan
      all_goals simp
  | schemaEpoch epoch =>
    simp only [ResourceHolon.plan] at hplan
    split at hplan <;> cases hplan
    simp

/-- A plan that ends a lock releases it in time. -/
theorem plan_leaving {t : StationTrigger} {body : List StationStmt}
    (hplan : ResourceHolon.plan n b t = some body) : Leaving held n t body := by
  intro p _ _ hends
  cases t with
  | start | reinitializeSchema => exact Or.inl rfl
  | executePhysicalOperation o =>
    simp only [ResourceHolon.plan] at hplan
    split at hplan
    · obtain ⟨a, ha, rfl⟩ := Option.map_eq_some_iff.mp hplan
      exact Or.inr rfl
    · cases hplan
  | told m k =>
    obtain ⟨c, sender⟩ := m
    cases c with
    | abortCurrentOperation o =>
      obtain rfl : o = p.1 := by simpa using hends
      simp only [ResourceHolon.plan] at hplan
      repeat' split at hplan
      all_goals cases hplan
      all_goals simp [leaves]
    | suspendIntentions =>
      simp only [ResourceHolon.plan] at hplan
      split at hplan <;> cases hplan
      exact Or.inr rfl
    | _ => cases hends
  | _ => cases hends

end

/-- A failure plan, that for a call, releases nothing. -/
theorem recovered_reservation (t : StationTrigger) :
    (reservation registry held).Recovered ResourceHolon.program n b t := by
  intro t' body ht' hbody
  cases t with
  | callForProposal step stations o sender k =>
    cases ht'
    cases hbody
    refine ⟨fun h => ?_, ?_⟩
    · cases h
    · simp [reservation, ReservationStmt, StationTrigger.isAbort, StationTrigger.ends]
  | _ => cases ht'

/-- What a statement comes to releases only what it may. -/
theorem exec_reservation {t : StationTrigger} {stmt : StationStmt} {x : StationInput}
    (h : ReservationStmt registry held n t stmt)
    (hoccupied : stmt = .ifOccupied → ∀ p ∈ registry, b.serves p.1 → p.2.1 = n)
    (hresult : ∀ run o holon step, stmt = .awaitResult run o holon step → x.result.isSome →
      ∀ p ∈ registry, p.1 = o → p.2.1 = n) :
    (reservation registry held).Outcome ResourceHolon.program (fun _ => True) n b t
      (ResourceHolon.exec n b stmt x) := by
  have hfailed : ∀ acts : List StationAction,
      (reservation registry held).Outcome ResourceHolon.program (fun _ => True) n b t
        (.failed acts) := fun acts => ⟨recovered_reservation t, by simp⟩
  have hnext : ∀ b' code (acts : List StationAction),
      (∀ stmt ∈ code, ReservationStmt registry held n t stmt) →
      (reservation registry held).Outcome ResourceHolon.program (fun _ => True) n b t
        (.next b' code acts) := fun b' code acts hcode => ⟨trivial, hcode, by simp⟩
  -- an abort has none of the statements that come to others
  have hplain : ¬ t.isAbort ∨ ofAbort stmt := by
    by_cases ht : t.isAbort
    · exact Or.inr (h.ofAbort ht)
    · exact Or.inl ht
  cases stmt with
  | achieve g => exact ⟨h.1, h.2⟩
  | dropIntention goals => trivial
  | queryMyName =>
    simp only [ResourceHolon.exec]
    split
    · exact hnext _ _ _ (by simp)
    · exact hfailed _
  | claimStation o =>
    simp only [ResourceHolon.exec]
    split
    · exact hnext _ _ _ (by simp)
    · exact hfailed _
  | queryProcessingCost o sender k =>
    have ht := hplain.resolve_right (by simp [Shop.ofAbort])
    exact hnext _ _ _ (by simp [ReservationStmt, ht])
  | ifTestHookTtl o =>
    have ht := hplain.resolve_right (by simp [Shop.ofAbort])
    exact hnext _ _ _ (by simp [ReservationStmt, ht])
  | ifProvisionalLock o =>
    have ht := hplain.resolve_right (by simp [Shop.ofAbort])
    simp only [ResourceHolon.exec]
    split <;> exact hnext _ _ _ (by simp [ReservationStmt, ht])
  | processOrder o holon step =>
    have ht : t = .executePhysicalOperation o := h
    simp only [ResourceHolon.exec]
    split
    · exact hnext _ _ _ (by simpa [ReservationStmt] using ht)
    · exact hfailed _
  | awaitResult run o holon step =>
    obtain rfl : t = .executePhysicalOperation o := h
    have hown := hresult run o holon step rfl
    simp only [ResourceHolon.exec]
    split
    · trivial
    · next hx =>
      have hrelease : ReservationStmt registry held n (.executePhysicalOperation o)
          (.releaseLock o) :=
        ⟨hown (by simp [hx]), fun p _ _ => by simp [StationTrigger.ends]⟩
      refine hnext _ _ _ (List.forall_mem_cons.mpr ⟨hrelease, ?_⟩)
      simp [ReservationStmt, StationTrigger.isAbort, StationTrigger.isGoal]
    · next hx =>
      have hrelease : ReservationStmt registry held n (.executePhysicalOperation o)
          (.releaseLock o) :=
        ⟨hown (by simp [hx]), fun p _ _ => by simp [StationTrigger.ends]⟩
      refine hnext _ _ _ (List.forall_mem_cons.mpr ⟨hrelease, ?_⟩)
      simp [ReservationStmt, StationTrigger.isAbort]
  | ifOccupied =>
    obtain ⟨hends, ht⟩ := h
    have hcode : ∀ o, b.serves o → ∀ stmt ∈ [.cancelTimer o, .releaseLock o,
        .releaseStation (some o)], ReservationStmt registry held n t stmt := by
      intro o ho
      have hrelease : ReservationStmt registry held n t (.releaseLock o) :=
        ⟨fun p hp heq => hoccupied rfl p hp (heq ▸ ho), fun _ _ _ => hends o⟩
      refine List.forall_mem_cons.mpr ⟨by simp [ReservationStmt, ht], ?_⟩
      exact List.forall_mem_cons.mpr ⟨hrelease, by simp [ReservationStmt, ht]⟩
    simp only [ResourceHolon.exec]
    split
    · next o hstate => exact hnext _ _ _ (hcode o (Or.inr hstate))
    · next o hstate => exact hnext _ _ _ (hcode o (Or.inl hstate))
    · exact hnext _ _ _ (by simp)
  | queryStationState =>
    have ht := hplain.resolve_right (by simp [Shop.ofAbort])
    simp only [ResourceHolon.exec]
    split
    · exact hnext _ _ _ (by simp [ReservationStmt, ht])
    · exact hnext _ _ _ (by simp [ReservationStmt, ht])
    · exact hnext _ _ _ (by simp)
    · exact hfailed _
  | ifTestHookBlockAck =>
    have ht := hplain.resolve_right (by simp [Shop.ofAbort])
    refine hnext _ _ _ ?_
    split <;> simp [ReservationStmt, ht]
  | _ => exact hnext _ _ _ (by simp)

/-- The statement leaves open what comes after it. -/
def passes : StationStmt → Bool
  | .setStationState _ | .releaseLock _ | .ifOccupied => false
  | _ => true

theorem leaves_append {o : OrderId} {aborts : Bool} {code body : List StationStmt}
    (hcode : ∀ stmt ∈ code, passes stmt) :
    leaves o aborts (code ++ body) = leaves o aborts body := by
  induction code with
  | nil => rfl
  | cons stmt code ih =>
    have hstmt := hcode stmt List.mem_cons_self
    rw [← ih fun stmt' h => hcode stmt' (List.mem_cons_of_mem _ h)]
    cases stmt <;> first | rfl | cases hstmt

/-- What is left after a statement releases in time, if it was so before. -/
theorem exec_leaving {t : StationTrigger} {stmt : StationStmt} {x : StationInput}
    {body : List StationStmt} (hstmt : ReservationStmt registry held n t stmt)
    (hbody : Leaving held n t (stmt :: body))
    (hserves : ∀ p ∈ held, p.2.1 = n → b.serves p.1)
    (hset : ∀ state, stmt ≠ .setStationState state) (hrelease : ∀ o, stmt ≠ .releaseLock o) :
    Program.Leaves (Leaving held n t) stmt body (ResourceHolon.exec n b stmt x) := by
  have hcode : passes stmt → ∀ code : List StationStmt, (∀ stmt ∈ code, passes stmt) →
      Leaving held n t (code ++ body) := by
    intro hpass code hpasses p hp hn hends
    have hstmt' : leaves p.1 t.isAbort (stmt :: body) = leaves p.1 t.isAbort body :=
      leaves_append (List.forall_mem_singleton.mpr hpass)
    rw [leaves_append hpasses, ← hstmt']
    exact hbody p hp hn hends
  have htail : passes stmt → Leaving held n t body := fun hpass => hcode hpass [] (by simp)
  cases stmt with
  | setStationState state => exact absurd rfl (hset state)
  | releaseLock o => exact absurd rfl (hrelease o)
  | achieve g => exact htail rfl
  | dropIntention goals => exact htail rfl
  | queryMyName | claimStation =>
    simp only [ResourceHolon.exec]
    split <;> exact htail rfl
  | processOrder o holon step =>
    simp only [ResourceHolon.exec]
    split
    · exact hcode rfl [_] (by simp [passes])
    · exact htail rfl
  | queryStationState =>
    simp only [ResourceHolon.exec]
    split
    · exact hcode rfl [_, _] (by simp [passes])
    · exact hcode rfl [_] (by simp [passes])
    · exact htail rfl
    · exact htail rfl
  | ifTestHookBlockAck => exact hcode rfl _ (by split <;> simp [passes])
  | ifProvisionalLock o =>
    -- the plan ends no lock
    have hends : ∀ body', Leaving held n t body' := fun _ p _ _ hends => absurd hends (hstmt p.1)
    simp only [ResourceHolon.exec]
    split <;> exact hends _
  | awaitResult run o holon step =>
    obtain rfl : t = .executePhysicalOperation o := hstmt
    simp only [ResourceHolon.exec]
    split
    · exact hbody
    -- the code begins with the release
    all_goals
      intro p _ _ hends
      obtain rfl : o = p.1 := by simpa [StationTrigger.ends] using hends
      exact Or.inr (by simp [leaves])
  | ifOccupied =>
    have hreleases : ∀ o, (∀ p ∈ held, p.2.1 = n → p.1 = o) →
        Leaving held n t ([.cancelTimer o, .releaseLock o, .releaseStation (some o)] ++ body) :=
      fun o ho p hp hn _ => Or.inr (by simp [leaves, ho p hp hn])
    simp only [ResourceHolon.exec]
    split
    · next o hstate =>
      exact hreleases o fun p hp hn => (unique_busy (hserves p hp hn) hstate).symm
    · next o hstate =>
      exact hreleases o fun p hp hn => (unique_lock (hserves p hp hn) hstate).symm
    · next hbusy hlock =>
      intro p hp hn _
      rcases hserves p hp hn with hstate | hstate
      · exact absurd hstate (hlock p.1)
      · exact absurd hstate (hbusy p.1)
  | queryProcessingCost o sender k => exact hcode rfl [_, _, _] (by simp [passes])
  | ifTestHookTtl o => exact hcode rfl [_] (by simp [passes])
  | _ => exact htail rfl

/-! ## Locks that are about to be released -/

theorem stationMove_stations {s : Shop} {i : ℕ}
    {θ : Intention String StationTrigger StationStmt} (hi : s.stations.intentions[i]? = some θ) :
    (s.stationMove i).stations = s.stations.apply i
      (ResourceHolon.program.move (s.stationInput θ) (s.stations.beliefs θ.owner) θ) := by
  simp only [stationMove, hi]
  rw [run_proj (g := Shop.stations) (by simp)]

/-- A statement of the plan for an abort is done in one move. -/
theorem exec_ofAbort {stmt : StationStmt} (h : ofAbort stmt) (x : StationInput) :
    ∃ b' acts, ResourceHolon.exec n b stmt x = .next b' [] acts := by
  cases stmt <;> first | exact ⟨_, _, rfl⟩ | cases h

/-- What drops a plan for an abort is only a change of the schema. -/
theorem keeps_abort {θ θ' : Intention String StationTrigger StationStmt} {x : StationInput}
    {f : Frame StationTrigger StationStmt} (hpending : θ'.pending = none) (hf : θ'.frames = [f])
    (habort : f.trigger.isAbort)
    (hall : ∀ t, θ.next = some (t, .dropIntention .all) → θ'.owner ≠ θ.owner) :
    Population.keeps (ResourceHolon.program.move x b θ) θ' := by
  rw [Population.keeps, hpending, hf]
  simp only [Program.move_owner, Option.any_none, List.any_cons, List.any_nil, Bool.or_false,
    Bool.false_or, Bool.or_eq_true, decide_eq_true_eq, Bool.not_eq_true']
  rcases ResourceHolon.program.move_drops x b θ with hdrops | ⟨stmt, hhead, he⟩
  · exact Or.inr (by rw [hdrops])
  · obtain ⟨t, hnext⟩ := Intention.next_of_head hhead
    cases stmt with
    | dropIntention goals =>
      cases goals with
      | all => exact Or.inl (hall t hnext)
      | executePhysicalOperation =>
        refine Or.inr ?_
        injection he with hdrops
        rw [← hdrops]
        cases hft : f.trigger <;> first | rfl | (rw [hft] at habort; cases habort)
    | queryMyName | claimStation | ifProvisionalLock | processOrder | ifOccupied
    | queryStationState | awaitResult =>
      simp only [ResourceHolon.program, ResourceHolon.exec] at he
      split at he <;> cases he
    | _ => cases he

/-- A lock that is about to be released and is not yet is so after a move. -/
theorem releasing_move {s : Shop} {i : ℕ} {θ : Intention String StationTrigger StationStmt}
    {p : OrderId × String × String} (hi : s.stations.intentions[i]? = some θ)
    (hstmts : (reservation registry held).Intention θ)
    (hall : ∀ t, θ.next = some (t, .dropIntention .all) → p.2.1 ≠ θ.owner)
    (hp : p ∈ (s.stationMove i).registry) (h : s.Releasing p) : (s.stationMove i).Releasing p := by
  obtain ⟨θ', hθ', howner, hpending, f, hf, habort, hmem⟩ := h
  have hkeep := keeps_abort (θ := θ) (b := s.stations.beliefs θ.owner) (x := s.stationInput θ)
    hpending hf habort fun t ht => by rw [howner]; exact hall t ht
  rcases Population.mem_apply hi hθ' hkeep with rfl | hstay
  · -- the plan for the abort itself is at work
    obtain ⟨t, body⟩ := f
    cases body with
    | nil => cases hmem
    | cons stmt rest =>
      have hnext := Intention.next_eq hpending hf
      have hof : ofAbort stmt := by
        have hframe := hstmts.frames.stmt _ (by rw [hf]; exact List.mem_cons_self) stmt
          List.mem_cons_self
        exact hframe.ofAbort habort
      obtain ⟨b', acts, he⟩ := exec_ofAbort (n := θ'.owner) (b := s.stations.beliefs θ'.owner) hof
        (s.stationInput θ')
      have hrest : .releaseLock p.1 ∈ rest := by
        rcases List.mem_cons.mp hmem with rfl | hrest
        · rw [stationMove_registry hi, hnext] at hp
          simp at hp
        · exact hrest
      have hmove : (ResourceHolon.program.move (s.stationInput θ') (s.stations.beliefs θ'.owner)
          θ').intention = ⟨θ'.owner, none, [⟨t, rest⟩]⟩ := by
        have hne : rest ≠ [] := List.ne_nil_of_mem hrest
        simp only [Program.move, hpending, hf, ResourceHolon.program, he, List.nil_append]
        simp [Program.settle, hne]
      refine ⟨⟨θ'.owner, none, [⟨t, rest⟩]⟩, ?_, howner, rfl, ⟨t, rest⟩, rfl, habort, hrest⟩
      rw [stationMove_stations hi, ← hmove]
      exact List.mem_append_right _ List.mem_cons_self
  · refine ⟨θ', ?_, howner, hpending, f, hf, habort, hmem⟩
    rw [stationMove_stations hi]
    exact hstay

/-! ## One operation -/

/-- The invariant. -/
structure ReservationInvariant (x : Reserving) : Prop where
  locks : LocksRespected (x.1, locksOf x.2)
  stmts : (reservation x.1.registry x.2).All x.1.stations
  working : x.1.stations.Working (Leaving x.2)
  registered : x.2 ⊆ x.1.registry
  released : ∀ p ∈ x.1.registry, p ∈ x.2 ∨ x.1.Releasing p

/-- Fewer locks are respected as well. -/
theorem LocksRespected.mono {s : Shop} {locks locks' : List (String × OrderId)}
    (h : LocksRespected (s, locks)) (hsub : locks' ⊆ locks) : LocksRespected (s, locks') := by
  refine h.imp (fun n hn o ho => hn o (hsub ho)) (fun _ _ h => h) fun θ _ hθ => ?_
  refine hθ.imp (fun _ h => h) (fun _ h => h) fun f _ stmt _ hstmt => ?_
  exact ⟨hstmt.1, hstmt.2.1, fun o ho => hstmt.2.2 o (hsub ho)⟩

/-- The locks that are held are among those of `locksAfter`. -/
theorem locksOf_heldAfter (s : Shop) (held : List (OrderId × String × String)) (op : ShopOp) :
    locksOf (s.heldAfter held op) ⊆ s.locksAfter (locksOf held) op := by
  cases op with
  | stationMove i =>
    cases hi : s.stations.intentions[i]? with
    | none =>
      simp only [heldAfter, locksAfter, hi]
      exact fun l hl => hl
    | some θ =>
      cases hnext : θ.next with
      | none =>
        simp only [heldAfter, locksAfter, hi, hnext]
        exact fun l hl => hl
      | some q =>
        obtain ⟨t, stmt⟩ := q
        simp only [heldAfter, locksAfter, hi, hnext]
        cases stmt with
        | releaseLock o => exact (List.filter_sublist.map _).subset
        | setStationState state =>
          intro l hl
          obtain ⟨p, hp, rfl⟩ := List.mem_map.mp hl
          obtain ⟨hp, hkept⟩ := List.mem_filter.mp hp
          exact List.mem_filter.mpr ⟨List.mem_map_of_mem hp, hkept⟩
        | _ => exact fun l hl => hl
  | _ => exact fun l hl => hl

theorem locks_step {x : Reserving} {op : ShopOp} (h : ReservationInvariant x)
    (hC : Reservable x op) :
    LocksRespected (x.1.exec op, locksOf (x.1.heldAfter x.2 op)) :=
  LocksRespected.mono (lockStep_respected h.locks hC.1) (locksOf_heldAfter x.1 x.2 op)

theorem serves_of_held {x : Reserving} (h : ReservationInvariant x)
    {p : OrderId × String × String} (hp : p ∈ x.2) : (x.1.stations.beliefs p.2.1).serves p.1 :=
  h.locks.beliefs p.2.1 p.1 (List.mem_map_of_mem hp)

variable {x : Reserving}

/-- An operation that is no answer and no move of a resource holon. -/
theorem reservationInvariant_others {op : ShopOp} (h : ReservationInvariant x)
    (hC : Reservable x op) (hselect : ∀ n, op ≠ .stationSelect n)
    (hmove : ∀ i, op ≠ .stationMove i) :
    ReservationInvariant (reserveStep op x) := by
  have hlocks := locks_step h hC
  have hregistry := registry_eq hmove x.1
  have hheld : x.1.heldAfter x.2 op = x.2 := by
    cases op with
    | stationMove i => exact absurd rfl (hmove i)
    | _ => rfl
  have hsame : (x.1.exec op).stations.intentions = x.1.stations.intentions := by
    apply stations_rule (Q := fun p => p.intentions = x.1.stations.intentions) rfl
    · exact fun p n f _ hp => hp
    · exact fun p e _ hp => hp
    · exact fun n hop => absurd hop (hselect n)
    · exact fun i θ hop _ => absurd hop (hmove i)
  unfold reserveStep
  rw [hheld] at hlocks ⊢
  refine ⟨hlocks, ⟨fun _ => trivial, fun _ _ => trivial, fun θ hθ => ?_⟩, fun θ hθ => ?_, ?_,
    fun p hp => ?_⟩
  · rw [hregistry]
    exact h.stmts.intentions θ (hsame ▸ hθ)
  · exact h.working θ (hsame ▸ hθ)
  · rw [hregistry]
    exact h.registered
  · rw [hregistry] at hp
    refine (h.released p hp).imp_right fun hreleasing => ?_
    rw [Releasing, hsame]
    exact hreleasing

/-- An order is given up by an abort or because its bid has expired. -/
theorem ends_of_givesUp {t : StationTrigger} {o : OrderId} (h : o ∈ t.givesUp) :
    t.ends o ∨ t.reverts o := by
  unfold StationTrigger.givesUp at h
  split at h
  · obtain rfl := Option.some_inj.mp h
    exact Or.inr (by simp [StationTrigger.reverts])
  · obtain rfl := Option.some_inj.mp h
    exact Or.inl (by simp [StationTrigger.ends])
  · cases h

/-- An answer of a resource holon. -/
theorem reservationInvariant_select {n : String} (h : ReservationInvariant x)
    (hC : Reservable x (.stationSelect n)) :
    ReservationInvariant (reserveStep (.stationSelect n) x) := by
  have hlocks := locks_step h hC
  refine ⟨hlocks, ?_, ?_, h.registered, fun p hp => ?_⟩
  · refine h.stmts.select fun e he body hbody => plan_reservation hbody fun o ho hstate => ?_
    have halone := hC.2 e he o ho hstate
    refine ⟨halone, fun p hp heq => ?_⟩
    refine (ends_of_givesUp ho).resolve_right ?_
    have hn := halone p (h.registered hp) heq
    exact hC.1 (n, o) (List.mem_map.mpr ⟨p, hp, by rw [hn, heq]⟩) rfl hstate e he
  · exact h.working.select fun e he body hbody => plan_leaving hbody
  · refine (h.released p hp).imp_right fun ⟨θ, hθ, hreleasing⟩ => ⟨θ, ?_, hreleasing⟩
    show θ ∈ (x.1.stations.select ResourceHolon.program n).intentions
    unfold Population.select
    split
    · exact hθ
    · dsimp only
      split
      · exact hθ
      · exact List.mem_append_left _ hθ

section

variable {i : ℕ} {θ : Intention String StationTrigger StationStmt}

/-- A goal gives up no order. -/
theorem givesUp_of_goal {g : StationTrigger} (hg : g.isGoal) : g.givesUp = none := by
  cases g <;> first | rfl | cases hg

/-- What a move leaves of the plans at work, if they respect the locks that are held after
it. -/
theorem plans_move (h : ReservationInvariant x) (hi : x.1.stations.intentions[i]? = some θ)
    (hprepared : (reservation registry held).All x.1.stations)
    (hworking : ∀ θ' ∈ x.1.stations.intentions, ∀ f ∈ θ'.frames,
      Leaving x.2 θ'.owner f.trigger f.body → Leaving held θ'.owner f.trigger f.body)
    (hoccupied : ∀ t, θ.next = some (t, .ifOccupied) →
      ∀ p ∈ registry, (x.1.stations.beliefs θ.owner).serves p.1 → p.2.1 = θ.owner)
    (hresult : ∀ t run o holon step, θ.next = some (t, .awaitResult run o holon step) →
      (x.1.resultFor θ).isSome → ∀ p ∈ registry, p.1 = o → p.2.1 = θ.owner)
    (hhead : ∀ t stmt body, θ.next = some (t, stmt) → ReservationStmt registry held θ.owner t stmt →
      Leaving held θ.owner t (stmt :: body) →
      Program.Leaves (Leaving held θ.owner t) stmt body
        (ResourceHolon.exec θ.owner (x.1.stations.beliefs θ.owner) stmt (x.1.stationInput θ))) :
    (reservation registry held).All (x.1.stationMove i).stations ∧
      (x.1.stationMove i).stations.Working (Leaving held) := by
  rw [stationMove_stations hi]
  have hstmts := hprepared.intentions θ (List.mem_of_getElem? hi)
  constructor
  · have hexec : ∀ t stmt, θ.next = some (t, stmt) →
        (reservation registry held).stmt θ.owner t stmt →
        (reservation registry held).Outcome ResourceHolon.program (fun _ => True) θ.owner
          (x.1.stations.beliefs θ.owner) t (ResourceHolon.program.exec θ.owner
            (x.1.stations.beliefs θ.owner) stmt (x.1.stationInput θ)) := by
      intro t stmt hnext hstmt
      refine exec_reservation hstmt (fun heq => hoccupied t (heq ▸ hnext)) ?_
      rintro run o holon step rfl hsome
      refine hresult t run o holon step hnext ?_
      simpa [stationInput] using hsome
    refine (Property.apply_move_of hprepared hi
      (fun g _ body hg hbody => plan_reservation hbody fun o ho => ?_)
      (fun t _ => recovered_reservation t) (fun t _ => recovered_reservation t) hexec).1
    rw [givesUp_of_goal hg] at ho
    cases ho
  · refine Population.Working.apply_move h.working hi hworking
      (fun g _ body hbody => plan_leaving hbody) (fun t t' body _ hbody => plan_leaving hbody)
      fun t stmt body hnext hframe hbody => ?_
    refine hhead t stmt body hnext ?_ (hworking θ (List.mem_of_getElem? hi) _ hframe hbody)
    exact hstmts.frames.stmt _ hframe stmt List.mem_cons_self

/-- The statement is none of those that change the locks that are held. -/
def keepsLocks : StationStmt → Bool
  | .registerLock _ _ | .releaseLock _ | .setStationState _ => false
  | _ => true

/-- What a statement that changes the locks leaves of the plans at work. -/
theorem plans_locks {t : StationTrigger} {stmt : StationStmt} (h : ReservationInvariant x)
    (hi : x.1.stations.intentions[i]? = some θ) (hnext : θ.next = some (t, stmt))
    (hstmt : keepsLocks stmt = false)
    (hprepared : (reservation registry held).All x.1.stations)
    (hworking : ∀ θ' ∈ x.1.stations.intentions, ∀ f ∈ θ'.frames,
      Leaving x.2 θ'.owner f.trigger f.body → Leaving held θ'.owner f.trigger f.body)
    (hhead : ∀ body, Leaving held θ.owner t (stmt :: body) → Leaving held θ.owner t body) :
    (reservation registry held).All (x.1.stationMove i).stations ∧
      (x.1.stationMove i).stations.Working (Leaving held) := by
  refine plans_move h hi hprepared hworking (fun t' hnext' => ?_)
    (fun t' run o holon step hnext' => ?_) fun t' stmt' body hnext' _ hbody => ?_
  · rw [hnext] at hnext'
    cases hnext'
    cases hstmt
  · rw [hnext] at hnext'
    cases hnext'
    cases hstmt
  · rw [hnext] at hnext'
    cases hnext'
    cases stmt with
    | registerLock | releaseLock | setStationState => exact hhead body hbody
    | _ => cases hstmt

/-- A move whose statement leaves the locks. -/
theorem reservationInvariant_same (h : ReservationInvariant x) (hC : Reservable x (.stationMove i))
    (hi : x.1.stations.intentions[i]? = some θ)
    (hkeeps : ∀ t stmt, θ.next = some (t, stmt) → keepsLocks stmt) :
    ReservationInvariant (reserveStep (.stationMove i) x) := by
  have hlocks := locks_step h hC
  have hstmt := fun t stmt hnext => hC.2 θ hi (t, stmt) hnext
  have hregistry : (x.1.exec (.stationMove i)).registry = x.1.registry := by
    show (x.1.stationMove i).registry = x.1.registry
    rw [stationMove_registry hi]
    split
    · next hnext => cases hkeeps _ _ hnext
    · next hnext => cases hkeeps _ _ hnext
    · rfl
  have hheld : x.1.heldAfter x.2 (.stationMove i) = x.2 := by
    simp only [heldAfter, hi]
    split
    · next hnext => cases hkeeps _ _ hnext
    · next hnext => cases hkeeps _ _ hnext
    · next hnext => cases hkeeps _ _ hnext
    · rfl
  obtain ⟨hstmts, hworking⟩ := plans_move h hi h.stmts (fun _ _ _ _ hf => hf)
    (fun t hnext => hstmt t _ hnext)
    (fun t run o holon step hnext hsome => hstmt t _ hnext hsome)
    fun t stmt body hnext hs hbody => exec_leaving hs hbody
      (fun p hp hn => hn ▸ serves_of_held h hp)
      (fun state heq => by cases heq ▸ hkeeps t stmt hnext)
      (fun o heq => by cases heq ▸ hkeeps t stmt hnext)
  unfold reserveStep
  rw [hheld] at hlocks ⊢
  refine ⟨hlocks, ?_, hworking, ?_, fun p hp => ?_⟩
  · rw [hregistry]
    exact hstmts
  · rw [hregistry]
    exact h.registered
  · refine (h.released p (hregistry ▸ hp)).imp_right fun hreleasing => ?_
    refine releasing_move hi (h.stmts.intentions θ (List.mem_of_getElem? hi)) (fun t hnext => ?_)
      hp hreleasing
    exact hstmt t _ hnext p (hregistry ▸ hp)

/-- A lock that is about to be released and not touched by a move is so after it. -/
theorem released_move (h : ReservationInvariant x) (hC : Reservable x (.stationMove i))
    (hi : x.1.stations.intentions[i]? = some θ) {p : OrderId × String × String}
    (hp : p ∈ x.1.registry) (hp' : p ∈ (x.1.stationMove i).registry)
    (hreleasing : x.1.Releasing p) : (x.1.stationMove i).Releasing p :=
  releasing_move hi (h.stmts.intentions θ (List.mem_of_getElem? hi))
    (fun t hnext => hC.2 θ hi (t, _) hnext p hp) hp' hreleasing

/-- A station registers a lock. -/
theorem reservationInvariant_register {t : StationTrigger} {o : OrderId} {holon : String}
    (h : ReservationInvariant x) (hC : Reservable x (.stationMove i))
    (hi : x.1.stations.intentions[i]? = some θ)
    (hnext : θ.next = some (t, .registerLock o holon)) :
    ReservationInvariant (reserveStep (.stationMove i) x) := by
  have hlocks := locks_step h hC
  obtain ⟨hfree, hplans⟩ : x.1.Free θ.owner o := hC.2 θ hi _ hnext
  have hregistry : (x.1.stationMove i).registry = (o, θ.owner, holon) :: x.1.registry := by
    rw [stationMove_registry hi, hnext]
    simp only [List.cons.injEq, true_and]
    exact List.filter_eq_self.mpr fun p hp => by simpa using hfree p hp
  have hheld : x.1.heldAfter x.2 (.stationMove i) = (o, θ.owner, holon) :: x.2 := by
    simp only [heldAfter, hi, hnext]
  have hprepared : (reservation ((o, θ.owner, holon) :: x.1.registry)
      ((o, θ.owner, holon) :: x.2)).All x.1.stations := by
    refine h.stmts.imp (fun _ _ => trivial) (fun _ _ _ => trivial) fun θ' hθ' hprop => ?_
    refine hprop.imp (fun _ h => h) (fun _ h => h) fun f hf stmt hstmt hs => ?_
    cases stmt with
    | releaseLock o' =>
      have hne : o ≠ o' := by
        rintro rfl
        exact (hplans θ' hθ' f hf).1 hstmt
      refine ⟨fun p hp heq => ?_, fun p hp heq => ?_⟩
      · rcases List.mem_cons.mp hp with rfl | hp
        · exact absurd heq hne
        · exact hs.1 p hp heq
      · rcases List.mem_cons.mp hp with rfl | hp
        · exact absurd heq hne
        · exact hs.2 p hp heq
    | _ => exact hs
  obtain ⟨hstmts, hworking⟩ := plans_locks h hi hnext rfl hprepared
    (fun θ' hθ' f hf hleaving p hp howner hends => by
      rcases List.mem_cons.mp hp with rfl | hp
      · exact (hplans θ' hθ' f hf).2 howner.symm hends
      · exact hleaving p hp howner hends)
    fun body hbody p hp howner hends => hbody p hp howner hends
  unfold reserveStep
  rw [hheld] at hlocks ⊢
  refine ⟨hlocks, ?_, hworking, ?_, fun p hp => ?_⟩
  · show (reservation (x.1.stationMove i).registry _).All _
    rw [hregistry]
    exact hstmts
  · show _ ⊆ (x.1.stationMove i).registry
    rw [hregistry]
    exact List.cons_subset_cons _ h.registered
  · have hp' : p ∈ (x.1.stationMove i).registry := hp
    rw [hregistry] at hp'
    rcases List.mem_cons.mp hp' with rfl | hold
    · exact Or.inl List.mem_cons_self
    · refine (h.released p hold).imp (List.mem_cons_of_mem _) fun hreleasing => ?_
      exact released_move h hC hi hold hp hreleasing

/-- A station releases a lock. -/
theorem reservationInvariant_release {t : StationTrigger} {o : OrderId}
    (h : ReservationInvariant x) (hC : Reservable x (.stationMove i))
    (hi : x.1.stations.intentions[i]? = some θ) (hnext : θ.next = some (t, .releaseLock o)) :
    ReservationInvariant (reserveStep (.stationMove i) x) := by
  have hlocks := locks_step h hC
  have hregistry : (x.1.stationMove i).registry = x.1.registry.filter (·.1 ≠ o) := by
    rw [stationMove_registry hi, hnext]
  have hheld : x.1.heldAfter x.2 (.stationMove i)
      = x.2.filter fun p => ¬ (p.2.1 = θ.owner ∧ p.1 = o ∧ t.ends p.1) := by
    simp only [heldAfter, hi, hnext]
  have hsub : x.2.filter (fun p => ¬ (p.2.1 = θ.owner ∧ p.1 = o ∧ t.ends p.1)) ⊆ x.2 :=
    List.filter_sublist.subset
  have hown : ReservationStmt x.1.registry x.2 θ.owner t (.releaseLock o) := by
    obtain ⟨-, body, frames, hf⟩ := Intention.frames_of_next hnext
    have hθ := h.stmts.intentions θ (List.mem_of_getElem? hi)
    exact hθ.frames.stmt ⟨t, .releaseLock o :: body⟩ (by rw [hf]; exact List.mem_cons_self) _
      List.mem_cons_self
  have hprepared : (reservation (x.1.registry.filter (·.1 ≠ o))
      (x.2.filter fun p => ¬ (p.2.1 = θ.owner ∧ p.1 = o ∧ t.ends p.1))).All x.1.stations := by
    refine h.stmts.imp (fun _ _ => trivial) (fun _ _ _ => trivial) fun θ' _ hprop => ?_
    exact hprop.imp (fun _ h => h) (fun _ h => h) fun f _ stmt _ hs =>
      hs.mono List.filter_sublist.subset hsub
  obtain ⟨hstmts, hworking⟩ := plans_locks h hi hnext rfl hprepared
    (fun θ' _ f _ hleaving p hp howner hends => hleaving p (hsub hp) howner hends)
    fun body hbody p hp howner hends => by
      have hkept := (List.mem_filter.mp hp).2
      have hne : ¬ o = p.1 := by
        rintro rfl
        simp [howner, hends] at hkept
      have hleaves := hbody p hp howner hends
      simpa [leaves, hne] using hleaves
  unfold reserveStep
  rw [hheld] at hlocks ⊢
  refine ⟨hlocks, ?_, hworking, fun p hp => ?_, fun p hp => ?_⟩
  · show (reservation (x.1.stationMove i).registry _).All _
    rw [hregistry]
    exact hstmts
  · show p ∈ (x.1.stationMove i).registry
    rw [hregistry]
    have hold := h.registered (hsub hp)
    refine List.mem_filter.mpr ⟨hold, ?_⟩
    -- a lock of the order that is held is one that the plan ends
    have hkept := (List.mem_filter.mp hp).2
    by_contra hsame
    have heq : p.1 = o := by simpa using hsame
    have hn := hown.1 p hold heq
    have hends := hown.2 p (hsub hp) heq
    rw [heq] at hkept
    simp [hn, hends] at hkept
  · have hp' : p ∈ (x.1.stationMove i).registry := hp
    rw [hregistry] at hp'
    obtain ⟨hold, hne⟩ := List.mem_filter.mp hp'
    refine (h.released p hold).imp (fun hheld => ?_) fun hreleasing => ?_
    · have hne' : p.1 ≠ o := by simpa using hne
      exact List.mem_filter.mpr ⟨hheld, by simp [hne']⟩
    · exact released_move h hC hi hold hp hreleasing

/-- A plan that ends a held lock by setting the state of the station is that for an abort, and
it is about to release the lock. -/
theorem releasing_set {t : StationTrigger} {state : StationState}
    (h : ReservationInvariant x) (hC : Reservable x (.stationMove i))
    (hi : x.1.stations.intentions[i]? = some θ)
    (hnext : θ.next = some (t, .setStationState state)) {p : OrderId × String × String}
    (hp : p ∈ x.1.registry) (hheld : p ∈ x.2) (howner : p.2.1 = θ.owner) (hends : t.ends p.1) :
    (x.1.stationMove i).Releasing p := by
  obtain ⟨hpending, body, frames, hf⟩ := Intention.frames_of_next hnext
  have hframe : (⟨t, .setStationState state :: body⟩ : Frame StationTrigger StationStmt)
      ∈ θ.frames := by
    rw [hf]
    exact List.mem_cons_self
  have hmem := List.mem_of_getElem? hi
  rcases h.working θ hmem _ hframe p hheld howner hends with hrestarts | hleaves
  · exact absurd howner (hC.2 θ hi _ hnext hrestarts p hp)
  · obtain ⟨habort, hrelease⟩ : t.isAbort = true ∧ .releaseLock p.1 ∈ body := by
      simpa [leaves] using hleaves
    have hgoal : ¬ t.isGoal := by
      cases t <;> first | cases habort | simp [StationTrigger.isGoal]
    have halone := (h.stmts.intentions θ hmem).frames.alone hframe hgoal (not_not.mpr habort)
    have hmove : (ResourceHolon.program.move (x.1.stationInput θ) (x.1.stations.beliefs θ.owner)
        θ).intention = ⟨θ.owner, none, [⟨t, body⟩]⟩ := by
      have hne : body ≠ [] := List.ne_nil_of_mem hrelease
      simp only [Program.move, hpending, halone, ResourceHolon.program, ResourceHolon.exec,
        List.nil_append]
      simp [Program.settle, hne]
    refine ⟨⟨θ.owner, none, [⟨t, body⟩]⟩, ?_, howner.symm, rfl, ⟨t, body⟩, rfl, habort, hrelease⟩
    rw [stationMove_stations hi, ← hmove]
    exact List.mem_append_right _ List.mem_cons_self

/-- A plan sets the state of a station. -/
theorem reservationInvariant_set {t : StationTrigger} {state : StationState}
    (h : ReservationInvariant x) (hC : Reservable x (.stationMove i))
    (hi : x.1.stations.intentions[i]? = some θ)
    (hnext : θ.next = some (t, .setStationState state)) :
    ReservationInvariant (reserveStep (.stationMove i) x) := by
  have hlocks := locks_step h hC
  have hregistry : (x.1.stationMove i).registry = x.1.registry := by
    rw [stationMove_registry hi, hnext]
  have hheld : x.1.heldAfter x.2 (.stationMove i)
      = x.2.filter fun p => ¬ (p.2.1 = θ.owner ∧ t.ends p.1) := by
    simp only [heldAfter, hi, hnext]
  have hsub : x.2.filter (fun p => ¬ (p.2.1 = θ.owner ∧ t.ends p.1)) ⊆ x.2 :=
    List.filter_sublist.subset
  have hprepared : (reservation x.1.registry
      (x.2.filter fun p => ¬ (p.2.1 = θ.owner ∧ t.ends p.1))).All x.1.stations := by
    refine h.stmts.imp (fun _ _ => trivial) (fun _ _ _ => trivial) fun θ' _ hprop => ?_
    exact hprop.imp (fun _ h => h) (fun _ h => h) fun f _ stmt _ hs =>
      hs.mono (fun p hp => hp) hsub
  obtain ⟨hstmts, hworking⟩ := plans_locks h hi hnext rfl hprepared
    (fun θ' _ f _ hleaving p hp howner hends => hleaving p (hsub hp) howner hends)
    fun body _ p hp howner hends => by
      have hkept := (List.mem_filter.mp hp).2
      simp [howner, hends] at hkept
  unfold reserveStep
  rw [hheld] at hlocks ⊢
  refine ⟨hlocks, ?_, hworking, fun p hp => ?_, fun p hp => ?_⟩
  · show (reservation (x.1.stationMove i).registry _).All _
    rw [hregistry]
    exact hstmts
  · show p ∈ (x.1.stationMove i).registry
    rw [hregistry]
    exact h.registered (hsub hp)
  · have hold : p ∈ x.1.registry := by
      rw [← hregistry]
      exact hp
    rcases h.released p hold with hheld | hreleasing
    · by_cases hended : p.2.1 = θ.owner ∧ t.ends p.1
      · exact Or.inr (releasing_set h hC hi hnext hold hheld hended.1 hended.2)
      · exact Or.inl (List.mem_filter.mpr ⟨hheld, decide_eq_true hended⟩)
    · exact Or.inr (released_move h hC hi hold hp hreleasing)

/-- A move of a resource holon. -/
theorem reservationInvariant_move (h : ReservationInvariant x)
    (hC : Reservable x (.stationMove i)) :
    ReservationInvariant (reserveStep (.stationMove i) x) := by
  cases hi : x.1.stations.intentions[i]? with
  | none =>
    have hsame : reserveStep (.stationMove i) x = x := by
      simp [reserveStep, exec, stationMove, heldAfter, hi]
    rw [hsame]
    exact h
  | some θ =>
    cases hnext : θ.next with
    | none => exact reservationInvariant_same h hC hi (by simp [hnext])
    | some q =>
      obtain ⟨t, stmt⟩ := q
      cases stmt with
      | registerLock o holon => exact reservationInvariant_register h hC hi hnext
      | releaseLock o => exact reservationInvariant_release h hC hi hnext
      | setStationState state => exact reservationInvariant_set h hC hi hnext
      | _ =>
        refine reservationInvariant_same h hC hi fun t' stmt' hnext' => ?_
        rw [hnext] at hnext'
        cases hnext'
        rfl

end

/-- **One operation.** -/
theorem reservationInvariant_step {op : ShopOp} (h : ReservationInvariant x)
    (hC : Reservable x op) : ReservationInvariant (reserveStep op x) := by
  cases op with
  | stationSelect n => exact reservationInvariant_select h hC
  | stationMove i => exact reservationInvariant_move h hC
  | _ => exact reservationInvariant_others h hC (by simp) (by simp)

/-! ## Runs -/

/-- **The registry holds the locks that are held.**  In every run in which no station hears of
the end of its bid too late; accepts an order while a lock of it is registered or about to be
released, or after a plan that ends the lock has got past its release; gives up an order, by the
end of its bid, an abort, a suspension or the end of its run, while another station has a lock
of it; or is set up anew while it has a lock, the registry holds in every state reached the
locks that stations have accepted and not given up since, for whose orders they are locked or
busy, and beside them only locks of aborted orders that are about to be released. -/
theorem reserved_run (c : ShopConfig) {ops : List ShopOp}
    (hops : Runs.Along reserveStep Reservable (Shop.start c, []) ops) :
    Reserved (Runs.run reserveStep ops (Shop.start c, [])) := by
  have hstart : ReservationInvariant (Shop.start c, []) := by
    refine ⟨⟨by simp [lockProperty, locksOf], fun e he o sender h => ?_, by simp [Shop.start]⟩,
      ⟨fun _ => trivial, fun _ _ => trivial, fun θ hθ => ?_⟩, fun θ hθ => ?_,
      fun p hp => hp, fun p hp => ?_⟩
    · obtain ⟨n, _, rfl⟩ := List.mem_map.mp he
      cases h
    · cases hθ
    · cases hθ
    · cases hp
  have hrun := Runs.run_invariant (fun _ _ h hC => reservationInvariant_step h hC) hstart hops
  exact ⟨fun p hp => ⟨hrun.registered hp, serves_of_held hrun hp⟩, hrun.released⟩

/-- The station accepts an order, its item arrives, and the lock is held. -/
theorem reserved_arrived :
    (Runs.run reserveStep (acceptedRun ++ arrivedRun) (Shop.start oneStation, [])).2
        = [(⟨"order_1", 0⟩, "station_1", "order_1")] ∧
      Reserved (Runs.run reserveStep (acceptedRun ++ arrivedRun) (Shop.start oneStation, [])) :=
  ⟨by decide +kernel, reserved_run oneStation (by decide +kernel)⟩

/-- The schema changes while the station waits for the item of an order. -/
def epochLockRun : List ShopOp :=
  acceptedRun ++ stationMoves 3 2 ++
    [ShopOp.stationEpoch "station_1" 1, .stationSelect "station_1"] ++ stationMoves 9 3

/-- The station is idle and its lock is still registered. -/
theorem not_reserved :
    ((Runs.run reserveStep epochLockRun (Shop.start oneStation, [])).1.registry
        = [(⟨"order_1", 0⟩, "station_1", "order_1")] ∧
      ((Runs.run reserveStep epochLockRun (Shop.start oneStation, [])).1.stations.beliefs
        "station_1").stationState = some .idle) ∧
      ¬ ∀ (c : ShopConfig) (ops : List ShopOp),
        Reserved (Runs.run reserveStep ops (Shop.start c, [])) := by
  refine ⟨by decide +kernel, fun h => ?_⟩
  have := h oneStation epochLockRun
  exact absurd this (by decide +kernel)

end Shop

end MatrixFactory
