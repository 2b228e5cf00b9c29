/-
# The wait for the station to start

An attempt of an order holon waits until it holds `inform_start` or `reject_proposal` of its
station, or `sim_timeout` of its order.  These beliefs name the station or the order only, so
one that was told for an earlier attempt ends the wait of a later one as well.

The wait of every attempt is ended by an event of that attempt, in every run in which
nothing of an earlier attempt is left over when the winner of an attempt is chosen.
-/
import MatrixFactory.WaitWeight

namespace MatrixFactory

open AgentSpeak

/-! ## The beliefs of an order holon -/

namespace OrderHolon

/-- The holon holds something that ends a wait for the station in the order. -/
def answered (b : OrderBeliefs) (o : OrderId) (w : String) : Prop :=
  b.told.any (isInform w) ∨ (valueFor o b.simTimeout).isSome ∨ b.told.any (isReject w)

/-- The attempt of the belief that decides the branch. -/
def cause (b : OrderBeliefs) (o : OrderId) (w : String) : Option Attempt :=
  match b.told.find? (isInform w), b.told.find? (isReject w) with
  | some m, _ => m.attempt
  | none, some m => m.attempt
  | none, none => (valueFor o b.simTimeout).join

/-- The statement retracts a belief that ends a wait for the station in the order. -/
def retracts (o : OrderId) (w : String) : OrderStmt → Bool
  | .delSimTimeout o' => o' = o
  | .retract m => isInform w ⟨m, none⟩ || isReject w ⟨m, none⟩
  | .retractReject w' => w' = w
  | _ => false

variable {n : String} {b b' : OrderBeliefs} {s : OrderStmt} {x : OrderInput}
  {code : List OrderStmt} {acts : List OrderAction}

/-- Only the branch after a wait is recorded as decided. -/
theorem decided_eq (h : exec n b s x = .next b' code acts) {k : Attempt} {c : Option Attempt}
    (hk : .decided k c ∈ acts) : ∃ o w step, s = .ifStarted o w step k ∧ c = cause b o w := by
  cases s with
  | ifStarted o w step k' =>
    refine ⟨o, w, step, ?_⟩
    simp only [exec] at h
    split at h <;> cases h <;> obtain ⟨rfl, rfl⟩ := by simpa using hk
    all_goals
      refine ⟨rfl, ?_⟩
      simp only [cause, *]
  | ifRemaining o step remaining => cases remaining <;> (cases h; simp at hk)
  | sendCallForProposal stations step o =>
    cases h
    simp at hk
  | _ =>
    simp only [exec] at h
    (repeat' split at h) <;> cases h <;> simp at hk

/-- What a statement does to the beliefs that end a wait, and to the winners. -/
theorem beliefs_of_exec (h : exec n b s x = .next b' code acts) :
    b'.told ⊆ b.told ∧
      (∀ p ∈ b'.simTimeout, p ∈ b.simTimeout ∨ s = .addSimTimeout p.1 p.2) ∧
      ∀ p ∈ b'.cnpWinner, p ∈ b.cnpWinner ∨ ∃ step, s = .setCnpWinner p.1 p.2 step := by
  cases s with
  | setCnpWinner o w step =>
    cases h
    refine ⟨fun _ h => h, fun _ h => Or.inl h, fun p hp => ?_⟩
    simp only [replaceBelief, addBelief] at hp
    split at hp
    · exact Or.inl (List.mem_of_mem_tail hp)
    · rcases List.mem_cons.mp hp with rfl | hp
      · exact Or.inr ⟨step, rfl⟩
      · exact Or.inl (List.mem_of_mem_tail hp)
  | addSimTimeout o k =>
    cases h
    refine ⟨fun _ h => h, fun p hp => ?_, fun _ h => Or.inl h⟩
    dsimp only at hp
    split at hp
    · exact Or.inl hp
    · rcases List.mem_cons.mp hp with rfl | hp
      · exact Or.inr rfl
      · exact Or.inl hp
  | delSimTimeout o =>
    cases h
    exact ⟨fun _ h => h, fun p hp => Or.inl (List.mem_of_mem_eraseP hp), fun _ h => Or.inl h⟩
  | delCnpWinner o =>
    cases h
    exact ⟨fun _ h => h, fun _ h => Or.inl h, fun p hp => Or.inl (List.mem_of_mem_eraseP hp)⟩
  | retract m =>
    cases h
    exact ⟨fun _ h => List.mem_of_mem_eraseP h, fun _ h => Or.inl h, fun _ h => Or.inl h⟩
  | retractReject w =>
    cases h
    exact ⟨fun _ h => List.mem_of_mem_eraseP h, fun _ h => Or.inl h, fun _ h => Or.inl h⟩
  | abolishPropose =>
    cases h
    exact ⟨fun _ h => List.mem_of_mem_filter h, fun _ h => Or.inl h, fun _ h => Or.inl h⟩
  | ifRemaining o step remaining =>
    cases remaining <;>
      (cases h; exact ⟨fun _ h => h, fun _ h => Or.inl h, fun _ h => Or.inl h⟩)
  | _ =>
    simp only [exec] at h
    (repeat' split at h) <;> cases h <;>
      exact ⟨fun _ h => h, fun _ h => Or.inl h, fun _ h => Or.inl h⟩

theorem isInform_iff {w : String} {m : Held OrderMsg} :
    isInform w m ↔ m.lit = ⟨.informStart w, w⟩ := by
  simp [isInform]

theorem isReject_iff {w : String} {m : Held OrderMsg} :
    isReject w m ↔ ∃ reason, m.lit = ⟨.rejectProposal w reason, w⟩ := by
  obtain ⟨⟨c, source⟩, k⟩ := m
  cases c <;> simp [isReject]

/-- A literal without a property stays when the first with it goes. -/
theorem any_eraseP {q r : Held OrderMsg → Bool} {l : List (Held OrderMsg)}
    (hqr : ∀ m, q m → r m = false) (hq : l.any q) : (l.eraseP r).any q := by
  obtain ⟨m, hm, hqm⟩ := List.any_eq_true.mp hq
  exact List.any_eq_true.mpr ⟨m, (List.mem_eraseP_of_neg (by simp [hqr m hqm])).mpr hm, hqm⟩

/-- The value for an order stays when one for another order goes. -/
theorem valueFor_removeFor {α : Type} {o o' : OrderId} (hne : o' ≠ o) {l : List (OrderId × α)}
    (h : (valueFor o l).isSome) : (valueFor o (removeFor o' l)).isSome := by
  induction l with
  | nil => cases h
  | cons p l ih =>
    by_cases hp' : p.1 = o'
    · have hp : p.1 ≠ o := fun h => hne (hp'.symm.trans h)
      rw [valueFor, List.find?_cons_of_neg (by simpa using hp)] at h
      rw [removeFor, List.eraseP_cons_of_pos (by simpa using hp')]
      exact h
    · rw [removeFor, List.eraseP_cons_of_neg (by simpa using hp'), valueFor]
      by_cases hp : p.1 = o
      · rw [List.find?_cons_of_pos (by simpa using hp)]
        rfl
      · rw [valueFor, List.find?_cons_of_neg (by simpa using hp)] at h
        rw [List.find?_cons_of_neg (by simpa using hp)]
        exact ih h

/-- A message that is no proposal stays when the proposals go. -/
theorem any_abolishPropose {q : Held OrderMsg → Bool} {told : List (Held OrderMsg)}
    (hq : ∀ m, q m → ∀ v c, m.lit.content ≠ .propose v c) (hany : told.any q) :
    (told.filter fun m =>
      match m.lit.content with
      | .propose _ _ => false
      | _ => true).any q := by
  obtain ⟨m, hm, hqm⟩ := List.any_eq_true.mp hany
  refine List.any_eq_true.mpr ⟨m, List.mem_filter.mpr ⟨hm, ?_⟩, hqm⟩
  split
  · next v c hc => exact absurd hc (hq m hqm v c)
  · rfl

/-- What ends a wait stays, unless it is retracted. -/
theorem answered_of_exec (h : exec n b s x = .next b' code acts) {o : OrderId} {w : String}
    (hb : answered b o w) : answered b' o w ∨ retracts o w s := by
  have hsame : b'.told = b.told → b'.simTimeout = b.simTimeout → answered b' o w := by
    intro h₁ h₂
    rw [answered, h₁, h₂]
    exact hb
  cases s with
  | addSimTimeout o' k =>
    cases h
    left
    refine hb.imp_right (Or.imp_left fun hb => ?_)
    dsimp only
    split
    · exact hb
    · by_cases ho : o' = o <;> simp [valueFor, ho] at hb ⊢
      exact hb
  | delSimTimeout o' =>
    cases h
    by_cases ho : o' = o
    · exact Or.inr (by simp [retracts, ho])
    · exact Or.inl (hb.imp_right (Or.imp_left (valueFor_removeFor ho)))
  | retract m =>
    cases h
    by_cases hm : retracts o w (.retract m)
    · exact Or.inr hm
    · left
      rw [retracts, Bool.or_eq_true, isInform_iff, isReject_iff, not_or] at hm
      refine hb.imp (any_eraseP fun m' hq => ?_) (Or.imp_right (any_eraseP fun m' hq => ?_))
      · rw [isInform_iff] at hq
        exact decide_eq_false fun h => hm.1 (h ▸ hq)
      · obtain ⟨reason, hq⟩ := isReject_iff.mp hq
        exact decide_eq_false fun h => hm.2 ⟨reason, h ▸ hq⟩
  | retractReject w' =>
    cases h
    by_cases hw : w' = w
    · exact Or.inr (by simp [retracts, hw])
    · left
      refine hb.imp (any_eraseP fun m' hq => ?_) (Or.imp_right (any_eraseP fun m' hq => ?_))
      · rw [isInform_iff] at hq
        simp [isReject, hq]
      · obtain ⟨reason, hq⟩ := isReject_iff.mp hq
        simp [isReject, hq, Ne.symm hw]
  | abolishPropose =>
    cases h
    left
    refine hb.imp (any_abolishPropose fun m hm v c => ?_)
      (Or.imp_right (any_abolishPropose fun m hm v c => ?_))
    · simp [isInform_iff.mp hm]
    · obtain ⟨reason, hm⟩ := isReject_iff.mp hm
      simp [hm]
  | ifRemaining o' step remaining =>
    cases remaining <;> (cases h; exact Or.inl (hsame rfl rfl))
  | _ =>
    simp only [exec] at h
    (repeat' split at h) <;> cases h <;> exact Or.inl (hsame rfl rfl)

end OrderHolon

namespace Shop

/-- The beliefs of an order holon after an operation: it has been told something, or has
executed a statement, or they are as before. -/
theorem orderBeliefs_exec (op : ShopOp) (s : Shop) (n : String) :
    (∃ j m c, op = .deliver j ∧ s.mail[j]? = some m ∧ m.content = .order c ∧ m.receiver = n ∧
        (s.exec op).orders.beliefs n = { s.orders.beliefs n with
          told :=
            (AgentSpeak.tell Held.lit ⟨⟨c, m.sender⟩, m.attempt⟩ (s.orders.beliefs n).told).1 }) ∨
      (∃ i x θ st code acts, op = .orderMove i x ∧ s.orders.intentions[i]? = some θ ∧
        θ.owner = n ∧ θ.head = some st ∧
        OrderHolon.exec n (s.orders.beliefs n) st (s.orderInput θ x)
          = .next ((s.exec op).orders.beliefs n) code acts) ∨
      (s.exec op).orders.beliefs n = s.orders.beliefs n := by
  cases op with
  | orderSelect m =>
    refine Or.inr (Or.inr ?_)
    simp only [exec, Population.select]
    split
    · rfl
    · split <;> rfl
  | orderMove i x =>
    simp only [exec, orderMove]
    cases hθ : s.orders.intentions[i]? with
    | none => exact Or.inr (Or.inr rfl)
    | some θ =>
      dsimp only
      rw [run_proj (g := Shop.orders) (by simp)]
      simp only [Population.apply, Program.move_owner]
      by_cases hn : θ.owner = n
      · subst hn
        rw [Function.update_self]
        rcases OrderHolon.program.move_effect (s.orderInput θ x) (s.orders.beliefs θ.owner) θ with
          ⟨hb, _⟩ | ⟨st, hhead, ⟨code, hexec⟩ | ⟨hb, _⟩⟩
        · exact Or.inr (Or.inr hb)
        · exact Or.inr (Or.inl ⟨i, x, θ, st, code, _, rfl, hθ, rfl, hhead, hexec⟩)
        · exact Or.inr (Or.inr hb)
      · rw [Function.update_of_ne (Ne.symm hn)]
        exact Or.inr (Or.inr rfl)
  | stationMove i =>
    refine Or.inr (Or.inr ?_)
    simp only [exec, stationMove]
    split
    · rfl
    · rw [run_proj (g := Shop.orders) (by simp)]
  | amrMove i u =>
    refine Or.inr (Or.inr ?_)
    simp only [exec, amrMove]
    split
    · rfl
    · rw [run_proj (g := Shop.orders) (by simp)]
  | deliver j =>
    simp only [exec, deliver]
    cases hm : s.mail[j]? with
    | none => exact Or.inr (Or.inr rfl)
    | some m =>
      dsimp only
      split
      · exact Or.inr (Or.inr rfl)
      · unfold receive
        split
        · next c hc =>
          by_cases hn : m.receiver = n
          · refine Or.inl ⟨j, m, c, rfl, hm, hc, hn, ?_⟩
            subst hn
            dsimp only
            split <;> simp [Population.post, Population.believe]
          · refine Or.inr (Or.inr ?_)
            dsimp only
            split <;> simp [Population.post, Population.believe, Ne.symm hn]
        all_goals exact Or.inr (Or.inr rfl)
  | arrive j =>
    refine Or.inr (Or.inr ?_)
    simp only [exec, arrive]
    split <;> rfl
  | finish j code summary =>
    refine Or.inr (Or.inr ?_)
    simp only [exec, finish]
    split <;> rfl
  | _ =>
    refine Or.inr (Or.inr ?_)
    first
      | rfl
      | (simp only [exec]
         split <;> rfl)

/-- Only a branch after a wait is recorded as decided. -/
theorem decided_exec {op : ShopOp} {s : Shop} {p : Attempt × Option Attempt}
    (hp : p ∈ (s.exec op).decided) :
    p ∈ s.decided ∨ ∃ i x θ o w step, op = .orderMove i x ∧ s.orders.intentions[i]? = some θ ∧
      θ.head = some (.ifStarted o w step p.1) ∧
      p.2 = OrderHolon.cause (s.orders.beliefs θ.owner) o w := by
  cases op with
  | orderMove i x =>
    simp only [exec, orderMove] at hp
    cases hθ : s.orders.intentions[i]? with
    | none =>
      rw [hθ] at hp
      exact Or.inl hp
    | some θ =>
      rw [hθ] at hp
      dsimp only at hp
      have hrun : ∀ acts (s : Shop), p ∈ (Runs.run (orderAct θ.owner) acts s).decided →
          p ∈ s.decided ∨ .decided p.1 p.2 ∈ acts := by
        intro acts
        induction acts with
        | nil => exact fun _ h => Or.inl h
        | cons a acts ih =>
          intro s h
          rcases ih _ h with h | h
          · cases a with
            | decided k c =>
              rcases List.mem_cons.mp h with rfl | h
              · exact Or.inr List.mem_cons_self
              · exact Or.inl h
            | _ => exact Or.inl h
          · exact Or.inr (List.mem_cons_of_mem a h)
      rcases hrun _ _ hp with hp | hp
      · exact Or.inl hp
      · rcases OrderHolon.program.move_effect (s.orderInput θ x) (s.orders.beliefs θ.owner) θ with
          ⟨_, hacts⟩ | ⟨st, hhead, ⟨code, hexec⟩ | ⟨_, hexec⟩⟩
        · rw [hacts] at hp
          cases hp
        · obtain ⟨o, w, step, rfl, hc⟩ := OrderHolon.decided_eq hexec hp
          exact Or.inr ⟨i, x, θ, o, w, step, rfl, hθ, hhead, hc⟩
        · rw [OrderHolon.exec_failed hexec] at hp
          cases hp
  | stationMove i =>
    left
    simp only [exec, stationMove] at hp
    split at hp
    · exact hp
    · rwa [run_proj (g := Shop.decided) fun a s => by cases a <;> rfl] at hp
  | amrMove i u =>
    left
    simp only [exec, amrMove] at hp
    split at hp
    · exact hp
    · rwa [run_proj (g := Shop.decided) fun a s => by cases a <;> rfl] at hp
  | deliver j =>
    left
    simp only [exec, deliver] at hp
    split at hp
    · exact hp
    · split at hp
      · exact hp
      · unfold receive at hp
        split at hp <;> exact hp
  | arrive j =>
    left
    simp only [exec, arrive] at hp
    split at hp <;> exact hp
  | finish j code summary =>
    left
    simp only [exec, finish] at hp
    split at hp <;> exact hp
  | _ =>
    left
    first
      | exact hp
      | (simp only [exec] at hp
         split at hp <;> exact hp)

/-! ## The condition -/

/-- The costs of what is left over when holon `h` chooses station `w` for order `o`: waits of
the holon for the station or in the order, and waits for a station that the order may still
be transported to; what retracts answers of the station or timeouts of the order; answers of
the station to the holon; timers of the order; and transports of the order and of others to
the station. -/
def leftOver (s : Shop) (h : String) (o : OrderId) (w : String) : WaitCosts where
  wait n o' w' _ :=
    if (n = h ∧ (o' = o ∨ w' = w)) ∨ (o, w') ∈ (s.orders.beliefs n).cnpWinner then 2 else 0
  retractAnswer n w' := if n = h ∧ w' = w then 1 else 0
  retractTimeout n o' := if n = h ∧ o' = o then 1 else 0
  answer n w' _ := if n = h ∧ w' = w then 3 else 0
  timer n o' _ := if n = h ∧ o' = o then 3 else 0
  transport o' _ := if o' = o ∨ (o', w) ∈ (s.orders.beliefs h).cnpWinner then 3 else 0

/-- Nothing of an earlier attempt is left over when holon `h` chooses station `w` for order
`o`. -/
def NothingLeft (s : Shop) (h : String) (o : OrderId) (w : String) : Prop :=
  (waitWeight (s.leftOver h o w)).total s = 0 ∧
    (∀ m ∈ (s.orders.beliefs h).told, ¬ OrderHolon.isInform w m ∧ ¬ OrderHolon.isReject w m) ∧
    ∀ p ∈ (s.orders.beliefs h).simTimeout, p.1 ≠ o

/-- The condition on an operation: a winner is chosen when nothing is left over. -/
def ChosenFresh (s : Shop) : ShopOp → Prop
  | .orderMove i _ =>
    ∀ θ ∈ s.orders.intentions[i]?,
      match θ.head with
      | some (.setCnpWinner o w _) => s.NothingLeft θ.owner o w
      | _ => True
  | _ => True

instance (s : Shop) (h : String) (o : OrderId) (w : String) : Decidable (s.NothingLeft h o w) := by
  unfold NothingLeft
  infer_instance

instance (s : Shop) (op : ShopOp) : Decidable (s.ChosenFresh op) := by
  have : ∀ θ : Intention String OrderTrigger OrderStmt, Decidable
      (match θ.head with
      | some (.setCnpWinner o w _) => s.NothingLeft θ.owner o w
      | _ => True) := fun θ => by split <;> infer_instance
  induction op using ShopOp.casesOn <;> unfold ChosenFresh <;> infer_instance

/-! ## The waits -/

/-- The costs against which the wait of attempt `k` of holon `h` for station `w` in order `o`
is kept: nothing of another attempt, and no second wait. -/
def foreign (s : Shop) (h : String) (o : OrderId) (w : String) (k : Attempt) : WaitCosts where
  wait n o' w' _ := if n = h ∧ (o' = o ∨ w' = w) then 2 else 0
  retractAnswer n w' := if n = h ∧ w' = w then 1 else 0
  retractTimeout n o' := if n = h ∧ o' = o then 1 else 0
  answer n w' k' := if n = h ∧ w' = w ∧ k' ≠ some k then 3 else 0
  timer n o' k' := if n = h ∧ o' = o ∧ k' ≠ some k then 3 else 0
  transport o' k' := if (o', w) ∈ (s.orders.beliefs h).cnpWinner ∧ k' ≠ some k then 3 else 0

/-- The costs that count a wait. -/
def theWait (h : String) (o : OrderId) (w : String) (k : Attempt) : WaitCosts :=
  { WaitCosts.zero with
    wait := fun n o' w' k' => if n = h ∧ o' = o ∧ w' = w ∧ k' = k then 1 else 0 }

/-- Attempt `k` of the holon waits for the station, or is going to. -/
def Waits (s : Shop) (h : String) (o : OrderId) (w : String) (k : Attempt) : Prop :=
  0 < (waitWeight (theWait h o w k)).total s

theorem foreign_ordered {s : Shop} {h : String} {o : OrderId} {w : String} {k : Attempt} :
    (s.foreign h o w k).Ordered := by
  constructor
  · intro n o' w' k'
    simp only [foreign]
    split_ifs <;> simp_all
  · intro n o' w' k'
    simp only [foreign]
    split_ifs <;> simp_all

theorem theWait_ordered {h : String} {o : OrderId} {w : String} {k : Attempt} :
    (theWait h o w k).Ordered :=
  ⟨fun _ _ _ _ => Nat.zero_le _, fun _ _ _ _ => Nat.zero_le _⟩

/-- A wait under way is weighed. -/
theorem wait_eq_zero {C : WaitCosts} {s : Shop} {h : String} {o : OrderId} {w : String}
    {k : Attempt} (hwaits : s.Waits h o w k) (hzero : (waitWeight C).total s = 0) :
    C.wait h o w k = 0 := by
  by_contra hne
  have hle : (waitWeight (theWait h o w k)).total s ≤ (waitWeight C).total s := by
    refine ShopWeight.wait_total_mono ⟨fun n o' w' k' => ?_, fun _ _ => Nat.zero_le _,
      fun _ _ => Nat.zero_le _, fun _ _ _ => Nat.zero_le _, fun _ _ _ => Nat.zero_le _,
      fun _ _ => Nat.zero_le _⟩ s
    simp only [theWait, WaitCosts.zero]
    split_ifs with hsame
    · obtain ⟨rfl, rfl, rfl, rfl⟩ := hsame
      omega
    · exact Nat.zero_le _
  unfold Waits at hwaits
  omega

/-- A statement that waits is a wait under way. -/
theorem waits_of_head {s : Shop} {i : ℕ} {θ : Intention String OrderTrigger OrderStmt}
    {o : OrderId} {w : String} {step : ℕ} {k : Attempt} (hθ : s.orders.intentions[i]? = some θ)
    (hhead : θ.head = some (.ifStarted o w step k)) : s.Waits θ.owner o w k := by
  have hle := ShopWeight.orderHead_le_total (W := waitWeight (theWait θ.owner o w k)) hθ hhead
  have hone : (waitWeight (theWait θ.owner o w k)).order.stmt θ.owner (.ifStarted o w step k)
      = 1 := by
    simp [waitWeight, WaitCosts.orderStmt, theWait]
  unfold Waits
  omega

/-! ## One operation -/

/-- The operation is the choice of station `w` for order `o` by holon `h`, which begins
attempt `k`. -/
def Chooses (s : Shop) (op : ShopOp) (h : String) (o : OrderId) (w : String) (k : Attempt) :
    Prop :=
  ∃ i x θ step, op = .orderMove i x ∧ s.orders.intentions[i]? = some θ ∧ θ.owner = h ∧
    θ.head = some (.setCnpWinner o w step) ∧ (s.orderInput θ x).attempt = k

/-- Only a choice adds a wait. -/
theorem waits_exec {s : Shop} {op : ShopOp} {h : String} {o : OrderId} {w : String} {k : Attempt}
    (hwaits : (s.exec op).Waits h o w k) : s.Waits h o w k ∨ s.Chooses op h o w k := by
  have hle := ShopWeight.exec_le (ShopWeight.wait_lawful (theWait_ordered (h := h) (o := o)
    (w := w) (k := k))) op s (ShopWeight.wait_reads s)
  by_cases hgain : (waitWeight (theWait h o w k)).gain s op = 0
  · left
    unfold Waits at hwaits ⊢
    omega
  · right
    obtain ⟨i, x, θ, st, rfl, hθ, hhead, heq⟩ := ShopWeight.wait_gain hgain
    rw [heq] at hgain
    cases st with
    | setCnpWinner o' w' step =>
      have : θ.owner = h ∧ o' = o ∧ w' = w ∧ (s.orderInput θ x).attempt = k := by
        simpa [WaitCosts.gain, theWait, WaitCosts.zero] using hgain
      obtain ⟨howner, rfl, rfl, hk⟩ := this
      exact ⟨i, x, θ, step, rfl, hθ, howner, hhead, hk⟩
    | queryCnpWinner o' k' =>
      simp only [WaitCosts.gain, theWait, WaitCosts.zero] at hgain
      split at hgain <;> exact absurd rfl hgain
    | _ => exact absurd rfl hgain

/-- A choice when nothing is left over is none that concerns a wait under way. -/
theorem apart_of_chosen {s : Shop} {h h' : String} {o o' : OrderId} {w w' : String} {k : Attempt}
    (hwaits : s.Waits h o w k) (hleft : s.NothingLeft h' o' w') :
    ¬ (h = h' ∧ (o = o' ∨ w = w')) ∧ (o', w) ∉ (s.orders.beliefs h).cnpWinner := by
  have hzero := wait_eq_zero hwaits hleft.1
  simp only [leftOver, ite_eq_right_iff] at hzero
  constructor
  · exact fun h => absurd (hzero (Or.inl h)) (by decide)
  · exact fun h => absurd (hzero (Or.inr h)) (by decide)

theorem nothingLeft_of_chosen {s : Shop} {i : ℕ} {x : OrderInput}
    {θ : Intention String OrderTrigger OrderStmt} {o : OrderId} {w : String} {step : ℕ}
    (hC : s.ChosenFresh (.orderMove i x)) (hθ : s.orders.intentions[i]? = some θ)
    (hhead : θ.head = some (.setCnpWinner o w step)) : s.NothingLeft θ.owner o w := by
  have := hC θ hθ
  rwa [hhead] at this

/-- The winners after an operation are those before it and those chosen. -/
theorem winners_exec {s : Shop} {op : ShopOp} {h : String} {o : OrderId} {w : String}
    (hmem : (o, w) ∈ ((s.exec op).orders.beliefs h).cnpWinner) :
    (o, w) ∈ (s.orders.beliefs h).cnpWinner ∨ ∃ k, s.Chooses op h o w k := by
  rcases orderBeliefs_exec op s h with ⟨j, m, c, _, _, _, _, hb⟩ |
    ⟨i, x, θ, st, code, acts, rfl, hθ, howner, hhead, hexec⟩ | hb
  · rw [hb] at hmem
    exact Or.inl hmem
  · refine ((OrderHolon.beliefs_of_exec hexec).2.2 _ hmem).imp_right ?_
    rintro ⟨step, rfl⟩
    exact ⟨_, i, x, θ, step, rfl, hθ, howner, hhead, rfl⟩
  · rw [hb] at hmem
    exact Or.inl hmem

theorem ite_add_le {p q : Prop} [Decidable p] [Decidable q] (h : p → q) {m : ℕ} :
    (if p then m else 0) + 0 ≤ if q then m else 0 := by
  by_cases hp : p
  · rw [if_pos hp, if_pos (h hp), Nat.add_zero]
  · rw [if_neg hp]
    exact Nat.zero_le _

/-- What an attempt that already waits is kept against stays small. -/
theorem foreign_of_waits {s : Shop} {op : ShopOp} (hC : s.ChosenFresh op) {h : String}
    {o : OrderId} {w : String} {k : Attempt} (hwaits : s.Waits h o w k)
    (hs : (waitWeight (s.foreign h o w k)).total s ≤ 2) :
    (waitWeight ((s.exec op).foreign h o w k)).total (s.exec op) ≤ 2 := by
  -- no order is chosen to be transported to the station
  have hwinners : ∀ o', (o', w) ∈ ((s.exec op).orders.beliefs h).cnpWinner →
      (o', w) ∈ (s.orders.beliefs h).cnpWinner := by
    intro o' hmem
    rcases winners_exec hmem with hmem | ⟨k', i, x, θ, step, rfl, hθ, rfl, hhead, _⟩
    · exact hmem
    · have := (apart_of_chosen hwaits (nothingLeft_of_chosen hC hθ hhead)).1
      exact absurd ⟨rfl, Or.inr rfl⟩ this
  have hmono : (waitWeight ((s.exec op).foreign h o w k)).total (s.exec op)
      ≤ (waitWeight (s.foreign h o w k)).total (s.exec op) := by
    refine ShopWeight.wait_total_mono (C := (s.exec op).foreign h o w k)
      (D := s.foreign h o w k) ⟨fun _ _ _ _ => le_rfl, fun _ _ => le_rfl, fun _ _ => le_rfl,
        fun _ _ _ => le_rfl, fun _ _ _ => le_rfl, fun o' k' => ?_⟩ _
    exact ite_add_le fun h₁ => ⟨hwinners o' h₁.1, h₁.2⟩
  have hle := ShopWeight.exec_le (ShopWeight.wait_lawful (foreign_ordered (s := s) (h := h)
    (o := o) (w := w) (k := k))) op s (ShopWeight.wait_reads s)
  have hgain : (waitWeight (s.foreign h o w k)).gain s op = 0 := by
    by_contra hgain
    obtain ⟨i, x, θ, st, rfl, hθ, hhead, heq⟩ := ShopWeight.wait_gain hgain
    rw [heq] at hgain
    cases st with
    | setCnpWinner o' w' step =>
      obtain ⟨hapart, hother⟩ := apart_of_chosen hwaits (nothingLeft_of_chosen hC hθ hhead)
      simp only [not_and, not_or] at hapart
      apply hgain
      by_cases howner : θ.owner = h
      · obtain ⟨ho, hw⟩ := hapart howner.symm
        simp [WaitCosts.gain, foreign, hother, Ne.symm ho, Ne.symm hw]
      · simp [WaitCosts.gain, foreign, hother, howner]
    | queryCnpWinner o' k' =>
      apply hgain
      simp only [WaitCosts.gain]
      split
      · next w' hw' =>
        obtain ⟨p, hp, rfl⟩ := Option.map_eq_some_iff.mp hw'
        have hp' : p.1 = o' := by simpa using List.find?_some hp
        have hmem := List.mem_of_find?_eq_some hp
        simp only [foreign]
        split_ifs with h₁ h₂
        · rfl
        · refine absurd ⟨?_, h₁.2.2⟩ h₂
          rw [← h₁.1, ← hp', ← h₁.2.1]
          exact hmem
        all_goals rfl
      · rfl
    | _ => exact hgain rfl
  omega

/-- An attempt that begins when nothing is left over is kept against nothing. -/
theorem foreign_of_chooses {s : Shop} {op : ShopOp} (hC : s.ChosenFresh op) {h : String}
    {o : OrderId} {w : String} {k : Attempt} (hchooses : s.Chooses op h o w k) :
    (waitWeight ((s.exec op).foreign h o w k)).total (s.exec op) ≤ 2 := by
  have hwinners : ∀ o', (o', w) ∈ ((s.exec op).orders.beliefs h).cnpWinner →
      o' = o ∨ (o', w) ∈ (s.orders.beliefs h).cnpWinner := by
    intro o' hmem
    rcases winners_exec hmem with hmem | ⟨k', i', x', θ', step', hop, hθ', _, hhead', _⟩
    · exact Or.inr hmem
    · obtain ⟨i, x, θ, step, rfl, hθ, rfl, hhead, _⟩ := hchooses
      cases hop
      cases hθ.symm.trans hθ'
      cases hhead.symm.trans hhead'
      exact Or.inl rfl
  obtain ⟨i, x, θ, step, rfl, hθ, rfl, hhead, hk⟩ := hchooses
  have hzero := (nothingLeft_of_chosen hC hθ hhead).1
  have hmono : (waitWeight ((s.exec (.orderMove i x)).foreign θ.owner o w k)).total s
      ≤ (waitWeight (s.leftOver θ.owner o w)).total s := by
    refine ShopWeight.wait_total_mono (C := (s.exec (.orderMove i x)).foreign θ.owner o w k)
      (D := s.leftOver θ.owner o w) ⟨fun n o' w' k' => ?_, fun _ _ => le_rfl, fun _ _ => le_rfl,
        fun n w' k' => ?_, fun n o' k' => ?_, fun o' k' => ?_⟩ _
    · exact ite_add_le fun h₁ => Or.inl h₁
    · exact ite_add_le fun h₁ => ⟨h₁.1, h₁.2.1⟩
    · exact ite_add_le fun h₁ => ⟨h₁.1, h₁.2.1⟩
    · exact ite_add_le fun h₁ => hwinners o' h₁.1
  have hle := ShopWeight.exec_le (ShopWeight.wait_lawful
    (foreign_ordered (s := s.exec (.orderMove i x)) (h := θ.owner) (o := o) (w := w) (k := k)))
    (.orderMove i x) s (ShopWeight.wait_reads s)
  have hgain : (waitWeight ((s.exec (.orderMove i x)).foreign θ.owner o w k)).gain s
      (.orderMove i x) = 2 := by
    simp [ShopWeight.gain, ShopWeight.headGain, hθ, hhead, waitWeight, WaitCosts.gain, foreign, hk]
  omega

/-! ## The beliefs that end a wait -/

/-- Whatever ends a wait is for the attempt that waits. -/
def EndsOwn (s : Shop) (h : String) (o : OrderId) (w : String) (k : Attempt) : Prop :=
  (∀ m ∈ (s.orders.beliefs h).told, OrderHolon.isInform w m ∨ OrderHolon.isReject w m →
      m.attempt = some k) ∧
    ∀ p ∈ (s.orders.beliefs h).simTimeout, p.1 = o → p.2 = some k

/-- What comes to end a wait is for the attempt, when nothing of another is under way. -/
theorem endsOwn_of_waits {s : Shop} {op : ShopOp} {h : String} {o : OrderId} {w : String}
    {k : Attempt} (hforeign : (waitWeight (s.foreign h o w k)).total s ≤ 2)
    (hs : s.EndsOwn h o w k) : (s.exec op).EndsOwn h o w k := by
  obtain ⟨htold, htimeout⟩ := hs
  rcases orderBeliefs_exec op s h with ⟨j, m, c, rfl, hm, hc, hreceiver, hb⟩ |
    ⟨i, x, θ, st, code, acts, rfl, hθ, howner, hhead, hexec⟩ | hb
  · unfold EndsOwn
    rw [hb]
    refine ⟨fun m' hm' hends => ?_, htimeout⟩
    simp only [AgentSpeak.tell] at hm'
    split at hm'
    · exact htold m' hm' hends
    · rcases List.mem_cons.mp hm' with rfl | hm'
      · -- the message would weigh more than all that is under way
        have hle := ShopWeight.mail_le_total (W := waitWeight (s.foreign h o w k))
          (List.mem_of_getElem? hm)
        by_contra hne
        have hmail : (waitWeight (s.foreign h o w k)).mail m = 3 := by
          have hsender : m.sender = w ∧
              ((∃ v, c = .informStart v) ∨ ∃ v r, c = .rejectProposal v r) := by
            rcases hends with hinform | hreject
            · have := OrderHolon.isInform_iff.mp hinform
              cases this
              exact ⟨rfl, Or.inl ⟨_, rfl⟩⟩
            · obtain ⟨r, this⟩ := OrderHolon.isReject_iff.mp hreject
              cases this
              exact ⟨rfl, Or.inr ⟨_, r, rfl⟩⟩
          obtain ⟨hsender, ⟨v, rfl⟩ | ⟨v, r, rfl⟩⟩ := hsender
          all_goals
            simp only [waitWeight, WaitCosts.mail, hc, foreign]
            exact if_pos ⟨hreceiver, hsender, hne⟩
        omega
      · exact htold m' hm' hends
  · obtain ⟨hsub, hadd, _⟩ := OrderHolon.beliefs_of_exec hexec
    refine ⟨fun m hm => htold m (hsub hm), fun p hp ho => ?_⟩
    rcases hadd p hp with hp | rfl
    · exact htimeout p hp ho
    · have hle := ShopWeight.orderHead_le_total (W := waitWeight (s.foreign h o w k)) hθ hhead
      by_contra hne
      have hstmt : (waitWeight (s.foreign h o w k)).order.stmt θ.owner
          (.addSimTimeout p.1 p.2) = 3 := if_pos ⟨howner, ho, hne⟩
      omega
  · unfold EndsOwn
    rw [hb]
    exact ⟨htold, htimeout⟩

/-- Nothing ends the wait of an attempt that begins when nothing is left over. -/
theorem endsOwn_of_chooses {s : Shop} {op : ShopOp} (hC : s.ChosenFresh op) {h : String}
    {o : OrderId} {w : String} {k : Attempt} (hchooses : s.Chooses op h o w k) :
    (s.exec op).EndsOwn h o w k := by
  obtain ⟨i, x, θ, step, rfl, hθ, rfl, hhead, hk⟩ := hchooses
  obtain ⟨_, htold, htimeout⟩ := nothingLeft_of_chosen hC hθ hhead
  have hsame : ((s.exec (.orderMove i x)).orders.beliefs θ.owner).told
        = (s.orders.beliefs θ.owner).told ∧
      ((s.exec (.orderMove i x)).orders.beliefs θ.owner).simTimeout
        = (s.orders.beliefs θ.owner).simTimeout := by
    rcases orderBeliefs_exec (.orderMove i x) s θ.owner with ⟨j, _, _, hop, _⟩ |
      ⟨i', x', θ', st, code, acts, hop, hθ', _, hhead', hexec⟩ | hb
    · cases hop
    · cases hop
      cases hθ.symm.trans hθ'
      cases hhead.symm.trans hhead'
      obtain ⟨hb, _, _⟩ := Outcome.next.inj hexec
      rw [← hb]
      exact ⟨rfl, rfl⟩
    · rw [hb]
      exact ⟨rfl, rfl⟩
  constructor
  · rw [hsame.1]
    intro m hm hends
    exact absurd hends (by simpa [not_or] using htold m hm)
  · rw [hsame.2]
    exact fun p hp ho => absurd ho (htimeout p hp)

/-! ## The branch after a wait -/

/-- Wherever the branch after a wait is ahead, the wait can end. -/
def answeredAhead (beliefs : String → OrderBeliefs) :
    Property String OrderBeliefs OrderTrigger OrderStmt where
  beliefs _ _ := True
  event _ _ := True
  goal _ _ := True
  outer _ _ := True
  stmt n _ s := ∀ o w step k, s = .ifStarted o w step k → OrderHolon.answered (beliefs n) o w

theorem plan_answered {beliefs : String → OrderBeliefs} {n : String} {b : OrderBeliefs}
    {t : OrderTrigger} {body : List OrderStmt} (h : OrderHolon.plan n b t = some body) :
    ∀ s ∈ body, (answeredAhead beliefs).stmt n t s := by
  suffices hnone : ∀ s ∈ body, ∀ o w step k, s ≠ .ifStarted o w step k from
    fun s hs o w step k heq => absurd heq (hnone s hs o w step k)
  cases t with
  | timerExpired key k =>
    cases key <;> simp only [OrderHolon.plan] at h <;> (repeat' split at h) <;> cases h <;>
      simp [OrderHolon.abortAndRetry]
  | told m k =>
    obtain ⟨m, source⟩ := m
    cases m <;> simp only [OrderHolon.plan] at h <;> (repeat' split at h) <;> cases h <;> simp
  | _ =>
    simp only [OrderHolon.plan] at h
    (repeat' split at h) <;> cases h <;> simp

theorem plans_answered (beliefs : String → OrderBeliefs) (n : String) (b : OrderBeliefs) :
    (answeredAhead beliefs).Plans OrderHolon.program n b where
  goal _ _ _ h := plan_answered h
  goal_failed _ _ _ _ h := by cases h
  outer_failed _ _ _ _ h := by cases h

theorem exec_answered {beliefs : String → OrderBeliefs} (n : String) (t : OrderTrigger)
    (s : OrderStmt) (x : OrderInput) :
    (answeredAhead beliefs).Outcome OrderHolon.program (fun _ => True) n (beliefs n) t
      (OrderHolon.exec n (beliefs n) s x) := by
  have hnext : ∀ b' code acts,
      (∀ s' ∈ code, ∀ o w step k, s' = .ifStarted o w step k →
        OrderHolon.answered (beliefs n) o w) →
      (answeredAhead beliefs).Outcome OrderHolon.program (fun _ => True) n (beliefs n) t
        (.next b' code acts) := fun _ _ _ h => ⟨trivial, h, fun _ _ => trivial⟩
  have hfailed : ∀ acts : List OrderAction, (answeredAhead beliefs).Outcome OrderHolon.program
      (fun _ => True) n (beliefs n) t (.failed acts) := fun _ =>
    ⟨fun _ _ h => (by cases h), fun _ _ => trivial⟩
  cases s with
  | waitStationStart o w step k =>
    simp only [OrderHolon.exec]
    split
    · next hans =>
      refine hnext _ _ _ fun s' hs' o' w' step' k' heq => ?_
      obtain rfl := List.mem_singleton.mp hs'
      cases heq
      exact hans
    · trivial
  | achieve goal => exact ⟨trivial, trivial⟩
  | dropIntention goals => trivial
  | ifRemaining o step remaining => cases remaining <;> exact hnext _ _ _ (by simp)
  | findStaleWatchdogs =>
    refine hnext _ _ _ fun s' hs' o w step k heq => ?_
    obtain ⟨p, _, hp⟩ := List.mem_flatMap.mp hs'
    simp [heq] at hp
  | rejectLosers winner o =>
    refine hnext _ _ _ fun s' hs' o w step k heq => ?_
    obtain ⟨loser, _, rfl⟩ := List.mem_map.mp hs'
    cases heq
  | _ =>
    simp only [OrderHolon.exec]
    repeat' split
    all_goals first
      | exact hnext _ _ _ (by simp [OrderHolon.abortAndRetry])
      | exact hfailed _
      | trivial

/-- The branches ahead of the order holons after an operation could have been taken before
it. -/
theorem answeredAhead_before {s : Shop} {op : ShopOp}
    (hs : (answeredAhead s.orders.beliefs).All s.orders) :
    (answeredAhead s.orders.beliefs).All (s.exec op).orders := by
  refine orders_rule (Q := (answeredAhead s.orders.beliefs).All) hs ?_ ?_ ?_ ?_
  · exact fun p n f _ hp => hp.believe trivial
  · exact fun p e _ hp => hp.post trivial
  · exact fun n _ => hs.select fun e _ body h => plan_answered h
  · intro i x θ _ hθ
    exact (Property.apply_move hs hθ (plans_answered _ _ _) fun t st _ _ =>
      exec_answered θ.owner t st _).1

/-- While an attempt waits, no statement about to be executed retracts what ends its wait. -/
theorem not_retracts_of_waits {s : Shop} {i : ℕ} {θ : Intention String OrderTrigger OrderStmt}
    {st : OrderStmt} {o : OrderId} {w : String} {k : Attempt}
    (hθ : s.orders.intentions[i]? = some θ) (hhead : θ.head = some st)
    (hwaits : s.Waits θ.owner o w k)
    (hforeign : (waitWeight (s.foreign θ.owner o w k)).total s ≤ 2) :
    ¬ OrderHolon.retracts o w st := by
  intro hretracts
  let waiting : WaitCosts := { WaitCosts.zero with wait := (s.foreign θ.owner o w k).wait }
  let retracting : WaitCosts :=
    { WaitCosts.zero with
      retractAnswer := (s.foreign θ.owner o w k).retractAnswer
      retractTimeout := (s.foreign θ.owner o w k).retractTimeout }
  -- the wait weighs two, the retraction one
  have htwo : 2 ≤ (waitWeight waiting).total s := by
    have := ShopWeight.wait_total_add_le (C := theWait θ.owner o w k) (E := theWait θ.owner o w k)
      (D := waiting) ⟨fun n o' w' k' => ?_, fun _ _ => le_rfl, fun _ _ => le_rfl,
        fun _ _ _ => le_rfl, fun _ _ _ => le_rfl, fun _ _ => le_rfl⟩ s
    · unfold Waits at hwaits
      omega
    · simp only [theWait, waiting, foreign]
      split_ifs with h₁ h₂
      · exact le_rfl
      · exact absurd ⟨h₁.1, Or.inl h₁.2.1⟩ h₂
      all_goals exact Nat.zero_le _
  have hone : 1 ≤ (waitWeight retracting).total s := by
    refine le_trans ?_ (ShopWeight.orderHead_le_total (W := waitWeight retracting) hθ hhead)
    show 1 ≤ retracting.orderStmt θ.owner st
    cases st with
    | delSimTimeout o' =>
      have : o' = o := by simpa [OrderHolon.retracts] using hretracts
      simp [WaitCosts.orderStmt, retracting, foreign, this]
    | retract m =>
      simp only [OrderHolon.retracts, Bool.or_eq_true, OrderHolon.isInform_iff,
        OrderHolon.isReject_iff] at hretracts
      rcases hretracts with rfl | ⟨r, rfl⟩ <;>
        simp [WaitCosts.orderStmt, retracting, foreign]
    | retractReject w' =>
      have : w' = w := by simpa [OrderHolon.retracts] using hretracts
      simp [WaitCosts.orderStmt, retracting, foreign, this]
    | _ => cases hretracts
  have hsum := ShopWeight.wait_total_add_le (C := waiting) (E := retracting)
    (D := s.foreign θ.owner o w k) ⟨fun _ _ _ _ => le_rfl,
      fun _ _ => (Nat.zero_add _).le, fun _ _ => (Nat.zero_add _).le,
      fun _ _ _ => Nat.zero_le _, fun _ _ _ => Nat.zero_le _, fun _ _ => Nat.zero_le _⟩ s
  omega

theorem answered_tell {b : OrderBeliefs} {o : OrderId} {w : String} (m : Held OrderMsg)
    (h : OrderHolon.answered b o w) :
    OrderHolon.answered { b with told := (AgentSpeak.tell Held.lit m b.told).1 } o w := by
  have hany : ∀ q : Held OrderMsg → Bool, b.told.any q →
      (AgentSpeak.tell Held.lit m b.told).1.any q := by
    intro q hq
    simp only [AgentSpeak.tell]
    split
    · exact hq
    · simp [hq]
  exact h.imp (hany _) (Or.imp_right (hany _))

/-- The invariant of the waits. -/
structure WaitInvariant (s : Shop) : Prop where
  foreign : ∀ h o w k, s.Waits h o w k → (waitWeight (s.foreign h o w k)).total s ≤ 2
  own : ∀ h o w k, s.Waits h o w k → s.EndsOwn h o w k
  ahead : (answeredAhead s.orders.beliefs).All s.orders
  decided : ∀ p ∈ s.decided, p.2 = some p.1

/-- The branch after a wait can be taken for as long as it is ahead. -/
theorem answeredAhead_exec {s : Shop} {op : ShopOp} (hs : s.WaitInvariant) :
    (answeredAhead (s.exec op).orders.beliefs).All (s.exec op).orders := by
  refine (answeredAhead_before hs.ahead).imp (fun _ h => h) (fun _ _ h => h) fun θ' hθ' hall => ?_
  refine hall.imp (fun _ h => h) (fun _ h => h) fun f hf st' hst' hans o w step k heq => ?_
  subst heq
  have hbefore := hans o w step k rfl
  rcases orderBeliefs_exec op s θ'.owner with ⟨j, m, c, rfl, _, _, _, hb⟩ |
    ⟨i, x, θ, st, code, acts, rfl, hθ, howner, hhead, hexec⟩ | hb
  · rw [hb]
    exact answered_tell _ hbefore
  · refine (OrderHolon.answered_of_exec hexec hbefore).resolve_right fun hretracts => ?_
    have hafter : (s.exec (.orderMove i x)).Waits θ'.owner o w k := by
      have habout : (s.exec (.orderMove i x)).orders.About θ'.owner (fun _ => False)
          (· = .ifStarted o w step k) := Or.inr ⟨θ', hθ', rfl, f, hf, _, hst', rfl⟩
      have := Weight.le_total_of_about (w := (waitWeight (theWait θ'.owner o w k)).order) (k := 1)
        habout (fun _ h => h.elim)
        (by rintro st rfl; simp [waitWeight, WaitCosts.orderStmt, theWait])
      unfold Waits ShopWeight.total
      omega
    rcases waits_exec hafter with hwaits | ⟨_, _, _, _, hop, hθ₂, _, hhead₂, _⟩
    · rw [← howner] at hwaits
      exact not_retracts_of_waits hθ hhead hwaits (hs.foreign _ _ _ _ hwaits) hretracts
    · cases hop
      cases hθ.symm.trans hθ₂
      cases hhead.symm.trans hhead₂
      cases hretracts
  · rw [hb]
    exact hbefore

/-- A branch that can be taken, on beliefs for its attempt, is decided by its attempt. -/
theorem cause_of_own {s : Shop} {h : String} {o : OrderId} {w : String} {k : Attempt}
    (hown : s.EndsOwn h o w k) (hans : OrderHolon.answered (s.orders.beliefs h) o w) :
    OrderHolon.cause (s.orders.beliefs h) o w = some k := by
  obtain ⟨htold, htimeout⟩ := hown
  unfold OrderHolon.cause
  split
  · next m hm =>
    exact htold m (List.mem_of_find?_eq_some hm) (Or.inl (List.find?_some hm))
  · next m hinform hm =>
    exact htold m (List.mem_of_find?_eq_some hm) (Or.inr (List.find?_some hm))
  · next hinform hreject =>
    have hnone : ∀ q : Held OrderMsg → Bool, (s.orders.beliefs h).told.find? q = none →
        ¬ (s.orders.beliefs h).told.any q := by
      intro q hq hany
      obtain ⟨m, hm, hqm⟩ := List.any_eq_true.mp hany
      exact absurd hqm (List.find?_eq_none.mp hq m hm)
    have hsome := (hans.resolve_left (hnone _ hinform)).resolve_right (hnone _ hreject)
    obtain ⟨k', hk'⟩ := Option.isSome_iff_exists.mp hsome
    obtain ⟨p, hp, rfl⟩ := Option.map_eq_some_iff.mp hk'
    have := htimeout p (List.mem_of_find?_eq_some hp) (by simpa using List.find?_some hp)
    rw [hk', this]
    rfl

theorem waitInvariant_exec {s : Shop} {op : ShopOp} (hs : s.WaitInvariant)
    (hC : s.ChosenFresh op) : (s.exec op).WaitInvariant where
  foreign h o w k hwaits := by
    rcases waits_exec hwaits with hwaits | hchooses
    · exact foreign_of_waits hC hwaits (hs.foreign h o w k hwaits)
    · exact foreign_of_chooses hC hchooses
  own h o w k hwaits := by
    rcases waits_exec hwaits with hwaits | hchooses
    · exact endsOwn_of_waits (hs.foreign h o w k hwaits) (hs.own h o w k hwaits)
    · exact endsOwn_of_chooses hC hchooses
  ahead := answeredAhead_exec hs
  decided p hp := by
    rcases decided_exec hp with hp | ⟨i, x, θ, o, w, step, rfl, hθ, hhead, hcause⟩
    · exact hs.decided p hp
    · have hwaits := waits_of_head hθ hhead
      have hahead := hs.ahead.intentions θ (List.mem_of_getElem? hθ)
      rw [hcause]
      refine cause_of_own (hs.own _ _ _ _ hwaits) ?_
      unfold Intention.head at hhead
      split at hhead
      · next t st body frames hpend hframes =>
        cases hhead
        have := hahead.frames
        rw [hframes] at this
        exact this.head _ List.mem_cons_self o w step p.1 rfl
      · cases hhead

/-! ## Runs -/

theorem waitInvariant_start (c : ShopConfig) : (Shop.start c).WaitInvariant := by
  have hnone : ∀ h o w k, ¬ (Shop.start c).Waits h o w k := by
    intro h o w k
    simp [Waits, ShopWeight.total, Weight.total, Shop.start, waitWeight, WaitCosts.orderTrigger,
      WaitCosts.stationTrigger, WaitCosts.amrTrigger, Function.comp_def]
  refine ⟨fun _ _ _ _ h => absurd h (hnone _ _ _ _), fun _ _ _ _ h => absurd h (hnone _ _ _ _),
    ⟨fun _ => trivial, fun _ _ => trivial, ?_⟩, ?_⟩ <;> simp [Shop.start]

/-- The timer of the first attempt expires before it is cancelled, and its signal asserts
`sim_timeout` after the station has started. -/
def lateTimeoutRun : List ShopOp :=
  acceptedRun ++ arrivedRun ++ [ShopOp.deliver 4, .orderTimer 0] ++ orderMoves 6 2 ++
    [ShopOp.orderSelect "order_1", .orderSignal 0, .orderSelect "order_1"] ++ orderMoves 1 4

/-- The station reports a defect, and the order holon calls for proposals again, chooses the
station again and waits for it. -/
def defectRun : List ShopOp :=
  ShopOp.finish 0 .defect ⟨.idle, none⟩ :: stationMoves 8 3 ++
    [ShopOp.deliver 4, .orderSelect "order_1"] ++ orderMoves 9 5 ++
    [ShopOp.deliver 4, .stationSelect "station_1"] ++ stationMoves 6 4 ++
    [ShopOp.deliver 8, .orderTimer 0, .orderSignal 0, .orderSelect "order_1",
      .orderSelect "order_1"] ++ orderMoves 22 6

end Shop

end MatrixFactory
