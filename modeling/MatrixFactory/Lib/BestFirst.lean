/-
# Best-first search with a closed set

The graph search that polls a least node from a priority queue, stops at a goal,
skips a node whose key was closed before, and otherwise closes it and offers its
children.  Nodes carry whatever the client wants to read off the result (a parent
chain, say); what the search itself looks at is the `state` of a node and the
`key` under which that state is closed.  The loop runs on fuel.

* `search_sound`: every invariant of the children holds of the answer.
* `search_isSome`: with fuel above `effort`, and keys that tell the states of the
  domain apart, a goal that can be reached is found.
* `search_least`: the answer is no larger, in the queue's order, than some node
  on any path to a goal.  With a rank that never decreases along a path this is
  optimality.
-/
import MatrixFactory.Lib.PriorityQueue
import Mathlib.Data.Finset.Card
import Mathlib.Data.List.Chain

/-- A search space: nodes `N` standing for states `S`, closed by keys in `K`. -/
structure SearchSpace (N S K : Type*) where
  state : N → S
  isGoal : S → Bool
  key : S → K
  children : N → List N

namespace SearchSpace

variable {N S K : Type*} [DecidableEq K] {le : N → N → Prop}
variable (P : SearchSpace N S K) (pq : PriorityQueue N le)

/-- The children of a node that are not closed yet. -/
def openChildren (closed : List K) (n : N) : List N :=
  (P.children n).filter (fun m => P.key (P.state m) ∉ closed)

/-- The search loop. -/
def search : ℕ → List N → List K → Option N
  | 0, _, _ => none
  | fuel + 1, queue, closed =>
    match pq.poll queue with
    | none => none
    | some (cur, rest) =>
      if P.isGoal (P.state cur) then some cur
      else if P.key (P.state cur) ∈ closed then search fuel rest closed
      else
        search fuel
          (pq.offerAll (P.openChildren (P.key (P.state cur) :: closed) cur) rest)
          (P.key (P.state cur) :: closed)

theorem mem_openChildren {closed : List K} {n m : N} :
    m ∈ P.openChildren closed n ↔ m ∈ P.children n ∧ P.key (P.state m) ∉ closed := by
  simp [openChildren]

/-! ## Soundness -/

/-- Whatever holds of the queued nodes and passes from a node to its children
holds of the answer, which is a goal. -/
theorem search_sound {I : N → Prop} (hchild : ∀ n, I n → ∀ m ∈ P.children n, I m) :
    ∀ (fuel : ℕ) (queue : List N) (closed : List K), (∀ n ∈ queue, I n) →
      ∀ n, P.search pq fuel queue closed = some n → I n ∧ P.isGoal (P.state n) = true := by
  intro fuel
  induction fuel with
  | zero => intro queue closed _ n h; simp [search] at h
  | succ fuel ih =>
    intro queue closed hq n h
    rw [search] at h
    rcases hpoll : pq.poll queue with _ | ⟨cur, rest⟩
    · rw [hpoll] at h; simp at h
    · rw [hpoll] at h
      simp only at h
      have hcur : I cur := hq cur ((pq.mem_of_poll hpoll cur).mpr (Or.inl rfl))
      have hrest : ∀ m ∈ rest, I m := fun m hm =>
        hq m ((pq.mem_of_poll hpoll m).mpr (Or.inr hm))
      split at h
      · next hgoal =>
        obtain rfl : cur = n := by simpa using h
        exact ⟨hcur, hgoal⟩
      · split at h
        · exact ih rest closed hrest n h
        · refine ih _ _ (fun m hm => ?_) n h
          rcases (pq.mem_offerAll).mp hm with hm | hm
          · exact hchild cur hcur m ((P.mem_openChildren).mp hm).1
          · exact hrest m hm

/-! ## The frontier

`Frontier` says that the closed states have been left behind completely: each of
them is no goal and every child of it is closed or queued. -/

/-- One step of the graph on states. -/
def Edge (s s' : S) : Prop := ∃ n m, P.state n = s ∧ m ∈ P.children n ∧ P.state m = s'

/-- The children of a node depend on its state only, up to their states. -/
def StateDetermined : Prop :=
  ∀ n n' m, P.state n = P.state n' → m ∈ P.children n →
    ∃ m' ∈ P.children n', P.state m' = P.state m

/-- A domain of states that the edges do not leave and whose keys differ. -/
structure Domain (D : S → Prop) : Prop where
  children_mem : ∀ n, D (P.state n) → ∀ m ∈ P.children n, D (P.state m)
  key_inj : ∀ s s', D s → D s' → P.key s = P.key s' → s = s'

/-- The invariant of the loop, for a search that began at the state `s₀`. -/
structure Frontier (D : S → Prop) (s₀ : S) (queue : List N) (closed : List K) : Prop where
  queue_dom : ∀ n ∈ queue, D (P.state n)
  closed_left : ∀ k ∈ closed, ∃ s, D s ∧ P.key s = k ∧ P.isGoal s = false ∧
    ∀ s', P.Edge s s' → P.key s' ∈ closed ∨ ∃ n ∈ queue, P.state n = s'
  start_seen : P.key s₀ ∈ closed ∨ ∃ n ∈ queue, P.state n = s₀

variable {P} {D : S → Prop} {s₀ : S}

omit [DecidableEq K] in
theorem Domain.edge_mem (hD : P.Domain D) {s s' : S} (hs : D s) (h : P.Edge s s') : D s' := by
  obtain ⟨n, m, rfl, hm, rfl⟩ := h
  exact hD.children_mem n hs m hm

omit [DecidableEq K] in
theorem Frontier.init {n : N} (hn : D (P.state n)) : P.Frontier D (P.state n) [n] [] where
  queue_dom := by simpa using hn
  closed_left := by simp
  start_seen := Or.inr ⟨n, by simp, rfl⟩

omit [DecidableEq K] in
/-- Polling a node that is closed already loses nothing. -/
theorem Frontier.skip {queue rest : List N} {closed : List K} {cur : N}
    (hF : P.Frontier D s₀ queue closed) (hpoll : pq.poll queue = some (cur, rest))
    (hclosed : P.key (P.state cur) ∈ closed) : P.Frontier D s₀ rest closed where
  queue_dom n hn := hF.queue_dom n ((pq.mem_of_poll hpoll n).mpr (Or.inr hn))
  closed_left k hk := by
    obtain ⟨s, hs, hkey, hgoal, hleft⟩ := hF.closed_left k hk
    refine ⟨s, hs, hkey, hgoal, fun s' hs' => ?_⟩
    rcases hleft s' hs' with h | ⟨n, hn, hst⟩
    · exact Or.inl h
    · rcases (pq.mem_of_poll hpoll n).mp hn with rfl | hn
      · exact Or.inl (hst ▸ hclosed)
      · exact Or.inr ⟨n, hn, hst⟩
  start_seen := by
    rcases hF.start_seen with h | ⟨n, hn, hst⟩
    · exact Or.inl h
    · rcases (pq.mem_of_poll hpoll n).mp hn with rfl | hn
      · exact Or.inl (hst ▸ hclosed)
      · exact Or.inr ⟨n, hn, hst⟩

/-- Closing the polled node and offering its open children keeps the frontier. -/
theorem Frontier.expand {queue rest : List N} {closed : List K} {cur : N}
    (hD : P.Domain D) (hdet : P.StateDetermined)
    (hF : P.Frontier D s₀ queue closed) (hpoll : pq.poll queue = some (cur, rest))
    (hgoal : P.isGoal (P.state cur) = false) :
    P.Frontier D s₀
      (pq.offerAll (P.openChildren (P.key (P.state cur) :: closed) cur) rest)
      (P.key (P.state cur) :: closed) := by
  have hcur : D (P.state cur) :=
    hF.queue_dom cur ((pq.mem_of_poll hpoll cur).mpr (Or.inl rfl))
  -- a queued node stays queued, or is the one that has just been closed
  have hkeep : ∀ s, (∃ n ∈ queue, P.state n = s) → P.key s ∈ P.key (P.state cur) :: closed ∨
      ∃ n ∈ pq.offerAll (P.openChildren (P.key (P.state cur) :: closed) cur) rest,
        P.state n = s := by
    rintro s ⟨n, hn, rfl⟩
    rcases (pq.mem_of_poll hpoll n).mp hn with rfl | hn
    · exact Or.inl List.mem_cons_self
    · exact Or.inr ⟨n, (pq.mem_offerAll).mpr (Or.inr hn), rfl⟩
  constructor
  · intro n hn
    rcases (pq.mem_offerAll).mp hn with hn | hn
    · exact hD.children_mem cur hcur n ((P.mem_openChildren).mp hn).1
    · exact hF.queue_dom n ((pq.mem_of_poll hpoll n).mpr (Or.inr hn))
  · intro k hk
    rcases List.mem_cons.mp hk with rfl | hk
    · refine ⟨P.state cur, hcur, rfl, hgoal, ?_⟩
      rintro s' ⟨n, m, hn, hm, rfl⟩
      obtain ⟨m', hm', hst⟩ := hdet n cur m hn hm
      rw [← hst]
      by_cases hkey : P.key (P.state m') ∈ P.key (P.state cur) :: closed
      · exact Or.inl hkey
      · exact Or.inr ⟨m', pq.mem_offerAll.mpr (Or.inl (P.mem_openChildren.mpr ⟨hm', hkey⟩)), rfl⟩
    · obtain ⟨s, hs, hkey, hg, hleft⟩ := hF.closed_left k hk
      refine ⟨s, hs, hkey, hg, fun s' hs' => ?_⟩
      rcases hleft s' hs' with h | h
      · exact Or.inl (List.mem_cons_of_mem _ h)
      · exact hkeep s' h
  · rcases hF.start_seen with h | h
    · exact Or.inl (List.mem_cons_of_mem _ h)
    · exact hkeep s₀ h

omit [DecidableEq K] in
/-- From a closed state, every path to a goal meets the queue. -/
theorem Frontier.exists_queued_of_closed {queue : List N} {closed : List K}
    (hD : P.Domain D) (hF : P.Frontier D s₀ queue closed) :
    ∀ (p : List S) (s : S), D s → P.key s ∈ closed → List.IsChain P.Edge (s :: p) →
      P.isGoal ((s :: p).getLast (by simp)) = true → ∃ n ∈ queue, P.state n ∈ p := by
  intro p
  induction p with
  | nil =>
    intro s hs hk _ hgoal
    obtain ⟨r, hr, hkey, hng, -⟩ := hF.closed_left _ hk
    rw [hD.key_inj r s hr hs hkey] at hng
    simp only [List.getLast_singleton] at hgoal
    rw [hng] at hgoal
    simp at hgoal
  | cons s' p ih =>
    intro s hs hk hchain hgoal
    rw [List.isChain_cons_cons] at hchain
    obtain ⟨r, hr, hkey, -, hleft⟩ := hF.closed_left _ hk
    rw [hD.key_inj r s hr hs hkey] at hleft
    rcases hleft s' hchain.1 with hk' | ⟨n, hn, hst⟩
    · rw [List.getLast_cons (by simp)] at hgoal
      obtain ⟨n, hn, hmem⟩ := ih s' (hD.edge_mem hs hchain.1) hk' hchain.2 hgoal
      exact ⟨n, hn, List.mem_cons_of_mem _ hmem⟩
    · exact ⟨n, hn, by simp [hst]⟩

omit [DecidableEq K] in
/-- Every path from the start to a goal meets the queue. -/
theorem Frontier.exists_queued {queue : List N} {closed : List K}
    (hD : P.Domain D) (hs₀ : D s₀) (hF : P.Frontier D s₀ queue closed) {p : List S}
    (hchain : List.IsChain P.Edge (s₀ :: p))
    (hgoal : P.isGoal ((s₀ :: p).getLast (by simp)) = true) :
    ∃ n ∈ queue, P.state n ∈ s₀ :: p := by
  rcases hF.start_seen with h | ⟨n, hn, hst⟩
  · obtain ⟨n, hn, hmem⟩ := hF.exists_queued_of_closed hD p s₀ hs₀ h hchain hgoal
    exact ⟨n, hn, List.mem_cons_of_mem _ hmem⟩
  · exact ⟨n, hn, by simp [hst]⟩

/-! ## Least answers -/

/-- The answer comes, in the queue's order, before some node on every path from
the start to a goal.  That node satisfies every invariant `I` of the queue. -/
theorem search_least {I : N → Prop} (hchild : ∀ n, I n → ∀ m ∈ P.children n, I m)
    (hD : P.Domain D) (hdet : P.StateDetermined) (hs₀ : D s₀) {p : List S}
    (hchain : List.IsChain P.Edge (s₀ :: p))
    (hgoal : P.isGoal ((s₀ :: p).getLast (by simp)) = true) :
    ∀ (fuel : ℕ) (queue : List N) (closed : List K), (∀ n ∈ queue, I n) →
      P.Frontier D s₀ queue closed → ∀ n, P.search pq fuel queue closed = some n →
        ∃ m, I m ∧ P.state m ∈ s₀ :: p ∧ le n m := by
  intro fuel
  induction fuel with
  | zero => intro queue closed _ _ n h; simp [search] at h
  | succ fuel ih =>
    intro queue closed hI hF n h
    rw [search] at h
    rcases hpoll : pq.poll queue with _ | ⟨cur, rest⟩
    · rw [hpoll] at h; simp at h
    · rw [hpoll] at h
      simp only at h
      have hrest : ∀ m ∈ rest, I m := fun m hm =>
        hI m ((pq.mem_of_poll hpoll m).mpr (Or.inr hm))
      split at h
      · obtain rfl : cur = n := by simpa using h
        obtain ⟨m, hm, hst⟩ := hF.exists_queued hD hs₀ hchain hgoal
        exact ⟨m, hI m hm, hst, pq.poll_least queue cur rest hpoll m hm⟩
      · next hng =>
        split at h
        · next hk => exact ih rest closed hrest (hF.skip pq hpoll hk) n h
        · refine ih _ _ (fun m hm => ?_) (hF.expand pq hD hdet hpoll (by simpa using hng)) n h
          rcases (pq.mem_offerAll).mp hm with hm | hm
          · exact hchild cur (hI cur ((pq.mem_of_poll hpoll cur).mpr (Or.inl rfl))) m
              ((P.mem_openChildren).mp hm).1
          · exact hrest m hm

/-! ## Fuel -/

/-- The loop's measure: the queue, and `b` for every key of `U` still open. -/
def effort (b : ℕ) (U : Finset K) (queue : List N) (closed : List K) : ℕ :=
  queue.length + b * (U.filter (· ∉ closed)).card

theorem card_filter_notMem_cons {U : Finset K} {k : K} {closed : List K} (hk : k ∈ U)
    (hopen : k ∉ closed) :
    (U.filter (· ∉ k :: closed)).card + 1 = (U.filter (· ∉ closed)).card := by
  have hsplit : U.filter (· ∉ k :: closed) = (U.filter (· ∉ closed)).erase k := by
    ext a
    simp only [Finset.mem_filter, List.mem_cons, not_or, Finset.mem_erase]
    tauto
  have hmem : k ∈ U.filter (· ∉ closed) := Finset.mem_filter.mpr ⟨hk, hopen⟩
  rw [hsplit, Finset.card_erase_add_one hmem]

theorem effort_skip {b : ℕ} {U : Finset K} {queue rest : List N} (closed : List K) {cur : N}
    (hpoll : pq.poll queue = some (cur, rest)) :
    effort b U rest closed < effort b U queue closed := by
  have hlen := pq.length_of_poll hpoll
  unfold effort
  omega

theorem effort_expand {b : ℕ} {U : Finset K} {queue rest : List N} {closed : List K} {cur : N}
    (hb : ∀ n, (P.children n).length ≤ b) (hU : P.key (P.state cur) ∈ U)
    (hpoll : pq.poll queue = some (cur, rest)) (hk : P.key (P.state cur) ∉ closed) :
    effort b U (pq.offerAll (P.openChildren (P.key (P.state cur) :: closed) cur) rest)
      (P.key (P.state cur) :: closed) < effort b U queue closed := by
  have hlen := pq.length_of_poll hpoll
  have hchildren : (P.openChildren (P.key (P.state cur) :: closed) cur).length ≤ b :=
    (List.length_filter_le _ _).trans (hb cur)
  have hcard := card_filter_notMem_cons hU hk
  unfold effort
  rw [pq.length_offerAll, ← hcard, Nat.mul_add]
  omega

/-- **Completeness.**  A reachable goal is found as soon as the fuel exceeds the
effort. -/
theorem search_isSome {b : ℕ} {U : Finset K} (hD : P.Domain D) (hdet : P.StateDetermined)
    (hb : ∀ n, (P.children n).length ≤ b) (hU : ∀ s, D s → P.key s ∈ U) (hs₀ : D s₀)
    {p : List S} (hchain : List.IsChain P.Edge (s₀ :: p))
    (hgoal : P.isGoal ((s₀ :: p).getLast (by simp)) = true) :
    ∀ (fuel : ℕ) (queue : List N) (closed : List K), P.Frontier D s₀ queue closed →
      effort b U queue closed < fuel → (P.search pq fuel queue closed).isSome := by
  intro fuel
  induction fuel with
  | zero => intro queue closed _ h; exact absurd h (Nat.not_lt_zero _)
  | succ fuel ih =>
    intro queue closed hF hfuel
    rw [search]
    rcases hpoll : pq.poll queue with _ | ⟨cur, rest⟩
    · obtain ⟨n, hn, -⟩ := hF.exists_queued hD hs₀ hchain hgoal
      rw [(pq.poll_eq_none_iff).mp hpoll] at hn
      simp at hn
    · simp only
      have hcur : D (P.state cur) :=
        hF.queue_dom cur ((pq.mem_of_poll hpoll cur).mpr (Or.inl rfl))
      split
      · rfl
      · next hng =>
        split
        · next hk =>
          have hlt := effort_skip (b := b) (U := U) pq closed hpoll
          exact ih rest closed (hF.skip pq hpoll hk) (by omega)
        · next hk =>
          have hlt := effort_expand pq hb (hU _ hcur) hpoll hk
          exact ih _ _ (hF.expand pq hD hdet hpoll (by simpa using hng)) (by omega)

end SearchSpace
