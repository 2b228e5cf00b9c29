/-
# Ageing of the reservations

The reservation table keeps a committed move twice: as a cell reserved for the time of
arrival, in an array indexed by time, and as an edge, in a set of keys with the time
packed into them.  A ledger of the outstanding moves, aged as time passes, says what
both should hold (`Describes`).

`commitReservation` writes both alike, but the two operations that age the table do
not age the edges: `refreshGridOccupancy` leaves the keys as they are and
`clearExpiredReservations` drops them all.  `describes_iff` says when the table still
agrees with the ledger: as long as no edge is recorded when the table ages.
-/
import MatrixFactory.ConflictFree
import MatrixFactory.Lib.Runs

namespace MatrixFactory

/-! ## The ledger of outstanding moves -/

/-- A move of a committed path into `dst`, begun at time `t`; `src` is the cell before
it on the path, if there is one. -/
structure CommittedMove where
  amrId : String
  src : Option Cell
  dst : Cell
  t : ℕ
  deriving DecidableEq, Repr

namespace CommittedMove

/-- The edge of a move that is not a wait. -/
def edge? (m : CommittedMove) : Option TimedEdge :=
  match m.src with
  | some u => if u ≠ m.dst then some ⟨u, m.dst, m.t⟩ else none
  | none => none

/-- The move one tick later, unless its time has passed. -/
def age (m : CommittedMove) : Option CommittedMove :=
  if m.t = 0 then none else some { m with t := m.t - 1 }

end CommittedMove

/-- The outstanding moves, newest commit first. -/
abbrev MoveLedger := List CommittedMove

namespace MoveLedger

/-- The moves of a path from index `t` on join the ledger. -/
def addMoves (amrId : String) : MoveLedger → ℕ → Option Cell → List Cell → MoveLedger
  | L, _, _, [] => L
  | L, t, prev, c :: p => addMoves amrId (⟨amrId, prev, c, t⟩ :: L) (t + 1) (some c) p

/-- The ledger after a commit. -/
def commit (amrId : String) (path : List Cell) (L : MoveLedger) : MoveLedger :=
  addMoves amrId L 0 none path

/-- The ledger one tick later. -/
def age (L : MoveLedger) : MoveLedger := L.filterMap CommittedMove.age

/-- The AMR that holds a cell for a time. -/
def holder (L : MoveLedger) (c : Cell) (t : ℕ) : Option String :=
  (L.find? fun m => m.dst = c ∧ m.t + 1 = t).map (·.amrId)

/-- The edges of the outstanding moves. -/
def edges (L : MoveLedger) : List TimedEdge := L.filterMap CommittedMove.edge?

/-- Ageing lets the arrivals of time `t + 1` become those of time `t`. -/
theorem holder_age (L : MoveLedger) (c : Cell) {t : ℕ} (ht : t ≠ 0) :
    L.age.holder c t = L.holder c (t + 1) := by
  induction L with
  | nil => rfl
  | cons m L ih =>
    unfold holder age at *
    rw [List.filterMap_cons, CommittedMove.age]
    by_cases hm : m.t = 0
    · rw [if_pos hm]
      have hno : ¬ (m.dst = c ∧ m.t + 1 = t + 1) := by omega
      rw [List.find?_cons_of_neg (by simpa using hno)]
      exact ih
    · rw [if_neg hm]
      have hiff : (m.dst = c ∧ m.t - 1 + 1 = t) ↔ (m.dst = c ∧ m.t + 1 = t + 1) := by
        constructor <;> rintro ⟨rfl, h⟩ <;> exact ⟨rfl, by omega⟩
      by_cases hyes : m.dst = c ∧ m.t - 1 + 1 = t
      · rw [List.find?_cons_of_pos (by simpa using hyes),
          List.find?_cons_of_pos (by simpa using hiff.mp hyes)]
        rfl
      · rw [List.find?_cons_of_neg (by simpa using hyes),
          List.find?_cons_of_neg (by simpa using fun h h' => hyes (hiff.mpr ⟨h, by omega⟩))]
        exact ih

theorem mem_edges_age {L : MoveLedger} {e : TimedEdge} :
    e ∈ L.age.edges ↔ ∃ e' ∈ L.edges, e'.t ≠ 0 ∧ e = ⟨e'.a, e'.b, e'.t - 1⟩ := by
  have hedge : ∀ (m : CommittedMove) (e : TimedEdge), m.edge? = some e → e.t = m.t := by
    intro m e he
    unfold CommittedMove.edge? at he
    split at he
    · split at he
      · cases he
        rfl
      · cases he
    · cases he
  have haged : ∀ (m : CommittedMove) (t : ℕ), ({ m with t := t } : CommittedMove).edge?
      = m.edge?.map fun e => ⟨e.a, e.b, t⟩ := by
    intro m t
    unfold CommittedMove.edge?
    rcases m.src with _ | u
    · rfl
    · dsimp only
      split <;> rfl
  simp only [edges, age, List.mem_filterMap, CommittedMove.age]
  constructor
  · rintro ⟨m', ⟨m, hm, hage⟩, he⟩
    split at hage
    · cases hage
    · next ht =>
      obtain rfl := Option.some.inj hage
      rw [haged] at he
      obtain ⟨e', he', rfl⟩ := Option.map_eq_some_iff.mp he
      have := hedge m e' he'
      exact ⟨e', ⟨m, hm, he'⟩, by omega, by rw [this]⟩
  · rintro ⟨e', ⟨m, hm, he'⟩, ht, rfl⟩
    have := hedge m e' he'
    refine ⟨{ m with t := m.t - 1 }, ⟨m, hm, by rw [if_neg (by omega)]⟩, ?_⟩
    rw [haged, he', this]
    rfl

end MoveLedger

/-! ## The table against the ledger -/

/-- The vertex table, from the next tick on, and the edge set both hold exactly the
moves of the ledger.  Slot 0 holds the present and is not consulted by the planner. -/
structure Describes (r : Reservations) (L : MoveLedger) : Prop where
  vertices : ∀ c t, t ≠ 0 → r.reservedBy c t = L.holder c t
  edges : ∀ n, n ∈ r.edgeReservations ↔ ∃ e ∈ L.edges, e.key = n

/-- The operations on the reservations. -/
inductive ReservationOp where
  | commitReservation (amrId : String) (path : List Cell)
  | refreshGridOccupancy (fleet : List (String × Cell))
  | clearExpiredReservations
  deriving DecidableEq, Repr

namespace ReservationOp

/-- The path of a commit stays inside `reservedBy`: in the grid, and within the
horizon. -/
def WellFormed (g : Grid) : ReservationOp → Prop
  | .commitReservation _ path => path.length < g.horizonTicks ∧ ∀ c ∈ path, g.InBounds c
  | _ => True

instance (g : Grid) : DecidablePred (WellFormed g) := fun op => by
  cases op <;> unfold WellFormed <;> infer_instance

/-- One operation on the table. -/
def exec (g : Grid) : ReservationOp → Reservations → Reservations
  | .commitReservation amrId path, r => r.commitReservation g amrId path
  | .refreshGridOccupancy fleet, r => r.refreshGridOccupancy g fleet
  | .clearExpiredReservations, r => r.clearExpired g

/-- What the operation should do to the outstanding moves. -/
def account : ReservationOp → MoveLedger → MoveLedger
  | .commitReservation amrId path, L => L.commit amrId path
  | .refreshGridOccupancy _, L => L.age
  | .clearExpiredReservations, L => L.age

/-- The table beside its ledger. -/
def step (g : Grid) (op : ReservationOp) (s : Reservations × MoveLedger) :
    Reservations × MoveLedger :=
  (op.exec g s.1, op.account s.2)

/-- The table is not aged while it holds an edge. -/
def NoEdgeAged (s : Reservations × MoveLedger) : ReservationOp → Prop
  | .commitReservation _ _ => True
  | _ => s.1.edgeReservations = []

end ReservationOp

/-! ## Commits -/

section Commit

variable {g : Grid} {amrId : String}

theorem describes_commitFrom {p : List Cell} {r : Reservations} {L : MoveLedger} {t : ℕ}
    {prev : Option Cell} (h : Describes r L) (hlen : t + p.length < g.horizonTicks) :
    Describes (Reservations.commitFrom g amrId r t prev p) (L.addMoves amrId t prev p) := by
  induction p generalizing r L t prev with
  | nil => exact h
  | cons c p ih =>
    rw [List.length_cons] at hlen
    unfold Reservations.commitFrom
    rw [if_pos (by omega)]
    refine ih ⟨?_, ?_⟩ (by omega)
    · intro c' t' ht'
      have hres : (r.reserve c (t + 1) amrId).reservedBy c' t'
          = MoveLedger.holder (⟨amrId, prev, c, t⟩ :: L) c' t' := by
        unfold MoveLedger.holder
        simp only [Reservations.reserve]
        by_cases hhit : c' = c ∧ t' = t + 1
        · obtain ⟨rfl, rfl⟩ := hhit
          rw [if_pos ⟨rfl, rfl⟩, List.find?_cons_of_pos (by simp)]
          rfl
        · have hmiss : ¬ (c = c' ∧ t + 1 = t') := fun h => hhit ⟨h.1.symm, h.2.symm⟩
          rw [if_neg hhit, List.find?_cons_of_neg (by simpa using hmiss)]
          exact h.vertices c' t' ht'
      rw [← hres]
      repeat' split
      all_goals rfl
    · intro n
      have hcons : (∃ e ∈ MoveLedger.edges (⟨amrId, prev, c, t⟩ :: L), e.key = n) ↔
          (∃ e, (CommittedMove.mk amrId prev c t).edge? = some e ∧ e.key = n) ∨
            ∃ e ∈ L.edges, e.key = n := by
        simp only [MoveLedger.edges, List.mem_filterMap, List.mem_cons]
        constructor
        · rintro ⟨e, ⟨m, rfl | hm, he⟩, hn⟩
          · exact Or.inl ⟨e, he, hn⟩
          · exact Or.inr ⟨e, ⟨m, hm, he⟩, hn⟩
        · rintro (⟨e, he, hn⟩ | ⟨e, ⟨m, hm, he⟩, hn⟩)
          · exact ⟨e, ⟨_, Or.inl rfl, he⟩, hn⟩
          · exact ⟨e, ⟨m, Or.inr hm, he⟩, hn⟩
      rw [hcons, ← h.edges n]
      rcases prev with _ | u
      · simp [CommittedMove.edge?, Reservations.reserve]
      · by_cases hu : u ≠ c
        · simp only [CommittedMove.edge?, if_pos hu, Option.some.injEq, exists_eq_left',
            Reservations.reserve, List.mem_cons, TimedEdge.key]
          rw [eq_comm]
        · simp [CommittedMove.edge?, Reservations.reserve, hu]

theorem mem_addMoves {L : MoveLedger} {t : ℕ} {prev : Option Cell} {p : List Cell}
    {m : CommittedMove} (h : m ∈ L.addMoves amrId t prev p) :
    m ∈ L ∨ m.t < t + p.length ∧ m.dst ∈ p ∧
      ∀ u, m.src = some u → (u ∈ p ∨ prev = some u) ∧ (prev = none → t < m.t) := by
  have hle : ∀ (p : List Cell) (L : MoveLedger) (t : ℕ) (prev : Option Cell),
      m ∈ L.addMoves amrId t prev p → m ∈ L ∨ t ≤ m.t := by
    intro p
    induction p with
    | nil => exact fun L t prev h => Or.inl h
    | cons c p ih =>
      intro L t prev h
      rcases ih _ _ _ h with hm | hm
      · rcases List.mem_cons.mp hm with rfl | hm
        · exact Or.inr le_rfl
        · exact Or.inl hm
      · exact Or.inr (by omega)
  induction p generalizing L t prev with
  | nil => exact Or.inl h
  | cons c p ih =>
    rw [MoveLedger.addMoves] at h
    rcases ih h with hm | ⟨hlt, hdst, hsrc⟩
    · rcases List.mem_cons.mp hm with rfl | hm
      · refine Or.inr ⟨by simp, List.mem_cons_self, fun u hu => ⟨Or.inr hu, ?_⟩⟩
        rintro rfl
        cases hu
      · exact Or.inl hm
    · rcases hle p _ _ _ h with hm | hge
      · rcases List.mem_cons.mp hm with rfl | hm
        · refine Or.inr ⟨by simp, List.mem_cons_self, fun u hu => ⟨Or.inr hu, ?_⟩⟩
          rintro rfl
          cases hu
        · exact Or.inl hm
      · refine Or.inr ⟨by rw [List.length_cons]; omega, List.mem_cons_of_mem _ hdst, ?_⟩
        intro u hu
        refine ⟨Or.inl ?_, fun _ => by omega⟩
        rcases (hsrc u hu).1 with hmem | hcell
        · exact List.mem_cons_of_mem _ hmem
        · rw [Option.some.inj hcell]
          exact List.mem_cons_self

end Commit

/-! ## Runs -/

section Run

variable {g : Grid}

/-- What a run whose steps age no edge keeps: the agreement, with the moves inside the
horizon and every edge still ahead. -/
structure Kept (g : Grid) (s : Reservations × MoveLedger) : Prop where
  describes : Describes s.1 s.2
  bounded : ∀ m ∈ s.2, m.t + 1 < g.horizonTicks
  ahead : ∀ e ∈ s.2.edges, e.t ≠ 0 ∧ e.InGrid g

theorem kept_empty (g : Grid) : Kept g (.empty, []) where
  describes := ⟨fun _ _ _ => rfl, by simp [Reservations.empty, MoveLedger.edges]⟩
  bounded := by simp
  ahead := by simp [MoveLedger.edges]

theorem Kept.commit {s : Reservations × MoveLedger} (h : Kept g s) {amrId : String}
    {path : List Cell} (hlen : path.length < g.horizonTicks)
    (hpath : ∀ c ∈ path, g.InBounds c) :
    Kept g ((ReservationOp.commitReservation amrId path).step g s) := by
  refine ⟨describes_commitFrom h.describes (by omega), ?_, ?_⟩
  · intro m hm
    rcases mem_addMoves hm with hm | ⟨hlt, -, -⟩
    · exact h.bounded m hm
    · show m.t + 1 < g.horizonTicks
      omega
  · intro e he
    obtain ⟨m, hm, hme⟩ := List.mem_filterMap.mp he
    rcases mem_addMoves hm with hm | ⟨hlt, hdst, hsrc⟩
    · exact h.ahead e (List.mem_filterMap.mpr ⟨m, hm, hme⟩)
    · unfold CommittedMove.edge? at hme
      split at hme
      · next u hu =>
        split at hme
        · obtain rfl := Option.some.inj hme
          obtain ⟨hup | hno, htime⟩ := hsrc u hu
          · have hpos : 0 < m.t := htime rfl
            have hbound : m.t < g.horizonTicks := by omega
            exact ⟨hpos.ne', hpath u hup, hpath _ hdst, hbound⟩
          · cases hno
        · cases hme
      · cases hme

theorem refresh_reservedBy (fleet : List (String × Cell)) (r : Reservations) (c : Cell) {t : ℕ}
    (ht : t ≠ 0) :
    (r.refreshGridOccupancy g fleet).reservedBy c t = Reservations.shift g r.reservedBy c t := by
  unfold Reservations.refreshGridOccupancy
  suffices h : ∀ r' : Reservations, (fleet.foldl
      (fun r a => if g.InBounds a.2 then r.reserve a.2 0 a.1 else r) r').reservedBy c t
        = r'.reservedBy c t from h _
  induction fleet with
  | nil => exact fun _ => rfl
  | cons a fleet ih =>
    intro r'
    rw [List.foldl_cons, ih]
    split
    · simp [Reservations.reserve, ht]
    · rfl

theorem refresh_edges (fleet : List (String × Cell)) (r : Reservations) :
    (r.refreshGridOccupancy g fleet).edgeReservations = r.edgeReservations := by
  unfold Reservations.refreshGridOccupancy
  suffices h : ∀ r' : Reservations, (fleet.foldl
      (fun r a => if g.InBounds a.2 then r.reserve a.2 0 a.1 else r) r').edgeReservations
        = r'.edgeReservations from h _
  induction fleet with
  | nil => exact fun _ => rfl
  | cons a fleet ih =>
    intro r'
    rw [List.foldl_cons, ih]
    split <;> rfl

/-- The shifted vertex table holds the aged ledger. -/
theorem Kept.shift {s : Reservations × MoveLedger} (h : Kept g s) (c : Cell) {t : ℕ}
    (ht : t ≠ 0) : Reservations.shift g s.1.reservedBy c t = s.2.age.holder c t := by
  rw [MoveLedger.holder_age s.2 c ht]
  unfold Reservations.shift
  split
  · exact h.describes.vertices c (t + 1) (by omega)
  · next hend =>
    symm
    unfold MoveLedger.holder
    rw [Option.map_eq_none_iff, List.find?_eq_none]
    intro m hm hhit
    have := h.bounded m hm
    simp only [decide_eq_true_eq] at hhit
    omega

theorem Kept.bounded_age {s : Reservations × MoveLedger} (h : Kept g s) :
    ∀ m ∈ s.2.age, m.t + 1 < g.horizonTicks := by
  intro m' hm'
  obtain ⟨m, hm, hage⟩ := List.mem_filterMap.mp hm'
  unfold CommittedMove.age at hage
  split at hage
  · cases hage
  · obtain rfl := Option.some.inj hage
    have := h.bounded m hm
    dsimp only
    omega

/-- Without edges, ageing the vertices is enough. -/
theorem Kept.aged {s : Reservations × MoveLedger} (h : Kept g s)
    (hnil : s.1.edgeReservations = []) {r : Reservations} (hedges : r.edgeReservations = [])
    (hverts : ∀ c t, t ≠ 0 → r.reservedBy c t = Reservations.shift g s.1.reservedBy c t) :
    Kept g (r, s.2.age) := by
  have hnone : ∀ e, e ∉ s.2.age.edges := by
    intro e he
    obtain ⟨e', he', -, -⟩ := MoveLedger.mem_edges_age.mp he
    have := (h.describes.edges e'.key).mpr ⟨e', he', rfl⟩
    rw [hnil] at this
    exact List.not_mem_nil this
  refine ⟨⟨?_, ?_⟩, h.bounded_age, fun e he => absurd he (hnone e)⟩
  · intro c t ht
    exact (hverts c t ht).trans (h.shift c ht)
  · intro n
    rw [hedges]
    constructor
    · intro hn
      exact absurd hn List.not_mem_nil
    · rintro ⟨e, he, -⟩
      exact absurd he (hnone e)

theorem Kept.step {s : Reservations × MoveLedger} (h : Kept g s) {op : ReservationOp}
    (hop : op.WellFormed g) (hnil : ReservationOp.NoEdgeAged s op) : Kept g (op.step g s) := by
  cases op with
  | commitReservation amrId path => exact h.commit hop.1 hop.2
  | refreshGridOccupancy fleet =>
    exact h.aged hnil ((refresh_edges fleet s.1).trans hnil) fun c t ht =>
      refresh_reservedBy fleet s.1 c ht
  | clearExpiredReservations => exact h.aged hnil rfl fun _ _ _ => rfl

/-- An agreement that survives the ageing shows that no edge was there to age. -/
theorem Kept.noEdgeAged (hfit : g.FitsKey) {s : Reservations × MoveLedger} (h : Kept g s)
    {op : ReservationOp} (hafter : Describes (op.step g s).1 (op.step g s).2) :
    ReservationOp.NoEdgeAged s op := by
  -- an edge that is ahead survives in the ledger, one tick closer
  have hcloser : ∀ e ∈ s.2.edges, (⟨e.a, e.b, e.t - 1⟩ : TimedEdge) ∈ s.2.age.edges :=
    fun e he => MoveLedger.mem_edges_age.mpr ⟨e, he, (h.ahead e he).1, rfl⟩
  have hempty : (∀ e, e ∉ s.2.edges) → s.1.edgeReservations = [] := by
    intro hno
    refine List.eq_nil_iff_forall_not_mem.mpr fun n hn => ?_
    obtain ⟨e, he, -⟩ := (h.describes.edges n).mp hn
    exact hno e he
  cases op with
  | commitReservation amrId path => trivial
  | clearExpiredReservations =>
    refine hempty fun e he => ?_
    have := (hafter.edges _).mpr ⟨_, hcloser e he, rfl⟩
    exact List.not_mem_nil this
  | refreshGridOccupancy fleet =>
    refine hempty fun e he => ?_
    -- a key that stays stands for an edge of the ledger one tick later
    have hlater : ∀ e ∈ s.2.edges, ∃ e' ∈ s.2.edges, e'.t = e.t + 1 := by
      intro e he
      have hkey : e.key ∈ (s.1.refreshGridOccupancy g fleet).edgeReservations := by
        rw [refresh_edges]
        exact (h.describes.edges _).mpr ⟨e, he, rfl⟩
      obtain ⟨e₁, he₁, hk⟩ := (hafter.edges _).mp hkey
      obtain ⟨e', he', ht', rfl⟩ := MoveLedger.mem_edges_age.mp he₁
      have hin := (h.ahead e' he').2
      have heq := TimedEdge.key_injOn hfit
        (show TimedEdge.InGrid g ⟨e'.a, e'.b, e'.t - 1⟩ from ⟨hin.1, hin.2.1, by
          have := hin.2.2
          show e'.t - 1 < _
          omega⟩) (h.ahead e he).2 hk
      refine ⟨e', he', ?_⟩
      have := congrArg TimedEdge.t heq
      dsimp only at this
      omega
    have hfar : ∀ k, ∃ e ∈ s.2.edges, k ≤ e.t := by
      intro k
      induction k with
      | zero => exact ⟨e, he, Nat.zero_le _⟩
      | succ k ih =>
        obtain ⟨e₁, he₁, hk⟩ := ih
        obtain ⟨e₂, he₂, ht⟩ := hlater e₁ he₁
        exact ⟨e₂, he₂, by omega⟩
    obtain ⟨e₁, he₁, hk⟩ := hfar g.horizonTicks
    have := (h.ahead e₁ he₁).2.2.2
    omega

end Run

/-- In every state the run reaches, the vertex table and the edge set hold the same
outstanding moves. -/
def Lockstep (g : Grid) (ops : List ReservationOp) : Prop :=
  ∀ before after, ops = before ++ after →
    let s := Runs.run (ReservationOp.step g) before (.empty, [])
    Describes s.1 s.2

theorem Kept.run {g : Grid} {s : Reservations × MoveLedger} (h : Kept g s)
    {ops : List ReservationOp} (hops : ∀ op ∈ ops, op.WellFormed g)
    (hnil : Runs.Along (ReservationOp.step g) ReservationOp.NoEdgeAged s ops) :
    Kept g (Runs.run (ReservationOp.step g) ops s) := by
  induction ops generalizing s with
  | nil => exact h
  | cons op ops ih =>
    exact ih (h.step (hops op List.mem_cons_self) hnil.1)
      (fun o ho => hops o (List.mem_cons_of_mem _ ho)) hnil.2

theorem Kept.along {g : Grid} (hfit : g.FitsKey) {s : Reservations × MoveLedger}
    (h : Kept g s) {ops : List ReservationOp} (hops : ∀ op ∈ ops, op.WellFormed g)
    (hall : ∀ before after, ops = before ++ after →
      Describes (Runs.run (ReservationOp.step g) before s).1
        (Runs.run (ReservationOp.step g) before s).2) :
    Runs.Along (ReservationOp.step g) ReservationOp.NoEdgeAged s ops := by
  induction ops generalizing s with
  | nil => trivial
  | cons op ops ih =>
    have hnil : ReservationOp.NoEdgeAged s op := h.noEdgeAged hfit (hall [op] ops rfl)
    refine ⟨hnil, ih (h.step (hops op List.mem_cons_self) hnil)
      (fun o ho => hops o (List.mem_cons_of_mem _ ho)) ?_⟩
    intro before after hsplit
    exact hall (op :: before) after (by rw [hsplit, List.cons_append])

/-- **The table and the edge set stay in lock-step exactly as long as no edge is
recorded when the table is aged.** -/
theorem lockstep_iff (g : Grid) {ops : List ReservationOp} (hops : ∀ op ∈ ops, op.WellFormed g) :
    (Runs.Along (ReservationOp.step g) ReservationOp.NoEdgeAged (.empty, []) ops →
      Lockstep g ops) ∧
    (g.FitsKey → Lockstep g ops →
      Runs.Along (ReservationOp.step g) ReservationOp.NoEdgeAged (.empty, []) ops) := by
  constructor
  · rintro hnil before after rfl
    have hbefore := ((Runs.along_append _ _ _ _ _).mp hnil).1
    exact ((kept_empty g).run (fun o ho => hops o (List.mem_append_left _ ho)) hbefore).describes
  · intro hfit hlock
    exact (kept_empty g).along hfit hops hlock

/-- A path of one move, a tick and a commit that records an edge. -/
theorem lockstep_iff_single :
    let ops : List ReservationOp := [.commitReservation "AMR-1" [⟨1, 10⟩],
      .refreshGridOccupancy [("AMR-1", ⟨1, 10⟩)], .clearExpiredReservations,
      .commitReservation "AMR-1" [⟨2, 10⟩, ⟨3, 10⟩]]
    Lockstep ⟨20, 12⟩ ops :=
  (lockstep_iff ⟨20, 12⟩ (by decide)).1 (by
    simp only [Runs.along_cons, Runs.along_nil, ReservationOp.NoEdgeAged]
    decide)

/-- After one tick, the edge of a path of two moves is still dated for its second
tick, when its move has begun. -/
theorem not_lockstep :
    ¬ ∀ (g : Grid) (ops : List ReservationOp), (∀ op ∈ ops, op.WellFormed g) →
      Lockstep g ops := by
  intro h
  have hlock := h ⟨20, 12⟩ [.commitReservation "AMR-1" [⟨2, 10⟩, ⟨3, 10⟩],
    .refreshGridOccupancy [("AMR-1", ⟨2, 10⟩)]] (by decide) _ [] (List.append_nil _).symm
  have hkey := (hlock.edges (edgeKey ⟨2, 10⟩ ⟨3, 10⟩ 1)).mp (by decide)
  have hno : ¬ ∃ e ∈ MoveLedger.edges [⟨"AMR-1", some ⟨2, 10⟩, ⟨3, 10⟩, 0⟩],
      e.key = edgeKey ⟨2, 10⟩ ⟨3, 10⟩ 1 := by decide
  exact hno hkey

end MatrixFactory
