/-
# The batches of one iteration

What an iteration of `drainLoop` that nothing fails in writes of the three queues, and which records
the iterations to come bring into their tables when no order event comes any more.  The loop looks
at the order queue first and starts over when it is empty.
-/
import MatrixFactory.DrainLoop
import Mathlib.Data.List.Infix

namespace MatrixFactory

open Runs

namespace Database

/-! ## An iteration -/

/-- The thread alone, with nothing failing, until it is at the head of the loop. -/
inductive ToHead (b : Bool) : Database → Database → Prop
  | here {s : Database} (h : s.thread = .sleeping) : ToHead b s s
  | step {s s' : Database} (h : s.thread ≠ .sleeping) (hrest : ToHead b (s.drain b none) s') :
      ToHead b s s'

/-- A successful iteration of the loop. -/
def Iteration (b : Bool) (s s' : Database) : Prop := ToHead b (s.drain b none) s'

/-- The thread is at the head of the loop and goes on. -/
def AtHead (s : Database) : Prop := s.thread = .sleeping ∧ s.interrupted = false

/-- What an iteration takes from a queue. -/
def batch (t : Table) (s : Database) : List Entry := (s.queues t).take MAX_BATCH

/-- All that an iteration takes. -/
def batches (s : Database) : List Entry :=
  s.batch .orders ++ s.batch .qualities ++ s.batch .energies

/-- The first records of each queue, up to `MAX_BATCH` of them, have been written, and a
transaction that had been left open with them. -/
structure Flushed (s s' : Database) : Prop where
  queues : ∀ t, s'.queues t = (s.queues t).drop MAX_BATCH
  inserted : s'.conn.rows ++ s'.conn.transaction =
    s.conn.rows ++ s.conn.transaction ++ s.batches
  committed : s.batches ≠ [] → s'.conn.transaction = []

/-! ## What it does -/

/-- A batch is committed, with what the open transaction held. -/
theorem rows_write_none (batch : List Entry) (c : Connection) :
    (c.write batch none).rows = c.rows ++ c.transaction ++ batch ∧
      (c.write batch none).transaction = [] := by
  obtain ⟨autoCommit, transaction, rows⟩ := c
  cases autoCommit <;>
    simp [Connection.write, Connection.setAutoCommit, Connection.executeBatch, Connection.commit]

/-- A thread that is not at the head takes its step. -/
theorem ToHead.next {b : Bool} {s s' : Database} (h : ToHead b s s') (hs : s.thread ≠ .sleeping) :
    ToHead b (s.drain b none) s' := by
  cases h with
  | here h => exact absurd h hs
  | step _ hrest => exact hrest

/-- From the head the way is over. -/
theorem ToHead.eq {b : Bool} {s s' : Database} (h : ToHead b s s') (hs : s.thread = .sleeping) :
    s' = s := by
  cases h with
  | here _ => rfl
  | step hne _ => exact absurd hs hne

theorem ToHead.sleeping {b : Bool} {s s' : Database} (h : ToHead b s s') :
    s'.thread = .sleeping := by
  induction h with
  | here h => exact h
  | step _ _ ih => exact ih

/-- A thread that has left the loop does not come back. -/
theorem not_toHead_left {b i : Bool} {s s' : Database} (hs : s.thread = .left i) :
    ¬ToHead b s s' := by
  intro h
  induction h with
  | here h => exact nomatch h.symm.trans hs
  | step _ _ ih =>
    apply ih
    rw [drain, hs]
    exact hs

/-- What a step of the thread cannot change of the rest. -/
theorem ToHead.frame {b : Bool} {s s' : Database} (h : ToHead b s s') :
    s'.interrupted = s.interrupted ∧ s'.accepted = s.accepted := by
  induction h with
  | here _ => exact ⟨rfl, rfl⟩
  | step _ _ ih => exact ⟨ih.1.trans (drain_thrown _ _ _).2, ih.2.trans (drain_accepted _ _ _)⟩

/-- A batch of the queue of `t` has been written, if there was one. -/
structure Wrote (t : Table) (s s' : Database) : Prop where
  queues : s'.queues = Function.update s.queues t ((s.queues t).drop MAX_BATCH)
  conn : s'.conn = if s.batch t = [] then s.conn else s.conn.write (s.batch t) none

theorem batch_eq_nil {t : Table} {s : Database} : s.batch t = [] ↔ s.queues t = [] := by
  simp [batch, MAX_BATCH, List.take_eq_nil_iff]

/-- The drain of one queue and what follows it. -/
theorem toHead_poll {b : Bool} {t : Table} {s s' : Database} {k : Database → Database}
    (hdrain : s.drain b none = s.poll t k) (h : ToHead b (s.drain b none) s') :
    s.queues t = [] ∧ ToHead b (k s) s' ∨
      s.queues t ≠ [] ∧ ∃ s₁, Wrote t s s₁ ∧ ToHead b (s₁.after t) s' := by
  rw [hdrain, poll] at h
  by_cases hempty : s.queues t = []
  · left
    have hbatch : (s.queues t).take MAX_BATCH = [] := batch_eq_nil.mpr hempty
    simp only [hbatch, if_true] at h
    exact ⟨hempty, h⟩
  · right
    have hbatch : s.batch t ≠ [] := fun h => hempty (batch_eq_nil.mp h)
    have hbatch' : (s.queues t).take MAX_BATCH ≠ [] := hbatch
    simp only [hbatch', if_false] at h
    have hnext := h.next fun h => by cases h
    refine ⟨hempty, _, ⟨rfl, ?_⟩, hnext⟩
    exact (if_neg hbatch).symm

/-- Past the drain of a queue, whether there was a batch or not. -/
theorem toHead_polling {b : Bool} {t : Table} {s s' : Database} (hthread : s.thread = .polling t)
    (h : ToHead b s s') : ∃ s₁, Wrote t s s₁ ∧ ToHead b (s₁.after t) s' := by
  have hdrain : s.drain b none = s.poll t (after t) := by rw [drain, hthread]
  rcases toHead_poll hdrain (h.next (by rw [hthread]; exact fun h => by cases h)) with
    ⟨hempty, hrest⟩ | ⟨_, hrest⟩
  · refine ⟨s, ⟨?_, (if_pos (batch_eq_nil.mpr hempty)).symm⟩, hrest⟩
    rw [hempty, List.drop_nil, ← hempty, Function.update_eq_self]
  · exact hrest

/-- The check of the backpressure changes neither the queues nor the tables. -/
theorem toHead_pressure {b : Bool} {s s' : Database} (hthread : s.thread = .pressure)
    (h : ToHead b s s') :
    ∃ s₁, s₁.queues = s.queues ∧ s₁.conn = s.conn ∧ s₁.thread = .polling .qualities ∧
      ToHead b s₁ s' := by
  have hnext := h.next (by rw [hthread]; exact fun h => by cases h)
  rw [drain, hthread] at hnext
  simp only at hnext
  split at hnext
  · cases b with
    | true => exact absurd hnext (not_toHead_left rfl)
    | false => refine ⟨_, ?_, ?_, ?_, hnext⟩ <;> rfl
  · refine ⟨_, ?_, ?_, ?_, hnext⟩ <;> rfl

/-- With an empty order queue the iteration is over at once. -/
theorem iteration_of_empty {b : Bool} {s s' : Database} (hhead : s.AtHead)
    (hempty : s.queues .orders = []) : Iteration b s s' ↔ s' = s.again := by
  have hdrain : s.drain b none = s.again := by
    rw [drain, hhead.1]
    simp [hhead.2, poll, hempty]
  rw [Iteration, hdrain]
  constructor
  · exact fun h => h.eq rfl
  · rintro rfl
    exact .here rfl

theorem Wrote.batch_of_ne {t t' : Table} {s s' : Database} (h : Wrote t s s') (ht : t' ≠ t) :
    s'.batch t' = s.batch t' := by
  rw [batch, h.queues, Function.update_of_ne ht, batch]

theorem Wrote.inserted {t : Table} {s s' : Database} (h : Wrote t s s') :
    s'.conn.rows ++ s'.conn.transaction = s.conn.rows ++ s.conn.transaction ++ s.batch t ∧
      (s.conn.transaction = [] ∨ s.batch t ≠ [] → s'.conn.transaction = []) := by
  rw [h.conn]
  split_ifs with hbatch
  · simp [hbatch]
  · obtain ⟨hrows, htransaction⟩ := rows_write_none (s.batch t) s.conn
    simp [hrows, htransaction]

/-- **With an order in its queue an iteration writes a batch of each queue.** -/
theorem flushed_of_orders {b : Bool} {s s' : Database} (hhead : s.AtHead)
    (horders : s.queues .orders ≠ []) (h : Iteration b s s') : Flushed s s' := by
  have hdrain : s.drain b none = s.poll .orders again := by
    rw [drain, hhead.1]
    simp [hhead.2]
  obtain ⟨_, s₁, h₁, hrest⟩ := (toHead_poll hdrain h).resolve_left fun h => horders h.1
  obtain ⟨s₂, hqueues, hconn, hthread, hrest⟩ := toHead_pressure rfl hrest
  obtain ⟨s₃, h₃, hrest⟩ := toHead_polling hthread hrest
  obtain ⟨s₄, h₄, hrest⟩ := toHead_polling rfl hrest
  have hend := hrest.eq rfl
  subst hend
  have hq₃ : s₃.queues = Function.update s₁.queues .qualities
      ((s₁.queues .qualities).drop MAX_BATCH) := by
    rw [h₃.queues, hqueues]
    rfl
  have hq₄ : s₄.queues = Function.update s₃.queues .energies
      ((s₃.queues .energies).drop MAX_BATCH) := h₄.queues
  have hb₃ : s₂.batch .qualities = s.batch .qualities := by
    rw [batch, hqueues]
    exact h₁.batch_of_ne (by decide)
  have hb₄ : (s₃.after .qualities).batch .energies = s.batch .energies := by
    rw [batch, after_queues, h₃.queues, hqueues]
    exact h₁.batch_of_ne (by decide)
  have hi₁ := h₁.inserted
  have hi₃ := h₃.inserted
  have hi₄ := h₄.inserted
  rw [hconn] at hi₃
  rw [hb₃] at hi₃
  rw [hb₄, after_conn] at hi₄
  refine ⟨fun t => ?_, ?_, fun _ => ?_⟩
  · show s₄.queues t = _
    rw [hq₄, hq₃, h₁.queues]
    cases t with
    | orders => rfl
    | qualities => rfl
    | energies => rfl
  · show s₄.conn.rows ++ s₄.conn.transaction = _
    rw [hi₄.1, hi₃.1]
    show s₁.conn.rows ++ s₁.conn.transaction ++ _ ++ _ = _
    rw [hi₁.1, batches]
    simp only [List.append_assoc]
  · show s₄.conn.transaction = []
    have h1 := hi₁.2 (.inr fun h => horders (batch_eq_nil.mp h))
    exact hi₄.2 (.inl (hi₃.2 (.inl h1)))

/-- To start over writes nothing. -/
theorem flushed_again {s : Database} : Flushed s s.again ↔ ∀ t, s.queues t = [] := by
  constructor
  · intro h t
    have hdrop : s.queues t = (s.queues t).drop MAX_BATCH := h.queues t
    have hlength := congrArg List.length hdrop
    rw [List.length_drop, MAX_BATCH] at hlength
    exact List.length_eq_zero_iff.mp (by omega)
  · intro h
    have hbatch : ∀ t, s.batch t = [] := fun t => batch_eq_nil.mpr (h t)
    have hbatches : s.batches = [] := by simp [batches, hbatch]
    refine ⟨fun t => ?_, ?_, fun hne => absurd hbatches hne⟩
    · show s.queues t = _
      rw [h t, List.drop_nil]
    · rw [hbatches, List.append_nil]
      rfl

/-- An iteration writes its part of every queue iff there is an order, or nothing at all. -/
theorem flushed_iff {b : Bool} {s : Database} (hhead : s.AtHead) :
    (∀ s', Iteration b s s' → Flushed s s') ↔
      s.queues .orders ≠ [] ∨ ∀ t, s.queues t = [] := by
  by_cases hempty : s.queues .orders = []
  · rw [or_iff_right (not_not.mpr hempty)]
    simp only [iteration_of_empty hhead hempty, forall_eq]
    exact flushed_again
  · exact iff_of_true (fun s' h => flushed_of_orders hhead hempty h) (.inl hempty)

/-- The drain of one queue leads to the head if what follows it does. -/
theorem exists_toHead_poll {b : Bool} {t : Table} {s : Database} {k : Database → Database}
    (hdrain : s.drain b none = s.poll t k) (hk : ∃ s', ToHead b (k s) s')
    (hafter : ∀ s₁ : Database, ∃ s', ToHead b (s₁.after t) s') :
    ∃ s', ToHead b (s.drain b none) s' := by
  rw [hdrain, poll]
  split_ifs
  · exact hk
  · obtain ⟨s', hs'⟩ := hafter
      { s with
        queues := Function.update s.queues t ((s.queues t).drop MAX_BATCH)
        thread := .writing t ((s.queues t).take MAX_BATCH)
        conn := s.conn.write ((s.queues t).take MAX_BATCH) none }
    exact ⟨s', .step (fun h => by cases h) hs'⟩

/-- Where signals do not throw, there is an iteration from every state. -/
theorem exists_iteration {s : Database} (hhead : s.AtHead) : ∃ s', Iteration false s s' := by
  have henergies : ∀ s : Database, ∃ s', ToHead false (s.after .qualities) s' := by
    intro s
    obtain ⟨s', hs'⟩ := exists_toHead_poll (b := false) (s := s.after .qualities) rfl
      ⟨_, .here rfl⟩ fun _ => ⟨_, .here rfl⟩
    exact ⟨s', .step nofun hs'⟩
  have hqualities : ∀ s : Database, ∃ s', ToHead false (s.goto (.polling .qualities)) s' := by
    intro s
    obtain ⟨s', hs'⟩ := exists_toHead_poll (b := false) (s := s.goto (.polling .qualities)) rfl
      (henergies _) henergies
    exact ⟨s', .step nofun hs'⟩
  have hpressure : ∀ s : Database, ∃ s', ToHead false (s.after .orders) s' := by
    intro s
    by_cases hlow : (s.queues .orders).length ≤ BACKPRESSURE_LOW ∧ s.backpressureActive = true
    · obtain ⟨s', hs'⟩ := hqualities
        ({ s.after .orders with backpressureActive := false }.emit .pressureNormal)
      exact ⟨s', .step nofun (by rw [drain]; exact if_pos hlow ▸ hs')⟩
    · obtain ⟨s', hs'⟩ := hqualities (s.after .orders)
      exact ⟨s', .step nofun (by rw [drain]; exact if_neg hlow ▸ hs')⟩
  have hdrain : s.drain false none = s.poll .orders again := by
    rw [drain, hhead.1]
    simp [hhead.2]
  exact exists_toHead_poll hdrain ⟨_, .here rfl⟩ hpressure

/-! ## The iterations to come -/

/-- What happens besides the drain thread when no order event occurs and nobody interrupts it. -/
def NoOrder : DatabaseOp → Prop
  | .checkBackpressure | .recordStationQuality _ | .recordEnergyTelemetry _ => True
  | _ => False

/-- Iterations that succeed one after the other, with no order event in between. -/
def Rounds (b : Bool) (rounds : ℕ → Database) : Prop :=
  ∀ n, ∃ s ops, Iteration b (rounds n) s ∧ (∀ op ∈ ops, NoOrder op) ∧
    rounds (n + 1) = run (exec b) ops s

/-- Every record in a queue of the first state gets into its table. -/
def EventuallyWritten (rounds : ℕ → Database) : Prop :=
  ∀ t, ∀ e ∈ (rounds 0).queues t, ∃ n, e ∈ (rounds n).conn.rows

/-- How many batches the order queue makes. -/
def orderBatches (s : Database) : ℕ := ((s.queues .orders).length + (MAX_BATCH - 1)) / MAX_BATCH

/-- What stays of a state `s₀` after `n` iterations: the rest of its queues, with what has come
since behind it, and in the tables what has been taken from them. -/
structure Behind (s₀ : Database) (n : ℕ) (s : Database) : Prop where
  head : s.AtHead
  conserved : s.Conserved
  orders : s.queues .orders = (s₀.queues .orders).drop (MAX_BATCH * n)
  queues : ∀ t, (s₀.queues t).drop (MAX_BATCH * min n s₀.orderBatches) <+: s.queues t
  rows : ∀ t, ∀ e ∈ (s₀.queues t).take (MAX_BATCH * min n s₀.orderBatches), e ∈ s.conn.rows

/-- Records of the stations and of the telemetry come behind the others. -/
theorem Behind.exec {b : Bool} {s₀ s : Database} {n : ℕ} (h : Behind s₀ n s) {op : DatabaseOp}
    (hop : NoOrder op) : Behind s₀ n (s.exec b op) := by
  have hsame : ∀ s', s'.Conserved → s'.thread = s.thread → s'.interrupted = s.interrupted →
      s'.conn = s.conn → (∀ t, s.queues t <+: s'.queues t) →
      s'.queues .orders = s.queues .orders → Behind s₀ n s' :=
    fun s' hcons hthread hint hconn hqueues horders =>
      ⟨⟨hthread.trans h.head.1, hint.trans h.head.2⟩, hcons, horders.trans h.orders,
        fun t => (h.queues t).trans (hqueues t), fun t e he => hconn ▸ h.rows t e he⟩
  have hcons : (s.exec b op).Conserved := by
    apply h.conserved.exec
    cases op with
    | checkBackpressure => trivial
    | recordStationQuality r => trivial
    | recordEnergyTelemetry r => trivial
    | _ => exact hop.elim
  have haccept : ∀ (r : Record), r.table ≠ .orders → (s.accept r).Conserved →
      Behind s₀ n (s.accept r) := by
    intro r hr hcons
    refine hsame _ hcons rfl rfl rfl (fun t => ?_) (Function.update_of_ne hr.symm _ _)
    by_cases ht : t = r.table
    · subst ht
      simp [accept, enqueue]
    · simp [accept, enqueue, Function.update_of_ne ht]
  cases op with
  | checkBackpressure =>
    revert hcons
    rw [Database.exec, checkBackpressure]
    split_ifs
    · exact fun hcons => hsame _ hcons rfl rfl rfl (fun _ => List.prefix_rfl) rfl
    · exact fun hcons => hsame _ hcons rfl rfl rfl (fun _ => List.prefix_rfl) rfl
    · exact fun _ => h
  | recordStationQuality r =>
    revert hcons
    rw [Database.exec, recordStationQuality]
    split_ifs
    · exact fun _ => h
    · exact haccept _ fun h => by cases h
    · exact fun hcons => hsame _ hcons rfl rfl rfl (fun _ => List.prefix_rfl) rfl
  | recordEnergyTelemetry r =>
    revert hcons
    rw [Database.exec, recordEnergyTelemetry]
    split_ifs
    · exact haccept _ fun h => by cases h
    · exact fun hcons => hsame _ hcons rfl rfl rfl (fun _ => List.prefix_rfl) rfl
    · exact fun hcons => hsame _ hcons rfl rfl rfl (fun _ => List.prefix_rfl) rfl
  | _ => exact hop.elim

/-- What is written is taken from its queue. -/
theorem Flushed.conserved {s s' : Database} (h : Flushed s s') (hs : s.thread = .sleeping)
    (hs' : s'.thread = .sleeping) (haccepted : s'.accepted = s.accepted)
    (hcons : s.Conserved) : s'.Conserved := by
  intro i
  have hhands : s.hands = [] := by rw [hands, hs]; rfl
  have hhands' : s'.hands = [] := by rw [hands, hs']; rfl
  have hinserted := congrArg (count i) h.inserted
  simp only [batches, batch, count_append] at hinserted
  have horders := count_take_add_drop i MAX_BATCH (s.queues .orders)
  have hqualities := count_take_add_drop i MAX_BATCH (s.queues .qualities)
  have henergies := count_take_add_drop i MAX_BATCH (s.queues .energies)
  rw [haccepted, ← hcons i, total, total, hhands, hhands', h.queues, h.queues, h.queues,
    Connection.inserted, Connection.inserted]
  omega

/-- What an iteration leaves of the rest. -/
theorem Iteration.frame {b : Bool} {s s' : Database} (h : Iteration b s s') (hhead : s.AtHead) :
    s'.AtHead ∧ s'.accepted = s.accepted := by
  obtain ⟨hint, haccepted⟩ := ToHead.frame h
  refine ⟨⟨ToHead.sleeping h, hint.trans ?_⟩, haccepted.trans (drain_accepted _ _ _)⟩
  rw [(drain_thrown _ _ _).2]
  exact hhead.2

/-- There is an order as long as fewer iterations have been than it makes batches. -/
theorem Behind.orders_ne_nil {s₀ s : Database} {n : ℕ} (h : Behind s₀ n s) :
    s.queues .orders ≠ [] ↔ n < s₀.orderBatches := by
  rw [h.orders, Ne, List.drop_eq_nil_iff, orderBatches, MAX_BATCH]
  omega

/-- **One iteration more.** -/
theorem Behind.iteration {b : Bool} {s₀ s s' : Database} {n : ℕ} (h : Behind s₀ n s)
    (hiter : Iteration b s s') : Behind s₀ (n + 1) s' := by
  obtain ⟨hhead, haccepted⟩ := hiter.frame h.head
  by_cases hempty : s.queues .orders = []
  · -- nothing is taken any more
    have hlast : s₀.orderBatches ≤ n := not_lt.mp fun hlt => h.orders_ne_nil.mpr hlt hempty
    have hmin : min (n + 1) s₀.orderBatches = min n s₀.orderBatches := by omega
    obtain rfl := (iteration_of_empty h.head hempty).mp hiter
    refine ⟨hhead, fun i => ?_, ?_, fun t => hmin ▸ h.queues t, fun t => hmin ▸ h.rows t⟩
    · have hhands : s.hands = [] := by rw [hands, h.head.1]; rfl
      exact (total_goto i hhands rfl).trans (h.conserved i)
    · show s.queues .orders = _
      rw [hempty, eq_comm, List.drop_eq_nil_iff]
      have hle : (s₀.queues .orders).length ≤ MAX_BATCH * n := by
        rw [orderBatches, MAX_BATCH] at hlast
        rw [MAX_BATCH]
        omega
      exact hle.trans (Nat.mul_le_mul_left _ (Nat.le_succ n))
  · have hlt := h.orders_ne_nil.mp hempty
    have hmin : min n s₀.orderBatches = n := by omega
    have hmin' : min (n + 1) s₀.orderBatches = n + 1 := by omega
    have hflush := flushed_of_orders h.head hempty hiter
    have hbatches : s.batches ≠ [] := by
      have hbatch : s.batch .orders ≠ [] := fun hnil => hempty (batch_eq_nil.mp hnil)
      simp [batches, hbatch]
    have hrows : s'.conn.rows = s.conn.rows ++ s.conn.transaction ++ s.batches := by
      rw [← hflush.inserted, hflush.committed hbatches, List.append_nil]
    have hqueues := h.queues
    have hold := h.rows
    simp only [hmin] at hqueues hold
    refine ⟨hhead, hflush.conserved h.head.1 hhead.1 haccepted h.conserved, ?_, fun t => ?_,
      fun t e he => ?_⟩
    · rw [hflush.queues, h.orders, List.drop_drop, Nat.mul_succ]
    · rw [hmin', hflush.queues, Nat.mul_succ, ← List.drop_drop]
      exact List.IsPrefix.drop (hqueues t) MAX_BATCH
    · rw [hmin', Nat.mul_succ, List.take_add, List.mem_append] at he
      rw [hrows]
      rcases he with he | he
      · have hmem := hold t e he
        simp [hmem]
      · have hmem : e ∈ s.batch t := (List.IsPrefix.take (hqueues t) MAX_BATCH).subset he
        cases t with
        | orders => simp [batches, hmem]
        | qualities => simp [batches, hmem]
        | energies => simp [batches, hmem]

/-- After every round. -/
theorem behind_rounds {b : Bool} {rounds : ℕ → Database} (h : Rounds b rounds)
    (hhead : (rounds 0).AtHead) (hcons : (rounds 0).Conserved) (n : ℕ) :
    Behind (rounds 0) n (rounds n) := by
  induction n with
  | zero =>
    refine ⟨hhead, hcons, by simp, fun t => by simp, fun t e he => ?_⟩
    simp at he
  | succ n ih =>
    obtain ⟨s, ops, hiter, hops, hrounds⟩ := h n
    rw [hrounds]
    have hstep : ∀ s op, Behind (rounds 0) (n + 1) s → NoOrder op →
        Behind (rounds 0) (n + 1) (exec b op s) := fun s op hs hop => hs.exec hop
    exact run_invariant (C := fun _ op => NoOrder op) hstep (ih.iteration hiter)
      (along_of_forall fun _ op hop => hops op hop)

/-- Without order events the records of a queue all get into their table iff the order queue makes
as many batches as the longest queue. -/
theorem eventually_written_iff {b : Bool} {rounds : ℕ → Database} (h : Rounds b rounds)
    (hhead : (rounds 0).AtHead) (hcons : (rounds 0).Conserved) :
    EventuallyWritten rounds ↔
      ∀ t, ((rounds 0).queues t).length ≤ MAX_BATCH * (rounds 0).orderBatches := by
  constructor
  · intro hwritten t
    by_contra hlong
    -- the first record that no batch reaches
    have hlt : MAX_BATCH * (rounds 0).orderBatches < ((rounds 0).queues t).length := by omega
    obtain ⟨n, hn⟩ := hwritten t _ (List.getElem_mem hlt)
    have hbehind := behind_rounds h hhead hcons n
    have hmem : ((rounds 0).queues t)[MAX_BATCH * (rounds 0).orderBatches] ∈
        (rounds n).queues t := by
      apply (hbehind.queues t).subset
      rw [List.mem_drop_iff_getElem]
      have hmin : MAX_BATCH * min n (rounds 0).orderBatches ≤
          MAX_BATCH * (rounds 0).orderBatches := Nat.mul_le_mul_left _ (Nat.min_le_right _ _)
      refine ⟨MAX_BATCH * (rounds 0).orderBatches - MAX_BATCH * min n (rounds 0).orderBatches,
        by omega, ?_⟩
      congr 1
      omega
    have hpos : ∀ {e : Entry} {l : List Entry}, e ∈ l → 0 < count e.seq l := by
      intro e l he
      rw [count, List.countP_pos_iff]
      exact ⟨e, he, by simp⟩
    have hone := hbehind.conserved ((rounds 0).queues t)[MAX_BATCH * (rounds 0).orderBatches].seq
    have hq := hpos hmem
    have hr := hpos hn
    rw [total, Connection.inserted] at hone
    cases t with
    | orders => split at hone <;> omega
    | qualities => split at hone <;> omega
    | energies => split at hone <;> omega
  · intro hshort t e he
    refine ⟨(rounds 0).orderBatches, (behind_rounds h hhead hcons _).rows t e ?_⟩
    rw [Nat.min_self, List.take_of_length_le (hshort t)]
    exact he

/-- Where signals do not throw, there are rounds from every state. -/
theorem exists_rounds {s : Database} (hhead : s.AtHead) :
    ∃ rounds, rounds 0 = s ∧ Rounds false rounds := by
  have hnext : ∀ x : { s : Database // s.AtHead }, ∃ y : { s : Database // s.AtHead },
      Iteration false x.1 y.1 := by
    intro x
    obtain ⟨s', hs'⟩ := exists_iteration x.2
    exact ⟨⟨s', (hs'.frame x.2).1⟩, hs'⟩
  choose next hnext using hnext
  refine ⟨fun n => (next^[n] ⟨s, hhead⟩).1, rfl, fun n => ?_⟩
  refine ⟨_, [], hnext (next^[n] ⟨s, hhead⟩), fun op hop => (List.not_mem_nil hop).elim, ?_⟩
  exact congrArg Subtype.val (Function.iterate_succ_apply' next n ⟨s, hhead⟩)

/-- **An iteration writes its part of every queue iff there is an order in its queue, or nothing at
all; and in the iterations to come, without order events, every record that waits is written iff no
queue has more batches than that of the orders.** -/
theorem drain_batches (b : Bool) (s : Database) (hhead : s.AtHead) (hcons : s.Conserved) :
    ((∀ s', Iteration b s s' → Flushed s s') ↔
      s.queues .orders ≠ [] ∨ ∀ t, s.queues t = []) ∧
    ∀ rounds, rounds 0 = s → Rounds b rounds →
      (EventuallyWritten rounds ↔ ∀ t, (s.queues t).length ≤ MAX_BATCH * s.orderBatches) := by
  refine ⟨flushed_iff hhead, fun rounds h0 h => ?_⟩
  subst h0
  exact eventually_written_iff h hhead hcons

/-- An order event and a telemetry frame wait. -/
def twoWaiting : Database :=
  run (exec false) [DatabaseOp.recordEvent anOrder, .checkBackpressure,
    .recordEnergyTelemetry aFrame] start

theorem drain_batches_two :
    (∃ s', Iteration false twoWaiting s' ∧ Flushed twoWaiting s') ∧
      ∃ rounds, rounds 0 = twoWaiting ∧ Rounds false rounds ∧ EventuallyWritten rounds := by
  have hcons : twoWaiting.Conserved :=
    run_invariant (fun s op hs hop => hs.exec hop) start_conserved
      (show Along (exec false) Recovers start _ by decide)
  have hbatches := drain_batches false twoWaiting ⟨rfl, rfl⟩ hcons
  obtain ⟨s', hs'⟩ := exists_iteration (s := twoWaiting) ⟨rfl, rfl⟩
  obtain ⟨rounds, h0, hrounds⟩ := exists_rounds (s := twoWaiting) ⟨rfl, rfl⟩
  refine ⟨⟨s', hs', hbatches.1.mpr (.inl (by decide)) s' hs'⟩, rounds, h0, hrounds, ?_⟩
  exact (hbatches.2 rounds h0 hrounds).mpr fun t => by cases t <;> decide

/-- A telemetry frame that waits alone is not written. -/
theorem not_drain_batches : ¬∀ (b : Bool) (s : Database), s.AtHead → s.Conserved →
    (∀ s', Iteration b s s' → Flushed s s') ∧
      ∀ rounds, rounds 0 = s → Rounds b rounds → EventuallyWritten rounds := by
  intro hall
  have hcons : (run (exec false) [DatabaseOp.recordEnergyTelemetry aFrame] start).Conserved :=
    run_invariant (fun s op hs hop => hs.exec hop) start_conserved
      (show Along (exec false) Recovers start _ by decide)
  have hflush := (hall false _ ⟨rfl, rfl⟩ hcons).1 _ ((iteration_of_empty ⟨rfl, rfl⟩ rfl).mpr rfl)
  have hempty := flushed_again.mp hflush .energies
  exact absurd hempty (by decide)

end Database

end MatrixFactory
