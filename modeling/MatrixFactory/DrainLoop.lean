/-
# The write-behind queues of the database artifact

`DatabaseArtifact`: the three bounded queues with the operations that fill them
(`recordEvent`, `recordStationQuality`, `recordEnergyTelemetry`) and the thread that
drains them through one connection (`drainLoop`), step by step, so that the producers
come in between.  A step that talks to the database is told where it throws.
`exactly_once` says what keeps every accepted record in its table exactly once, and
`quiet_iff` when the thread and the tick loop are not hit by an exception of `signal`.
-/
import MatrixFactory.Lib.Runs
import Mathlib.Data.Rat.Defs
import Mathlib.Data.List.Count
import Mathlib.Tactic.Ring

namespace MatrixFactory

/-! ## The data -/

/-- The tables `Orders`, `StationQuality` and `EnergyTelemetry`, each with its queue. -/
inductive Table
  | orders
  | qualities
  | energies
  deriving DecidableEq, Repr

/-- `TelemetryRecord`. -/
structure TelemetryRecord where
  runId : ℤ
  orderId : String
  eventType : String
  simTime : ℚ
  deriving DecidableEq, Repr

/-- `QualityRecord`. -/
structure QualityRecord where
  runId : ℤ
  stackId : String
  stationId : String
  defect : Bool
  tProcS : ℚ
  tMeanS : ℚ
  simTime : ℚ
  deriving DecidableEq, Repr

/-- `EnergyRecord`. -/
structure EnergyRecord where
  runId : ℤ
  simTime : ℚ
  energyPriceEurMwh : ℚ
  compressorPowerKw : ℚ
  deriving DecidableEq, Repr

/-- A record of one of the three queues. -/
inductive Record
  | order (r : TelemetryRecord)
  | quality (r : QualityRecord)
  | energy (r : EnergyRecord)
  deriving DecidableEq, Repr

/-- The table a record belongs to. -/
def Record.table : Record → Table
  | .order _ => .orders
  | .quality _ => .qualities
  | .energy _ => .energies

/-- A record with its number among all records accepted, which the code does not see. -/
structure Entry where
  seq : ℕ
  record : Record
  deriving DecidableEq, Repr

/-- The signals of the artifact. -/
inductive Signal
  | writeDropped (what : String)
  | backpressure
  | batchCommitFailed (count : ℕ)
  | pressureNormal
  deriving DecidableEq, Repr

/-- Where a `SQLException` leaves the `try` block of a batch; in `executeBatch` after
`executed` statements. -/
inductive Failure
  | prepareStatement
  | setAutoCommitFalse
  | addBatch
  | executeBatch (executed : ℕ)
  | commit
  | setAutoCommitTrue
  | close
  deriving DecidableEq, Repr

/-- How many of the `n` statements of a batch are executed before the exception. -/
def Failure.executed (n : ℕ) : Failure → ℕ
  | .prepareStatement | .setAutoCommitFalse | .addBatch => 0
  | .executeBatch k => k
  | .commit | .setAutoCommitTrue | .close => n

/-- The connection: what its open transaction has inserted and what is committed.  The
table of a row is that of its record. -/
structure Connection where
  autoCommit : Bool
  transaction : List Entry
  rows : List Entry
  deriving DecidableEq, Repr

namespace Connection

/-- The statements of a batch are executed. -/
def executeBatch (batch : List Entry) (c : Connection) : Connection :=
  if c.autoCommit then { c with rows := c.rows ++ batch }
  else { c with transaction := c.transaction ++ batch }

/-- `commit`. -/
def commit (c : Connection) : Connection :=
  { c with transaction := [], rows := c.rows ++ c.transaction }

/-- `setAutoCommit`; leaving a transaction commits it. -/
def setAutoCommit (b : Bool) (c : Connection) : Connection :=
  if b = c.autoCommit then c else { c.commit with autoCommit := b }

/-- The `try` block of a batch, up to the exception. -/
def write (batch : List Entry) (failure : Option Failure) (c : Connection) : Connection :=
  match failure with
  | some .prepareStatement | some .setAutoCommitFalse => c
  | some .addBatch => c.setAutoCommit false
  | some (.executeBatch k) => (c.setAutoCommit false).executeBatch (batch.take k)
  | some .commit => (c.setAutoCommit false).executeBatch batch
  | some .setAutoCommitTrue => ((c.setAutoCommit false).executeBatch batch).commit
  | some .close | none => (((c.setAutoCommit false).executeBatch batch).commit).setAutoCommit true

end Connection

/-- Where the drain thread is in `drainLoop`. -/
inductive DrainThread
  /-- at the head of the loop -/
  | sleeping
  /-- before the drain of the queue of `table` -/
  | polling (table : Table)
  /-- before the `try` block of a batch -/
  | writing (table : Table) (batch : List Entry)
  /-- in the `catch` block of the order batch, `rest` not offered yet -/
  | restoring (rest : List Entry) (restored : ℕ)
  /-- before the hysteresis check -/
  | pressure
  /-- out of the loop, by an interruption or by an exception -/
  | left (interrupted : Bool)
  deriving DecidableEq, Repr

/-- The artifact.  `checking` says that `recordEvent` has offered its record and not yet
looked at the size of the queue; `accepted` counts the records accepted, `passes` the
times the thread has come back to the head of its loop, and `thrown` the exceptions out
of `recordEnergyTelemetry`. -/
structure Database where
  queues : Table → List Entry
  backpressureActive : Bool
  checking : Bool
  conn : Connection
  thread : DrainThread
  interrupted : Bool
  signals : List Signal
  accepted : ℕ
  passes : ℕ
  thrown : ℕ

namespace Database

def QUEUE_CAPACITY : ℕ := 300000
def MAX_BATCH : ℕ := 2000
def BACKPRESSURE_HIGH : ℕ := 300000
def BACKPRESSURE_LOW : ℕ := 3000

/-- After `init`. -/
def start : Database where
  queues _ := []
  backpressureActive := false
  checking := false
  conn := ⟨true, [], []⟩
  thread := .sleeping
  interrupted := false
  signals := []
  accepted := 0
  passes := 0
  thrown := 0

/-! ## The producers -/

/-- `ArrayBlockingQueue.offer` finds room. -/
def Room (t : Table) (s : Database) : Prop := (s.queues t).length < QUEUE_CAPACITY

instance (t : Table) (s : Database) : Decidable (s.Room t) :=
  inferInstanceAs (Decidable (_ < _))

/-- A queue with an entry at its end. -/
def enqueue (t : Table) (e : Entry) (s : Database) : Database :=
  { s with queues := Function.update s.queues t (s.queues t ++ [e]) }

/-- An accepted record. -/
def accept (r : Record) (s : Database) : Database :=
  { s.enqueue r.table ⟨s.accepted, r⟩ with accepted := s.accepted + 1 }

/-- A signal within an operation. -/
def emit (x : Signal) (s : Database) : Database := { s with signals := s.signals ++ [x] }

/-- `recordEvent`, up to the size check. -/
def recordEvent (r : TelemetryRecord) (s : Database) : Database :=
  if s.Room .orders then { s.accept (.order r) with checking := true }
  else s.emit (.writeDropped r.orderId)

/-- The size check of `recordEvent`. -/
def checkBackpressure (s : Database) : Database :=
  let s' := { s with checking := false }
  if BACKPRESSURE_HIGH ≤ (s.queues .orders).length ∧ s.backpressureActive = false then
    { s' with backpressureActive := true }.emit .backpressure
  else s'

/-- `recordStationQuality`, as far as the queue is concerned. -/
def recordStationQuality (r : QualityRecord) (s : Database) : Database :=
  if s.Room .qualities then s.accept (.quality r) else s.emit (.writeDropped r.stackId)

/-- `recordEnergyTelemetry`; it runs on the thread of the tick loop, outside any
operation, where `signal` throws or not. -/
def recordEnergyTelemetry (signalThrows : Bool) (r : EnergyRecord) (s : Database) : Database :=
  if s.Room .energies then s.accept (.energy r)
  else if signalThrows then { s with thrown := s.thrown + 1 }
  else s.emit (.writeDropped "energy_telemetry")

/-! ## The drain thread -/

/-- The thread goes on at `thread`. -/
def goto (thread : DrainThread) (s : Database) : Database := { s with thread := thread }

/-- The thread comes back to the head of the loop. -/
def again (s : Database) : Database := { s.goto .sleeping with passes := s.passes + 1 }

/-- What follows the part of `drainLoop` for one table. -/
def after : Table → Database → Database
  | .orders => goto .pressure
  | .qualities => goto (.polling .energies)
  | .energies => again

/-- A signal of the drain thread, which is not in an operation either; `k` is the rest. -/
def signal (signalThrows : Bool) (x : Signal) (k : Database → Database) (s : Database) :
    Database :=
  if signalThrows then s.goto (.left false) else k (s.emit x)

/-- The drain of one queue into a batch; `k` follows when it is empty. -/
def poll (t : Table) (k : Database → Database) (s : Database) : Database :=
  let batch := (s.queues t).take MAX_BATCH
  if batch = [] then k s
  else { s with
    queues := Function.update s.queues t ((s.queues t).drop MAX_BATCH)
    thread := .writing t batch }

/-- The `try` block of a batch and the `catch` that follows it. -/
def write (signalThrows : Bool) (t : Table) (batch : List Entry) (failure : Option Failure)
    (s : Database) : Database :=
  let s' := { s with conn := s.conn.write batch failure }
  match failure, t with
  | none, t => s'.after t
  | some _, .orders => s'.goto (.restoring batch 0)
  | some _, t => s'.signal signalThrows (.batchCommitFailed batch.length) (after t)

/-- One step of the drain thread. -/
def drain (signalThrows : Bool) (failure : Option Failure) (s : Database) : Database :=
  match s.thread with
  | .sleeping => if s.interrupted then s.goto (.left true) else s.poll .orders again
  | .polling t => s.poll t (after t)
  | .writing t batch => s.write signalThrows t batch failure
  | .restoring (e :: rest) restored =>
    if s.Room .orders then (s.enqueue .orders e).goto (.restoring rest (restored + 1))
    else s.goto (.restoring rest restored)
  | .restoring [] restored =>
    s.signal signalThrows (.batchCommitFailed restored) (after .orders)
  | .pressure =>
    if (s.queues .orders).length ≤ BACKPRESSURE_LOW ∧ s.backpressureActive = true then
      { s with backpressureActive := false }.signal signalThrows .pressureNormal
        (goto (.polling .qualities))
    else s.goto (.polling .qualities)
  | .left _ => s

end Database

/-- What can happen: an operation, a call of the tick loop, an interruption, a step of
the drain thread. -/
inductive DatabaseOp
  | recordEvent (r : TelemetryRecord)
  | checkBackpressure
  | recordStationQuality (r : QualityRecord)
  | recordEnergyTelemetry (r : EnergyRecord)
  | interrupt
  | drain (failure : Option Failure)
  deriving DecidableEq, Repr

namespace Database

/-- One step; an operation waits while `recordEvent` is under way. -/
def exec (signalThrows : Bool) (op : DatabaseOp) (s : Database) : Database :=
  match op with
  | .recordEvent r => if s.checking then s else s.recordEvent r
  | .checkBackpressure => if s.checking then s.checkBackpressure else s
  | .recordStationQuality r => if s.checking then s else s.recordStationQuality r
  | .recordEnergyTelemetry r => s.recordEnergyTelemetry signalThrows r
  | .interrupt => { s with interrupted := true }
  | .drain failure => s.drain signalThrows failure

/-! ## Where a record is -/

/-- How many entries of a list have the number `i`. -/
def count (i : ℕ) (l : List Entry) : ℕ := l.countP (·.seq = i)

@[simp] theorem count_nil (i : ℕ) : count i [] = 0 := rfl

@[simp] theorem count_append (i : ℕ) (l l' : List Entry) :
    count i (l ++ l') = count i l + count i l' := List.countP_append

@[simp] theorem count_cons (i : ℕ) (e : Entry) (l : List Entry) :
    count i (e :: l) = count i l + if e.seq = i then 1 else 0 := by
  simp [count, List.countP_cons]

theorem count_take_add_drop (i n : ℕ) (l : List Entry) :
    count i (l.take n) + count i (l.drop n) = count i l := by
  rw [← count_append, List.take_append_drop]

/-- Filtering by the number keeps or drops all entries with that number. -/
theorem count_filter (i : ℕ) (p : ℕ → Prop) [DecidablePred p] (l : List Entry) :
    count i (l.filter fun e => p e.seq) = if p i then count i l else 0 := by
  induction l with
  | nil => simp
  | cons e l ih =>
    by_cases he : e.seq = i
    · subst he
      by_cases hp : p e.seq <;> simp_all
    · by_cases hp : p e.seq <;> simp_all

end Database

namespace Connection

/-- How often the record with the number `i` has been inserted. -/
def inserted (i : ℕ) (c : Connection) : ℕ :=
  Database.count i c.transaction + Database.count i c.rows

@[simp] theorem inserted_commit (i : ℕ) (c : Connection) : c.commit.inserted i = c.inserted i := by
  simp only [commit, inserted, Database.count_nil, Database.count_append]
  omega

@[simp] theorem inserted_setAutoCommit (i : ℕ) (b : Bool) (c : Connection) :
    (c.setAutoCommit b).inserted i = c.inserted i := by
  unfold setAutoCommit
  split
  · rfl
  · exact inserted_commit i c

@[simp] theorem inserted_executeBatch (i : ℕ) (batch : List Entry) (c : Connection) :
    (c.executeBatch batch).inserted i = c.inserted i + Database.count i batch := by
  unfold executeBatch inserted
  split <;> simp only [Database.count_append] <;> omega

/-- How many statements of a batch of `n` an attempt executes. -/
def executed (n : ℕ) (failure : Option Failure) : ℕ := failure.elim n (Failure.executed n)

/-- What an attempt inserts. -/
theorem inserted_write (i : ℕ) (batch : List Entry) (failure : Option Failure) (c : Connection) :
    (c.write batch failure).inserted i
      = c.inserted i + Database.count i (batch.take (executed batch.length failure)) := by
  match failure with
  | none | some .prepareStatement | some .setAutoCommitFalse | some .addBatch
  | some (.executeBatch k) | some .commit | some .setAutoCommitTrue | some .close =>
    simp [write, executed, Failure.executed]

end Connection

namespace Database

/-- The entries the drain thread holds: the batch it is about to write, or those of the
failed batch that are neither inserted nor offered yet. -/
def held (c : Connection) : DrainThread → List Entry
  | .writing _ batch => batch
  | .restoring rest _ => rest.filter fun e => c.inserted e.seq = 0
  | _ => []

/-- The entries in hand. -/
def hands (s : Database) : List Entry := held s.conn s.thread

/-- How often the record with the number `i` is in a queue, inserted or in hand. -/
def total (i : ℕ) (s : Database) : ℕ :=
  count i (s.queues .orders) + count i (s.queues .qualities) + count i (s.queues .energies) +
    count i s.hands + s.conn.inserted i

/-- **The invariant**: every accepted record is in exactly one place. -/
def Conserved (s : Database) : Prop := ∀ i, s.total i = if i < s.accepted then 1 else 0

/-- The condition on one step.  A batch of quality or energy records fails only when all
of its statements are executed, and an order record of a failed batch finds room in its
queue iff it is not inserted already. -/
def Recovers (s : Database) : DatabaseOp → Prop
  | .drain failure =>
    match s.thread with
    | .writing t batch =>
      t = .orders ∨ batch.length ≤ Connection.executed batch.length failure
    | .restoring (e :: _) _ => s.Room .orders ↔ s.conn.inserted e.seq = 0
    | _ => True
  | _ => True

instance (s : Database) (op : DatabaseOp) : Decidable (s.Recovers op) := by
  unfold Recovers
  split
  · split <;> infer_instance
  · infer_instance

/-- What an operation or the tick loop can change: one queue has a record more. -/
structure Offered (s s' : Database) : Prop where
  thread : s'.thread = s.thread
  conn : s'.conn = s.conn
  passes : s'.passes = s.passes
  queues : s'.queues = s.queues ∧ s'.accepted = s.accepted ∨
    ∃ r : Record, s'.queues = (s.accept r).queues ∧ s'.accepted = s.accepted + 1

/-- **What a step can do**: a producer offers a record, or the drain thread moves. -/
theorem exec_cases (b : Bool) (op : DatabaseOp) (s : Database) :
    (∃ failure, op = .drain failure) ∨ Offered s (s.exec b op) := by
  have hsame : ∀ {s' : Database}, s'.thread = s.thread → s'.conn = s.conn →
      s'.passes = s.passes → s'.queues = s.queues → s'.accepted = s.accepted → Offered s s' :=
    fun h1 h2 h3 h4 h5 => ⟨h1, h2, h3, Or.inl ⟨h4, h5⟩⟩
  have hrefl : Offered s s := hsame rfl rfl rfl rfl rfl
  cases op with
  | recordEvent r =>
    right
    rw [exec, recordEvent]
    split
    · exact hrefl
    · split
      · exact ⟨rfl, rfl, rfl, Or.inr ⟨.order r, rfl, rfl⟩⟩
      · exact hsame rfl rfl rfl rfl rfl
  | checkBackpressure =>
    right
    rw [exec, checkBackpressure]
    split
    · simp only
      split <;> exact hsame rfl rfl rfl rfl rfl
    · exact hrefl
  | recordStationQuality r =>
    right
    rw [exec, recordStationQuality]
    split
    · exact hrefl
    · split
      · exact ⟨rfl, rfl, rfl, Or.inr ⟨.quality r, rfl, rfl⟩⟩
      · exact hsame rfl rfl rfl rfl rfl
  | recordEnergyTelemetry r =>
    right
    rw [exec, recordEnergyTelemetry]
    split
    · exact ⟨rfl, rfl, rfl, Or.inr ⟨.energy r, rfl, rfl⟩⟩
    · split <;> exact hsame rfl rfl rfl rfl rfl
  | interrupt => exact Or.inr (hsame rfl rfl rfl rfl rfl)
  | drain failure => exact Or.inl ⟨failure, rfl⟩

/-! ## One step keeps every record in one place -/

variable {s : Database} (i : ℕ)

theorem total_enqueue (t : Table) (e : Entry) (s : Database) :
    (s.enqueue t e).total i = s.total i + if e.seq = i then 1 else 0 := by
  have hh : (s.enqueue t e).hands = s.hands := rfl
  have hc : (s.enqueue t e).conn = s.conn := rfl
  rw [total, total, hh, hc]
  cases t <;> simp [enqueue, Function.update] <;> omega

@[simp] theorem after_queues (t : Table) (s : Database) : (s.after t).queues = s.queues := by
  cases t <;> rfl

@[simp] theorem after_conn (t : Table) (s : Database) : (s.after t).conn = s.conn := by
  cases t <;> rfl

@[simp] theorem after_accepted (t : Table) (s : Database) : (s.after t).accepted = s.accepted := by
  cases t <;> rfl

theorem total_emit (x : Signal) (s : Database) : (s.emit x).total i = s.total i := rfl

/-- A thread with nothing in hand goes on with nothing in hand. -/
theorem total_goto {thread : DrainThread} (h : s.hands = []) (h' : held s.conn thread = []) :
    (s.goto thread).total i = s.total i := by
  have hh : (s.goto thread).hands = held s.conn thread := rfl
  rw [total, total, hh, h, h']
  rfl

theorem total_after (t : Table) (h : s.hands = []) : (s.after t).total i = s.total i := by
  cases t with
  | orders => exact total_goto i h rfl
  | qualities => exact total_goto i h rfl
  | energies => exact total_goto i h rfl

theorem total_signal {b : Bool} {x : Signal} {k : Database → Database} (h : s.hands = [])
    (hk : (k (s.emit x)).total i = (s.emit x).total i) :
    (s.signal b x k).total i = s.total i := by
  cases b with
  | true => exact total_goto i h rfl
  | false => exact hk

/-- A drained batch is in the thread's hands. -/
theorem total_poll {t : Table} {k : Database → Database} (h : s.hands = [])
    (hk : (k s).total i = s.total i) : (s.poll t k).total i = s.total i := by
  unfold poll
  simp only
  split
  · exact hk
  · have hh : ({ s with
        queues := Function.update s.queues t ((s.queues t).drop MAX_BATCH)
        thread := DrainThread.writing t ((s.queues t).take MAX_BATCH) } : Database).hands
        = (s.queues t).take MAX_BATCH := rfl
    have hsplit := count_take_add_drop i MAX_BATCH (s.queues t)
    rw [total, total, hh, h]
    cases t <;> simp [Function.update] <;> omega

/-- A batch is inserted, or thrown back into the thread's hands; nothing is in both
places and nothing is lost. -/
theorem total_write {b : Bool} {t : Table} {batch : List Entry} {failure : Option Failure}
    (hthread : s.thread = .writing t batch) (hone : s.total i ≤ 1)
    (hC : t = .orders ∨ batch.length ≤ Connection.executed batch.length failure) :
    (s.write b t batch failure).total i = s.total i := by
  have hhands : s.hands = batch := by rw [hands, hthread, held]
  -- what the attempt has inserted
  have hins := Connection.inserted_write i batch failure s.conn
  have hle := count_take_add_drop i (Connection.executed batch.length failure) batch
  have hfull : batch.length ≤ Connection.executed batch.length failure →
      ∀ s' : Database, s'.queues = s.queues → s'.conn = s.conn.write batch failure →
        s'.hands = [] → s'.total i = s.total i := by
    intro hall s' hq hc hh
    rw [List.take_of_length_le hall] at hins
    rw [total, total, hq, hc, hh, hhands, hins]
    simp only [count_nil]
    omega
  unfold write
  match failure, t, hC with
  | none, t, _ =>
    exact hfull le_rfl _ (by simp) (by simp) (by cases t <;> rfl)
  | some f, .orders, _ =>
    -- an entry stays in hand iff the attempt has not inserted it
    have hh : (({ s with conn := s.conn.write batch (some f) } : Database).goto
        (.restoring batch 0)).hands
        = batch.filter fun e => (s.conn.write batch (some f)).inserted e.seq = 0 := rfl
    have hcount := count_filter i (fun n => (s.conn.write batch (some f)).inserted n = 0) batch
    rw [total, hhands] at hone
    simp only
    rw [total, total, hh, hcount, hhands]
    simp only [goto]
    rw [hins]
    split <;> omega
  | some f, .qualities, hC =>
    have hall := hC.resolve_left (by decide)
    cases b with
    | true => exact hfull hall _ rfl rfl rfl
    | false => exact hfull hall _ rfl rfl rfl
  | some f, .energies, hC =>
    have hall := hC.resolve_left (by decide)
    cases b with
    | true => exact hfull hall _ rfl rfl rfl
    | false => exact hfull hall _ rfl rfl rfl

theorem total_drain {b : Bool} {failure : Option Failure} (hone : s.total i ≤ 1)
    (hC : s.Recovers (.drain failure)) : (s.drain b failure).total i = s.total i := by
  unfold drain
  cases hthread : s.thread with
  | sleeping =>
    have hh : s.hands = [] := by rw [hands, hthread]; rfl
    simp only
    split
    · exact total_goto i hh rfl
    · exact total_poll i hh (total_goto i hh rfl)
  | polling t =>
    have hh : s.hands = [] := by rw [hands, hthread]; rfl
    exact total_poll i hh (total_after i t hh)
  | writing t batch =>
    rw [Recovers, hthread] at hC
    exact total_write i hthread hone hC
  | restoring rest restored =>
    cases rest with
    | nil =>
      have hh : s.hands = [] := by rw [hands, hthread, held, List.filter_nil]
      exact total_signal i hh (total_after i .orders hh)
    | cons e rest =>
      have hh : s.hands = (e :: rest).filter fun e => s.conn.inserted e.seq = 0 := by
        rw [hands, hthread, held]
      have hrest : ∀ s' : Database, s'.conn = s.conn → ∀ n,
          (s'.goto (.restoring rest n)).total i + count i s'.hands
            = s'.total i + count i (rest.filter fun e => s.conn.inserted e.seq = 0) := by
        intro s' hc n
        have hh' : (s'.goto (.restoring rest n)).hands
            = rest.filter fun e => s'.conn.inserted e.seq = 0 := rfl
        rw [total, total, hh', hc]
        simp only [goto, hc]
        omega
      rw [Recovers, hthread] at hC
      simp only
      by_cases hroom : s.Room .orders
      · rw [if_pos hroom]
        have hnew := hC.1 hroom
        have h1 := hrest (s.enqueue .orders e) rfl (restored + 1)
        rw [total_enqueue, show (s.enqueue .orders e).hands = s.hands from rfl, hh,
          List.filter_cons_of_pos (by simpa using hnew), count_cons] at h1
        omega
      · rw [if_neg hroom]
        have hold : s.conn.inserted e.seq ≠ 0 := fun h => hroom (hC.2 h)
        have h1 := hrest s rfl restored
        rw [hh, List.filter_cons_of_neg (by simpa using hold)] at h1
        omega
  | pressure =>
    have hh : s.hands = [] := by rw [hands, hthread]; rfl
    simp only
    split
    · have hh' : ({ s with backpressureActive := false } : Database).hands = [] := hh
      have hsame : ({ s with backpressureActive := false } : Database).total i = s.total i := rfl
      rw [← hthread, ← hsame]
      exact total_signal i hh' (total_goto i (s := emit _ _) hh' rfl)
    · exact total_goto i hh rfl
  | left interrupted => rfl

@[simp] theorem drain_accepted (b : Bool) (failure : Option Failure) (s : Database) :
    (s.drain b failure).accepted = s.accepted := by
  have hsig : ∀ (s' : Database) (x : Signal) (k : Database → Database),
      (∀ s, (k s).accepted = s.accepted) → (s'.signal b x k).accepted = s'.accepted := by
    intro s' x k hk
    cases b with
    | true => rfl
    | false => exact hk _
  have hpoll : ∀ (t : Table) (k : Database → Database), (∀ s, (k s).accepted = s.accepted) →
      (s.poll t k).accepted = s.accepted := by
    intro t k hk
    unfold poll
    simp only
    split
    · exact hk s
    · rfl
  unfold drain
  split
  · split
    · rfl
    · exact hpoll _ _ fun _ => rfl
  · exact hpoll _ _ (after_accepted _)
  · unfold write
    split
    · exact after_accepted _ _
    · rfl
    · exact hsig _ _ _ (after_accepted _)
  · split <;> rfl
  · exact hsig _ _ _ (after_accepted _)
  · split
    · exact hsig _ _ _ fun _ => rfl
    · rfl
  · rfl

theorem total_accept (r : Record) (s : Database) :
    (s.accept r).total i = s.total i + if s.accepted = i then 1 else 0 :=
  total_enqueue i r.table ⟨s.accepted, r⟩ s

/-- **The step lemma.** -/
theorem Conserved.exec {b : Bool} {op : DatabaseOp} (h : s.Conserved) (hC : s.Recovers op) :
    (s.exec b op).Conserved := by
  intro i
  have hi := h i
  rcases exec_cases b op s with ⟨failure, rfl⟩ | hoff
  · rw [Database.exec, drain_accepted, total_drain i (by rw [hi]; split <;> omega) hC, hi]
  · have hhands : (s.exec b op).hands = s.hands := by rw [hands, hands, hoff.conn, hoff.thread]
    rcases hoff.queues with ⟨hq, ha⟩ | ⟨r, hq, ha⟩
    · rw [total, hq, hoff.conn, hhands, ha]
      exact hi
    · have hnew := total_accept i r s
      rw [total, hq, hoff.conn, hhands, ha]
      change (s.accept r).total i = _
      rw [hnew, hi]
      split_ifs <;> omega

theorem start_conserved : start.Conserved := fun i => by simp [total, start, hands, held,
  Connection.inserted]

/-! ## Successful passes bring every record into its table -/

/-- A step of a successful pass: nothing throws, and at the head of the loop there is an
order record to drain. -/
def Succeeds (s : Database) : DatabaseOp → Prop
  | .drain failure => failure = none ∧ (s.thread = .sleeping → s.queues .orders ≠ [])
  | _ => True

instance (s : Database) (op : DatabaseOp) : Decidable (s.Succeeds op) := by
  unfold Succeeds
  split <;> infer_instance

/-- How far the thread is in a pass. -/
def phase : DrainThread → ℕ
  | .sleeping | .left _ => 0
  | .writing .orders _ | .restoring _ _ => 1
  | .pressure | .polling .orders | .polling .qualities => 2
  | .writing .qualities _ => 3
  | .polling .energies => 4
  | .writing .energies _ => 5

/-- How far the thread is when it drains a queue. -/
def pollPhase : Table → ℕ
  | .orders => 0
  | .qualities => 2
  | .energies => 4

/-- The pass that will next be in phase `p`: this one or the one after it. -/
def wait (p : ℕ) (thread : DrainThread) : ℕ := if phase thread ≤ p then 1 else 2

/-- The entry is in the open transaction, in hand or in a queue, and `m` more passes
bring it into its table. -/
def Pending (e : Entry) (m : ℕ) (s : Database) : Prop :=
  (e ∈ s.conn.transaction ∧ wait 1 s.thread ≤ m) ∨
    ((∃ t batch, s.thread = .writing t batch ∧ e ∈ batch) ∧ 1 ≤ m) ∨
      ∃ t l l', s.queues t = l ++ e :: l' ∧ l.length / MAX_BATCH + wait (pollPhase t) s.thread ≤ m

theorem wait_pos (p : ℕ) (thread : DrainThread) : 1 ≤ wait p thread := by
  unfold wait
  split <;> omega

theorem wait_le_two (p : ℕ) (thread : DrainThread) : wait p thread ≤ 2 := by
  unfold wait
  split <;> omega

theorem wait_le {p : ℕ} {thread thread' : DrainThread}
    (h : phase thread ≤ p → phase thread' ≤ p) : wait p thread' ≤ wait p thread := by
  unfold wait
  by_cases hp : phase thread' ≤ p
  · rw [if_pos hp]
    split <;> omega
  · rw [if_neg hp, if_neg (mt h hp)]

theorem wait_sleeping (p : ℕ) : wait p .sleeping = 1 := if_pos (Nat.zero_le p)

/-- Coming back to the head of the loop saves one pass for what had to wait for it. -/
theorem wait_sleeping_lt (p : ℕ) (thread : DrainThread) (h : p < phase thread) :
    wait p .sleeping + 1 = wait p thread := by
  rw [wait_sleeping, wait, if_neg (not_le.2 h)]

theorem Pending.pos {e : Entry} {m : ℕ} {s : Database} (h : s.Pending e m) : 1 ≤ m := by
  rcases h with ⟨-, h⟩ | ⟨-, h⟩ | ⟨t, l, l', -, h⟩
  · exact le_trans (wait_pos _ _) h
  · exact h
  · exact le_trans (wait_pos _ _) (le_trans (Nat.le_add_left _ _) h)

/-- A thread that is not writing moves on without coming to wait longer for anything. -/
theorem Pending.goto {e : Entry} {m m' : ℕ} {s s' : Database} (h : s.Pending e m)
    (hc : s'.conn = s.conn) (hq : s'.queues = s.queues)
    (hthread : ∀ t batch, s.thread ≠ .writing t batch)
    (h1 : wait 1 s'.thread + m ≤ wait 1 s.thread + m')
    (ht : ∀ t, s.queues t ≠ [] →
      wait (pollPhase t) s'.thread + m ≤ wait (pollPhase t) s.thread + m') :
    s'.Pending e m' := by
  rcases h with ⟨hmem, h⟩ | ⟨⟨t, batch, hwriting, -⟩, -⟩ | ⟨t, l, l', hl, h⟩
  · left
    rw [hc]
    exact ⟨hmem, by omega⟩
  · exact absurd hwriting (hthread t batch)
  · right; right
    have := ht t (by rw [hl]; exact List.append_ne_nil_of_right_ne_nil _ (List.cons_ne_nil _ _))
    exact ⟨t, l, l', by rw [hq, hl], by omega⟩

/-- More entries at the end of a queue do not matter. -/
theorem Pending.enqueue {e : Entry} {m : ℕ} {s : Database} (h : s.Pending e m) (t' : Table)
    (e' : Entry) : (s.enqueue t' e').Pending e m := by
  rcases h with h | h | ⟨t, l, l', hl, h⟩
  · exact Or.inl h
  · exact Or.inr (Or.inl h)
  · right; right
    by_cases ht : t = t'
    · subst ht
      refine ⟨t, l, l' ++ [e'], ?_, h⟩
      simp [Database.enqueue, hl]
    · refine ⟨t, l, l', ?_, h⟩
      simp [Database.enqueue, Function.update, ht, hl]

theorem mem_write_none {e : Entry} {batch : List Entry} {c : Connection}
    (h : e ∈ c.rows ∨ e ∈ c.transaction ∨ e ∈ batch) : e ∈ (c.write batch none).rows := by
  have hcommit : ∀ c : Connection, e ∈ c.rows ∨ e ∈ c.transaction → e ∈ c.commit.rows := by
    intro c hc
    simpa [Connection.commit] using hc
  have hauto : ∀ (b : Bool) (c : Connection), e ∈ c.rows ∨ e ∈ c.transaction →
      e ∈ (c.setAutoCommit b).rows ∨ e ∈ (c.setAutoCommit b).transaction := by
    intro b c hc
    unfold Connection.setAutoCommit
    split
    · exact hc
    · exact Or.inl (hcommit c hc)
  have hauto' : ∀ (b : Bool) (c : Connection), e ∈ c.rows → e ∈ (c.setAutoCommit b).rows := by
    intro b c hc
    unfold Connection.setAutoCommit
    split
    · exact hc
    · exact hcommit c (Or.inl hc)
  have hexec : ∀ c : Connection, (e ∈ c.rows ∨ e ∈ c.transaction) ∨ e ∈ batch →
      e ∈ (c.executeBatch batch).rows ∨ e ∈ (c.executeBatch batch).transaction := by
    intro c hc
    unfold Connection.executeBatch
    split <;> simp only [List.mem_append] <;> tauto
  rw [Connection.write]
  exact hauto' _ _ (hcommit _ (hexec _ (by
    rcases h with h | h | h
    · exact Or.inl (hauto _ _ (Or.inl h))
    · exact Or.inl (hauto _ _ (Or.inr h))
    · exact Or.inr h)))

/-- A pending entry that a drain takes or leaves in the queue. -/
theorem Pending.poll {e : Entry} {m : ℕ} {s : Database} {t : Table} {k : Database → Database}
    (h : s.Pending e m) (hthread : s.thread = .polling t ∨ s.thread = .sleeping ∧ t = .orders)
    (hne : s.queues t ≠ []) : (s.poll t k).Pending e m ∧ (s.poll t k).passes = s.passes := by
  have hbatch : (s.queues t).take MAX_BATCH ≠ [] := by
    simpa [MAX_BATCH, List.take_eq_nil_iff] using hne
  have hMAX : MAX_BATCH = 2000 := rfl
  unfold Database.poll
  simp only
  rw [if_neg hbatch]
  refine ⟨?_, rfl⟩
  -- the thread gets behind the drain of this queue only
  have hwait : ∀ p, p ≠ pollPhase t →
      wait p (.writing t ((s.queues t).take MAX_BATCH)) ≤ wait p s.thread := by
    intro p hp
    apply wait_le
    rcases hthread with hth | ⟨hth, ht⟩
    · rw [hth]
      cases t <;> simp only [phase, pollPhase] at hp ⊢ <;> omega
    · rw [hth, ht]
      rw [ht] at hp
      simp only [phase, pollPhase] at hp ⊢
      omega
  rcases h with ⟨hmem, h⟩ | ⟨⟨t', batch, hwriting, -⟩, -⟩ | ⟨t', l, l', hl, h⟩
  · left
    refine ⟨hmem, le_trans (hwait 1 ?_) h⟩
    cases t <;> decide
  · rcases hthread with hth | ⟨hth, -⟩ <;> rw [hth] at hwriting <;> cases hwriting
  · by_cases ht : t' = t
    · subst ht
      rw [hMAX] at h
      by_cases hlen : l.length < 2000
      · right; left
        refine ⟨⟨t', _, rfl, ?_⟩, le_trans (wait_pos _ _) (le_trans (Nat.le_add_left _ _) h)⟩
        rw [hl, hMAX, List.take_append, List.take_of_length_le (by omega),
          show 2000 - l.length = (1999 - l.length) + 1 from by omega, List.take_succ_cons]
        simp
      · right; right
        refine ⟨t', l.drop 2000, l', ?_, ?_⟩
        · simp only [Function.update_self, hl, hMAX]
          rw [List.drop_append_of_le_length (by omega)]
        · have hw := wait_le_two (pollPhase t') (.writing t' ((s.queues t').take MAX_BATCH))
          have hw' := wait_pos (pollPhase t') s.thread
          rw [List.length_drop, hMAX]
          show (l.length - 2000) / 2000 +
            wait (pollPhase t') (.writing t' ((s.queues t').take MAX_BATCH)) ≤ m
          omega
    · right; right
      refine ⟨t', l, l', ?_, le_trans (Nat.add_le_add_left (hwait _ ?_) _) h⟩
      · simp only [Function.update_of_ne ht, hl]
      · cases t <;> cases t' <;> first | decide | exact absurd rfl ht

/-- A thread with nothing in hand that gets no further behind keeps an entry pending. -/
theorem Pending.step {e : Entry} {m : ℕ} {s s' : Database} (h : s.Pending e m)
    (hc : s'.conn = s.conn) (hq : s'.queues = s.queues) (hp : s'.passes = s.passes)
    (hthread : ∀ t batch, s.thread ≠ .writing t batch)
    (h1 : phase s.thread ≤ 1 → phase s'.thread ≤ 1)
    (ht : ∀ t, s.queues t ≠ [] → phase s.thread ≤ pollPhase t → phase s'.thread ≤ pollPhase t) :
    ∃ m', s'.Pending e m' ∧ s'.passes + m' ≤ s.passes + m :=
  ⟨m, h.goto hc hq hthread (Nat.add_le_add_right (wait_le h1) m)
    fun t hne => Nat.add_le_add_right (wait_le (ht t hne)) m, by rw [hp]⟩

/-- **The progress lemma.**  A step of a successful pass brings a pending entry into its
table or keeps it pending, for one pass less when a pass ends. -/
theorem pending_drain {b : Bool} {e : Entry} {m : ℕ} {s : Database} (h : s.Pending e m)
    (hrest : ∀ rest n, s.thread ≠ .restoring rest n)
    (hne : s.thread = .sleeping → s.queues .orders ≠ []) :
    e ∈ (s.drain b none).conn.rows ∨
      ∃ m', (s.drain b none).Pending e m' ∧ (s.drain b none).passes + m' ≤ s.passes + m := by
  unfold drain
  cases hthread : s.thread with
  | sleeping =>
    have hnw : ∀ t batch, s.thread ≠ .writing t batch := by rw [hthread]; simp
    right
    simp only
    split
    · exact h.step rfl rfl rfl hnw (fun _ => Nat.zero_le _) fun _ _ _ => Nat.zero_le _
    · obtain ⟨hpoll, hpasses⟩ := h.poll (k := again) (Or.inr ⟨hthread, rfl⟩) (hne hthread)
      exact ⟨m, hpoll, by rw [hpasses]⟩
  | polling t =>
    have hnw : ∀ t batch, s.thread ≠ .writing t batch := by rw [hthread]; simp
    right
    by_cases hempty : s.queues t = []
    · simp only [Database.poll, hempty, List.take_nil, if_true]
      have hother : ∀ t', s.queues t' ≠ [] → t' ≠ t := by
        rintro t' ht' rfl
        exact ht' hempty
      cases t with
      | orders =>
        exact h.step rfl rfl rfl hnw (by rw [hthread]; exact id)
          fun t' _ => by rw [hthread]; exact id
      | qualities =>
        refine h.step rfl rfl rfl hnw (by rw [hthread]; simp [phase]) fun t' ht' => ?_
        have := hother t' ht'
        rw [hthread]
        cases t' with
        | orders => simp [phase, pollPhase]
        | qualities => exact absurd rfl this
        | energies => intro _; exact le_rfl
      | energies =>
        have hpos := h.pos
        refine ⟨m - 1, h.goto rfl rfl hnw ?_ fun t' ht' => ?_, ?_⟩
        · have := wait_sleeping_lt 1 s.thread (by rw [hthread]; decide)
          show wait 1 .sleeping + m ≤ wait 1 s.thread + (m - 1)
          omega
        · have := wait_sleeping_lt (pollPhase t') s.thread (by
            rw [hthread]
            have := hother t' ht'
            cases t' <;> first | decide | exact absurd rfl this)
          show wait (pollPhase t') .sleeping + m ≤ wait (pollPhase t') s.thread + (m - 1)
          omega
        · show s.passes + 1 + (m - 1) ≤ s.passes + m
          omega
    · obtain ⟨hpoll, hpasses⟩ := h.poll (k := after t) (Or.inl hthread) hempty
      exact ⟨m, hpoll, by rw [hpasses]⟩
  | writing t batch =>
    simp only [Database.write]
    rcases h with ⟨hmem, -⟩ | ⟨⟨t', batch', hwriting, hmem⟩, -⟩ | ⟨t', l, l', hl, hm⟩
    · left
      rw [after_conn]
      exact mem_write_none (Or.inr (Or.inl hmem))
    · left
      rw [hthread] at hwriting
      cases hwriting
      rw [after_conn]
      exact mem_write_none (Or.inr (Or.inr hmem))
    · right
      rw [hthread] at hm
      cases t with
      | orders =>
        refine ⟨m, Or.inr (Or.inr ⟨t', l, l', hl,
          le_trans (Nat.add_le_add_left (wait_le ?_) _) hm⟩), le_rfl⟩
        cases t' <;> simp [phase, pollPhase, after, goto]
      | qualities =>
        refine ⟨m, Or.inr (Or.inr ⟨t', l, l', hl,
          le_trans (Nat.add_le_add_left (wait_le ?_) _) hm⟩), le_rfl⟩
        cases t' <;> simp [phase, pollPhase, after, goto]
      | energies =>
        have hlt := wait_sleeping_lt (pollPhase t') (.writing .energies batch)
          (by cases t' <;> simp [phase, pollPhase])
        have hpos := le_trans (wait_pos _ _) (le_trans (Nat.le_add_left _ _) hm)
        refine ⟨m - 1, Or.inr (Or.inr ⟨t', l, l', hl, ?_⟩), ?_⟩
        · show l.length / MAX_BATCH + wait (pollPhase t') .sleeping ≤ m - 1
          rw [← hlt, ← Nat.add_assoc] at hm
          exact Nat.le_sub_one_of_lt hm
        · show s.passes + 1 + (m - 1) ≤ s.passes + m
          omega
  | restoring rest n => exact absurd hthread (hrest rest n)
  | pressure =>
    have hnw : ∀ t batch, s.thread ≠ .writing t batch := by rw [hthread]; simp
    right
    simp only
    split
    · cases b with
      | true =>
        exact h.step rfl rfl rfl hnw (fun _ => Nat.zero_le _) fun _ _ _ => Nat.zero_le _
      | false =>
        exact h.step rfl rfl rfl hnw (by rw [hthread]; exact id)
          fun _ _ => by rw [hthread]; exact id
    · exact h.step rfl rfl rfl hnw (by rw [hthread]; exact id) fun _ _ => by rw [hthread]; exact id
  | left interrupted => exact Or.inr ⟨m, h, le_rfl⟩

theorem pending_exec {b : Bool} {op : DatabaseOp} {e : Entry} {m : ℕ} {s : Database}
    (h : s.Pending e m) (hrest : ∀ rest n, s.thread ≠ .restoring rest n) (hC : s.Succeeds op) :
    e ∈ (s.exec b op).conn.rows ∨
      ∃ m', (s.exec b op).Pending e m' ∧ (s.exec b op).passes + m' ≤ s.passes + m := by
  rcases exec_cases b op s with ⟨failure, rfl⟩ | hoff
  · obtain ⟨rfl, hne⟩ := hC
    exact pending_drain h hrest hne
  · refine Or.inr ⟨m, ?_, by rw [hoff.passes]⟩
    rcases hoff.queues with ⟨hq, -⟩ | ⟨r, hq, -⟩
    · rw [Pending, hoff.conn, hoff.thread, hq]
      exact h
    · rw [Pending, hoff.conn, hoff.thread, hq]
      exact h.enqueue r.table ⟨s.accepted, r⟩

/-- A row that is in its table stays there. -/
theorem mem_rows_drain {b : Bool} {e : Entry} {s : Database} (h : e ∈ s.conn.rows) :
    e ∈ (s.drain b none).conn.rows := by
  have hpoll : ∀ (t : Table) (k : Database → Database), (∀ s, (k s).conn = s.conn) →
      (s.poll t k).conn = s.conn := by
    intro t k hk
    unfold poll
    simp only
    split
    · exact hk s
    · rfl
  unfold drain
  split
  · split
    · exact h
    · rw [hpoll _ again fun _ => rfl]
      exact h
  · rw [hpoll _ _ (after_conn _)]
    exact h
  · simp only [write, after_conn]
    exact mem_write_none (Or.inl h)
  · split <;> exact h
  · cases b with
    | true => exact h
    | false => exact h
  · split
    · cases b with
      | true => exact h
      | false => exact h
    · exact h
  · exact h

theorem mem_rows_exec {b : Bool} {op : DatabaseOp} {e : Entry} {s : Database}
    (h : e ∈ s.conn.rows) (hC : s.Succeeds op) : e ∈ (s.exec b op).conn.rows := by
  rcases exec_cases b op s with ⟨failure, rfl⟩ | hoff
  · obtain ⟨rfl, -⟩ := hC
    exact mem_rows_drain h
  · rw [hoff.conn]
    exact h

/-- A successful pass never gets into the `catch` block of the order batch. -/
theorem not_restoring_exec {b : Bool} {op : DatabaseOp} {s : Database}
    (h : ∀ rest n, s.thread ≠ .restoring rest n) (hC : s.Succeeds op) :
    ∀ rest n, (s.exec b op).thread ≠ .restoring rest n := by
  intro rest n hr
  rcases exec_cases b op s with ⟨failure, rfl⟩ | hoff
  · obtain ⟨rfl, -⟩ := hC
    have hafter : ∀ (t : Table) (s : Database), (s.after t).thread ≠ .restoring rest n := by
      intro t s
      cases t <;> exact nofun
    rw [Database.exec, drain] at hr
    cases hthread : s.thread with
    | sleeping =>
      simp only [hthread, Database.poll] at hr
      split at hr
      · exact absurd hr nofun
      · split at hr <;> exact absurd hr nofun
    | polling t =>
      simp only [hthread, Database.poll] at hr
      split at hr
      · exact hafter t s hr
      · exact absurd hr nofun
    | writing t batch =>
      simp only [hthread, write] at hr
      exact hafter t _ hr
    | restoring rest' m => exact h rest' m hthread
    | pressure =>
      simp only [hthread] at hr
      split at hr
      · cases b <;> exact absurd hr nofun
      · exact absurd hr nofun
    | left interrupted =>
      simp only [hthread] at hr
      exact absurd hr nofun
  · exact h rest n (hoff.thread.symm.trans hr)

/-- Enough successful passes bring a pending entry into its table. -/
theorem mem_rows_run {b : Bool} {ops : List DatabaseOp} {e : Entry} {m : ℕ} {s : Database}
    (h : e ∈ s.conn.rows ∨ s.Pending e m) (hrest : ∀ rest n, s.thread ≠ .restoring rest n)
    (hC : Runs.Along (exec b) (fun s op => s.Succeeds op) s ops)
    (hm : s.passes + m ≤ (Runs.run (exec b) ops s).passes) :
    e ∈ (Runs.run (exec b) ops s).conn.rows := by
  have hinv := Runs.run_invariant
    (I := fun s' => (∀ rest n, s'.thread ≠ .restoring rest n) ∧ (e ∈ s'.conn.rows ∨
      ∃ m', s'.Pending e m' ∧ s'.passes + m' ≤ s.passes + m))
    (fun s' op hI hop => ?_) ⟨hrest, h.imp_right fun hp => ⟨m, hp, le_rfl⟩⟩ hC
  · rcases hinv.2 with hrows | ⟨m', hp, hle⟩
    · exact hrows
    · have := hp.pos
      omega
  · refine ⟨not_restoring_exec hI.1 hop, ?_⟩
    rcases hI.2 with hrows | ⟨m', hp, hle⟩
    · exact Or.inl (mem_rows_exec hrows hop)
    · rcases pending_exec (b := b) hp hI.1 hop with hrows | ⟨m'', hp', hle'⟩
      · exact Or.inl hrows
      · exact Or.inr ⟨m'', hp', by omega⟩

/-- At the head of the loop an accepted record is in its table, or `m` passes bring it
there as soon as they are enough for the longest queue. -/
theorem pending_of_conserved {s : Database} (h : s.Conserved) (hthread : s.thread = .sleeping)
    {m : ℕ} (hm : ∀ t, (s.queues t).length / MAX_BATCH + 1 ≤ m) {i : ℕ} (hi : i < s.accepted) :
    ∃ e : Entry, e.seq = i ∧ (e ∈ s.conn.rows ∨ s.Pending e m) := by
  have htotal := h i
  have hhands : s.hands = [] := by rw [hands, hthread]; rfl
  rw [if_pos hi, total, hhands, count_nil, Connection.inserted] at htotal
  have hmem : ∀ l : List Entry, 0 < count i l → ∃ e ∈ l, e.seq = i := by
    intro l hl
    simpa [count, List.countP_pos_iff] using hl
  have hqueue : ∀ t, 0 < count i (s.queues t) → ∃ e : Entry, e.seq = i ∧ s.Pending e m := by
    intro t ht
    obtain ⟨e, he, hseq⟩ := hmem _ ht
    obtain ⟨l, l', hl⟩ := List.append_of_mem he
    refine ⟨e, hseq, Or.inr (Or.inr ⟨t, l, l', hl, ?_⟩)⟩
    have hlen : l.length ≤ (s.queues t).length := by rw [hl]; simp
    rw [hthread, wait_sleeping]
    exact le_trans (Nat.add_le_add_right (Nat.div_le_div_right hlen) 1) (hm t)
  by_cases hrows : 0 < count i s.conn.rows
  · obtain ⟨e, he, hseq⟩ := hmem _ hrows
    exact ⟨e, hseq, Or.inl he⟩
  by_cases htrans : 0 < count i s.conn.transaction
  · obtain ⟨e, he, hseq⟩ := hmem _ htrans
    refine ⟨e, hseq, Or.inr (Or.inl ⟨he, ?_⟩)⟩
    rw [hthread, wait_sleeping]
    exact le_trans (Nat.le_add_left 1 _) (hm .orders)
  have : 0 < count i (s.queues .orders) ∨ 0 < count i (s.queues .qualities) ∨
      0 < count i (s.queues .energies) := by omega
  rcases this with h' | h' | h'
  · obtain ⟨e, hseq, hp⟩ := hqueue _ h'
    exact ⟨e, hseq, Or.inr hp⟩
  · obtain ⟨e, hseq, hp⟩ := hqueue _ h'
    exact ⟨e, hseq, Or.inr hp⟩
  · obtain ⟨e, hseq, hp⟩ := hqueue _ h'
    exact ⟨e, hseq, Or.inr hp⟩

/-- **What keeps records exactly once.**  In every run whose steps all meet `Recovers`,
whatever else throws, each accepted record is in exactly one place; and after any such
run that is back at the head of the loop, each accepted record is exactly once in its
table as soon as enough passes have succeeded. -/
theorem exactly_once (b : Bool) (ops ops' : List DatabaseOp)
    (hrec : Runs.Along (exec b) Recovers start (ops ++ ops'))
    (hhead : (Runs.run (exec b) ops start).thread = .sleeping)
    (hsucc : Runs.Along (exec b) Succeeds (Runs.run (exec b) ops start) ops')
    (hpasses : ∀ t, (Runs.run (exec b) ops start).passes +
      (((Runs.run (exec b) ops start).queues t).length / MAX_BATCH + 1)
        ≤ (Runs.run (exec b) (ops ++ ops') start).passes) :
    (Runs.run (exec b) (ops ++ ops') start).Conserved ∧
      ∀ i < (Runs.run (exec b) ops start).accepted,
        count i (Runs.run (exec b) (ops ++ ops') start).conn.rows = 1 := by
  have hstep : ∀ s op, Conserved s → Recovers s op → (exec b op s).Conserved :=
    fun s op hs hop => hs.exec hop
  have hend := Runs.run_invariant hstep start_conserved hrec
  have hmid := Runs.run_invariant hstep start_conserved
    ((Runs.along_append _ _ _ _ _).1 hrec).1
  refine ⟨hend, fun i hi => ?_⟩
  rw [Runs.run_append] at hend hpasses ⊢
  set s := Runs.run (exec b) ops start
  obtain ⟨e, hseq, he⟩ := pending_of_conserved hmid hhead
    (m := (Runs.run (exec b) ops' s).passes - s.passes)
    (fun t => by have := hpasses t; omega) hi
  have hrows := mem_rows_run he (by rw [hhead]; exact fun _ _ => nofun) hsucc
    (by have := le_trans (Nat.le_add_right _ _) (hpasses .orders); omega)
  -- it is there, and nowhere twice
  have hone := hend i
  have hpos : 0 < count i (Runs.run (exec b) ops' s).conn.rows := by
    rw [count, List.countP_pos_iff]
    exact ⟨e, hrows, by simpa using hseq⟩
  rw [total, Connection.inserted] at hone
  split at hone <;> omega

/-- The start event of an order. -/
def anOrder : TelemetryRecord := ⟨0, "ORD-1", "START", 0⟩

/-- A defect-free stack of a station. -/
def aStack : QualityRecord := ⟨0, "ORD-1", "S1", false, 5, 5, 5⟩

/-- A telemetry frame. -/
def aFrame : EnergyRecord := ⟨0, 1, 40, 12⟩

/-- One order event whose first batch fails at `prepare` is written once, and so is the
telemetry frame after it. -/
theorem exactly_once_two :
    let ops : List DatabaseOp := [.recordEvent anOrder, .checkBackpressure,
      .recordEnergyTelemetry aFrame, .drain none, .drain (some .prepareStatement), .drain none,
      .drain none, .drain none, .drain none, .drain none, .drain none]
    let ops' : List DatabaseOp := [.drain none, .drain none, .drain none, .drain none, .drain none]
    (Runs.run (exec false) (ops ++ ops') start).Conserved ∧
      ∀ i < (Runs.run (exec false) ops start).accepted,
        count i (Runs.run (exec false) (ops ++ ops') start).conn.rows = 1 :=
  exactly_once false _ _ (by decide) (by decide) (by decide) (by intro t; cases t <;> decide)

/-- With an empty order queue the thread comes back to the head of the loop at once. -/
theorem drain_idle (b : Bool) (n : ℕ) : ∀ s : Database, s.thread = .sleeping →
    s.interrupted = false → s.queues .orders = [] →
      Runs.run (exec b) (List.replicate n (.drain none)) s = { s with passes := s.passes + n } := by
  induction n with
  | zero => intro s _ _ _; rfl
  | succ n ih =>
    intro s hthread hint hempty
    have hone : s.exec b (.drain none) = { s with passes := s.passes + 1 } := by
      rw [exec, drain, hthread]
      simp only [hint, poll, hempty, List.take_nil, again, goto, if_true, Bool.false_eq_true,
        if_false, ← hthread]
    rw [List.replicate_succ, Runs.run_cons, hone,
      ih { s with passes := s.passes + 1 } hthread hint hempty]
    simp only [Nat.add_assoc, Nat.add_comm 1 n]

/-- The order event whose `commit` throws is put back into the queue while its row stays
in the open transaction, and the next pass writes it again; the stack whose batch fails
at `prepare` is nowhere any more; and without order events the telemetry frame stays in
its queue over any number of passes in which nothing throws. -/
theorem not_exactly_once :
    let twice := Runs.run (exec false) [.recordEvent anOrder, .checkBackpressure, .drain none,
      .drain (some .commit), .drain none, .drain none, .drain none, .drain none, .drain none,
      .drain none, .drain none] start
    let lost := Runs.run (exec false) [.recordEvent anOrder, .checkBackpressure,
      .recordStationQuality aStack, .drain none, .drain none, .drain none, .drain none,
      .drain (some .prepareStatement), .drain none] start
    let waiting := fun n => Runs.run (exec false)
      (.recordEnergyTelemetry aFrame :: List.replicate n (.drain none)) start
    count 0 twice.conn.rows = 2 ∧ (lost.accepted = 2 ∧ lost.total 1 = 0) ∧
      ∀ n, (waiting n).accepted = 1 ∧ (waiting n).passes = n ∧
        count 0 (waiting n).conn.rows = 0 := by
  refine ⟨by decide, by decide, fun n => ?_⟩
  simp only [Runs.run_cons]
  rw [drain_idle false n _ rfl rfl rfl]
  exact ⟨rfl, Nat.zero_add n, rfl⟩

/-! ## Signals outside an operation -/

/-- The drain thread has left its loop only on an interruption, and no call of
`recordEnergyTelemetry` has thrown. -/
def Survives (s : Database) : Prop :=
  (∀ i, s.thread = .left i → i = true ∧ s.interrupted = true) ∧ s.thrown = 0

/-- A step that raises no signal outside an operation: the energy queue has room for the
tick loop's record; and the drain thread writes its quality or energy batch without an
exception, is not in the `catch` block of an order batch with all records offered, and
does not find backpressure to clear. -/
def Quiet (s : Database) : DatabaseOp → Prop
  | .recordEnergyTelemetry _ => s.Room .energies
  | .drain failure =>
    match s.thread with
    | .writing t _ => t = .orders ∨ failure = none
    | .restoring [] _ => False
    | .pressure =>
      ¬ ((s.queues .orders).length ≤ BACKPRESSURE_LOW ∧ s.backpressureActive = true)
    | _ => True
  | _ => True

instance (s : Database) (op : DatabaseOp) : Decidable (s.Quiet op) := by
  unfold Quiet
  split
  · infer_instance
  · split <;> infer_instance
  · infer_instance

/-- The drain thread dies, or the tick loop gets an exception. -/
def Broken (s : Database) : Prop := s.thread = .left false ∨ s.thrown ≠ 0

theorem drain_thrown (b : Bool) (failure : Option Failure) (s : Database) :
    (s.drain b failure).thrown = s.thrown ∧ (s.drain b failure).interrupted = s.interrupted := by
  have hafter : ∀ (t : Table) (s : Database),
      (s.after t).thrown = s.thrown ∧ (s.after t).interrupted = s.interrupted := by
    intro t s
    cases t <;> exact ⟨rfl, rfl⟩
  have hsig : ∀ (s' : Database) (x : Signal) (k : Database → Database),
      (∀ s, (k s).thrown = s.thrown ∧ (k s).interrupted = s.interrupted) →
      (s'.signal b x k).thrown = s'.thrown ∧ (s'.signal b x k).interrupted = s'.interrupted := by
    intro s' x k hk
    cases b with
    | true => exact ⟨rfl, rfl⟩
    | false => exact hk _
  have hpoll : ∀ (t : Table) (k : Database → Database),
      (∀ s, (k s).thrown = s.thrown ∧ (k s).interrupted = s.interrupted) →
      (s.poll t k).thrown = s.thrown ∧ (s.poll t k).interrupted = s.interrupted := by
    intro t k hk
    unfold poll
    simp only
    split
    · exact hk s
    · exact ⟨rfl, rfl⟩
  unfold drain
  split
  · split
    · exact ⟨rfl, rfl⟩
    · exact hpoll _ again fun _ => ⟨rfl, rfl⟩
  · exact hpoll _ _ (hafter _)
  · unfold write
    split
    · exact hafter _ _
    · exact ⟨rfl, rfl⟩
    · exact hsig _ _ _ (hafter _)
  · split <;> exact ⟨rfl, rfl⟩
  · exact hsig _ _ _ (hafter _)
  · split
    · exact hsig _ _ (goto _) fun _ => ⟨rfl, rfl⟩
    · exact ⟨rfl, rfl⟩
  · exact ⟨rfl, rfl⟩

/-- The drain thread is at its end after a step iff it was, or was interrupted at the head
of its loop, or has raised a signal. -/
theorem drain_left_iff (failure : Option Failure) (s : Database) (h : ∀ i, s.thread ≠ .left i)
    (i : Bool) : (s.drain true failure).thread = .left i ↔
      (i = true ∧ s.thread = .sleeping ∧ s.interrupted = true) ∨
        (i = false ∧ ¬ s.Quiet (.drain failure)) := by
  have hafter : ∀ (t : Table) (s : Database), (s.after t).thread ≠ .left i := by
    intro t s
    cases t <;> exact nofun
  have hbad : DrainThread.left false = .left i ↔ i = false := by
    constructor
    · rintro ⟨⟩
      rfl
    · rintro rfl
      rfl
  rw [drain, Quiet]
  cases hthread : s.thread with
  | sleeping =>
    by_cases hint : s.interrupted = true
    · simp only [hint, if_true, goto]
      cases i <;> simp
    · simp only [hint, if_false, Database.poll, Bool.false_eq_true]
      split <;> simp [again, goto]
  | polling t =>
    simp only [Database.poll]
    split
    · simp [hafter]
    · simp
  | writing t batch =>
    cases failure with
    | none => simp [write, hafter]
    | some f =>
      cases t with
      | orders => simp [write, goto]
      | qualities => simp [write, signal, goto, hbad]
      | energies => simp [write, signal, goto, hbad]
  | restoring rest n =>
    cases rest with
    | nil => simp [signal, goto, hbad]
    | cons e rest =>
      simp only
      split <;> simp [goto]
  | pressure =>
    simp only
    split
    · simp_all [signal, goto]
    · simp_all [goto]
  | left j => exact absurd hthread (h j)

theorem Broken.not_survives {s : Database} (h : s.Broken) : ¬ s.Survives := by
  rintro ⟨hthread, hthrown⟩
  rcases h with h | h
  · exact absurd (hthread false h).1 Bool.false_ne_true
  · exact h hthrown

/-- A producer leaves the flags of the thread; only a full energy queue makes it throw. -/
theorem exec_producer {op : DatabaseOp} (hop : ∀ failure, op ≠ .drain failure) (s : Database) :
    (s.exec true op).thread = s.thread ∧
      (s.interrupted = true → (s.exec true op).interrupted = true) ∧
        (s.exec true op).thrown = s.thrown + if s.Quiet op then 0 else 1 := by
  cases op with
  | recordEvent r =>
    rw [if_pos (show s.Quiet (.recordEvent r) from trivial), exec, recordEvent]
    split
    · exact ⟨rfl, id, rfl⟩
    · split <;> exact ⟨rfl, id, rfl⟩
  | checkBackpressure =>
    rw [if_pos (show s.Quiet .checkBackpressure from trivial), exec, checkBackpressure]
    simp only
    split <;> (try split) <;> exact ⟨rfl, id, rfl⟩
  | recordStationQuality r =>
    rw [if_pos (show s.Quiet (.recordStationQuality r) from trivial), exec, recordStationQuality]
    split
    · exact ⟨rfl, id, rfl⟩
    · split <;> exact ⟨rfl, id, rfl⟩
  | recordEnergyTelemetry r =>
    rw [exec, recordEnergyTelemetry]
    by_cases hroom : s.Room .energies
    · rw [if_pos hroom]
      exact ⟨rfl, id, by rw [if_pos (show s.Quiet (.recordEnergyTelemetry r) from hroom)]; rfl⟩
    · rw [if_neg hroom]
      exact ⟨rfl, id, by rw [if_neg (show ¬ s.Quiet (.recordEnergyTelemetry r) from hroom)]; rfl⟩
  | interrupt =>
    refine ⟨rfl, fun _ => rfl, ?_⟩
    rw [if_pos (show s.Quiet .interrupt from trivial)]
    rfl
  | drain failure => exact absurd rfl (hop failure)

/-- A broken artifact stays broken. -/
theorem Broken.exec {s : Database} (h : s.Broken) (op : DatabaseOp) : (s.exec true op).Broken := by
  by_cases hop : ∃ failure, op = .drain failure
  · obtain ⟨failure, rfl⟩ := hop
    rcases h with h | h
    · left
      rw [Database.exec, drain, h]
      exact h
    · right
      rw [Database.exec, (drain_thrown true failure s).1]
      exact h
  · obtain ⟨hthread, -, hthrown⟩ := exec_producer (fun f hf => hop ⟨f, hf⟩) s
    rcases h with h | h
    · exact Or.inl (hthread.trans h)
    · right
      rw [hthrown]
      omega

/-- **The step lemma.**  A quiet step keeps everything going, any other one breaks it. -/
theorem Survives.exec {s : Database} (h : s.Survives) (op : DatabaseOp) :
    (s.Quiet op → (s.exec true op).Survives) ∧ (¬ s.Quiet op → (s.exec true op).Broken) := by
  by_cases hop : ∃ failure, op = .drain failure
  · obtain ⟨failure, rfl⟩ := hop
    obtain ⟨hthrown, hint⟩ := drain_thrown true failure s
    by_cases hleft : ∃ i, s.thread = .left i
    · obtain ⟨i, hi⟩ := hleft
      have hsame : s.exec true (.drain failure) = s := by rw [Database.exec, drain, hi]
      have hquiet : s.Quiet (.drain failure) := by rw [Quiet, hi]; trivial
      rw [hsame]
      exact ⟨fun _ => h, fun hq => absurd hquiet hq⟩
    · have hiff := drain_left_iff failure s fun i hi => hleft ⟨i, hi⟩
      constructor
      · intro hq
        refine ⟨fun i hi => ?_, hthrown.trans h.2⟩
        rcases (hiff i).1 hi with ⟨rfl, -, hflag⟩ | ⟨-, hnq⟩
        · exact ⟨rfl, hint.trans hflag⟩
        · exact absurd hq hnq
      · intro hq
        exact Or.inl ((hiff false).2 (Or.inr ⟨rfl, hq⟩))
  · obtain ⟨hthread, hint, hthrown⟩ := exec_producer (fun f hf => hop ⟨f, hf⟩) s
    constructor
    · intro hq
      refine ⟨fun i hi => ?_, ?_⟩
      · rw [hthread] at hi
        exact (h.1 i hi).imp_right hint
      · rw [hthrown, if_pos hq, h.2]
    · intro hq
      right
      rw [hthrown, if_neg hq]
      exact Nat.succ_ne_zero _

/-- **When signals outside an operation are harmless.**  From every state at the head of
the loop, whatever the queues, the backpressure flag and the connection hold: the drain
thread leaves its loop only on an interruption and no call of `recordEnergyTelemetry`
throws iff every step of the run is quiet. -/
theorem quiet_iff (s : Database) (ops : List DatabaseOp) :
    (Runs.run (exec true) ops { s with thread := .sleeping, thrown := 0 }).Survives ↔
      Runs.Along (exec true) Quiet { s with thread := .sleeping, thrown := 0 } ops := by
  have hgen : ∀ (ops : List DatabaseOp) (s : Database), s.Survives →
      ((Runs.run (exec true) ops s).Survives ↔ Runs.Along (exec true) Quiet s ops) := by
    intro ops
    induction ops with
    | nil => exact fun s hs => ⟨fun _ => trivial, fun _ => hs⟩
    | cons op ops ih =>
      intro s hs
      rw [Runs.run_cons, Runs.along_cons]
      by_cases hq : s.Quiet op
      · rw [ih _ ((hs.exec op).1 hq)]
        exact ⟨fun h => ⟨hq, h⟩, And.right⟩
      · -- a broken artifact is broken at the end of the run
        have hend := Runs.run_invariant (I := Broken) (C := fun _ _ => True)
          (fun s op hb _ => hb.exec op) ((hs.exec op).2 hq)
          (Runs.along_of_forall fun _ _ _ => trivial : Runs.Along (exec true) _ _ ops)
        exact ⟨fun h => absurd h hend.not_survives, fun h => absurd h.1 hq⟩
  exact hgen ops _ ⟨fun i => nofun, rfl⟩

/-- One failed batch of order events ends the drain thread; so does the end of a period of
backpressure; and a full energy queue throws into the tick loop. -/
theorem not_quiet :
    (Runs.run (exec true) [.recordEvent anOrder, .checkBackpressure, .drain none,
      .drain (some (.executeBatch 0)), .drain none, .drain none] start).thread = .left false ∧
    (Runs.run (exec true) [.recordEvent anOrder, .checkBackpressure, .drain none, .drain none,
      .drain none] { start with backpressureActive := true }).thread = .left false ∧
    (Runs.run (exec true) [.recordEnergyTelemetry aFrame]
      { start with queues := fun _ => List.replicate QUEUE_CAPACITY ⟨0, .energy aFrame⟩ }).thrown
        = 1 := by
  refine ⟨by decide, by decide, ?_⟩
  have hfull : ¬ ({ start with
      queues := fun _ => List.replicate QUEUE_CAPACITY ⟨0, .energy aFrame⟩ } : Database).Room
        .energies := by
    rw [Room, List.length_replicate]
    exact lt_irrefl _
  rw [Runs.run_cons, Runs.run_nil, exec, recordEnergyTelemetry, if_neg hfull]
  rfl

end Database

end MatrixFactory
