/-
# The monitoring of the defect rates

`getRecentDefectRate` of the database artifact, read by the supervisor's plan
`monitor_defect_drift`, and the quality records that the stations leave behind.  The runs of a
merged project write to one database file, each through its own connection.

The artifacts write under the ids `S1` to `S4`; the supervisor asks for `station_1` to
`station_4`, in a merged project for the renamed names.  No record has such a key, so every rate
is zero and no correction is ever decided.
-/
import MatrixFactory.DrainLoop
import MatrixFactory.MergedProject
import Mathlib.Tactic.NormNum

namespace MatrixFactory

/-! ## The quality records of the stations -/

/-- The station artifacts that record the quality of an order. -/
inductive QualityStation
  | S1
  | S2
  | S3
  | S4
  deriving DecidableEq, Repr

/-- The id of a station artifact in the project file. -/
def QualityStation.stationId : QualityStation → String
  | .S1 => "S1"
  | .S2 => "S2"
  | .S3 => "S3"
  | .S4 => "S4"

/-- The name of its station in `monitor_defect_drift`. -/
def QualityStation.monitored : QualityStation → String
  | .S1 => "station_1"
  | .S2 => "station_2"
  | .S3 => "station_3"
  | .S4 => "station_4"

/-- What `processOrder` knows of an order when it records its quality. -/
structure ProcessedOrder where
  orderId : String
  defect : Bool
  tProc : ℚ
  tMean_s : ℚ
  currentSimTime : ℚ
  deriving DecidableEq, Repr

/-- The record of a processed order. -/
def ProcessedOrder.record (runId : ℤ) (st : QualityStation) (o : ProcessedOrder) : QualityRecord :=
  ⟨runId, o.orderId, st.stationId, o.defect, o.tProc, o.tMean_s, o.currentSimTime⟩

/-- The agents' sources: those of the repository, or those that the generator has renamed for
each run. -/
inductive AslSources
  | plain
  | renamed (wide : Char → Bool)

/-- The station for which the supervisor of a run asks. -/
def AslSources.key (src : AslSources) (runId : ℤ) (st : QualityStation) : String :=
  match src with
  | .plain => st.monitored
  | .renamed wide => String.ofList (Generator.rewriteContent wide st.monitored.toList runId)

/-! ## The query -/

/-- `LIMIT`; a negative limit is none. -/
def limit {α : Type} (n : ℤ) (l : List α) : List α := if n < 0 then l else l.take n.toNat

/-- `AVG` of the defect flags, and `getDouble` of its result. -/
def averageDefect (l : List QualityRecord) : ℚ :=
  if l = [] then 0 else (l.map fun r => if r.defect then (1 : ℚ) else 0).sum / l.length

/-- `getRecentDefectRate` over the rows that the connection sees, in the order of their row ids;
`failed` tells of an exception. -/
def getRecentDefectRate (rows : List QualityRecord) (failed : Bool) (stationId : String)
    (windowSize : ℤ) : ℚ :=
  if failed then 0
  else averageDefect (limit windowSize (rows.filter (·.stationId = stationId)).reverse)

/-- The test of `monitor_defect_drift`. -/
def decidesCorrection (rate : ℚ) : Bool := decide (0.30 < rate)

/-! ## The runs on one database file -/

/-- The quality record of an entry. -/
def Entry.quality? (e : Entry) : Option QualityRecord :=
  match e.record with
  | .quality r => some r
  | _ => none

/-- A rate that the supervisor has read, and whether it has decided a correction. -/
structure Observation where
  station : QualityStation
  rate : ℚ
  corrected : Bool
  deriving DecidableEq, Repr

/-- The runs, each with its database artifact, and the table `StationQuality` of their common
file in the order of the row ids.  `written` keeps what each station has recorded, `observed`
what each supervisor has read. -/
structure QualityHistory where
  databases : ℤ → Database
  file : List QualityRecord
  written : ℤ → QualityStation → List QualityRecord
  observed : ℤ → List Observation

/-- What can happen: a station records the quality of an order, the database artifact of a run
moves in any other way, or the loop of `monitor_defect_drift` comes to a station.  The query
fails or not; with autocommit off it sees the first `snapshot` rows of the file only. -/
inductive HistoryOp
  | processOrder (runId : ℤ) (st : QualityStation) (o : ProcessedOrder)
  | database (runId : ℤ) (op : DatabaseOp) (other : ∀ r, op ≠ .recordStationQuality r)
  | monitor (runId : ℤ) (st : QualityStation) (snapshot : ℕ) (failed : Bool)

namespace QualityHistory

/-- A file with the rows of earlier executions. -/
def start (old : List (ℤ × QualityStation × ProcessedOrder)) : QualityHistory where
  databases _ := Database.start
  file := old.map fun x => x.2.2.record x.1 x.2.1
  written _ _ := []
  observed _ := []

/-- The rows that the connection of a run sees. -/
def visible (snapshot : ℕ) (runId : ℤ) (s : QualityHistory) : List QualityRecord :=
  (if (s.databases runId).conn.autoCommit then s.file else s.file.take snapshot) ++
    (s.databases runId).conn.transaction.filterMap Entry.quality?

/-- The database of a run moves; what it commits is appended to the file. -/
def moveDatabase (signalThrows : Bool) (runId : ℤ) (op : DatabaseOp) (s : QualityHistory) :
    QualityHistory :=
  let db := s.databases runId
  let db' := db.exec signalThrows op
  { s with
    databases := Function.update s.databases runId db'
    file := s.file ++ (db'.conn.rows.drop db.conn.rows.length).filterMap Entry.quality? }

/-- The rate that the supervisor of a run reads for a station. -/
def rate (src : AslSources) (runId : ℤ) (st : QualityStation) (windowSize : ℤ) (snapshot : ℕ)
    (failed : Bool) (s : QualityHistory) : ℚ :=
  getRecentDefectRate (s.visible snapshot runId) failed (src.key runId st) windowSize

/-- One step; an operation of the artifact waits while another one is under way. -/
def exec (src : AslSources) (signalThrows : Bool) (op : HistoryOp) (s : QualityHistory) :
    QualityHistory :=
  match op with
  | .processOrder runId st o =>
    if (s.databases runId).checking then s
    else
      { s.moveDatabase signalThrows runId (.recordStationQuality (o.record runId st)) with
        written := Function.update s.written runId
          (Function.update (s.written runId) st (s.written runId st ++ [o.record runId st])) }
  | .database runId op _ => s.moveDatabase signalThrows runId op
  | .monitor runId st snapshot failed =>
    let rate := s.rate src runId st 20 snapshot failed
    { s with
      observed := Function.update s.observed runId
        (s.observed runId ++ [⟨st, rate, decidesCorrection rate⟩]) }

/-! ## What the rate is meant to be -/

/-- The last `min w n` of the `n` records that a station has written. -/
def lastWritten (w : ℕ) (runId : ℤ) (st : QualityStation) (s : QualityHistory) :
    List QualityRecord :=
  (s.written runId st).drop ((s.written runId st).length - w)

/-- The fraction of defective records. -/
def defectFraction (l : List QualityRecord) : ℚ := l.countP (·.defect) / l.length

/-- The rate is the fraction, and a correction is decided iff the fraction exceeds the
threshold. -/
def Tracks (src : AslSources) (runId : ℤ) (st : QualityStation) (w snapshot : ℕ) (failed : Bool)
    (s : QualityHistory) : Prop :=
  s.rate src runId st w snapshot failed = defectFraction (s.lastWritten w runId st) ∧
    (decidesCorrection (s.rate src runId st w snapshot failed) = true ↔
      0.30 < defectFraction (s.lastWritten w runId st))

end QualityHistory

/-! ## Where the records of a database come from -/

namespace Database

variable (P : QualityRecord → Prop)

/-- The entry is no quality record without `P`. -/
def EntryOk (e : Entry) : Prop := ∀ r, e.record = .quality r → P r

/-- The entries that the drain thread holds. -/
def inThread : DrainThread → List Entry
  | .writing _ batch => batch
  | .restoring rest _ => rest
  | _ => []

/-- All quality records in the artifact, its thread and its connection have `P`. -/
structure Every (s : Database) : Prop where
  queues : ∀ t, ∀ e ∈ s.queues t, EntryOk P e
  thread : ∀ e ∈ inThread s.thread, EntryOk P e
  transaction : ∀ e ∈ s.conn.transaction, EntryOk P e
  rows : ∀ e ∈ s.conn.rows, EntryOk P e

variable {P}

theorem every_start : Every P start where
  queues _ _ he := absurd he List.not_mem_nil
  thread _ he := absurd he List.not_mem_nil
  transaction _ he := absurd he List.not_mem_nil
  rows _ he := absurd he List.not_mem_nil

/-- What a batch leaves in the connection. -/
theorem mem_write {batch : List Entry} {failure : Option Failure} {c : Connection} {e : Entry}
    (he : e ∈ (c.write batch failure).transaction ∨ e ∈ (c.write batch failure).rows) :
    e ∈ c.transaction ∨ e ∈ c.rows ∨ e ∈ batch := by
  have hauto : ∀ {b : Bool} {c : Connection},
      e ∈ (c.setAutoCommit b).transaction ∨ e ∈ (c.setAutoCommit b).rows →
        e ∈ c.transaction ∨ e ∈ c.rows := by
    intro b c h
    unfold Connection.setAutoCommit at h
    split at h
    · exact h
    · rcases h with h | h
      · exact absurd h List.not_mem_nil
      · exact (List.mem_append.1 h).symm
  have hcommit : ∀ {c : Connection}, e ∈ c.commit.transaction ∨ e ∈ c.commit.rows →
      e ∈ c.transaction ∨ e ∈ c.rows := by
    intro c h
    rcases h with h | h
    · exact absurd h List.not_mem_nil
    · exact (List.mem_append.1 h).symm
  have hexecute : ∀ {l : List Entry} {c : Connection},
      e ∈ (c.executeBatch l).transaction ∨ e ∈ (c.executeBatch l).rows →
        (e ∈ c.transaction ∨ e ∈ c.rows) ∨ e ∈ l := by
    intro l c h
    unfold Connection.executeBatch at h
    split at h
    · rcases h with h | h
      · exact .inl (.inl h)
      · exact (List.mem_append.1 h).imp_left .inr
    · rcases h with h | h
      · exact (List.mem_append.1 h).imp_left .inl
      · exact .inl (.inr h)
  rw [← or_assoc]
  match failure, he with
  | some .prepareStatement, he | some .setAutoCommitFalse, he => exact .inl he
  | some .addBatch, he => exact .inl (hauto he)
  | some (.executeBatch k), he => exact (hexecute he).imp hauto List.mem_of_mem_take
  | some .commit, he => exact (hexecute he).imp_left hauto
  | some .setAutoCommitTrue, he => exact (hexecute (hcommit he)).imp_left hauto
  | some .close, he | none, he => exact (hexecute (hcommit (hauto he))).imp_left hauto

/-- The thread goes on without a further entry. -/
theorem Every.goto {s : Database} (h : Every P s) {thread : DrainThread}
    (hthread : ∀ e ∈ inThread thread, EntryOk P e) : Every P (s.goto thread) :=
  ⟨h.queues, hthread, h.transaction, h.rows⟩

theorem Every.after {s : Database} (h : Every P s) (t : Table) : Every P (s.after t) := by
  have hnil : ∀ e ∈ ([] : List Entry), EntryOk P e := fun _ he => absurd he List.not_mem_nil
  cases t with
  | orders => exact h.goto hnil
  | qualities => exact h.goto hnil
  | energies => exact ⟨h.queues, hnil, h.transaction, h.rows⟩

theorem Every.poll {s : Database} (h : Every P s) (t : Table) {k : Database → Database}
    (hk : Every P (k s)) : Every P (s.poll t k) := by
  unfold Database.poll
  simp only
  split
  · exact hk
  · refine ⟨fun t' e he => ?_, fun e he => h.queues t e (List.mem_of_mem_take he), h.transaction,
      h.rows⟩
    by_cases ht : t' = t
    · subst ht
      simp only [Function.update_self] at he
      exact h.queues _ e (List.mem_of_mem_drop he)
    · simp only [Function.update_of_ne ht] at he
      exact h.queues t' e he

theorem Every.signal {s : Database} (h : Every P s) {b : Bool} {x : Signal}
    {k : Database → Database} (hk : Every P (k (s.emit x))) : Every P (s.signal b x k) := by
  unfold Database.signal
  split
  · exact h.goto fun _ he => absurd he List.not_mem_nil
  · exact hk

theorem Every.emit {s : Database} (h : Every P s) (x : Signal) : Every P (s.emit x) :=
  ⟨h.queues, h.thread, h.transaction, h.rows⟩

theorem Every.enqueue {s : Database} (h : Every P s) (t : Table) {e : Entry} (he : EntryOk P e) :
    Every P (s.enqueue t e) := by
  refine ⟨fun t' e' he' => ?_, h.thread, h.transaction, h.rows⟩
  by_cases ht : t' = t
  · subst ht
    simp only [Database.enqueue, Function.update_self] at he'
    rcases List.mem_append.1 he' with he' | he'
    · exact h.queues _ e' he'
    · rw [List.mem_singleton.1 he']
      exact he
  · simp only [Database.enqueue, Function.update_of_ne ht] at he'
    exact h.queues t' e' he'

/-- A step of the drain thread. -/
theorem Every.drain {s : Database} (h : Every P s) (b : Bool) (failure : Option Failure) :
    Every P (s.drain b failure) := by
  have hnil : ∀ e ∈ ([] : List Entry), EntryOk P e := fun _ he => absurd he List.not_mem_nil
  unfold Database.drain
  match hthread : s.thread with
  | .sleeping =>
    simp only
    split
    · exact h.goto hnil
    · exact h.poll .orders (h.after .energies)
  | .polling t => exact h.poll t (h.after t)
  | .writing t batch =>
    have hbatch : ∀ e ∈ batch, EntryOk P e := fun e he => h.thread e (by rwa [hthread])
    have hwrite : Every P { s with conn := s.conn.write batch failure } := by
      have hmem : ∀ e, e ∈ (s.conn.write batch failure).transaction ∨
          e ∈ (s.conn.write batch failure).rows → EntryOk P e := by
        intro e he
        rcases mem_write he with he | he | he
        · exact h.transaction e he
        · exact h.rows e he
        · exact hbatch e he
      exact ⟨h.queues, h.thread, fun e he => hmem e (.inl he), fun e he => hmem e (.inr he)⟩
    show Every P (s.write b t batch failure)
    unfold Database.write
    match failure, t with
    | none, t => exact hwrite.after t
    | some f, .orders => exact hwrite.goto hbatch
    | some f, .qualities => exact hwrite.signal ((hwrite.emit _).after _)
    | some f, .energies => exact hwrite.signal ((hwrite.emit _).after _)
  | .restoring (e :: rest) restored =>
    have hhead : EntryOk P e := h.thread e (by rw [hthread]; exact List.mem_cons_self)
    have hrest : ∀ e' ∈ rest, EntryOk P e' := fun e' he' =>
      h.thread e' (by rw [hthread]; exact List.mem_cons_of_mem _ he')
    simp only
    split
    · exact (h.enqueue .orders hhead).goto hrest
    · exact h.goto hrest
  | .restoring [] restored => exact h.signal ((h.emit _).after _)
  | .pressure =>
    simp only
    have h' : Every P { s with backpressureActive := false } :=
      ⟨h.queues, h.thread, h.transaction, h.rows⟩
    split
    · have hgoto : Every P (Database.goto (.polling .qualities) (Database.emit .pressureNormal
          { s with backpressureActive := false })) := (h'.emit _).goto hnil
      exact h'.signal hgoto
    · exact h.goto hnil
  | .left _ => exact h

/-- **One step** of the artifact; a quality record that is offered has `P`. -/
theorem Every.exec {s : Database} (h : Every P s) (b : Bool) {op : DatabaseOp}
    (hop : ∀ r, op = .recordStationQuality r → P r) : Every P (s.exec b op) := by
  have haccept : ∀ {r : Record}, (∀ q, r = .quality q → P q) → Every P (s.accept r) := by
    intro r hr
    have hq := h.enqueue r.table (e := ⟨s.accepted, r⟩) hr
    exact ⟨hq.queues, hq.thread, hq.transaction, hq.rows⟩
  cases op with
  | recordEvent r =>
    show Every P (if s.checking then s else s.recordEvent r)
    unfold Database.recordEvent
    split
    · exact h
    · split
      · have hq := haccept (r := .order r) fun q hq => nomatch hq
        exact ⟨hq.queues, hq.thread, hq.transaction, hq.rows⟩
      · exact h.emit _
  | checkBackpressure =>
    show Every P (if s.checking then s.checkBackpressure else s)
    unfold Database.checkBackpressure
    split
    · simp only
      split
      · exact ⟨h.queues, h.thread, h.transaction, h.rows⟩
      · exact ⟨h.queues, h.thread, h.transaction, h.rows⟩
    · exact h
  | recordStationQuality r =>
    show Every P (if s.checking then s else s.recordStationQuality r)
    unfold Database.recordStationQuality
    split
    · exact h
    · split
      · exact haccept fun q hq => hop q (by rw [Record.quality.inj hq])
      · exact h.emit _
  | recordEnergyTelemetry r =>
    show Every P (s.recordEnergyTelemetry b r)
    unfold Database.recordEnergyTelemetry
    split
    · exact haccept fun q hq => nomatch hq
    · split
      · exact ⟨h.queues, h.thread, h.transaction, h.rows⟩
      · exact h.emit _
  | interrupt => exact ⟨h.queues, h.thread, h.transaction, h.rows⟩
  | drain failure => exact h.drain b failure

end Database

namespace QualityHistory

/-! ## No record has a key of the supervisor -/

/-- The record was written by a station. -/
def FromStation (r : QualityRecord) : Prop := ∃ st : QualityStation, r.stationId = st.stationId

/-- The names of the supervisor are no ids of stations. -/
theorem key_ne_stationId (src : AslSources) (runId : ℤ) (st st' : QualityStation) :
    src.key runId st ≠ st'.stationId := by
  have hhead : ∀ st : QualityStation, st.monitored.toList.head? = some 's' := by
    rintro (_ | _ | _ | _) <;> decide
  have hhead' : ∀ st : QualityStation, st.stationId.toList.head? = some 'S' := by
    rintro (_ | _ | _ | _) <;> decide
  have htoken : ∀ st : QualityStation, st.monitored.toList ∈ Generator.CANONICAL_TOKENS := by
    rintro (_ | _ | _ | _) <;> decide
  intro heq
  have hkey : (src.key runId st).toList.head? = some 's' := by
    cases src with
    | plain => exact hhead st
    | renamed wide =>
      show (String.ofList _).toList.head? = _
      rw [String.toList_ofList, JcmProject.rewriteContent_token (htoken st), Generator.renamed,
        List.head?_append, hhead st]
      rfl
  rw [heq, hhead' st'] at hkey
  exact absurd hkey (by decide)

/-- All quality records were written by stations. -/
structure StationsOnly (s : QualityHistory) : Prop where
  databases : ∀ runId, (s.databases runId).Every FromStation
  file : ∀ r ∈ s.file, FromStation r

theorem stationsOnly_start (old : List (ℤ × QualityStation × ProcessedOrder)) :
    StationsOnly (start old) := by
  refine ⟨fun _ => Database.every_start, fun r hr => ?_⟩
  obtain ⟨x, -, rfl⟩ := List.mem_map.1 hr
  exact ⟨x.2.1, rfl⟩

theorem mem_quality {P : QualityRecord → Prop} {l : List Entry}
    (h : ∀ e ∈ l, Database.EntryOk P e) : ∀ r ∈ l.filterMap Entry.quality?, P r := by
  intro r hr
  obtain ⟨e, he, her⟩ := List.mem_filterMap.1 hr
  refine h e he r ?_
  unfold Entry.quality? at her
  split at her
  · next r' hr' => rw [hr', Option.some.inj her]
  · cases her

theorem StationsOnly.moveDatabase {s : QualityHistory} (h : StationsOnly s) (b : Bool)
    (runId : ℤ) {op : DatabaseOp} (hop : ∀ r, op = .recordStationQuality r → FromStation r) :
    StationsOnly (s.moveDatabase b runId op) := by
  have hdb := (h.databases runId).exec b hop
  constructor
  · intro runId'
    show ((Function.update s.databases runId _) runId').Every FromStation
    by_cases hr : runId' = runId
    · subst hr
      rw [Function.update_self]
      exact hdb
    · rw [Function.update_of_ne hr]
      exact h.databases runId'
  · intro r hr
    rcases List.mem_append.1 hr with hr | hr
    · exact h.file r hr
    · exact mem_quality (fun e he => hdb.rows e (List.mem_of_mem_drop he)) r hr

variable {src : AslSources} {signalThrows : Bool}

theorem StationsOnly.exec {s : QualityHistory} (h : StationsOnly s) (op : HistoryOp) :
    StationsOnly (s.exec src signalThrows op) := by
  cases op with
  | processOrder runId st o =>
    show StationsOnly (if (s.databases runId).checking then s else _)
    split
    · exact h
    · have hrecord : ∀ r, DatabaseOp.recordStationQuality (o.record runId st) =
          .recordStationQuality r → FromStation r := by
        intro r hr
        rw [← DatabaseOp.recordStationQuality.inj hr]
        exact ⟨st, rfl⟩
      have hmove := h.moveDatabase signalThrows runId hrecord
      exact ⟨hmove.databases, hmove.file⟩
  | database runId op other => exact h.moveDatabase _ runId fun r hr => absurd hr (other r)
  | monitor => exact ⟨h.databases, h.file⟩

theorem StationsOnly.run {s : QualityHistory} (h : StationsOnly s) (ops : List HistoryOp) :
    StationsOnly (Runs.run (QualityHistory.exec src signalThrows) ops s) :=
  Runs.run_invariant (I := StationsOnly) (C := fun _ _ => True) (fun _ op hs _ => hs.exec op) h
    (Runs.along_of_forall fun _ _ _ => trivial)

/-- The rows that a connection sees. -/
theorem StationsOnly.visible {s : QualityHistory} (h : StationsOnly s) (snapshot : ℕ)
    (runId : ℤ) : ∀ r ∈ s.visible snapshot runId, FromStation r := by
  intro r hr
  rcases List.mem_append.1 hr with hr | hr
  · split at hr
    · exact h.file r hr
    · exact h.file r (List.mem_of_mem_take hr)
  · exact mem_quality (h.databases runId).transaction r hr

/-- **Every rate is zero.** -/
theorem StationsOnly.rate_eq_zero {s : QualityHistory} (h : StationsOnly s) (runId : ℤ)
    (st : QualityStation) (w : ℤ) (snapshot : ℕ) (failed : Bool) :
    s.rate src runId st w snapshot failed = 0 := by
  have hnone : (s.visible snapshot runId).filter (·.stationId = src.key runId st) = [] := by
    rw [List.filter_eq_nil_iff]
    intro r hr hkey
    obtain ⟨st', hst'⟩ := h.visible snapshot runId r hr
    exact key_ne_stationId src runId st st' ((of_decide_eq_true hkey).symm.trans hst')
  have hlimit : limit w ([] : List QualityRecord) = [] := by
    unfold limit
    rw [List.take_nil, ite_self]
  unfold rate getRecentDefectRate
  split
  · rfl
  · rw [hnone, List.reverse_nil, hlimit, averageDefect, if_pos rfl]

/-! ## The rate and the records of the station -/

theorem defectFraction_eq_zero (l : List QualityRecord) :
    defectFraction l = 0 ↔ ∀ r ∈ l, r.defect = false := by
  unfold defectFraction
  rw [div_eq_zero_iff, Nat.cast_eq_zero, Nat.cast_eq_zero, List.countP_eq_zero,
    List.length_eq_zero_iff]
  constructor
  · rintro (h | rfl) r hr
    · exact Bool.eq_false_iff.2 (h r hr)
    · exact absurd hr List.not_mem_nil
  · exact fun h => .inl fun r hr => Bool.eq_false_iff.1 (h r hr)

/-- **After every history the rate is the fraction of defective records among the last ones that
the station has written, and the correction decided accordingly, iff none of these records is
defective.** -/
theorem tracks_iff (src : AslSources) (signalThrows : Bool)
    (old : List (ℤ × QualityStation × ProcessedOrder)) (ops : List HistoryOp) (runId : ℤ)
    (st : QualityStation) (w snapshot : ℕ) (failed : Bool) :
    Tracks src runId st w snapshot failed (Runs.run (exec src signalThrows) ops (start old)) ↔
      ∀ r ∈ (Runs.run (exec src signalThrows) ops (start old)).lastWritten w runId st,
        r.defect = false := by
  have hstations : StationsOnly (Runs.run (exec src signalThrows) ops (start old)) :=
    (stationsOnly_start old).run ops
  have hzero : rate src runId st w snapshot failed (Runs.run (exec src signalThrows) ops
      (start old)) = 0 := hstations.rate_eq_zero runId st w snapshot failed
  rw [Tracks, hzero, ← defectFraction_eq_zero]
  constructor
  · exact fun h => h.1.symm
  · intro h
    rw [h]
    exact ⟨rfl, decide_eq_true_iff⟩

/-! ## A defective record in the file -/

theorem checkBackpressure_ne (r : QualityRecord) :
    DatabaseOp.checkBackpressure ≠ .recordStationQuality r := by
  intro h
  cases h

/-- A station records a defective order, and the drain thread commits the record. -/
def defectCommitted (runId : ℤ) : List HistoryOp :=
  .database runId (.recordEvent ⟨runId, "o", "START", 0⟩) (fun _ h => nomatch h) ::
  .database runId .checkBackpressure checkBackpressure_ne ::
  .processOrder runId .S1 ⟨"o", true, 6, 5, 10⟩ ::
  List.replicate 6 (.database runId (.drain none) fun _ h => nomatch h)

/-- The supervisor reads the rate zero although the only record of the station is defective. -/
theorem not_tracks : ¬ Tracks .plain 0 .S1 20 0 false
    (Runs.run (exec .plain false) (defectCommitted 0) (start [])) := by
  intro h
  have hstations : StationsOnly (Runs.run (exec .plain false) (defectCommitted 0) (start [])) :=
    (stationsOnly_start []).run _
  have hfile : (Runs.run (exec .plain false) (defectCommitted 0) (start [])).lastWritten 20 0 .S1 =
      [⟨0, "o", "S1", true, 6, 5, 10⟩] := by rfl
  have hfraction : defectFraction [⟨0, "o", "S1", true, 6, 5, 10⟩] = 1 := by
    norm_num [defectFraction]
  have hrate := h.1
  rw [hstations.rate_eq_zero, hfile, hfraction] at hrate
  exact zero_ne_one hrate

/-- The record is in the file. -/
example : (Runs.run (exec .plain false) (defectCommitted 0) (start [])).file =
    [⟨0, "o", "S1", true, 6, 5, 10⟩] := by rfl

/-! ## What the supervisor of a run observes -/

/-- A step of a run itself, without what its drain thread and its connection meet. -/
inductive OwnStep
  | processOrder (st : QualityStation) (o : ProcessedOrder)
  | offered (op : DatabaseOp)
  | monitor (st : QualityStation)
  deriving DecidableEq, Repr

/-- The steps of the run `runId` itself. -/
def own (runId : ℤ) : HistoryOp → Option OwnStep
  | .processOrder r st o => if r = runId then some (.processOrder st o) else none
  | .database _ (.drain _) _ => none
  | .database r op _ => if r = runId then some (.offered op) else none
  | .monitor r st _ _ => if r = runId then some (.monitor st) else none

/-- The stations for which a step asks. -/
def OwnStep.asked : OwnStep → Option QualityStation
  | .monitor st => some st
  | _ => none

/-- The station for which a step of the run asks. -/
def asks (runId : ℤ) : HistoryOp → Option QualityStation
  | .monitor r st _ _ => if r = runId then some st else none
  | _ => none

theorem own_asked (runId : ℤ) (op : HistoryOp) :
    (own runId op).bind OwnStep.asked = asks runId op := by
  match op with
  | .processOrder r st o =>
    show (if r = runId then some (.processOrder st o) else none : Option OwnStep).bind _ = none
    split <;> rfl
  | .monitor r st snapshot failed =>
    show (if r = runId then some (.monitor st) else none : Option OwnStep).bind _ =
      if r = runId then some st else none
    split <;> rfl
  | .database r (.drain failure) other => rfl
  | .database r (.recordStationQuality q) other => exact absurd rfl (other q)
  | .database r (.recordEvent e) other | .database r .checkBackpressure other
  | .database r (.recordEnergyTelemetry e) other | .database r .interrupt other =>
    show (if r = runId then some (.offered _) else none : Option OwnStep).bind _ = none
    split <;> rfl

/-- What a step adds to the observations of a run. -/
theorem StationsOnly.observed_exec {s : QualityHistory} (h : StationsOnly s) (op : HistoryOp)
    (runId : ℤ) : (s.exec src signalThrows op).observed runId = s.observed runId ++
      (asks runId op).toList.map fun st => ⟨st, 0, decidesCorrection 0⟩ := by
  cases op with
  | processOrder r st o =>
    show (if (s.databases r).checking then s else _).observed runId = s.observed runId ++ []
    rw [List.append_nil]
    split <;> rfl
  | database r op other => exact (List.append_nil _).symm
  | monitor r st snapshot failed =>
    show Function.update s.observed r _ runId = s.observed runId ++
      (if r = runId then some st else none).toList.map _
    rw [h.rate_eq_zero]
    by_cases hr : r = runId
    · subst hr
      rw [Function.update_self, if_pos rfl]
      rfl
    · rw [Function.update_of_ne (Ne.symm hr), if_neg hr]
      exact (List.append_nil _).symm

/-- The observations of a run are determined by the questions it asks. -/
theorem StationsOnly.observed_run (runId : ℤ) (ops : List HistoryOp) :
    ∀ {s : QualityHistory}, StationsOnly s →
      (Runs.run (QualityHistory.exec src signalThrows) ops s).observed runId =
        s.observed runId ++ ((ops.filterMap (own runId)).filterMap OwnStep.asked).map fun st =>
          ⟨st, 0, decidesCorrection 0⟩ := by
  induction ops with
  | nil => exact fun _ => (List.append_nil _).symm
  | cons op ops ih =>
    intro s h
    rw [Runs.run_cons, ih (h.exec op), h.observed_exec, List.append_assoc]
    congr 1
    rw [← List.map_append]
    congr 1
    rw [← own_asked, List.filterMap_cons]
    cases own runId op with
    | none => rfl
    | some x =>
      rw [Option.bind_some, List.filterMap_cons]
      cases x.asked <;> rfl

/-- **Isolation**: in two histories in which run `A` itself takes the same steps, its supervisor
reads the same rates and decides the same corrections, whatever the other runs write and whenever
they do, and whatever the connection of `A` meets. -/
theorem observed_isolated (src : AslSources) (signalThrows : Bool)
    (old : List (ℤ × QualityStation × ProcessedOrder)) (A : ℤ) (ops ops' : List HistoryOp)
    (h : ops.filterMap (own A) = ops'.filterMap (own A)) :
    (Runs.run (exec src signalThrows) ops (start old)).observed A =
      (Runs.run (exec src signalThrows) ops' (start old)).observed A := by
  rw [(stationsOnly_start old).observed_run, (stationsOnly_start old).observed_run, h]

/-- Run 1 of a merged project commits a defective record before run 0 asks, or does nothing. -/
theorem observed_isolated_committed :
    (Runs.run (exec (.renamed fun _ => false) false)
      (defectCommitted 1 ++ [.monitor 0 .S1 0 false]) (start [])).observed 0 =
    (Runs.run (exec (.renamed fun _ => false) false)
      [.monitor 0 .S1 0 false] (start [])).observed 0 :=
  observed_isolated (.renamed fun _ => false) false [] 0 _ _ (by decide)

end QualityHistory

end MatrixFactory
