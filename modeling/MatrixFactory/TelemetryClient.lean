/-
# The telemetry client of the dashboard

`connect` of the dashboard, the handlers of its sockets and `switchRun`.  One piece of code runs at
a time; between two of them any ticket may arrive, any socket may open, fail, deliver a frame or
close, a timer may expire and the user may choose another run.

A call of `connect` is known by its epoch, which is also that of its socket.  Only the newest call
can be fetching a ticket for a socket or have one that is not closed; from that follows what the
user relies on: no frame of another run is shown, and a lost connection is tried again.
-/
import MatrixFactory.Lib.Runs
import MatrixFactory.Lib.Text
import Mathlib.Algebra.Order.Field.Rat
import Mathlib.Logic.Function.Basic
import Mathlib.Tactic.Linarith

namespace MatrixFactory

open Runs

/-! ## What is on show -/

/-- What the dashboard keeps of a telemetry frame; an AMR has an id and a position. -/
structure ClientFrame (P : Type) where
  sequenceNumber : ℕ
  amrStates : List (String × P)
  activeOrgSchema : Option String

/-- The variables that `onmessage` writes. -/
structure ClientView (P : Type) where
  lastAMRPositions : String → Option P
  currentAMRPositions : String → Option P
  lastFrameWallTime : ℚ
  currentFrameWallTime : ℚ
  estFrameIntervalMs : ℚ
  lastSequenceNumber : Option ℕ
  missedFrameFlashUntil : ℚ
  lastOrgSchema : Option String
  latestFrame : Option (ClientFrame P)

namespace ClientView

variable {P : Type}

/-- The page before its first frame. -/
def start : ClientView P where
  lastAMRPositions _ := none
  currentAMRPositions _ := none
  lastFrameWallTime := 0
  currentFrameWallTime := 0
  estFrameIntervalMs := 556 / 10
  lastSequenceNumber := none
  missedFrameFlashUntil := 0
  lastOrgSchema := none
  latestFrame := none

/-- The estimate of the interval between two frames. -/
def nextInterval (v : ClientView P) (now : ℚ) : ℚ :=
  if v.currentFrameWallTime = 0 then v.estFrameIntervalMs
  else
    let interval := now - v.currentFrameWallTime
    if 5 < interval ∧ interval < 2000 then v.estFrameIntervalMs * (8 / 10) + interval * (2 / 10)
    else v.estFrameIntervalMs

/-- One AMR of the loop over `amrStates`: `current` and `last` positions. -/
def placeAmr (positions : (String → Option P) × (String → Option P)) (amr : String × P) :
    (String → Option P) × (String → Option P) :=
  (Function.update positions.1 amr.1 (some amr.2),
    if (positions.2 amr.1).isSome then positions.2
    else Function.update positions.2 amr.1 (some amr.2))

/-- A number after the next one means a frame that was missed. -/
def Missed (v : ClientView P) (seq : ℕ) : Prop := ∃ last ∈ v.lastSequenceNumber, last + 1 < seq

instance (v : ClientView P) (seq : ℕ) : Decidable (v.Missed seq) :=
  inferInstanceAs (Decidable (∃ last ∈ v.lastSequenceNumber, _))

/-- `onmessage` for a frame that can be decoded. -/
def onMessage (now : ℚ) (frame : ClientFrame P) (v : ClientView P) : ClientView P :=
  let positions := frame.amrStates.foldl placeAmr (fun _ => none, v.currentAMRPositions)
  { lastAMRPositions := positions.2
    currentAMRPositions := positions.1
    lastFrameWallTime := v.currentFrameWallTime
    currentFrameWallTime := now
    estFrameIntervalMs := v.nextInterval now
    lastSequenceNumber := some frame.sequenceNumber
    missedFrameFlashUntil :=
      if v.Missed frame.sequenceNumber then now + 180 else v.missedFrameFlashUntil
    lastOrgSchema := frame.activeOrgSchema <|> v.lastOrgSchema
    latestFrame := some frame }

/-- The page can be drawn: the AMRs on it are those of the frame, each has a position that it comes
from, and the interval in which it comes here is a few milliseconds at least. -/
structure Drawable (v : ClientView P) : Prop where
  onFrame : ∀ frame ∈ v.latestFrame, ∀ amrId,
    (v.currentAMRPositions amrId).isSome ↔ amrId ∈ frame.amrStates.map Prod.fst
  comesFrom : ∀ amrId, (v.currentAMRPositions amrId).isSome → (v.lastAMRPositions amrId).isSome
  interval : 5 < v.estFrameIntervalMs ∧ v.estFrameIntervalMs < 2000

theorem drawable_start : (start : ClientView P).Drawable where
  onFrame _ h := nomatch h
  comesFrom _ h := nomatch h
  interval := by
    constructor <;> norm_num [start]

/-- The loop over the AMRs. -/
theorem foldl_placeAmr (amrs : List (String × P))
    (positions : (String → Option P) × (String → Option P)) (amrId : String) :
    (((amrs.foldl placeAmr positions).1 amrId).isSome ↔
        (positions.1 amrId).isSome ∨ amrId ∈ amrs.map Prod.fst) ∧
      (((amrs.foldl placeAmr positions).2 amrId).isSome ↔
        (positions.2 amrId).isSome ∨ amrId ∈ amrs.map Prod.fst) := by
  induction amrs generalizing positions with
  | nil => simp
  | cons amr amrs ih =>
    have hone : ((placeAmr positions amr).1 amrId).isSome ↔
        (positions.1 amrId).isSome ∨ amrId = amr.1 := by
      unfold placeAmr
      by_cases h : amrId = amr.1
      · subst h
        simp
      · simp [h]
    have htwo : ((placeAmr positions amr).2 amrId).isSome ↔
        (positions.2 amrId).isSome ∨ amrId = amr.1 := by
      unfold placeAmr
      by_cases h : amrId = amr.1
      · subst h
        by_cases hlast : (positions.2 amr.1).isSome
        · simp [hlast]
        · simp [hlast]
      · by_cases hlast : (positions.2 amr.1).isSome
        · simp [hlast, h]
        · simp [hlast, h]
    rw [List.foldl_cons, (ih _).1, (ih _).2, hone, htwo, List.map_cons, List.mem_cons, or_assoc,
      or_assoc]
    exact ⟨Iff.rfl, Iff.rfl⟩

/-- **A frame** keeps the page drawable. -/
theorem Drawable.onMessage {v : ClientView P} (h : v.Drawable) (now : ℚ) (frame : ClientFrame P) :
    (v.onMessage now frame).Drawable where
  onFrame := by
    rintro _ ⟨rfl⟩ amrId
    refine (foldl_placeAmr _ _ amrId).1.trans ?_
    simp
  comesFrom amrId hcurrent := by
    rw [ClientView.onMessage] at hcurrent ⊢
    rw [(foldl_placeAmr _ _ amrId).1] at hcurrent
    rw [(foldl_placeAmr _ _ amrId).2]
    exact Or.inr (hcurrent.resolve_left (by simp))
  interval := by
    show 5 < v.nextInterval now ∧ v.nextInterval now < 2000
    obtain ⟨hlow, hhigh⟩ := h.interval
    unfold nextInterval
    split
    · exact ⟨hlow, hhigh⟩
    · dsimp only
      split
      · next hinterval => constructor <;> linarith [hinterval.1, hinterval.2]
      · exact ⟨hlow, hhigh⟩

end ClientView

/-! ## The connection -/

/-- What has become of a call of `connect`: its ticket is being fetched, it was given up, or it has
a socket with one of the four ready states. -/
inductive ConnectStage where
  | fetching
  | dropped
  | connecting
  | open
  | closing
  | closed
  deriving DecidableEq

/-- The socket is neither closed nor being closed. -/
def ConnectStage.Live (stage : ConnectStage) : Prop := stage = .connecting ∨ stage = .open

instance (stage : ConnectStage) : Decidable stage.Live := inferInstanceAs (Decidable (_ ∨ _))

/-- A call of `connect`, with the run and the ticket in the URL of its socket. -/
structure ConnectCall (R : Type) where
  runId : R
  ticket : Option Text
  stage : ConnectStage

/-- The labels of `setConnectionStatus`. -/
inductive ConnectionStatus where
  | connecting
  | connected
  | error
  | disconnected
  deriving DecidableEq

/-- The dashboard: `timers` reconnections are waiting. -/
structure TelemetryClient (R P : Type) where
  currentRunId : R
  connectionEpoch : ℕ
  activeWebSocket : Option ℕ
  calls : ℕ → Option (ConnectCall R)
  timers : ℕ
  status : ConnectionStatus
  view : ClientView P

/-- What can happen.  A fetch that fails gives no ticket, and a frame that cannot be decoded is
`none`. -/
inductive ClientEvent (R P : Type) where
  | switchRun (runId : R)
  | fetched (epoch : ℕ) (ticket : Option Text)
  | opened (epoch : ℕ)
  | failed (epoch : ℕ)
  | message (epoch : ℕ) (now : ℚ) (frame : Option (ClientFrame P))
  | closed (epoch : ℕ)
  | timeout

/-- The calls of `connect` that an event can lead to: one for a choice of the user and one for a
socket that is closed. -/
def ClientEvent.cost {R P : Type} : ClientEvent R P → ℕ
  | switchRun _ => 1
  | closed _ => 1
  | _ => 0

namespace TelemetryClient

variable {R P : Type}

/-- The call of an epoch gets to another stage. -/
def goto (s : TelemetryClient R P) (epoch : ℕ) (c : ConnectCall R) (stage : ConnectStage) :
    TelemetryClient R P :=
  { s with calls := Function.update s.calls epoch (some { c with stage := stage }) }

/-- The first lines of `connect`: the socket in use is closed. -/
def closeActive (s : TelemetryClient R P) : TelemetryClient R P :=
  match s.activeWebSocket with
  | none => s
  | some epoch =>
    match s.calls epoch with
    | none => { s with activeWebSocket := none }
    | some c =>
      { s.goto epoch c (if c.stage = .closed then .closed else .closing) with
        activeWebSocket := none }

/-- `connect`, up to the point where it waits for the ticket. -/
def connect (runId : R) (s : TelemetryClient R P) : TelemetryClient R P :=
  let s := s.closeActive
  { s with
    connectionEpoch := s.connectionEpoch + 1
    calls := Function.update s.calls (s.connectionEpoch + 1) (some ⟨runId, none, .fetching⟩)
    status := .connecting }

/-- The end of `init`. -/
def init (runId : R) : TelemetryClient R P :=
  connect runId ⟨runId, 0, none, fun _ => none, 0, .disconnected, .start⟩

/-- The rest of `connect`, when its ticket is there. -/
def onFetched (s : TelemetryClient R P) (epoch : ℕ) (c : ConnectCall R) (ticket : Option Text) :
    TelemetryClient R P :=
  if c.stage ≠ .fetching then s
  else if epoch ≠ s.connectionEpoch then s.goto epoch c .dropped
  else { s.goto epoch { c with ticket := ticket } .connecting with activeWebSocket := some epoch }

/-- `onclose`. -/
def onClosed (s : TelemetryClient R P) (epoch : ℕ) (c : ConnectCall R) : TelemetryClient R P :=
  if ¬(c.stage.Live ∨ c.stage = .closing) then s
  else if s.connectionEpoch ≠ epoch then s.goto epoch c .closed
  else
    { s.goto epoch c .closed with
      activeWebSocket := if s.activeWebSocket = some epoch then none else s.activeWebSocket
      status := .disconnected
      timers := s.timers + 1 }

/-- One event; what cannot happen changes nothing. -/
def exec (event : ClientEvent R P) (s : TelemetryClient R P) : TelemetryClient R P :=
  match event with
  | .switchRun runId => connect runId { s with currentRunId := runId }
  | .timeout =>
    match s.timers with
    | 0 => s
    | timers + 1 => connect s.currentRunId { s with timers := timers }
  | .fetched epoch ticket => (s.calls epoch).elim s fun c => s.onFetched epoch c ticket
  | .opened epoch => (s.calls epoch).elim s fun c =>
    if c.stage = .connecting then { s.goto epoch c .open with status := .connected } else s
  | .failed epoch => (s.calls epoch).elim s fun c =>
    if c.stage.Live ∨ c.stage = .closing then { s with status := .error } else s
  | .message epoch now frame => (s.calls epoch).elim s fun c =>
    if c.stage = .open then frame.elim s fun frame => { s with view := s.view.onMessage now frame }
    else s
  | .closed epoch => (s.calls epoch).elim s fun c => s.onClosed epoch c

/-- Only the newest call can have a socket that is not closed, and that is the one in use. -/
structure OneSocket (s : TelemetryClient R P) : Prop where
  made : ∀ epoch c, s.calls epoch = some c → epoch ≤ s.connectionEpoch
  live : ∀ epoch c, s.calls epoch = some c → c.stage.Live → epoch = s.connectionEpoch
  active : ∀ epoch, s.activeWebSocket = some epoch ↔ ∃ c, s.calls epoch = some c ∧ c.stage.Live

/-- **What holds between two events.**  The newest call is for the run on show, and when its socket
is closed a timer is running; and `LIVE` is on show with an open socket only. -/
structure Sound (s : TelemetryClient R P) : Prop extends OneSocket s where
  newest : ∃ c, s.calls s.connectionEpoch = some c ∧ c.runId = s.currentRunId ∧
    (c.stage = .fetching ∨ c.stage.Live ∨ c.stage = .closed ∧ 0 < s.timers)
  shown : s.status = .connected → ∃ c, s.calls s.connectionEpoch = some c ∧ c.stage = .open
  drawable : s.view.Drawable

variable {s : TelemetryClient R P}

/-- The calls after a step that moves one of them. -/
theorem calls_goto {epoch epoch' : ℕ} {c c' : ConnectCall R} {stage : ConnectStage} :
    (s.goto epoch c stage).calls epoch' = some c' ↔
      epoch' = epoch ∧ { c with stage := stage } = c' ∨
        epoch' ≠ epoch ∧ s.calls epoch' = some c' := by
  unfold goto
  by_cases h : epoch' = epoch
  · subst h
    simp
  · simp [h]

theorem not_live_closed : ¬ConnectStage.closed.Live := by decide

theorem not_live_closing : ¬ConnectStage.closing.Live := by decide

/-- Closing the socket in use leaves none that is not closed. -/
theorem OneSocket.closeActive (h : s.OneSocket) :
    s.closeActive.connectionEpoch = s.connectionEpoch ∧ s.closeActive.activeWebSocket = none ∧
      s.closeActive.currentRunId = s.currentRunId ∧ s.closeActive.view = s.view ∧
      ∀ epoch c, s.closeActive.calls epoch = some c → epoch ≤ s.connectionEpoch ∧
        ¬c.stage.Live := by
  cases hactive : s.activeWebSocket with
  | none =>
    have hsame : s.closeActive = s := by rw [TelemetryClient.closeActive, hactive]
    rw [hsame]
    refine ⟨rfl, hactive, rfl, rfl, fun epoch c hc => ⟨h.made epoch c hc, fun hlive => ?_⟩⟩
    have hsome := (h.active epoch).mpr ⟨c, hc, hlive⟩
    rw [hactive] at hsome
    exact nomatch hsome
  | some epoch =>
    obtain ⟨c, hc, hlive⟩ := (h.active epoch).mp hactive
    have hnot : c.stage ≠ .closed := fun hclosed => not_live_closed (hclosed ▸ hlive)
    have hclose : s.closeActive = { s.goto epoch c .closing with activeWebSocket := none } := by
      simp only [TelemetryClient.closeActive, hactive, hc, if_neg hnot]
    rw [hclose]
    refine ⟨rfl, rfl, rfl, rfl, fun epoch' c' hc' => ?_⟩
    rcases calls_goto.mp hc' with ⟨rfl, rfl⟩ | ⟨hne, hold⟩
    · exact ⟨h.made _ c hc, not_live_closing⟩
    · refine ⟨h.made _ c' hold, fun hlive' => hne ?_⟩
      rw [h.live _ c' hold hlive', h.live _ c hc hlive]

/-- **`connect`** makes a newest call for the run on show, whatever has become of the others. -/
theorem OneSocket.connect (h : s.OneSocket) (hview : s.view.Drawable) :
    (connect s.currentRunId s).Sound := by
  obtain ⟨hepoch, hnone, hrun, hsame, hcalls⟩ := h.closeActive
  have hnew : ∀ {epoch c}, (TelemetryClient.connect s.currentRunId s).calls epoch = some c →
      epoch = s.connectionEpoch + 1 ∧ c = ⟨s.currentRunId, none, .fetching⟩ ∨
        epoch ≤ s.connectionEpoch ∧ ¬c.stage.Live := by
    intro epoch c hc
    unfold TelemetryClient.connect at hc
    dsimp only at hc
    rw [hepoch] at hc
    by_cases hlast : epoch = s.connectionEpoch + 1
    · subst hlast
      rw [Function.update_self] at hc
      exact Or.inl ⟨rfl, (Option.some.inj hc).symm⟩
    · rw [Function.update_of_ne hlast] at hc
      exact Or.inr (hcalls epoch c hc)
  have hlast : (TelemetryClient.connect s.currentRunId s).connectionEpoch = s.connectionEpoch + 1 :=
    congrArg (· + 1) hepoch
  have hidle : ∀ {epoch c}, (TelemetryClient.connect s.currentRunId s).calls epoch = some c →
      ¬c.stage.Live := by
    intro epoch c hc
    rcases hnew hc with ⟨-, rfl⟩ | ⟨-, hidle⟩
    · show ¬ConnectStage.fetching.Live
      decide
    · exact hidle
  refine ⟨⟨fun epoch c hc => ?_, fun epoch c hc hlive => absurd hlive (hidle hc), fun epoch =>
    ⟨fun hactive => ?_, ?_⟩⟩, ⟨⟨s.currentRunId, none, .fetching⟩, ?_, hrun.symm, Or.inl rfl⟩,
    fun hstatus => (nomatch hstatus), ?_⟩
  · rw [hlast]
    rcases hnew hc with ⟨rfl, -⟩ | ⟨hle, -⟩
    · exact le_rfl
    · omega
  · have hactive' : s.closeActive.activeWebSocket = some epoch := hactive
    rw [hnone] at hactive'
    exact nomatch hactive'
  · rintro ⟨c, hc, hlive⟩
    exact absurd hlive (hidle hc)
  · exact Function.update_self ..
  · show s.closeActive.view.Drawable
    rw [hsame]
    exact hview

/-- A call that is not live before and after a step is not in use. -/
theorem OneSocket.goto (h : s.OneSocket) {epoch : ℕ} {c : ConnectCall R}
    (hc : s.calls epoch = some c) (hold : ¬c.stage.Live) {stage : ConnectStage}
    (hnew : ¬stage.Live) : (s.goto epoch c stage).OneSocket := by
  refine ⟨fun epoch' c' hc' => ?_, fun epoch' c' hc' hlive => ?_, fun epoch' => ?_⟩
  · rcases calls_goto.mp hc' with ⟨rfl, -⟩ | ⟨-, hc'⟩
    · exact h.made _ c hc
    · exact h.made _ c' hc'
  · rcases calls_goto.mp hc' with ⟨-, rfl⟩ | ⟨-, hc'⟩
    · exact absurd hlive hnew
    · exact h.live _ c' hc' hlive
  · refine (h.active epoch').trans ⟨?_, ?_⟩
    · rintro ⟨c', hc', hlive⟩
      refine ⟨c', calls_goto.mpr (Or.inr ⟨?_, hc'⟩), hlive⟩
      rintro rfl
      rw [hc, Option.some.injEq] at hc'
      exact hold (hc' ▸ hlive)
    · rintro ⟨c', hc', hlive⟩
      rcases calls_goto.mp hc' with ⟨-, rfl⟩ | ⟨-, hc'⟩
      · exact absurd hlive hnew
      · exact ⟨c', hc', hlive⟩

/-- A step that moves the newest call to a live stage, and puts its socket to use. -/
theorem OneSocket.goto_live (h : s.OneSocket) (c : ConnectCall R) (stage : ConnectStage)
    (hstage : stage.Live) (status : ConnectionStatus) :
    ({ s.goto s.connectionEpoch c stage with
      activeWebSocket := some s.connectionEpoch, status := status }).OneSocket := by
  refine ⟨fun epoch c' hc' => ?_, fun epoch c' hc' hlive => ?_, fun epoch => ⟨fun hsome => ?_, ?_⟩⟩
  · rcases calls_goto.mp hc' with ⟨rfl, -⟩ | ⟨-, hc'⟩
    · exact le_rfl
    · exact h.made _ c' hc'
  · rcases calls_goto.mp hc' with ⟨rfl, -⟩ | ⟨-, hc'⟩
    · rfl
    · exact h.live _ c' hc' hlive
  · cases hsome
    exact ⟨_, calls_goto.mpr (Or.inl ⟨rfl, rfl⟩), hstage⟩
  · rintro ⟨c', hc', hlive⟩
    rcases calls_goto.mp hc' with ⟨rfl, -⟩ | ⟨-, hc'⟩
    · rfl
    · exact congrArg some (h.live _ c' hc' hlive).symm

/-- A step of a call that is not the newest, to a stage that is not live. -/
theorem Sound.goto_stale (h : s.Sound) {epoch : ℕ} {c : ConnectCall R}
    (hc : s.calls epoch = some c) (hne : epoch ≠ s.connectionEpoch) {stage : ConnectStage}
    (hstage : ¬stage.Live) : (s.goto epoch c stage).Sound := by
  have hkeep : ∀ {c'}, s.calls s.connectionEpoch = some c' →
      (s.goto epoch c stage).calls s.connectionEpoch = some c' := fun hc' =>
    calls_goto.mpr (Or.inr ⟨hne.symm, hc'⟩)
  obtain ⟨newest, hnewest, hrun, hstages⟩ := h.newest
  refine ⟨h.toOneSocket.goto hc (fun hlive => hne (h.live _ c hc hlive)) hstage,
    ⟨newest, hkeep hnewest, hrun, hstages⟩, fun hstatus => ?_, h.drawable⟩
  obtain ⟨c', hc', hopen⟩ := h.shown hstatus
  exact ⟨c', hkeep hc', hopen⟩

theorem Sound.onFetched (h : s.Sound) {epoch : ℕ} {c : ConnectCall R}
    (hc : s.calls epoch = some c) (ticket : Option Text) : (s.onFetched epoch c ticket).Sound := by
  unfold TelemetryClient.onFetched
  split_ifs with hstage hstale
  · exact h
  · exact h.goto_stale hc hstale (by decide)
  · rw [not_not] at hstage hstale
    subst hstale
    obtain ⟨newest, hnewest, hrun, -⟩ := h.newest
    obtain rfl : c = newest := Option.some.inj (hc.symm.trans hnewest)
    refine ⟨h.toOneSocket.goto_live _ .connecting (Or.inl rfl) s.status,
      ⟨_, calls_goto.mpr (Or.inl ⟨rfl, rfl⟩), hrun, Or.inr (Or.inl (Or.inl rfl))⟩,
      fun hstatus => ?_, h.drawable⟩
    obtain ⟨c', hc', hopen⟩ := h.shown hstatus
    obtain rfl : c = c' := Option.some.inj (hc.symm.trans hc')
    rw [hstage] at hopen
    exact nomatch hopen

theorem Sound.onOpened (h : s.Sound) {epoch : ℕ} {c : ConnectCall R}
    (hc : s.calls epoch = some c) (hstage : c.stage = .connecting) :
    ({ s.goto epoch c .open with status := .connected }).Sound := by
  have hlive : c.stage.Live := Or.inl hstage
  obtain rfl := h.live epoch c hc hlive
  have hactive := (h.active _).mpr ⟨c, hc, hlive⟩
  obtain ⟨newest, hnewest, hrun, -⟩ := h.newest
  obtain rfl : c = newest := Option.some.inj (hc.symm.trans hnewest)
  have hone := h.toOneSocket.goto_live c .open (Or.inr rfl) .connected
  rw [← hactive] at hone
  exact ⟨hone, ⟨_, calls_goto.mpr (Or.inl ⟨rfl, rfl⟩), hrun, Or.inr (Or.inl (Or.inr rfl))⟩,
    fun _ => ⟨_, calls_goto.mpr (Or.inl ⟨rfl, rfl⟩), rfl⟩, h.drawable⟩

theorem Sound.onClosed (h : s.Sound) {epoch : ℕ} {c : ConnectCall R}
    (hc : s.calls epoch = some c) : (s.onClosed epoch c).Sound := by
  unfold TelemetryClient.onClosed
  split
  · exact h
  · next hended =>
    split
    · next hstale => exact h.goto_stale hc (Ne.symm hstale) not_live_closed
    · next hstale =>
      obtain rfl : s.connectionEpoch = epoch := not_not.mp hstale
      obtain ⟨newest, hnewest, hrun, hstages⟩ := h.newest
      obtain rfl : c = newest := Option.some.inj (hc.symm.trans hnewest)
      have hlive : c.stage.Live := by
        rcases hstages with hfetching | hlive | ⟨hclosed, -⟩
        · rw [hfetching] at hended
          exact absurd hended (by decide)
        · exact hlive
        · rw [hclosed] at hended
          exact absurd hended (by decide)
      have hidle : ∀ {epoch c'}, (s.goto s.connectionEpoch c .closed).calls epoch = some c' →
          ¬c'.stage.Live := by
        intro epoch c' hc' hlive'
        rcases calls_goto.mp hc' with ⟨-, rfl⟩ | ⟨hne, hc'⟩
        · exact not_live_closed hlive'
        · exact hne (h.live _ c' hc' hlive')
      rw [if_pos ((h.active _).mpr ⟨c, hc, hlive⟩)]
      refine ⟨⟨fun epoch c' hc' => ?_, fun epoch c' hc' hlive' => absurd hlive' (hidle hc'),
        fun epoch => ⟨fun hnone => (nomatch hnone), ?_⟩⟩,
        ⟨_, calls_goto.mpr (Or.inl ⟨rfl, rfl⟩), hrun, Or.inr (Or.inr ⟨rfl, Nat.succ_pos _⟩)⟩,
        fun hstatus => (nomatch hstatus), h.drawable⟩
      · rcases calls_goto.mp hc' with ⟨rfl, -⟩ | ⟨-, hc'⟩
        · exact le_rfl
        · exact h.made _ c' hc'
      · rintro ⟨c', hc', hlive'⟩
        exact absurd hlive' (hidle hc')

/-- **Every event** keeps what holds between two of them. -/
theorem Sound.exec (h : s.Sound) (event : ClientEvent R P) : (exec event s).Sound := by
  have hframe : ∀ {s' : TelemetryClient R P}, s'.calls = s.calls →
      s'.connectionEpoch = s.connectionEpoch → s'.activeWebSocket = s.activeWebSocket →
      s'.OneSocket := by
    intro s' hcalls hepoch hactive
    refine ⟨?_, ?_, ?_⟩
    · rw [hcalls, hepoch]
      exact h.made
    · rw [hcalls, hepoch]
      exact h.live
    · rw [hcalls, hactive]
      exact h.active
  cases event with
  | switchRun runId =>
    exact (@hframe { s with currentRunId := runId } rfl rfl rfl).connect h.drawable
  | timeout =>
    unfold TelemetryClient.exec
    cases s.timers with
    | zero => exact h
    | succ timers =>
      exact (@hframe { s with timers := timers } rfl rfl rfl).connect h.drawable
  | fetched epoch ticket =>
    show ((s.calls epoch).elim s fun c => s.onFetched epoch c ticket).Sound
    cases hc : s.calls epoch with
    | none => exact h
    | some c => exact h.onFetched hc ticket
  | opened epoch =>
    show ((s.calls epoch).elim s fun c => if c.stage = .connecting then _ else s).Sound
    cases hc : s.calls epoch with
    | none => exact h
    | some c =>
      by_cases hstage : c.stage = .connecting
      · rw [Option.elim_some, if_pos hstage]
        exact h.onOpened hc hstage
      · rw [Option.elim_some, if_neg hstage]
        exact h
  | failed epoch =>
    show ((s.calls epoch).elim s fun c => if c.stage.Live ∨ c.stage = .closing then _ else s).Sound
    cases s.calls epoch with
    | none => exact h
    | some c =>
      by_cases hstage : c.stage.Live ∨ c.stage = .closing
      · rw [Option.elim_some, if_pos hstage]
        exact ⟨hframe rfl rfl rfl, h.newest, fun hstatus => (nomatch hstatus), h.drawable⟩
      · rw [Option.elim_some, if_neg hstage]
        exact h
  | message epoch now frame =>
    show ((s.calls epoch).elim s fun c => if c.stage = .open then _ else s).Sound
    cases s.calls epoch with
    | none => exact h
    | some c =>
      by_cases hstage : c.stage = .open
      · rw [Option.elim_some, if_pos hstage]
        cases frame with
        | none => exact h
        | some frame =>
          exact ⟨hframe rfl rfl rfl, h.newest, h.shown, h.drawable.onMessage now frame⟩
      · rw [Option.elim_some, if_neg hstage]
        exact h
  | closed epoch =>
    show ((s.calls epoch).elim s fun c => s.onClosed epoch c).Sound
    cases hc : s.calls epoch with
    | none => exact h
    | some c => exact h.onClosed hc

theorem sound_init (runId : R) : (init runId : TelemetryClient R P).Sound := by
  have hempty : (⟨runId, 0, none, fun _ => none, 0, .disconnected, .start⟩ :
      TelemetryClient R P).OneSocket :=
    ⟨fun _ _ h => (nomatch h), fun _ _ h => (nomatch h),
      fun _ => ⟨fun h => (nomatch h), fun ⟨_, h, _⟩ => (nomatch h)⟩⟩
  exact hempty.connect ClientView.drawable_start

theorem sound_run (runId : R) (events : List (ClientEvent R P)) :
    (run exec events (init runId)).Sound :=
  run_invariant (I := Sound) (C := fun _ _ => True) (fun _ event h _ => h.exec event)
    (sound_init runId) (along_of_forall fun _ _ _ => trivial)

/-! ## How often it connects -/

theorem closeActive_counts (s : TelemetryClient R P) :
    s.closeActive.connectionEpoch = s.connectionEpoch ∧ s.closeActive.timers = s.timers := by
  unfold closeActive
  split
  · exact ⟨rfl, rfl⟩
  · split
    · exact ⟨rfl, rfl⟩
    · exact ⟨rfl, rfl⟩

theorem connect_counts (runId : R) (s : TelemetryClient R P) :
    (connect runId s).connectionEpoch = s.connectionEpoch + 1 ∧
      (connect runId s).timers = s.timers :=
  ⟨congrArg (· + 1) (closeActive_counts s).1, (closeActive_counts s).2⟩

theorem counts_exec (event : ClientEvent R P) (s : TelemetryClient R P) :
    (exec event s).connectionEpoch + (exec event s).timers ≤
      s.connectionEpoch + s.timers + event.cost := by
  cases event with
  | switchRun runId =>
    obtain ⟨hepoch, htimers⟩ := connect_counts runId { s with currentRunId := runId }
    show (connect _ _).connectionEpoch + (connect _ _).timers ≤ s.connectionEpoch + s.timers + 1
    rw [hepoch, htimers]
    dsimp only
    omega
  | timeout =>
    unfold TelemetryClient.exec
    cases htimers : s.timers with
    | zero => exact le_of_eq (by rw [htimers]; rfl)
    | succ timers =>
      obtain ⟨hepoch, hsame⟩ := connect_counts s.currentRunId { s with timers := timers }
      dsimp only
      rw [hepoch, hsame]
      dsimp only [ClientEvent.cost]
      omega
  | fetched epoch ticket =>
    simp only [TelemetryClient.exec]
    cases s.calls epoch with
    | none => exact le_rfl
    | some c =>
      simp only [Option.elim_some, onFetched]
      split_ifs <;> exact le_rfl
  | opened epoch =>
    simp only [TelemetryClient.exec]
    cases s.calls epoch with
    | none => exact le_rfl
    | some c =>
      simp only [Option.elim_some]
      split_ifs <;> exact le_rfl
  | failed epoch =>
    simp only [TelemetryClient.exec]
    cases s.calls epoch with
    | none => exact le_rfl
    | some c =>
      simp only [Option.elim_some]
      split_ifs <;> exact le_rfl
  | message epoch now frame =>
    simp only [TelemetryClient.exec]
    cases s.calls epoch with
    | none => exact le_rfl
    | some c =>
      simp only [Option.elim_some]
      split_ifs
      · cases frame <;> exact le_rfl
      · exact le_rfl
  | closed epoch =>
    simp only [TelemetryClient.exec, ClientEvent.cost]
    cases s.calls epoch with
    | none => exact Nat.le_succ _
    | some c =>
      simp only [Option.elim_some, onClosed]
      split
      · exact Nat.le_succ _
      · split
        · exact Nat.le_succ _
        · exact (Nat.add_assoc ..).symm.le

theorem counts_run (events : List (ClientEvent R P)) (s : TelemetryClient R P) :
    (run exec events s).connectionEpoch + (run exec events s).timers ≤
      s.connectionEpoch + s.timers + (events.map ClientEvent.cost).sum := by
  induction events generalizing s with
  | nil => exact le_rfl
  | cons event events ih =>
    refine (ih (TelemetryClient.exec event s)).trans ?_
    rw [List.map_cons, List.sum_cons, ← Nat.add_assoc]
    exact Nat.add_le_add_right (counts_exec event s) _

/-- **The telemetry client**, after any events in any order.  A socket that is not closed is the one
in use and for the run on show; `LIVE` is on show with an open socket only; a ticket is being
fetched, a socket is in use or a reconnection is waiting; every call of `connect` but the first is
for a choice of the user or a socket that was closed; a frame is shown only if it comes over the
socket in use; and what is shown can be drawn. -/
theorem telemetry_client (runId : R) (events : List (ClientEvent R P)) :
    let s := run exec events (init runId)
    (∀ epoch c, s.calls epoch = some c → c.stage.Live →
        s.activeWebSocket = some epoch ∧ c.runId = s.currentRunId) ∧
      (s.status = .connected → ∃ epoch c, s.activeWebSocket = some epoch ∧
        s.calls epoch = some c ∧ c.stage = .open) ∧
      ((∃ c, s.calls s.connectionEpoch = some c ∧ c.stage = .fetching) ∨
        s.activeWebSocket.isSome ∨ 0 < s.timers) ∧
      s.connectionEpoch + s.timers ≤ 1 + (events.map ClientEvent.cost).sum ∧
      (∀ epoch now frame, exec (.message epoch now frame) s ≠ s → ∃ c,
        s.calls epoch = some c ∧ s.activeWebSocket = some epoch ∧ c.runId = s.currentRunId) ∧
      s.view.Drawable := by
  intro s
  have h : s.Sound := sound_run runId events
  obtain ⟨newest, hnewest, hrun, hstages⟩ := h.newest
  have hlive : ∀ epoch c, s.calls epoch = some c → c.stage.Live →
      s.activeWebSocket = some epoch ∧ c.runId = s.currentRunId := by
    intro epoch c hc hlive
    refine ⟨(h.active epoch).mpr ⟨c, hc, hlive⟩, ?_⟩
    rw [h.live epoch c hc hlive, hnewest, Option.some.injEq] at hc
    rw [← hc, hrun]
  refine ⟨hlive, fun hstatus => ?_, ?_, ?_, fun epoch now frame hchange => ?_, h.drawable⟩
  · obtain ⟨c, hc, hopen⟩ := h.shown hstatus
    exact ⟨_, c, (hlive _ c hc (Or.inr hopen)).1, hc, hopen⟩
  · rcases hstages with hfetching | hlive' | ⟨-, htimers⟩
    · exact Or.inl ⟨newest, hnewest, hfetching⟩
    · exact Or.inr (Or.inl (Option.isSome_iff_exists.mpr ⟨_, (hlive _ newest hnewest hlive').1⟩))
    · exact Or.inr (Or.inr htimers)
  · exact (counts_run events _).trans_eq (by rfl)
  · cases hc : s.calls epoch with
    | none =>
      refine absurd ?_ hchange
      show (s.calls epoch).elim s _ = s
      rw [hc]
      rfl
    | some c =>
      by_cases hstage : c.stage = .open
      · exact ⟨c, rfl, hlive epoch c hc (Or.inr hstage)⟩
      · refine absurd ?_ hchange
        show (s.calls epoch).elim s (fun c => if c.stage = .open then _ else s) = s
        rw [hc, Option.elim_some, if_neg hstage]

end TelemetryClient

end MatrixFactory
