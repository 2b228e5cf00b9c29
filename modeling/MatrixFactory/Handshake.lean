/-
# Handshakes of the telemetry socket

`TicketAuthConfigurator.modifyHandshake`, `TelemetryWebSocketEndpoint` and `TelemetryHub` as a
machine: every connection carries the point it has come to, and a step of the machine takes one
connection to its next point.  The set of consumed tickets, the time of its last clean-up, the
user properties of the endpoint configuration and the maps of the hub are shared.

Each step reads or writes one shared object at most.  The tests of a ticket before the one of
the consumed set, which read only the clock, are one step.
-/
import MatrixFactory.Ticket
import MatrixFactory.Lib.Runs
import Mathlib.Logic.Function.Basic

namespace Text

/-- `Character.isWhitespace`. -/
def isWhitespace (c : UInt16) : Bool :=
  (0x9 ≤ c && c ≤ 0xD) || (0x1C ≤ c && c ≤ 0x20) || c == 0x1680 ||
    (0x2000 ≤ c && c ≤ 0x200A && c != 0x2007) || c == 0x2028 || c == 0x2029 || c == 0x205F ||
    c == 0x3000

/-- `String.isBlank`. -/
def isBlank (s : Text) : Bool := s.all isWhitespace

end Text

namespace MatrixFactory

open Text

/-- The query parameters of a handshake. -/
structure HandshakeRequest where
  ticket : Option Text
  runId : Option Text
  client : Option Text
  deriving DecidableEq, Repr

/-- The user properties `run_id` and `client_token`. -/
structure UserProperties where
  runId : Option Int32 := none
  clientToken : Option Text := none
  deriving DecidableEq, Repr

/-- The point a connection has come to. -/
inductive SocketStage where
  | arrived
  /-- The ticket is valid, not expired and for the run. -/
  | verified (claims : Claims)
  /-- `consumedJtis.contains` was false. -/
  | unused (claims : Claims)
  /-- `consumedJtis.add` is done. -/
  | consumed (claims : Claims)
  /-- The clean-up is due at `now`. -/
  | reaping (claims : Claims) (now : Int64)
  /-- `consumedJtis.clear` is done. -/
  | reaped (claims : Claims) (now : Int64)
  /-- The user properties that are still to be put. -/
  | stashing (runId : Option Int32) (clientToken : Text)
  | stashingToken (clientToken : Text)
  /-- `modifyHandshake` has returned. -/
  | accepted
  | rejected
  /-- The session is open, with its copy of the user properties. -/
  | opened (userProps : UserProperties)
  | registering (runId : Int32) (clientToken : Text)
  /-- `sessionByClientToken.put` has returned the prior session. -/
  | superseding (runId : Int32) (prior : Option ℕ)
  | closingPrior (prior : Option ℕ)
  | registered
  | failed
  deriving DecidableEq, Repr

/-- A connection; a registration that has closed its session is noted in `closedBy`. -/
structure Socket where
  request : HandshakeRequest
  stage : SocketStage
  isOpen : Bool := false
  closedBy : Option ℕ := none
  deriving DecidableEq, Repr

/-- The shared state and the connections; `runIdBy` and `tokenBy` note the connections whose
user properties were put last. -/
structure TelemetryServer where
  currentTimeMillis : Int64
  consumedJtis : List Text
  lastCleanupMs : Int64
  userProperties : UserProperties
  runIdBy : Option ℕ
  tokenBy : Option ℕ
  connection : ℕ → Socket
  arrivals : ℕ
  runIdBySessionId : ℕ → Option Int32
  sessionByClientToken : Text → Option ℕ

/-- The environment: the MAC under the key of the process, `TELEMETRY_REQUIRE_TICKET` and the
ids that the container gives to sessions. -/
structure ServerEnv where
  mac : List UInt8 → List UInt8
  requireTicket : Bool
  sessionId : ℕ → Text

/-- What can happen: the clock is set, a request arrives, a connection takes its next step, the
container opens a session, a client closes its session, or the container reports a closed one. -/
inductive ServerOp where
  | clock (millis : Int64)
  | arrive (request : HandshakeRequest)
  | step (i : ℕ)
  | openSession (i : ℕ)
  | disconnect (i : ℕ)
  | onClose (i : ℕ)
  deriving DecidableEq

namespace TicketAuthConfigurator

/-- A minute. -/
def CLEANUP_INTERVAL_MS : Int64 := 60000

/-- The handshake of a client without a ticket. -/
def admitAnonymous (requireTicket : Bool) (runId : Option Text) : SocketStage :=
  if requireTicket then .rejected
  else
    match runId with
    | none => .stashing none (lit "anonymous")
    | some runIdStr =>
      match TicketIssuer.parseInt runIdStr with
      | none => .rejected
      | some runId => .stashing (some runId) (lit "anonymous")

/-- The tests of a ticket before its single use is tested. -/
def admitTicket (mac : List UInt8 → List UInt8) (now : Int64) (ticket : Text)
    (runId : Option Text) : SocketStage :=
  match TicketIssuer.verifyAndParse mac (some ticket) with
  | none => .rejected
  | some claims =>
    if claims.isExpired now then .rejected
    else
      match runId with
      | none => .verified claims
      | some runIdStr =>
        match TicketIssuer.parseInt runIdStr with
        | none => .rejected
        | some requestedRunId =>
          if claims.runId ≠ requestedRunId then .rejected else .verified claims

end TicketAuthConfigurator

/-- The ticket of a request, if it has one that is not blank. -/
def HandshakeRequest.presented (r : HandshakeRequest) : Option Text :=
  r.ticket.filter fun ticket => !isBlank ticket

/-- The beginning of `modifyHandshake`. -/
def HandshakeRequest.admission (env : ServerEnv) (now : Int64) (r : HandshakeRequest) :
    SocketStage :=
  match r.presented with
  | none => TicketAuthConfigurator.admitAnonymous env.requireTicket r.runId
  | some ticket => TicketAuthConfigurator.admitTicket env.mac now ticket r.runId

/-- The beginning of `onOpen`: the run and the client of the session with the id `sessionId`. -/
def HandshakeRequest.resolve (r : HandshakeRequest) (userProps : UserProperties)
    (sessionId : Text) : SocketStage :=
  match userProps.runId with
  | some runId => .registering runId (userProps.clientToken.getD sessionId)
  | none =>
    match TicketIssuer.parseInt (r.runId.getD (lit "0")) with
    | none => .failed
    | some runId => .registering runId (r.client.getD sessionId)

namespace TelemetryServer

/-- No connection yet. -/
def start (now : Int64) : TelemetryServer :=
  ⟨now, [], now, {}, none, none, fun _ => ⟨⟨none, none, none⟩, .rejected, false, none⟩, 0,
    fun _ => none, fun _ => none⟩

/-- The connection `i` is replaced. -/
def set (s : TelemetryServer) (i : ℕ) (c : Socket) : TelemetryServer :=
  { s with connection := Function.update s.connection i c }

/-- The connection `i` goes to another point. -/
def goto (s : TelemetryServer) (i : ℕ) (stage : SocketStage) : TelemetryServer :=
  s.set i { s.connection i with stage := stage }

/-- `consumedJtis.add` and `consumedJtis.clear`. -/
def withJtis (s : TelemetryServer) (jtis : List Text) : TelemetryServer :=
  { s with consumedJtis := jtis }

/-- `getUserProperties().put("run_id", runId)` by the connection `i`. -/
def putRunId (s : TelemetryServer) (i : ℕ) (runId : Int32) : TelemetryServer :=
  { s with
    userProperties := { s.userProperties with runId := some runId }
    runIdBy := some i }

/-- `getUserProperties().put("client_token", clientToken)` by the connection `i`. -/
def putToken (s : TelemetryServer) (i : ℕ) (clientToken : Text) : TelemetryServer :=
  { s with
    userProperties := { s.userProperties with clientToken := some clientToken }
    tokenBy := some i }

/-- The end of `register`: the prior session is closed if it is open and another one. -/
def closePrior (s : TelemetryServer) (i : ℕ) : Option ℕ → TelemetryServer
  | none => s
  | some j =>
    if (s.connection j).isOpen ∧ j ≠ i then
      s.set j { s.connection j with isOpen := false, closedBy := some i }
    else s

/-- `TelemetryHub.unregister`. -/
def unregister (s : TelemetryServer) (i : ℕ) : TelemetryServer :=
  { s with
    runIdBySessionId := Function.update s.runIdBySessionId i none
    sessionByClientToken := fun token =>
      if s.sessionByClientToken token = some i then none else s.sessionByClientToken token }

/-- The next step of the connection `i`. -/
def stepConnection (env : ServerEnv) (i : ℕ) (s : TelemetryServer) : TelemetryServer :=
  match (s.connection i).stage with
  | .arrived => s.goto i ((s.connection i).request.admission env s.currentTimeMillis)
  | .verified claims =>
    s.goto i (if claims.jti ∈ s.consumedJtis then .rejected else .unused claims)
  | .unused claims => (s.withJtis (claims.jti :: s.consumedJtis)).goto i (.consumed claims)
  | .consumed claims =>
    let now := s.currentTimeMillis
    s.goto i
      (if now - s.lastCleanupMs > TicketAuthConfigurator.CLEANUP_INTERVAL_MS then
        .reaping claims now
      else .stashing (some claims.runId) claims.sub)
  | .reaping claims now => (s.withJtis []).goto i (.reaped claims now)
  | .reaped claims now =>
    { s with lastCleanupMs := now }.goto i (.stashing (some claims.runId) claims.sub)
  | .stashing none clientToken => s.goto i (.stashingToken clientToken)
  | .stashing (some runId) clientToken => (s.putRunId i runId).goto i (.stashingToken clientToken)
  | .stashingToken clientToken => (s.putToken i clientToken).goto i .accepted
  | .opened userProps => s.goto i ((s.connection i).request.resolve userProps (env.sessionId i))
  | .registering runId clientToken =>
    { s with
      sessionByClientToken := Function.update s.sessionByClientToken clientToken (some i) }.goto i
      (.superseding runId (s.sessionByClientToken clientToken))
  | .superseding runId prior =>
    { s with runIdBySessionId := Function.update s.runIdBySessionId i (some runId) }.goto i
      (.closingPrior prior)
  | .closingPrior prior => (s.goto i .registered).closePrior i prior
  | .accepted | .rejected | .registered | .failed => s

/-- One operation. -/
def exec (env : ServerEnv) (op : ServerOp) (s : TelemetryServer) : TelemetryServer :=
  match op with
  | .clock millis => { s with currentTimeMillis := millis }
  | .arrive request =>
    { s.set s.arrivals ⟨request, .arrived, false, none⟩ with arrivals := s.arrivals + 1 }
  | .step i => s.stepConnection env i
  | .openSession i =>
    if (s.connection i).stage = .accepted then
      s.set i { s.connection i with stage := .opened s.userProperties, isOpen := true }
    else s
  | .disconnect i => s.set i { s.connection i with isOpen := false }
  | .onClose i => if (s.connection i).isOpen then s else s.unregister i

/-- A server without a key that lets clients without a ticket in. -/
def openEnv : ServerEnv := ⟨fun _ => [], false, fun _ => lit "session"⟩

/-- A client with the ticket that was issued for `sub` and the run 1 at `now`. -/
def ticketRequest (sub : String) (now : Int64) (jti : UUID) : HandshakeRequest :=
  ⟨some (TicketIssuer.issue openEnv.mac (lit sub) 1 (lit "telemetry") now jti), some (lit "1"),
    none⟩

end TelemetryServer

end MatrixFactory
