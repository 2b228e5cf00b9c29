/-
# The control endpoint

`/control/action` of `TicketHttpServer`: the parameters of a request, from its query or its body,
the check of the ticket, the choice of the run and the action.  The server has no executor of its
own, so the requests are handled one after the other.

The handler keeps no record of the tickets it has accepted, and takes the run from the request
when that of the ticket is negative.  If no ticket that has authorised an action is accepted again,
and a ticket with a negative run only with that run, then a ticket authorises one action, on its own
run.
-/
import MatrixFactory.Ticket
import MatrixFactory.Lib.Runs

namespace Text

/-- `String.trim`. -/
def trim (s : Text) : Text := (s.dropWhile (· ≤ 0x20)).rdropWhile (· ≤ 0x20)

/-- `Character.toUpperCase` and `Character.toLowerCase`. -/
structure CaseTables where
  upper : UInt16 → UInt16
  lower : UInt16 → UInt16

/-- `String.equalsIgnoreCase`. -/
def equalsIgnoreCase (tables : CaseTables) (s t : Text) : Bool :=
  s.length == t.length && (s.zip t).all fun p =>
    p.1 == p.2 || tables.upper p.1 == tables.upper p.2 ||
      tables.lower (tables.upper p.1) == tables.lower (tables.upper p.2)

end Text

namespace MatrixFactory

open Text TicketIssuer TicketHttpServer Runs

/-- The artifact of a station: its id and its setpoints. -/
structure SetpointArtifact (V : Type) where
  stationId : Text
  setpoints : Text → Option V

/-- `adjustSetpoint`. -/
def SetpointArtifact.adjustSetpoint {V : Type} (a : SetpointArtifact V) (paramName : Text)
    (value : V) : SetpointArtifact V :=
  { a with setpoints := Function.update a.setpoints paramName (some value) }

/-- An AMR of the fleet, as far as a breakdown concerns it. -/
structure BreakdownAmr (V : Type) where
  amrId : Text
  downtimeRemainingS : Option V

/-- The artifacts of a simulator that the endpoint acts on; `fleet` is `none` before the AMR
artifact is there. -/
structure ControlledRun (V : Type) where
  stationArtifacts : List (SetpointArtifact V)
  fleet : Option (List (BreakdownAmr V))

namespace ControlledRun

variable {V : Type}

/-- `AMRArtifact.triggerBreakdown`. -/
def triggerBreakdown (amrId : Text) (downtimeSeconds : V) (fleet : List (BreakdownAmr V)) :
    List (BreakdownAmr V) :=
  fleet.map fun a => if a.amrId = amrId then { a with downtimeRemainingS := some downtimeSeconds }
    else a

/-- The loop over the station artifacts: the first one with the id is adjusted. -/
def adjustStation (tables : CaseTables) (stationId paramName : Text) (value : V) :
    List (SetpointArtifact V) → Option (List (SetpointArtifact V))
  | [] => none
  | sta :: rest =>
    if equalsIgnoreCase tables sta.stationId stationId then
      some (sta.adjustSetpoint paramName value :: rest)
    else (adjustStation tables stationId paramName value rest).map (sta :: ·)

end ControlledRun

/-- A request, as the server hands it to the handler. -/
structure HttpRequest where
  method : Text
  query : Option Text
  body : Text
  deriving DecidableEq, Repr

/-- The variables that the handler reads from a request. -/
structure ControlRequest (V : Type) where
  ticket : Option Text
  type : Option Text
  stationId : Option Text
  amrId : Option Text
  paramName : Option Text
  value : V
  downtimeSeconds : V
  runId : Int32
  deriving DecidableEq

/-- The answers; an exception of the handler leaves a request without one. -/
inductive ControlResponse where
  | noContent
  | forbidden
  | ok
  | badRequest
  | aborted
  deriving DecidableEq, Repr

/-- The environment: the MAC, the case tables, `Double.parseDouble` and the defaults `0.0` and
`60.0`. -/
structure ControlEnv (V : Type) where
  mac : List UInt8 → List UInt8
  tables : CaseTables
  parseDouble : Text → Option V
  zero : V
  sixty : V

/-- The simulators of `RunManager`; `applied` notes the actions with their tickets and runs, which
the code does not. -/
structure ControlServer (V : Type) where
  simulators : Int32 → Option (ControlledRun V)
  applied : List (Text × Int32)

namespace TicketHttpServer

variable {V : Type}

/-- `parseJsonSimple`. -/
def parseJsonSimple (json : Text) : Query :=
  if 0x7B ∉ json then []
  else
    let clean := (trim json).filter fun c => c != 0x7B && c != 0x7D && c != 0x22
    ((split 0x2C clean).filterMap fun pair =>
      match split 0x3A pair with
      | key :: value :: _ => some (trim key, trim value)
      | _ => none).reverse

/-- A parameter that keeps its default when the map has no entry for it; `none` where the parser
throws. -/
def parsed {α : Type} (parse : Text → Option α) (q : Query) (key : Text) (dflt : α) : Option α :=
  match q.lookup key with
  | none => some dflt
  | some s => parse s

/-- The parameters of one map, over those read before. -/
def readParameters (env : ControlEnv V) (runKey : Text) (q : Query) (r : ControlRequest V) :
    Option (ControlRequest V) := do
  let value ← parsed env.parseDouble q (lit "value") r.value
  let downtimeSeconds ← parsed env.parseDouble q (lit "downtimeSeconds") r.downtimeSeconds
  let runId ← parsed parseInt q runKey r.runId
  return ⟨q.lookup (lit "ticket"), q.lookup (lit "type"), q.lookup (lit "stationId"),
    q.lookup (lit "amrId"), q.lookup (lit "param"), value, downtimeSeconds, runId⟩

/-- The parameters of a request: those of the query, and without a ticket there those of the body
of a `POST`. -/
def controlRequest (env : ControlEnv V) (x : HttpRequest) : Option (ControlRequest V) := do
  let r : ControlRequest V := ⟨none, none, none, none, none, env.zero, env.sixty, 0⟩
  let r ← match x.query with
    | none => some r
    | some query => readParameters env (lit "run_id") (parseQuery (some query)) r
  if r.ticket.isNone ∧ equalsIgnoreCase env.tables (lit "POST") x.method then
    readParameters env (lit "runId") (parseJsonSimple x.body) r
  else some r

/-- The action on the artifacts of a run; `none` where nothing is executed. -/
def execute (env : ControlEnv V) (r : ControlRequest V) (sim : ControlledRun V) :
    Option (ControlledRun V) :=
  match r.type with
  | none => none
  | some type =>
    match equalsIgnoreCase env.tables (lit "station_setpoint") type, r.stationId, r.paramName with
    | true, some stationId, some paramName =>
      (ControlledRun.adjustStation env.tables stationId paramName r.value
        sim.stationArtifacts).map fun artifacts => { sim with stationArtifacts := artifacts }
    | _, _, _ =>
      match equalsIgnoreCase env.tables (lit "amr_breakdown") type, r.amrId, sim.fleet with
      | true, some amrId, some fleet =>
        some { sim with
          fleet := some (ControlledRun.triggerBreakdown amrId r.downtimeSeconds fleet) }
      | _, _, _ => none

/-- The run of an action. -/
def targetRun (claims : Claims) (r : ControlRequest V) : Int32 :=
  if 0 ≤ claims.runId then claims.runId else r.runId

end TicketHttpServer

namespace ControlServer

variable {V : Type}

/-- The action of a request with the claims `claims`. -/
def act (env : ControlEnv V) (ticket : Text) (claims : Claims) (r : ControlRequest V)
    (s : ControlServer V) : ControlResponse × ControlServer V :=
  match s.simulators (targetRun claims r) with
  | none => (.aborted, s)
  | some sim =>
    match execute env r sim with
    | none => (.badRequest, s)
    | some sim' =>
      (.ok, { s with
        simulators := Function.update s.simulators (targetRun claims r) (some sim')
        applied := (ticket, targetRun claims r) :: s.applied })

/-- `/control/action`, at the time `now`. -/
def handle (env : ControlEnv V) (now : Int64) (x : HttpRequest) (s : ControlServer V) :
    ControlResponse × ControlServer V :=
  if equalsIgnoreCase env.tables (lit "OPTIONS") x.method then (.noContent, s)
  else
    match controlRequest env x with
    | none => (.aborted, s)
    | some r =>
      match r.ticket, verifyAndParse env.mac r.ticket with
      | some ticket, some claims =>
        if claims.isExpired now || claims.scope != lit "control" then (.forbidden, s)
        else s.act env ticket claims r
      | _, _ => (.forbidden, s)

/-- A request at a time, as an operation. -/
def exec (env : ControlEnv V) (op : Int64 × HttpRequest) (s : ControlServer V) : ControlServer V :=
  (s.handle env op.1 op.2).2

/-- Every ticket has authorised one action at most, and only on the run of its own claims. -/
structure AuthorisedOnce (mac : List UInt8 → List UInt8) (s : ControlServer V) : Prop where
  once : (s.applied.map Prod.fst).Nodup
  ownRun : ∀ p ∈ s.applied, ∃ claims, verifyAndParse mac (some p.1) = some claims ∧
    claims.runId = p.2

/-- A ticket that the check accepts has authorised no action before, and if its run is negative
then the request names that run. -/
def FirstUse (env : ControlEnv V) (s : ControlServer V) (op : Int64 × HttpRequest) : Prop :=
  match controlRequest env op.2 with
  | none => True
  | some r => controlAction env.mac r.ticket op.1 = true →
    (∀ p ∈ s.applied, some p.1 ≠ r.ticket) ∧
      (verifyAndParse env.mac r.ticket).all fun claims =>
        0 ≤ claims.runId || r.runId == claims.runId

instance (env : ControlEnv V) (s : ControlServer V) (op : Int64 × HttpRequest) :
    Decidable (s.FirstUse env op) := by
  unfold FirstUse
  split <;> infer_instance

variable {env : ControlEnv V} {s : ControlServer V}

/-- The condition reads nothing but the actions so far. -/
theorem firstUse_congr {s' : ControlServer V} (h : s.applied = s'.applied)
    (op : Int64 × HttpRequest) : s.FirstUse env op ↔ s'.FirstUse env op := by
  unfold FirstUse
  rw [h]

/-- **What a request can do**: nothing, or have its action executed with a ticket that the check
accepts, on the run of the ticket or, when that is negative, on the one it names. -/
theorem handle_cases (env : ControlEnv V) (now : Int64) (x : HttpRequest) (s : ControlServer V) :
    (s.handle env now x).2 = s ∨ ∃ r ticket claims sim sim', controlRequest env x = some r ∧
      r.ticket = some ticket ∧ controlAction env.mac r.ticket now = true ∧
      verifyAndParse env.mac r.ticket = some claims ∧
      s.simulators (targetRun claims r) = some sim ∧ execute env r sim = some sim' ∧
      (s.handle env now x).2 = ⟨Function.update s.simulators (targetRun claims r) (some sim'),
        (ticket, targetRun claims r) :: s.applied⟩ := by
  unfold handle
  split
  · exact .inl rfl
  · cases hr : controlRequest env x with
    | none => exact .inl rfl
    | some r =>
      dsimp only
      split
      · next ticket claims hticket hv =>
        split
        · exact .inl rfl
        · next hcheck =>
          unfold act
          cases hsim : s.simulators (targetRun claims r) with
          | none => exact .inl rfl
          | some sim =>
            dsimp only
            cases hexecute : execute env r sim with
            | none => exact .inl rfl
            | some sim' =>
              refine .inr ⟨r, ticket, claims, sim, sim', rfl, hticket, ?_, hv, hsim, hexecute, rfl⟩
              rw [Bool.not_eq_true] at hcheck
              rw [controlAction, hv]
              simp only [hcheck, Bool.not_false]
      · exact .inl rfl

/-- The artifacts that a setpoint leaves. -/
theorem mem_adjustStation {tables : CaseTables} {stationId paramName : Text} {value : V}
    {l l' : List (SetpointArtifact V)}
    (h : ControlledRun.adjustStation tables stationId paramName value l = some l')
    {a : SetpointArtifact V} (ha : a ∈ l') :
    a ∈ l ∨ ∃ b ∈ l, equalsIgnoreCase tables b.stationId stationId = true ∧
      a = b.adjustSetpoint paramName value := by
  induction l generalizing l' with
  | nil => exact nomatch h
  | cons sta rest ih =>
    unfold ControlledRun.adjustStation at h
    split at h
    · next hid =>
      cases h
      rcases List.mem_cons.1 ha with rfl | ha
      · exact .inr ⟨sta, List.mem_cons_self, hid, rfl⟩
      · exact .inl (List.mem_cons_of_mem sta ha)
    · obtain ⟨rest', hrest, rfl⟩ := Option.map_eq_some_iff.1 h
      rcases List.mem_cons.1 ha with rfl | ha
      · exact .inl List.mem_cons_self
      · rcases ih hrest ha with ha | ⟨b, hb, hid, rfl⟩
        · exact .inl (List.mem_cons_of_mem sta ha)
        · exact .inr ⟨b, List.mem_cons_of_mem sta hb, hid, rfl⟩

/-- An action changes no station, or is a setpoint. -/
theorem execute_cases {r : ControlRequest V} {sim sim' : ControlledRun V}
    (h : execute env r sim = some sim') :
    sim'.stationArtifacts = sim.stationArtifacts ∨ ∃ type stationId paramName,
      r.type = some type ∧ equalsIgnoreCase env.tables (lit "station_setpoint") type = true ∧
      r.stationId = some stationId ∧ r.paramName = some paramName ∧
      ControlledRun.adjustStation env.tables stationId paramName r.value sim.stationArtifacts =
        some sim'.stationArtifacts := by
  unfold execute at h
  cases htype : r.type with
  | none =>
    rw [htype] at h
    exact nomatch h
  | some type =>
    rw [htype] at h
    dsimp only at h
    split at h
    · next stationId paramName heq hstation hparam =>
      obtain ⟨l, hl, rfl⟩ := Option.map_eq_some_iff.1 h
      exact .inr ⟨type, stationId, paramName, rfl, heq, hstation, hparam, hl⟩
    · split at h
      · cases h
        exact .inl rfl
      · exact nomatch h

/-- The run of a first use is that of the ticket. -/
theorem targetRun_eq {claims : Claims} {r : ControlRequest V}
    (h : 0 ≤ claims.runId ∨ r.runId = claims.runId) : targetRun claims r = claims.runId := by
  unfold targetRun
  split
  · rfl
  · next hneg =>
    rcases h with hpos | heq
    · exact absurd hpos hneg
    · exact heq

/-- **One request** keeps the tickets single. -/
theorem authorisedOnce_exec {op : Int64 × HttpRequest} (h : s.AuthorisedOnce env.mac)
    (hC : s.FirstUse env op) : (s.exec env op).AuthorisedOnce env.mac := by
  rcases handle_cases env op.1 op.2 s with
    hs | ⟨r, ticket, claims, _, _, hr, hticket, hcheck, hv, -, -, hs⟩
  · rw [exec, hs]
    exact h
  · unfold FirstUse at hC
    rw [hr] at hC
    obtain ⟨hfresh, hrun⟩ := hC hcheck
    rw [hv, Option.all_some, Bool.or_eq_true, decide_eq_true_eq, beq_iff_eq] at hrun
    rw [hticket] at hfresh hv
    rw [exec, hs]
    constructor
    · rw [List.map_cons, List.nodup_cons]
      refine ⟨fun hmem => ?_, h.once⟩
      obtain ⟨p, hp, hpt⟩ := List.mem_map.1 hmem
      exact hfresh p hp (congrArg some hpt)
    · intro p hp
      rcases List.mem_cons.1 hp with rfl | hp
      · exact ⟨claims, hv, (targetRun_eq hrun).symm⟩
      · exact h.ownRun p hp

/-- A request whose action is executed. -/
theorem exec_executed {now : Int64} {x : HttpRequest} {r : ControlRequest V} {ticket : Text}
    {claims : Claims} {sim sim' : ControlledRun V}
    (hmethod : equalsIgnoreCase env.tables (lit "OPTIONS") x.method = false)
    (hr : controlRequest env x = some r) (hticket : r.ticket = some ticket)
    (hv : verifyAndParse env.mac (some ticket) = some claims)
    (hok : (claims.isExpired now || claims.scope != lit "control") = false)
    (hsim : s.simulators (targetRun claims r) = some sim)
    (hexecute : execute env r sim = some sim') :
    s.exec env (now, x) = ⟨Function.update s.simulators (targetRun claims r) (some sim'),
      (ticket, targetRun claims r) :: s.applied⟩ := by
  rw [exec, handle, if_neg (by rw [hmethod]; exact Bool.false_ne_true), hr]
  dsimp only
  rw [hticket, hv]
  dsimp only
  rw [if_neg (by rw [hok]; exact Bool.false_ne_true), act, hsim]
  dsimp only
  rw [hexecute]

/-- The case tables of the Latin letters. -/
def latin : CaseTables where
  upper c := if 0x61 ≤ c ∧ c ≤ 0x7A then c - 0x20 else c
  lower c := if 0x41 ≤ c ∧ c ≤ 0x5A then c + 0x20 else c

/-- An environment whose numbers are texts. -/
def textEnv : ControlEnv Text := ⟨fun _ => [], latin, some, lit "0", lit "60"⟩

/-- The run 1 with the station `S1`. -/
def oneRun (runId : Int32) : Option (ControlledRun Text) :=
  if runId = 1 then some ⟨[⟨lit "S1", fun _ => none⟩], none⟩ else none

/-- The press temperature of `S1` is set with a control ticket that was issued for the run
`runId` at the time 0. -/
def setpointRequest (runId : Int32) (value : String) (jti : UUID) : HttpRequest :=
  ⟨lit "POST", some (lit "ticket=" ++ issue textEnv.mac (lit "dash") runId (lit "control") 0 jti ++
    lit ("&type=station_setpoint&stationId=s1&param=t_press_k&run_id=1&value=" ++ value)), []⟩

end ControlServer

end MatrixFactory
