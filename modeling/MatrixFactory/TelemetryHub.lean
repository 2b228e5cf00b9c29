/-
# The identity of a telemetry session

A handshake hands its run and its client to the session through the user properties of the
endpoint configuration, which all handshakes share.

If every session is opened while the user properties are those of its own handshake, then each
session is registered under its own run and client, and a registration closes only an earlier
session of the same client.
-/
import MatrixFactory.Handshake

namespace MatrixFactory

open Text TicketIssuer Runs

/-- The run and the client of a request: those of its ticket, or without one its parameters. -/
def HandshakeRequest.identity (r : HandshakeRequest) (env : ServerEnv) (i : ℕ) :
    Option (Int32 × Text) :=
  match r.presented with
  | some ticket => (verifyAndParse env.mac (some ticket)).map fun c => (c.runId, c.sub)
  | none => (parseInt (r.runId.getD (lit "0"))).map fun runId =>
    (runId, r.client.getD (env.sessionId i))

/-- The user properties that the handshake puts. -/
def HandshakeRequest.puts (r : HandshakeRequest) (env : ServerEnv) :
    Option (Option Int32 × Text) :=
  match r.presented with
  | some ticket => (verifyAndParse env.mac (some ticket)).map fun c => (some c.runId, c.sub)
  | none => some (r.runId.bind parseInt, lit "anonymous")

/-- The session has been put into `sessionByClientToken`. -/
def SocketStage.isListed : SocketStage → Bool
  | .superseding _ _ | .closingPrior _ | .registered => true
  | _ => false

namespace TelemetryServer

/-- The identity and the user properties of the connection `i`. -/
def identity (env : ServerEnv) (s : TelemetryServer) (i : ℕ) : Option (Int32 × Text) :=
  (s.connection i).request.identity env i

/-- The user properties that the connection `i` puts. -/
def puts (env : ServerEnv) (s : TelemetryServer) (i : ℕ) : Option (Option Int32 × Text) :=
  (s.connection i).request.puts env

/-- The session `j`, which is in the hub already, and the connection `i` are of one client. -/
def SameClient (env : ServerEnv) (s : TelemetryServer) (j i : ℕ) : Prop :=
  j < s.arrivals ∧ i < s.arrivals ∧ (s.connection j).stage.isListed ∧
    ∃ clientToken r r', s.identity env j = some (r, clientToken) ∧
      s.identity env i = some (r', clientToken)

/-- Every session is registered under the run and the client of its own handshake, and a
registration has closed only earlier sessions of the same client. -/
structure OwnIdentity (env : ServerEnv) (s : TelemetryServer) : Prop where
  registered : ∀ i, (s.connection i).stage = .registered → (s.connection i).isOpen →
    ∃ r clientToken, s.identity env i = some (r, clientToken) ∧ s.runIdBySessionId i = some r
  runIds : ∀ i r, s.runIdBySessionId i = some r →
    ∃ clientToken, s.identity env i = some (r, clientToken)
  clients : ∀ i clientToken, s.sessionByClientToken clientToken = some i →
    ∃ r, s.identity env i = some (r, clientToken)
  closings : ∀ i j, (s.connection j).closedBy = some i → j ≠ i ∧ s.SameClient env j i

/-- A session is opened while the user properties are those that its handshake has put.  A
client without a ticket that names a run is called `anonymous`, and one that names no run comes
before any run was put. -/
def OpensOwn (s : TelemetryServer) : ServerOp → Prop
  | .openSession i => (s.connection i).stage = .accepted →
    match (s.connection i).request.presented, (s.connection i).request.runId with
    | some _, _ => s.runIdBy = some i ∧ s.tokenBy = some i
    | none, some _ => s.runIdBy = some i ∧ s.tokenBy = some i ∧
      (s.connection i).request.client = some (lit "anonymous")
    | none, none => s.runIdBy = none
  | _ => True

instance (s : TelemetryServer) (op : ServerOp) : Decidable (s.OpensOwn op) := by
  unfold OpensOwn
  split
  · refine @instDecidableForall _ _ inferInstance ?_
    split <;> infer_instance
  · infer_instance

/-! ## The invariant -/

/-- What a connection knows at a point. -/
def Knows (env : ServerEnv) (s : TelemetryServer) (i : ℕ) : SocketStage → Prop
  | .verified c | .unused c | .consumed c | .reaping c _ | .reaped c _ =>
    s.puts env i = some (some c.runId, c.sub)
  | .stashing runId clientToken => s.puts env i = some (runId, clientToken)
  | .stashingToken clientToken => ∃ runId, s.puts env i = some (runId, clientToken)
  | .opened userProps => ∀ r clientToken,
    (s.connection i).request.resolve userProps (env.sessionId i) = .registering r clientToken →
      s.identity env i = some (r, clientToken)
  | .registering r clientToken => s.identity env i = some (r, clientToken)
  | .superseding r prior => (∃ clientToken, s.identity env i = some (r, clientToken)) ∧
    ∀ j ∈ prior, s.SameClient env j i
  | .closingPrior prior => ∀ j ∈ prior, s.SameClient env j i
  | _ => True

/-- The user properties are those of the connections noted as their writers. -/
structure PutBy (env : ServerEnv) (s : TelemetryServer) (p : UserProperties)
    (runIdBy tokenBy : Option ℕ) : Prop where
  none : runIdBy = none → p.runId = none
  runId : ∀ i, runIdBy = some i → i < s.arrivals ∧
    ∃ r clientToken, s.puts env i = some (some r, clientToken) ∧ p.runId = some r
  token : ∀ i, tokenBy = some i → i < s.arrivals ∧
    ∃ r clientToken, s.puts env i = some (r, clientToken) ∧ p.clientToken = some clientToken

/-- The invariant of the connections, the user properties and the hub. -/
structure Bound (env : ServerEnv) (s : TelemetryServer) : Prop where
  idle : ∀ i, s.arrivals ≤ i → (s.connection i).stage = .rejected
  knows : ∀ i, s.Knows env i (s.connection i).stage
  putBy : s.PutBy env s.userProperties s.runIdBy s.tokenBy
  kept : ∀ i, (s.connection i).isOpen →
    (s.connection i).stage = .registered ∨ (∃ prior, (s.connection i).stage = .closingPrior prior) →
    s.runIdBySessionId i ≠ none
  runIds : ∀ i r, s.runIdBySessionId i = some r → i < s.arrivals ∧
    ∃ clientToken, s.identity env i = some (r, clientToken)
  clients : ∀ i clientToken, s.sessionByClientToken clientToken = some i → i < s.arrivals ∧
    (s.connection i).stage.isListed ∧ ∃ r, s.identity env i = some (r, clientToken)
  closings : ∀ i j, (s.connection j).closedBy = some i → j ≠ i ∧ s.SameClient env j i

variable {env : ServerEnv} {s s' : TelemetryServer}

theorem bound_start (env : ServerEnv) (now : Int64) : Bound env (start now) where
  idle _ _ := rfl
  knows _ := trivial
  putBy := ⟨fun _ => rfl, fun _ h => (nomatch h), fun _ h => (nomatch h)⟩
  kept _ h := nomatch h
  runIds _ _ h := nomatch h
  clients _ _ h := nomatch h
  closings _ _ h := nomatch h

theorem Bound.ownIdentity (h : Bound env s) : s.OwnIdentity env where
  registered i hi hopen := by
    obtain ⟨r, hr⟩ := Option.ne_none_iff_exists'.1 (h.kept i hopen (.inl hi))
    obtain ⟨-, clientToken, hid⟩ := h.runIds i r hr
    exact ⟨r, clientToken, hid, hr⟩
  runIds i r hr := (h.runIds i r hr).2
  clients i clientToken hi := (h.clients i clientToken hi).2.2
  closings := h.closings

theorem Bound.lt_arrivals (h : Bound env s) {i : ℕ} (hi : (s.connection i).stage ≠ .rejected) :
    i < s.arrivals := by
  by_contra hge
  exact hi (h.idle i (Nat.not_lt.1 hge))

/-! ## The frame of a step -/

/-- The connection `i` was changed, but not its request. -/
structure Moved (s s' : TelemetryServer) (i : ℕ) (c' : Socket) : Prop where
  connection : s'.connection = Function.update s.connection i c'
  arrivals : s'.arrivals = s.arrivals
  request : c'.request = (s.connection i).request
  listed : (s.connection i).stage.isListed → c'.stage.isListed
  idle : (s.connection i).stage = .rejected → c'.stage = .rejected

section

variable {i : ℕ} {c' : Socket}

theorem moved_self (i : ℕ) (hconnection : s'.connection = s.connection)
    (harrivals : s'.arrivals = s.arrivals) : Moved s s' i (s.connection i) :=
  ⟨by rw [hconnection, Function.update_eq_self], harrivals, rfl, id, id⟩

theorem Moved.self (hm : Moved s s' i c') : s'.connection i = c' := by
  rw [hm.connection, Function.update_self]

theorem Moved.other (hm : Moved s s' i c') {j : ℕ} (hj : j ≠ i) :
    s'.connection j = s.connection j := by
  rw [hm.connection, Function.update_of_ne hj]

theorem Moved.request_eq (hm : Moved s s' i c') (j : ℕ) :
    (s'.connection j).request = (s.connection j).request := by
  by_cases hj : j = i
  · rw [hj, hm.self, hm.request]
  · rw [hm.other hj]

theorem Moved.identity_eq (hm : Moved s s' i c') (j : ℕ) :
    s'.identity env j = s.identity env j := by
  rw [identity, identity, hm.request_eq]

theorem Moved.puts_eq (hm : Moved s s' i c') (j : ℕ) : s'.puts env j = s.puts env j := by
  rw [puts, puts, hm.request_eq]

theorem Moved.isListed (hm : Moved s s' i c') {j : ℕ} (hj : (s.connection j).stage.isListed) :
    (s'.connection j).stage.isListed := by
  by_cases hji : j = i
  · subst hji
    rw [hm.self]
    exact hm.listed hj
  · rwa [hm.other hji]

theorem Moved.sameClient (hm : Moved s s' i c') {j k : ℕ} (h : s.SameClient env j k) :
    s'.SameClient env j k := by
  obtain ⟨hj, hk, hlisted, hsame⟩ := h
  refine ⟨?_, ?_, hm.isListed hlisted, ?_⟩
  · rwa [hm.arrivals]
  · rwa [hm.arrivals]
  · rwa [hm.identity_eq, hm.identity_eq]

theorem Moved.knows (hm : Moved s s' i c') {j : ℕ} {σ : SocketStage} (h : s.Knows env j σ) :
    s'.Knows env j σ := by
  cases σ with
  | opened userProps =>
    intro r clientToken hr
    rw [hm.request_eq] at hr
    rw [hm.identity_eq]
    exact h r clientToken hr
  | superseding r prior =>
    refine ⟨?_, fun k hk => hm.sameClient (h.2 k hk)⟩
    rw [hm.identity_eq]
    exact h.1
  | closingPrior prior => exact fun k hk => hm.sameClient (h k hk)
  | registering r clientToken =>
    simp only [Knows, hm.identity_eq] at h ⊢
    exact h
  | _ =>
    simp only [Knows, hm.puts_eq] at h ⊢
    try exact h

theorem Moved.putBy (hm : Moved s s' i c') {p : UserProperties} {runIdBy tokenBy : Option ℕ}
    (h : s.PutBy env p runIdBy tokenBy) : s'.PutBy env p runIdBy tokenBy := by
  refine ⟨h.none, fun j hj => ?_, fun j hj => ?_⟩
  · rw [hm.arrivals, hm.puts_eq]
    exact h.runId j hj
  · rw [hm.arrivals, hm.puts_eq]
    exact h.token j hj

/-- **The frame.**  After a change of the connection `i` only what is new about it and about the
shared objects is to be shown, and that in the state before. -/
theorem Bound.move (h : Bound env s) (hm : Moved s s' i c') (hknows : s.Knows env i c'.stage)
    (hputBy : s.PutBy env s'.userProperties s'.runIdBy s'.tokenBy)
    (hkept : c'.isOpen → c'.stage = .registered ∨ (∃ prior, c'.stage = .closingPrior prior) →
      s'.runIdBySessionId i ≠ none)
    (hruns : ∀ j, j ≠ i → s'.runIdBySessionId j = s.runIdBySessionId j)
    (hrun : ∀ r, s'.runIdBySessionId i = some r → i < s.arrivals ∧
      ∃ clientToken, s.identity env i = some (r, clientToken))
    (hclients : ∀ j clientToken, s'.sessionByClientToken clientToken = some j →
      s.sessionByClientToken clientToken = some j ∨ j = i ∧ i < s.arrivals ∧
        c'.stage.isListed ∧ ∃ r, s.identity env i = some (r, clientToken))
    (hclosing : ∀ k, c'.closedBy = some k → i ≠ k ∧ s.SameClient env i k) : Bound env s' := by
  constructor
  · intro j hj
    rw [hm.arrivals] at hj
    by_cases hji : j = i
    · subst hji
      rw [hm.self]
      exact hm.idle (h.idle j hj)
    · rw [hm.other hji]
      exact h.idle j hj
  · intro j
    by_cases hji : j = i
    · subst hji
      rw [hm.self]
      exact hm.knows hknows
    · rw [hm.other hji]
      exact hm.knows (h.knows j)
  · exact hm.putBy hputBy
  · intro j hopen hstage
    by_cases hji : j = i
    · subst hji
      rw [hm.self] at hopen hstage
      exact hkept hopen hstage
    · rw [hm.other hji] at hopen hstage
      rw [hruns j hji]
      exact h.kept j hopen hstage
  · intro j r hr
    rw [hm.arrivals, hm.identity_eq]
    by_cases hji : j = i
    · subst hji
      exact hrun r hr
    · rw [hruns j hji] at hr
      exact h.runIds j r hr
  · intro j clientToken hj
    rw [hm.arrivals, hm.identity_eq]
    rcases hclients j clientToken hj with hold | ⟨rfl, hlt, hlisted, hid⟩
    · obtain ⟨hlt, hlisted, hid⟩ := h.clients j clientToken hold
      exact ⟨hlt, hm.isListed hlisted, hid⟩
    · rw [hm.self]
      exact ⟨hlt, hlisted, hid⟩
  · intro k j hk
    by_cases hji : j = i
    · subst hji
      rw [hm.self] at hk
      exact (hclosing k hk).imp_right hm.sameClient
    · rw [hm.other hji] at hk
      exact (h.closings k j hk).imp_right hm.sameClient

/-- A step that leaves the hub and the user properties as they are. -/
theorem Bound.goto (h : Bound env s) (σ : SocketStage)
    (hlisted : (s.connection i).stage.isListed → σ.isListed)
    (hidle : (s.connection i).stage ≠ .rejected) (hknows : s.Knows env i σ)
    (hkept : (s.connection i).isOpen → σ = .registered ∨ (∃ prior, σ = .closingPrior prior) →
      s.runIdBySessionId i ≠ none)
    {jtis : List Text} {last : Int64} :
    Bound env ({ s with consumedJtis := jtis, lastCleanupMs := last }.goto i σ) :=
  h.move ⟨rfl, rfl, rfl, hlisted, fun hrej => absurd hrej hidle⟩ hknows h.putBy hkept
    (fun _ _ => rfl) (fun r hr => h.runIds i r hr) (fun _ _ hj => .inl hj)
    (fun k hk => h.closings k i hk)

/-- A step before the registration. -/
theorem Bound.advance (h : Bound env s) (σ : SocketStage)
    (hold : (s.connection i).stage.isListed = false) (hnew : σ.isListed = false)
    (hidle : (s.connection i).stage ≠ .rejected) (hknows : s.Knows env i σ) {jtis : List Text}
    {last : Int64} :
    Bound env ({ s with consumedJtis := jtis, lastCleanupMs := last }.goto i σ) := by
  refine h.goto σ (fun hl => ?_) hidle hknows ?_
  · rw [hold] at hl
    cases hl
  · rintro - (rfl | ⟨prior, rfl⟩) <;> cases hnew

end

/-! ## The steps -/

theorem isListed_admission (r : HandshakeRequest) (env : ServerEnv) (now : Int64) :
    (r.admission env now).isListed = false := by
  unfold HandshakeRequest.admission TicketAuthConfigurator.admitAnonymous
    TicketAuthConfigurator.admitTicket
  split
  · split
    · rfl
    · split
      · rfl
      · split <;> rfl
  · split
    · rfl
    · split
      · rfl
      · split
        · rfl
        · split
          · rfl
          · split <;> rfl

theorem isListed_resolve (r : HandshakeRequest) (p : UserProperties) (sessionId : Text) :
    (r.resolve p sessionId).isListed = false := by
  unfold HandshakeRequest.resolve
  split
  · rfl
  · split <;> rfl

/-- What a session has found out is what it registers. -/
theorem knows_resolve {i : ℕ} {p : UserProperties} (h : s.Knows env i (.opened p)) :
    s.Knows env i ((s.connection i).request.resolve p (env.sessionId i)) := by
  cases hr : (s.connection i).request.resolve p (env.sessionId i) with
  | registering r clientToken => exact h r clientToken hr
  | failed => trivial
  | _ =>
    unfold HandshakeRequest.resolve at hr
    split at hr
    · cases hr
    · split at hr <;> cases hr

/-- What a request puts is what its handshake knows after the first tests. -/
theorem knows_admission (i : ℕ) (now : Int64) :
    s.Knows env i ((s.connection i).request.admission env now) := by
  have hputs : s.puts env i = (s.connection i).request.puts env := rfl
  revert hputs
  generalize (s.connection i).request = r
  intro hputs
  unfold HandshakeRequest.puts at hputs
  unfold HandshakeRequest.admission
  cases hr : r.presented with
  | none =>
    simp only [hr] at hputs
    simp only [TicketAuthConfigurator.admitAnonymous]
    split
    · trivial
    · split
      · next hrun =>
        rw [hrun] at hputs
        exact hputs
      · next runIdStr hrun =>
        rw [hrun, Option.bind_some] at hputs
        split
        · trivial
        · next n hparse =>
          rw [hparse] at hputs
          exact hputs
  | some ticket =>
    simp only [hr] at hputs
    simp only [TicketAuthConfigurator.admitTicket]
    cases hv : verifyAndParse env.mac (some ticket) with
    | none => trivial
    | some c =>
      rw [hv, Option.map_some] at hputs
      simp only
      split
      · trivial
      · split
        · exact hputs
        · split
          · trivial
          · split
            · trivial
            · exact hputs

/-- The user properties of the own handshake give the own identity. -/
theorem knows_opened (h : Bound env s) {i : ℕ} (hi : (s.connection i).stage = .accepted)
    (hC : s.OpensOwn (.openSession i)) : s.Knows env i (.opened s.userProperties) := by
  intro r clientToken hr
  have hC' := hC hi
  have hputs : s.puts env i = (s.connection i).request.puts env := rfl
  have hid : s.identity env i = (s.connection i).request.identity env i := rfl
  revert hr hC' hputs hid
  generalize (s.connection i).request = q
  intro hr hC' hputs hid
  rw [hid]
  unfold HandshakeRequest.puts at hputs
  unfold HandshakeRequest.identity
  unfold HandshakeRequest.resolve at hr
  cases hq : q.presented with
  | some ticket =>
    simp only [hq] at hC' hputs ⊢
    obtain ⟨-, n, token, hrun, hprop⟩ := h.putBy.runId i hC'.1
    obtain ⟨-, n', token', htoken, hprop'⟩ := h.putBy.token i hC'.2
    rw [hputs] at hrun htoken
    cases hv : verifyAndParse env.mac (some ticket) with
    | none =>
      rw [hv] at hrun
      cases hrun
    | some c =>
      simp only [hv, Option.map_some, Option.some.injEq, Prod.mk.injEq] at hrun htoken
      rw [hprop, hprop'] at hr
      simp only [Option.getD_some] at hr
      cases hr
      rw [Option.map_some, hrun.1, htoken.2]
  | none =>
    cases hrunId : q.runId with
    | none =>
      simp only [hq, hrunId] at hC' ⊢
      rw [h.putBy.none hC', hrunId] at hr
      revert hr
      cases hp : parseInt ((none : Option Text).getD (lit "0")) with
      | none => exact fun hr => nomatch hr
      | some n =>
        rintro ⟨⟩
        rfl
    | some runIdStr =>
      simp only [hq, hrunId] at hC' hputs ⊢
      obtain ⟨-, n, token, hrun, hprop⟩ := h.putBy.runId i hC'.1
      obtain ⟨-, n', token', htoken, hprop'⟩ := h.putBy.token i hC'.2.1
      rw [hputs, Option.some.injEq, Prod.mk.injEq] at hrun htoken
      rw [hprop, hprop'] at hr
      simp only [Option.getD_some] at hr
      cases hr
      rw [Option.bind_some] at hrun
      rw [Option.getD_some, hrun.1, Option.map_some, hC'.2.2, Option.getD_some, htoken.2]

theorem Bound.putRunId (h : Bound env s) {i : ℕ} {runId : Int32} {clientToken : Text}
    (hi : (s.connection i).stage = .stashing (some runId) clientToken) :
    Bound env ((s.putRunId i runId).goto i (.stashingToken clientToken)) := by
  have hputs : s.puts env i = some (some runId, clientToken) := by
    have hk := h.knows i
    rwa [hi] at hk
  have hlt : i < s.arrivals := h.lt_arrivals (by rw [hi]; exact SocketStage.noConfusion)
  refine h.move ⟨rfl, rfl, rfl, ?_, ?_⟩ ⟨_, hputs⟩ ⟨?_, ?_, h.putBy.token⟩ ?_ (fun _ _ => rfl)
    (fun r hr => h.runIds i r hr) (fun _ _ hj => .inl hj) (fun k hk => h.closings k i hk)
  · rw [hi]
    exact fun hl => nomatch hl
  · rw [hi]
    exact fun hl => nomatch hl
  · exact fun hnone => nomatch hnone
  · rintro j ⟨⟩
    exact ⟨hlt, runId, clientToken, hputs, rfl⟩
  · rintro - (hr | ⟨prior, hr⟩) <;> cases hr

theorem Bound.putToken (h : Bound env s) {i : ℕ} {clientToken : Text}
    (hi : (s.connection i).stage = .stashingToken clientToken) :
    Bound env ((s.putToken i clientToken).goto i .accepted) := by
  obtain ⟨runId, hputs⟩ : ∃ runId, s.puts env i = some (runId, clientToken) := by
    have hk := h.knows i
    rwa [hi] at hk
  have hlt : i < s.arrivals := h.lt_arrivals (by rw [hi]; exact SocketStage.noConfusion)
  refine h.move ⟨rfl, rfl, rfl, ?_, ?_⟩ trivial ⟨h.putBy.none, h.putBy.runId, ?_⟩ ?_
    (fun _ _ => rfl) (fun r hr => h.runIds i r hr) (fun _ _ hj => .inl hj)
    (fun k hk => h.closings k i hk)
  · rw [hi]
    exact fun hl => nomatch hl
  · rw [hi]
    exact fun hl => nomatch hl
  · rintro j ⟨⟩
    exact ⟨hlt, runId, clientToken, hputs, rfl⟩
  · rintro - (hr | ⟨prior, hr⟩) <;> cases hr

/-- `sessionByClientToken.put`: the prior session is of the same client. -/
theorem Bound.list (h : Bound env s) {i : ℕ} {runId : Int32} {clientToken : Text}
    (hi : (s.connection i).stage = .registering runId clientToken) :
    Bound env ({ s with
      sessionByClientToken := Function.update s.sessionByClientToken clientToken (some i) }.goto i
      (.superseding runId (s.sessionByClientToken clientToken))) := by
  have hid : s.identity env i = some (runId, clientToken) := by
    have hk := h.knows i
    rwa [hi] at hk
  have hlt : i < s.arrivals := h.lt_arrivals (by rw [hi]; exact SocketStage.noConfusion)
  refine h.move ⟨rfl, rfl, rfl, fun _ => rfl, ?_⟩ ⟨⟨clientToken, hid⟩, fun j hj => ?_⟩ h.putBy ?_
    (fun _ _ => rfl) (fun r hr => h.runIds i r hr) (fun j token hj => ?_)
    (fun k hk => h.closings k i hk)
  · rw [hi]
    exact fun hl => nomatch hl
  · obtain ⟨hjlt, hlisted, r, hj'⟩ := h.clients j clientToken hj
    exact ⟨hjlt, hlt, hlisted, clientToken, r, runId, hj', hid⟩
  · rintro - (hr | ⟨prior, hr⟩) <;> cases hr
  · have hj' : Function.update s.sessionByClientToken clientToken (some i) token = some j := hj
    by_cases ht : token = clientToken
    · subst ht
      rw [Function.update_self, Option.some.injEq] at hj'
      exact .inr ⟨hj'.symm, hlt, rfl, runId, hid⟩
    · rw [Function.update_of_ne ht] at hj'
      exact .inl hj'

/-- `runIdBySessionId.put`. -/
theorem Bound.supersede (h : Bound env s) {i : ℕ} {runId : Int32} {prior : Option ℕ}
    (hi : (s.connection i).stage = .superseding runId prior) :
    Bound env ({ s with
      runIdBySessionId := Function.update s.runIdBySessionId i (some runId) }.goto i
      (.closingPrior prior)) := by
  obtain ⟨⟨clientToken, hid⟩, hprior⟩ :
      (∃ clientToken, s.identity env i = some (runId, clientToken)) ∧
        ∀ j ∈ prior, s.SameClient env j i := by
    have hk := h.knows i
    rwa [hi] at hk
  have hlt : i < s.arrivals := h.lt_arrivals (by rw [hi]; exact SocketStage.noConfusion)
  refine h.move ⟨rfl, rfl, rfl, fun _ => rfl, ?_⟩ hprior h.putBy (fun _ _ => ?_)
    (fun j hj => Function.update_of_ne hj _ _) (fun r hr => ?_) (fun _ _ hj => .inl hj)
    (fun k hk => h.closings k i hk)
  · rw [hi]
    exact fun hl => nomatch hl
  · show Function.update s.runIdBySessionId i (some runId) i ≠ none
    rw [Function.update_self]
    exact Option.some_ne_none _
  · have hr' : Function.update s.runIdBySessionId i (some runId) i = some r := hr
    rw [Function.update_self, Option.some.injEq] at hr'
    exact ⟨hlt, clientToken, by rw [hid, hr']⟩

/-- The prior session is closed. -/
theorem Bound.closePrior (h : Bound env s) {i : ℕ} {prior : Option ℕ}
    (hi : (s.connection i).stage = .closingPrior prior) :
    Bound env ((s.goto i .registered).closePrior i prior) := by
  have hprior : ∀ j ∈ prior, s.SameClient env j i := by
    have hk := h.knows i
    rwa [hi] at hk
  have hknows : s.Knows env i .registered := trivial
  have hgo : Bound env (s.goto i .registered) :=
    h.goto _ (fun _ => rfl) (by rw [hi]; exact SocketStage.noConfusion) hknows
      fun hopen _ => h.kept i hopen (.inr ⟨prior, hi⟩)
  cases prior with
  | none => exact hgo
  | some j =>
    dsimp only [TelemetryServer.closePrior]
    split
    · next hopen =>
      have hm : Moved s (s.goto i .registered) i { s.connection i with stage := .registered } :=
        ⟨rfl, rfl, rfl, fun _ => rfl, fun hrej => by rw [hi] at hrej; cases hrej⟩
      refine hgo.move (i := j) ⟨rfl, rfl, rfl, fun hl => hl, fun hr => hr⟩ (hgo.knows j) hgo.putBy
        ?_ (fun _ _ => rfl) (fun r hr => hgo.runIds j r hr) (fun _ _ hk => .inl hk) ?_
      · exact fun hclosed => nomatch hclosed
      · rintro k ⟨⟩
        exact ⟨hopen.2, hm.sameClient (hprior j rfl)⟩
    · exact hgo

/-- **One step of a connection.** -/
theorem bound_stepConnection (h : Bound env s) (i : ℕ) : Bound env (s.stepConnection env i) := by
  have hk := h.knows i
  unfold stepConnection
  cases hi : (s.connection i).stage with
  | registering runId clientToken => exact h.list hi
  | superseding runId prior => exact h.supersede hi
  | closingPrior prior => exact h.closePrior hi
  | accepted | rejected | registered | failed => exact h
  | stashingToken clientToken => exact h.putToken hi
  | stashing runId clientToken =>
    rw [hi] at hk
    cases runId with
    | none =>
      exact h.advance (.stashingToken clientToken) (by rw [hi]; rfl) rfl
        (by rw [hi]; exact SocketStage.noConfusion) ⟨none, hk⟩
    | some runId => exact h.putRunId hi
  | arrived =>
    exact h.advance _ (by rw [hi]; rfl) (isListed_admission _ _ _)
      (by rw [hi]; exact SocketStage.noConfusion) (knows_admission i _)
  | opened userProps =>
    rw [hi] at hk
    exact h.advance _ (by rw [hi]; rfl) (isListed_resolve _ _ _)
      (by rw [hi]; exact SocketStage.noConfusion) (knows_resolve hk)
  | verified c =>
    rw [hi] at hk
    dsimp only
    split
    · exact h.advance .rejected (by rw [hi]; rfl) rfl (by rw [hi]; exact SocketStage.noConfusion)
        trivial
    · exact h.advance (.unused c) (by rw [hi]; rfl) rfl
        (by rw [hi]; exact SocketStage.noConfusion) hk
  | consumed c =>
    rw [hi] at hk
    dsimp only
    split
    · exact h.advance (.reaping c _) (by rw [hi]; rfl) rfl
        (by rw [hi]; exact SocketStage.noConfusion) hk
    · exact h.advance (.stashing (some c.runId) c.sub) (by rw [hi]; rfl) rfl
        (by rw [hi]; exact SocketStage.noConfusion) hk
  | unused c =>
    rw [hi] at hk
    exact h.advance (.consumed c) (by rw [hi]; rfl) rfl
      (by rw [hi]; exact SocketStage.noConfusion) hk
  | reaping c now =>
    rw [hi] at hk
    exact h.advance (.reaped c now) (by rw [hi]; rfl) rfl
      (by rw [hi]; exact SocketStage.noConfusion) hk
  | reaped c now =>
    rw [hi] at hk
    exact h.advance (.stashing (some c.runId) c.sub) (by rw [hi]; rfl) rfl
      (by rw [hi]; exact SocketStage.noConfusion) hk

theorem Bound.arrive (h : Bound env s) (r : HandshakeRequest) :
    Bound env { s.set s.arrivals ⟨r, .arrived, false, none⟩ with arrivals := s.arrivals + 1 } := by
  generalize hs' : { s.set s.arrivals ⟨r, .arrived, false, none⟩ with
    arrivals := s.arrivals + 1 } = s'
  have hlt : ∀ {i}, i < s.arrivals → i < s'.arrivals := fun hi => by
    rw [← hs']
    exact Nat.lt_succ_of_lt hi
  have hself : s'.connection s.arrivals = ⟨r, .arrived, false, none⟩ := by
    rw [← hs']
    exact Function.update_self _ _ _
  have hne : ∀ {i}, i ≠ s.arrivals → s'.connection i = s.connection i := fun hi => by
    rw [← hs']
    exact Function.update_of_ne hi _ _
  have hid : ∀ {i}, i < s.arrivals → s'.identity env i = s.identity env i := fun hi => by
    rw [identity, identity, hne (Nat.ne_of_lt hi)]
  have hputs : ∀ {i}, i < s.arrivals → s'.puts env i = s.puts env i := fun hi => by
    rw [puts, puts, hne (Nat.ne_of_lt hi)]
  have hsame : ∀ {j k}, s.SameClient env j k → s'.SameClient env j k := by
    rintro j k ⟨hj, hk, hlisted, hsame⟩
    refine ⟨hlt hj, hlt hk, ?_, ?_⟩
    · rwa [hne (Nat.ne_of_lt hj)]
    · rwa [hid hj, hid hk]
  constructor
  · intro i hi
    rw [← hs'] at hi
    have hi' : s.arrivals + 1 ≤ i := hi
    rw [hne (by omega)]
    exact h.idle i (by omega)
  · intro i
    by_cases hi : i < s.arrivals
    · rw [hne (Nat.ne_of_lt hi)]
      have hk := h.knows i
      cases hσ : (s.connection i).stage with
      | opened userProps =>
        intro q clientToken hq
        rw [hne (Nat.ne_of_lt hi)] at hq
        rw [hid hi]
        rw [hσ] at hk
        exact hk q clientToken hq
      | superseding q prior =>
        rw [hσ] at hk
        refine ⟨?_, fun j hj => hsame (hk.2 j hj)⟩
        rw [hid hi]
        exact hk.1
      | closingPrior prior =>
        rw [hσ] at hk
        exact fun j hj => hsame (hk j hj)
      | _ =>
        rw [hσ] at hk
        simp only [Knows, hid hi, hputs hi] at hk ⊢
        try exact hk
    · by_cases hi' : i = s.arrivals
      · subst hi'
        rw [hself]
        trivial
      · rw [hne hi', h.idle i (by omega)]
        trivial
  · have hputBy : s'.PutBy env s.userProperties s.runIdBy s.tokenBy := by
      refine ⟨h.putBy.none, fun i hi => ?_, fun i hi => ?_⟩
      · obtain ⟨hi', hq⟩ := h.putBy.runId i hi
        rw [hputs hi']
        exact ⟨hlt hi', hq⟩
      · obtain ⟨hi', hq⟩ := h.putBy.token i hi
        rw [hputs hi']
        exact ⟨hlt hi', hq⟩
    rw [← hs'] at hputBy ⊢
    exact hputBy
  · intro i hopen hstage
    by_cases hi : i = s.arrivals
    · subst hi
      rw [hself] at hopen
      cases hopen
    · rw [hne hi] at hopen hstage
      rw [← hs']
      exact h.kept i hopen hstage
  · intro i q hq
    rw [← hs'] at hq
    obtain ⟨hi, hq'⟩ := h.runIds i q hq
    rw [hid hi]
    exact ⟨hlt hi, hq'⟩
  · intro i clientToken hq
    rw [← hs'] at hq
    obtain ⟨hi, hlisted, hq'⟩ := h.clients i clientToken hq
    rw [hid hi, hne (Nat.ne_of_lt hi)]
    exact ⟨hlt hi, hlisted, hq'⟩
  · intro i j hj
    by_cases hji : j = s.arrivals
    · subst hji
      rw [hself] at hj
      cases hj
    · rw [hne hji] at hj
      exact (h.closings i j hj).imp_right hsame

/-- **One operation** keeps the sessions bound to their handshakes. -/
theorem bound_exec {op : ServerOp} (h : Bound env s) (hC : s.OpensOwn op) :
    Bound env (s.exec env op) := by
  cases op with
  | clock millis =>
    exact h.move (moved_self 0 rfl rfl) (h.knows 0) h.putBy (h.kept 0) (fun _ _ => rfl)
      (fun r hr => h.runIds 0 r hr) (fun _ _ hj => .inl hj) (fun k hk => h.closings k 0 hk)
  | arrive r => exact h.arrive r
  | step i => exact bound_stepConnection h i
  | openSession i =>
    dsimp only [exec]
    split
    · next hi =>
      refine h.move ⟨rfl, rfl, rfl, ?_, ?_⟩ (knows_opened h hi hC) h.putBy ?_ (fun _ _ => rfl)
        (fun r hr => h.runIds i r hr) (fun _ _ hj => .inl hj) (fun k hk => h.closings k i hk)
      · rw [hi]
        exact fun hl => nomatch hl
      · rw [hi]
        exact fun hr => nomatch hr
      · rintro - (hr | ⟨prior, hr⟩) <;> cases hr
    · exact h
  | disconnect i =>
    exact h.move ⟨rfl, rfl, rfl, fun hl => hl, fun hr => hr⟩ (h.knows i) h.putBy
      (fun hopen => nomatch hopen) (fun _ _ => rfl) (fun r hr => h.runIds i r hr)
      (fun _ _ hj => .inl hj) (fun k hk => h.closings k i hk)
  | onClose i =>
    dsimp only [exec]
    split
    · exact h
    · next hclosed =>
      refine h.move (moved_self i rfl rfl) (h.knows i) h.putBy (fun hopen => absurd hopen hclosed)
        (fun j hj => Function.update_of_ne hj _ _) (fun r hr => ?_) (fun j token hj => ?_)
        (fun k hk => h.closings k i hk)
      · have hr' : Function.update s.runIdBySessionId i none i = some r := hr
        rw [Function.update_self] at hr'
        cases hr'
      · have hj' : (if s.sessionByClientToken token = some i then none
            else s.sessionByClientToken token) = some j := hj
        split at hj'
        · cases hj'
        · exact .inl hj'

/-- **Own identities.**  In a run in which every session is opened while the user properties are
those of its own handshake, every session is registered under its own run and client, and a
registration closes only an earlier session of the same client. -/
theorem ownIdentity_run (env : ServerEnv) (now : Int64) {ops : List ServerOp}
    (hC : Along (exec env) OpensOwn (start now) ops) :
    (run (exec env) ops (start now)).OwnIdentity env :=
  (run_invariant (I := Bound env) (fun _ _ h hC => bound_exec h hC) (bound_start env now)
    hC).ownIdentity

/-- A client with a ticket and a client without one, each of whose sessions is opened before the
next handshake. -/
def sessionsRun : List ServerOp :=
  [ServerOp.arrive (ticketRequest "dash" 0 ⟨0, 0⟩)] ++ List.replicate 6 (ServerOp.step 0) ++
    [ServerOp.openSession 0] ++ List.replicate 4 (ServerOp.step 0) ++
    [ServerOp.arrive ⟨none, some (lit "2"), some (lit "anonymous")⟩] ++
    List.replicate 3 (ServerOp.step 1) ++ [ServerOp.openSession 1] ++
    List.replicate 4 (ServerOp.step 1)

theorem ownIdentity_sessionsRun :
    Along (exec openEnv) OpensOwn (start 0) sessionsRun ∧
      (run (exec openEnv) sessionsRun (start 0)).OwnIdentity openEnv :=
  have hC : Along (exec openEnv) OpensOwn (start 0) sessionsRun := by decide +kernel
  ⟨hC, ownIdentity_run openEnv 0 hC⟩

/-- A client without a ticket names the run 3; the next one names none and is registered under
the run that the first one left behind. -/
def staleRun : List ServerOp :=
  [ServerOp.arrive ⟨none, some (lit "3"), some (lit "x")⟩] ++ List.replicate 3 (ServerOp.step 0) ++
    [ServerOp.arrive ⟨none, none, some (lit "y")⟩] ++ List.replicate 3 (ServerOp.step 1) ++
    [ServerOp.openSession 1] ++ List.replicate 3 (ServerOp.step 1)

theorem not_ownIdentity :
    ¬ ∀ (env : ServerEnv) (now : Int64) (ops : List ServerOp),
      (run (exec env) ops (start now)).OwnIdentity env := by
  intro h
  have hrun : (run (exec openEnv) staleRun (start 0)).runIdBySessionId 1 = some 3 := by
    decide
  have hid : (run (exec openEnv) staleRun (start 0)).identity openEnv 1 = some (0, lit "y") := by
    decide
  obtain ⟨clientToken, hid'⟩ := (h openEnv 0 staleRun).runIds 1 3 hrun
  rw [hid] at hid'
  exact absurd hid' (by simp)

end TelemetryServer

end MatrixFactory
