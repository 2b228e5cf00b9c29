/-
# The single use of a telemetry ticket

A ticket whose `jti` is in the consumed set is rejected, but the test and the insertion are two
steps, and the clean-up drops the `jti` of every ticket, also of those that have not expired.

If no two handshakes of one ticket overlap between test and insertion, if no ticket that was
consumed can still be used when the set is cleared, and if the clock is never set back, then
every ticket is accepted at most once.
-/
import MatrixFactory.Handshake

namespace MatrixFactory

open Text TicketIssuer Runs

/-! ## The points of a handshake with a ticket -/

namespace SocketStage

/-- The claims that the handshake still needs. -/
def claims : SocketStage → Option Claims
  | .verified c | .unused c | .consumed c | .reaping c _ | .reaped c _ => some c
  | _ => none

/-- Between the test of the expiry and the insertion. -/
def isBetween : SocketStage → Bool
  | .verified _ | .unused _ => true
  | _ => false

/-- Between the test of the consumed set and the insertion. -/
def isUnused : SocketStage → Bool
  | .unused _ => true
  | _ => false

/-- After the insertion. -/
def isSpent : SocketStage → Bool
  | .arrived | .rejected | .verified _ | .unused _ => false
  | _ => true

/-- `modifyHandshake` has returned without an exception. -/
def isAccepted : SocketStage → Bool
  | .accepted | .opened _ | .registering _ _ | .superseding _ _ | .closingPrior _ | .registered
  | .failed => true
  | _ => false

theorem isSpent_of_isAccepted {σ : SocketStage} (h : σ.isAccepted) : σ.isSpent := by
  cases σ with
  | arrived | verified | unused | rejected => cases h
  | _ => rfl

theorem isBetween_of_isSpent {σ : SocketStage} (h : σ.isSpent) : σ.isBetween = false := by
  cases σ with
  | verified | unused => cases h
  | _ => rfl

theorem isUnused_of_isSpent {σ : SocketStage} (h : σ.isSpent) : σ.isUnused = false := by
  cases σ with
  | unused => cases h
  | _ => rfl

end SocketStage

namespace TelemetryServer

/-- The connection `i` presents the ticket. -/
def Presents (s : TelemetryServer) (i : ℕ) (ticket : Text) : Prop :=
  (s.connection i).request.presented = some ticket

/-- The handshake `i` was accepted with the ticket. -/
def Accepts (s : TelemetryServer) (i : ℕ) (ticket : Text) : Prop :=
  s.Presents i ticket ∧ (s.connection i).stage.isAccepted

/-- No ticket was accepted twice. -/
def SingleUse (s : TelemetryServer) : Prop :=
  ∀ i j ticket, s.Accepts i ticket → s.Accepts j ticket → i = j

/-- The ticket of the connection `j` can no longer be used: it has expired, and no handshake
that found it unexpired is still before the insertion. -/
def Lapsed (mac : List UInt8 → List UInt8) (s : TelemetryServer) (j : ℕ) : Prop :=
  ((verifyAndParse mac (s.connection j).request.presented).all
    fun c => c.isExpired s.currentTimeMillis) ∧
  ∀ k < s.arrivals, (s.connection k).request.presented = (s.connection j).request.presented →
    (s.connection k).stage.isBetween = false

instance (mac : List UInt8 → List UInt8) (s : TelemetryServer) (j : ℕ) :
    Decidable (s.Lapsed mac j) := inferInstanceAs (Decidable (_ ∧ _))

/-- The clock is not set back; no handshake tests the consumed set while another one of the same
ticket is between test and insertion; and when the set is cleared every ticket that was inserted
has lapsed. -/
def KeepsApart (mac : List UInt8 → List UInt8) (s : TelemetryServer) : ServerOp → Prop
  | .clock millis => s.currentTimeMillis ≤ millis
  | .step i =>
    match (s.connection i).stage with
    | .verified _ => ∀ j < s.arrivals,
      (s.connection j).request.presented = (s.connection i).request.presented →
        (s.connection j).stage.isUnused = false
    | .reaping _ _ => ∀ j < s.arrivals, (s.connection j).request.presented.isSome →
      (s.connection j).stage.isSpent → s.Lapsed mac j
    | _ => True
  | _ => True

instance (mac : List UInt8 → List UInt8) (s : TelemetryServer) (op : ServerOp) :
    Decidable (s.KeepsApart mac op) := by
  unfold KeepsApart
  split
  · infer_instance
  · split <;> infer_instance
  · infer_instance

/-! ## The invariant -/

/-- A ticket that was inserted is in the set or has lapsed, and at most one handshake of each
ticket has passed the test of the set. -/
structure Apart (mac : List UInt8 → List UInt8) (s : TelemetryServer) : Prop where
  idle : ∀ i, s.arrivals ≤ i → (s.connection i).stage = .rejected
  told : ∀ i c, (s.connection i).stage.claims = some c →
    verifyAndParse mac (s.connection i).request.presented = some c
  held : ∀ i ticket c, s.Presents i ticket → (s.connection i).stage.isSpent →
    verifyAndParse mac (some ticket) = some c →
    c.jti ∈ s.consumedJtis ∨ c.isExpired s.currentTimeMillis ∧
      ∀ k, s.Presents k ticket → (s.connection k).stage.isBetween = false
  alone : ∀ i j ticket, s.Presents i ticket → s.Presents j ticket →
    (s.connection i).stage.isUnused ∨ (s.connection i).stage.isSpent →
    (s.connection j).stage.isUnused ∨ (s.connection j).stage.isSpent → i = j

variable {mac : List UInt8 → List UInt8} {s s' : TelemetryServer}

theorem goto_of_ne {i j : ℕ} (h : j ≠ i) (σ : SocketStage) :
    (s.goto i σ).connection j = s.connection j := Function.update_of_ne h _ _

theorem goto_self (i : ℕ) (σ : SocketStage) :
    (s.goto i σ).connection i = { s.connection i with stage := σ } := Function.update_self _ _ _

theorem presents_goto {i j : ℕ} {σ : SocketStage} {ticket : Text} :
    (s.goto i σ).Presents j ticket ↔ s.Presents j ticket := by
  unfold Presents
  by_cases hj : j = i
  · rw [hj, goto_self]
  · rw [goto_of_ne hj]

theorem Apart.lt_arrivals (h : Apart mac s) {i : ℕ} (hi : (s.connection i).stage ≠ .rejected) :
    i < s.arrivals := by
  by_contra hge
  exact hi (h.idle i (Nat.not_lt.1 hge))

theorem apart_start (now : Int64) : Apart mac (start now) where
  idle _ _ := rfl
  told _ _ h := by cases h
  held _ _ _ h := by cases h
  alone _ _ _ h := by cases h

/-- At most one handshake of a ticket is accepted. -/
theorem Apart.singleUse (h : Apart mac s) : s.SingleUse := by
  rintro i j ticket ⟨hi, hi'⟩ ⟨hj, hj'⟩
  exact h.alone i j ticket hi hj (.inr (SocketStage.isSpent_of_isAccepted hi'))
    (.inr (SocketStage.isSpent_of_isAccepted hj'))

/-- **The frame of a step.**  A step of the connection `i` that passes neither the test of the
set nor the insertion, and drops no `jti`, keeps the invariant. -/
theorem Apart.move (h : Apart mac s) {i : ℕ} {c' : Socket}
    (hconn : s'.connection = Function.update s.connection i c')
    (harrivals : s'.arrivals = s.arrivals) (hnow : s'.currentTimeMillis = s.currentTimeMillis)
    (hjtis : s.consumedJtis ⊆ s'.consumedJtis)
    (hrequest : c'.request = (s.connection i).request)
    (hidle : (s.connection i).stage = .rejected → c'.stage = .rejected)
    (htold : ∀ c, c'.stage.claims = some c →
      verifyAndParse mac (s.connection i).request.presented = some c)
    (hbetween : ∀ ticket c, s.Presents i ticket → verifyAndParse mac (some ticket) = some c →
      c'.stage.isBetween = true →
      (s.connection i).stage.isBetween = true ∨ c.isExpired s.currentTimeMillis = false)
    (hspent : ∀ ticket, s.Presents i ticket → c'.stage.isSpent = true →
      (s.connection i).stage.isSpent = true)
    (hunused : ∀ ticket, s.Presents i ticket → c'.stage.isUnused = true →
      (s.connection i).stage.isUnused = true) : Apart mac s' := by
  have hpresents : ∀ j ticket, s'.Presents j ticket ↔ s.Presents j ticket := by
    intro j ticket
    unfold Presents
    rw [hconn]
    by_cases hj : j = i
    · subst hj
      rw [Function.update_self, hrequest]
    · rw [Function.update_of_ne hj]
  have hother : ∀ j, j ≠ i → s'.connection j = s.connection j := fun j hj => by
    rw [hconn, Function.update_of_ne hj]
  have hself : s'.connection i = c' := by rw [hconn, Function.update_self]
  have hstages : ∀ {P : SocketStage → Bool}, (∀ ticket, s.Presents i ticket → P c'.stage = true →
      P (s.connection i).stage = true) → ∀ j ticket, s.Presents j ticket →
      P (s'.connection j).stage = true → P (s.connection j).stage = true := by
    intro P hP j ticket hj hs
    by_cases hji : j = i
    · subst hji
      rw [hself] at hs
      exact hP ticket hj hs
    · rwa [hother j hji] at hs
  constructor
  · intro j hj
    rw [harrivals] at hj
    by_cases hji : j = i
    · subst hji
      rw [hself]
      exact hidle (h.idle j hj)
    · rw [hother j hji]
      exact h.idle j hj
  · intro j c hc
    by_cases hji : j = i
    · subst hji
      rw [hself] at hc ⊢
      rw [hrequest]
      exact htold c hc
    · rw [hother j hji] at hc ⊢
      exact h.told j c hc
  · intro j ticket c hj hs hv
    rw [hpresents] at hj
    rcases h.held j ticket c hj (hstages hspent j ticket hj hs) hv with hmem | ⟨hexp, hbetw⟩
    · exact .inl (hjtis hmem)
    · refine .inr ⟨by rwa [hnow], fun k hk => ?_⟩
      rw [hpresents] at hk
      by_cases hki : k = i
      · subst hki
        rw [hself, ← Bool.not_eq_true]
        intro hb
        rcases hbetween ticket c hk hv hb with hb' | hfresh
        · rw [hbetw k hk] at hb'
          cases hb'
        · rw [hexp] at hfresh
          cases hfresh
      · rw [hother k hki]
        exact hbetw k hk
  · intro j k ticket hj hk hjs hks
    rw [hpresents] at hj hk
    refine h.alone j k ticket hj hk ?_ ?_
    · exact hjs.imp (hstages hunused j ticket hj) (hstages hspent j ticket hj)
    · exact hks.imp (hstages hunused k ticket hk) (hstages hspent k ticket hk)

/-! ## The steps -/

/-- The verdict on a request: rejected, without a ticket, or with a valid one. -/
theorem admission_cases (env : ServerEnv) (now : Int64) (r : HandshakeRequest) :
    r.admission env now = .rejected ∨
      (r.presented = none ∧ ∃ runId, r.admission env now = .stashing runId (lit "anonymous")) ∨
      ∃ c, r.admission env now = .verified c ∧ verifyAndParse env.mac r.presented = some c ∧
        c.isExpired now = false := by
  unfold HandshakeRequest.admission
  cases hr : r.presented with
  | none =>
    simp only [TicketAuthConfigurator.admitAnonymous]
    split
    · exact .inl rfl
    · split
      · exact .inr (.inl ⟨trivial, none, rfl⟩)
      · split
        · exact .inl rfl
        · next runId _ => exact .inr (.inl ⟨trivial, some runId, rfl⟩)
  | some ticket =>
    simp only [TicketAuthConfigurator.admitTicket]
    cases hv : verifyAndParse env.mac (some ticket) with
    | none => exact .inl rfl
    | some c =>
      simp only
      by_cases hexp : c.isExpired now = true
      · rw [if_pos hexp]
        exact .inl rfl
      · rw [if_neg hexp]
        rw [Bool.not_eq_true] at hexp
        split
        · exact .inr (.inr ⟨c, rfl, rfl, hexp⟩)
        · split
          · exact .inl rfl
          · split
            · exact .inl rfl
            · exact .inr (.inr ⟨c, rfl, rfl, hexp⟩)

/-- After the insertion of its `jti` a handshake goes on to the end. -/
theorem Apart.goOn {env : ServerEnv} (h : Apart env.mac s) {i : ℕ} {c' : Socket}
    (hconn : s'.connection = Function.update s.connection i c')
    (harrivals : s'.arrivals = s.arrivals) (hnow : s'.currentTimeMillis = s.currentTimeMillis)
    (hjtis : s.consumedJtis ⊆ s'.consumedJtis)
    (hrequest : c'.request = (s.connection i).request)
    (hspent : (s.connection i).stage.isSpent) (hspent' : c'.stage.isSpent)
    (hclaims : ∀ c, c'.stage.claims = some c → (s.connection i).stage.claims = some c) :
    Apart env.mac s' := by
  refine h.move hconn harrivals hnow hjtis hrequest ?_ ?_ ?_ ?_ ?_
  · intro hrej
    rw [hrej] at hspent
    cases hspent
  · intro c hc
    exact h.told i c (hclaims c hc)
  · intro _ _ _ _ hb
    rw [SocketStage.isBetween_of_isSpent hspent'] at hb
    cases hb
  · intro _ _ _
    exact hspent
  · intro _ _ hu
    rw [SocketStage.isUnused_of_isSpent hspent'] at hu
    cases hu

theorem Apart.arrived {env : ServerEnv} (h : Apart env.mac s) {i : ℕ}
    (hi : (s.connection i).stage = .arrived) :
    Apart env.mac (s.goto i ((s.connection i).request.admission env s.currentTimeMillis)) := by
  refine h.move rfl rfl rfl (List.Subset.refl _) rfl ?_ ?_ ?_ ?_ ?_ <;> dsimp only
  · intro hrej
    rw [hi] at hrej
    cases hrej
  all_goals
    rcases admission_cases env s.currentTimeMillis (s.connection i).request with
      hadm | ⟨hnone, runId, hadm⟩ | ⟨c', hadm, hv, hexp⟩ <;> rw [hadm]
  -- the claims that are kept are those of the ticket
  · intro c hc
    cases hc
  · intro c hc
    cases hc
  · rintro c ⟨⟩
    exact hv
  · intro _ _ _ _ hb
    cases hb
  · intro _ _ _ _ hb
    cases hb
  · intro ticket c hticket hv' _
    rw [hticket, hv', Option.some.injEq] at hv
    rw [hv]
    exact .inr hexp
  · intro _ _ hs
    cases hs
  · intro _ hticket
    rw [Presents, hnone] at hticket
    cases hticket
  · intro _ _ hs
    cases hs
  · intro _ _ hu
    cases hu
  · intro _ _ hu
    cases hu
  · intro _ _ hu
    cases hu

/-- The test of the consumed set. -/
theorem Apart.verified {env : ServerEnv} (h : Apart env.mac s) {i : ℕ} {c : Claims}
    (hi : (s.connection i).stage = .verified c) (hC : s.KeepsApart env.mac (.step i)) :
    Apart env.mac
      (s.goto i (if c.jti ∈ s.consumedJtis then .rejected else .unused c)) := by
  have htold := h.told i c (by rw [hi]; rfl)
  by_cases hmem : c.jti ∈ s.consumedJtis
  · rw [if_pos hmem]
    refine h.move rfl rfl rfl (List.Subset.refl _) rfl (fun _ => rfl) ?_ ?_ ?_ ?_ <;> dsimp only
    · intro _ hc
      cases hc
    · intro _ _ _ _ hb
      cases hb
    · intro _ _ hs
      cases hs
    · intro _ _ hu
      cases hu
  · rw [if_neg hmem]
    have hlt : i < s.arrivals := h.lt_arrivals (by rw [hi]; exact SocketStage.noConfusion)
    -- no other handshake of the ticket has passed the test
    have hfirst : ∀ j ticket, s.Presents i ticket → s.Presents j ticket →
        ((s.connection j).stage.isUnused ∨ (s.connection j).stage.isSpent) → False := by
      intro j ticket hpi hpj hj
      have hjlt : j < s.arrivals := h.lt_arrivals (by
        rintro hrej
        rw [hrej] at hj
        rcases hj with hj | hj <;> cases hj)
      rcases hj with hj | hj
      · have hnot : ∀ j < s.arrivals, (s.connection j).request.presented =
            (s.connection i).request.presented → (s.connection j).stage.isUnused = false := by
          simpa only [KeepsApart, hi] using hC
        rw [hnot j hjlt (hpj.trans hpi.symm)] at hj
        cases hj
      · rw [hpi] at htold
        rcases h.held j ticket c hpj hj htold with hin | ⟨-, hbetw⟩
        · exact hmem hin
        · have hb := hbetw i hpi
          rw [hi] at hb
          cases hb
    constructor
    · intro j hj
      rw [goto_of_ne (by rintro rfl; exact absurd hlt (Nat.not_lt.2 hj))]
      exact h.idle j hj
    · intro j c' hc'
      by_cases hj : j = i
      · subst hj
        rw [goto_self] at hc' ⊢
        cases hc'
        exact htold
      · rw [goto_of_ne hj] at hc' ⊢
        exact h.told j c' hc'
    · intro j ticket c' hpj hs hv
      rw [presents_goto] at hpj
      by_cases hj : j = i
      · subst hj
        rw [goto_self] at hs
        cases hs
      · rw [goto_of_ne hj] at hs
        refine (h.held j ticket c' hpj hs hv).imp_right fun ⟨hexp, hbetw⟩ => ⟨hexp, fun k hk => ?_⟩
        rw [presents_goto] at hk
        by_cases hki : k = i
        · subst hki
          have hb := hbetw k hk
          rw [hi] at hb
          cases hb
        · rw [goto_of_ne hki]
          exact hbetw k hk
    · intro j k ticket hpj hpk hj hk
      rw [presents_goto] at hpj hpk
      by_cases hji : j = i <;> by_cases hki : k = i
      · rw [hji, hki]
      · subst hji
        rw [goto_of_ne hki] at hk
        exact absurd hk (hfirst k ticket hpj hpk)
      · subst hki
        rw [goto_of_ne hji] at hj
        exact absurd hj (hfirst j ticket hpk hpj)
      · rw [goto_of_ne hji] at hj
        rw [goto_of_ne hki] at hk
        exact h.alone j k ticket hpj hpk hj hk

/-- The insertion. -/
theorem Apart.unused {env : ServerEnv} (h : Apart env.mac s) {i : ℕ} {c : Claims}
    (hi : (s.connection i).stage = .unused c) :
    Apart env.mac ((s.withJtis (c.jti :: s.consumedJtis)).goto i (.consumed c)) := by
  have htold := h.told i c (by rw [hi]; rfl)
  have hlt : i < s.arrivals := h.lt_arrivals (by rw [hi]; exact SocketStage.noConfusion)
  constructor
  · intro j hj
    rw [goto_of_ne (by rintro rfl; exact absurd hlt (Nat.not_lt.2 hj))]
    exact h.idle j hj
  · intro j c' hc'
    by_cases hj : j = i
    · subst hj
      rw [goto_self] at hc' ⊢
      cases hc'
      exact htold
    · rw [goto_of_ne hj] at hc' ⊢
      exact h.told j c' hc'
  · intro j ticket c' hpj hs hv
    rw [presents_goto] at hpj
    by_cases hj : j = i
    · subst hj
      refine .inl ?_
      rw [show (s.connection j).request.presented = some ticket from hpj, hv,
        Option.some.injEq] at htold
      rw [htold]
      exact List.mem_cons_self
    · rw [goto_of_ne hj] at hs
      rcases h.held j ticket c' hpj hs hv with hin | ⟨hexp, hbetw⟩
      · exact .inl (List.mem_cons_of_mem _ hin)
      · refine .inr ⟨hexp, fun k hk => ?_⟩
        rw [presents_goto] at hk
        by_cases hki : k = i
        · subst hki
          rw [goto_self]
          rfl
        · rw [goto_of_ne hki]
          exact hbetw k hk
  · intro j k ticket hpj hpk hj hk
    rw [presents_goto] at hpj hpk
    have hback : ∀ j, ((((s.withJtis (c.jti :: s.consumedJtis)).goto i (.consumed c)).connection
        j).stage.isUnused ∨ (((s.withJtis (c.jti :: s.consumedJtis)).goto i
          (.consumed c)).connection j).stage.isSpent) →
        (s.connection j).stage.isUnused ∨ (s.connection j).stage.isSpent := by
      intro j hj
      by_cases hji : j = i
      · subst hji
        rw [hi]
        exact .inl rfl
      · rwa [goto_of_ne hji] at hj
    exact h.alone j k ticket hpj hpk (hback j hj) (hback k hk)

/-- The clean-up. -/
theorem Apart.reaping {env : ServerEnv} (h : Apart env.mac s) {i : ℕ} {c : Claims} {now : Int64}
    (hi : (s.connection i).stage = .reaping c now) (hC : s.KeepsApart env.mac (.step i)) :
    Apart env.mac ((s.withJtis []).goto i (.reaped c now)) := by
  -- first the step of the connection, then the empty set
  have hgo : Apart env.mac (s.goto i (.reaped c now)) :=
    h.goOn rfl rfl rfl (List.Subset.refl _) rfl (by rw [hi]; rfl) rfl
      (fun _ hc => by rw [hi]; exact hc)
  have hlapsed : ∀ j < s.arrivals, (s.connection j).request.presented.isSome →
      (s.connection j).stage.isSpent → s.Lapsed env.mac j := by
    simpa only [KeepsApart, hi] using hC
  refine ⟨hgo.idle, hgo.told, ?_, hgo.alone⟩
  intro j ticket c' hpj hs hv
  have hpj' : s.Presents j ticket := presents_goto.1 hpj
  have hs' : (s.connection j).stage.isSpent := by
    by_cases hji : j = i
    · subst hji
      rw [hi]
      rfl
    · rwa [goto_of_ne hji] at hs
  have hjlt : j < s.arrivals := h.lt_arrivals (by
    rintro hrej
    rw [hrej] at hs'
    cases hs')
  obtain ⟨hexp, hbetw⟩ := hlapsed j hjlt (by rw [hpj']; rfl) hs'
  rw [hpj', hv] at hexp
  refine .inr ⟨hexp, fun k hk => ?_⟩
  have hk' : s.Presents k ticket := presents_goto.1 hk
  by_cases hki : k = i
  · subst hki
    rw [goto_self]
    rfl
  · rw [goto_of_ne hki]
    by_cases hklt : k < s.arrivals
    · exact hbetw k hklt (hk'.trans hpj'.symm)
    · show (s.connection k).stage.isBetween = false
      rw [h.idle k (Nat.not_lt.1 hklt)]
      rfl

/-- **One step of a connection.** -/
theorem apart_stepConnection {env : ServerEnv} (h : Apart env.mac s) {i : ℕ}
    (hC : s.KeepsApart env.mac (.step i)) : Apart env.mac (s.stepConnection env i) := by
  unfold stepConnection
  cases hi : (s.connection i).stage with
  | arrived => exact h.arrived hi
  | verified c => exact h.verified hi hC
  | unused c => exact h.unused hi
  | reaping c now => exact h.reaping hi hC
  | accepted | rejected | registered | failed => exact h
  | consumed c =>
    refine h.goOn rfl rfl rfl (List.Subset.refl _) rfl (by rw [hi]; rfl) ?_ fun _ hc => ?_
    · split <;> rfl
    · rw [hi]
      revert hc
      dsimp only
      split
      · exact id
      · exact fun hc => nomatch hc
  | opened userProps =>
    refine h.goOn rfl rfl rfl (List.Subset.refl _) rfl (by rw [hi]; rfl) ?_ ?_ <;>
      unfold HandshakeRequest.resolve
    · split
      · rfl
      · split <;> rfl
    · split
      · exact fun _ hc => nomatch hc
      · split <;> exact fun _ hc => nomatch hc
  | stashing runId clientToken =>
    cases runId <;>
    exact h.goOn rfl rfl rfl (List.Subset.refl _) rfl (by rw [hi]; rfl) rfl (fun _ hc => nomatch hc)
  | closingPrior prior =>
    have hgo : Apart env.mac (s.goto i .registered) :=
      h.goOn rfl rfl rfl (List.Subset.refl _) rfl (by rw [hi]; rfl) rfl (fun _ hc => nomatch hc)
    cases prior with
    | none => exact hgo
    | some j =>
      dsimp only [closePrior]
      split
      · exact hgo.move rfl rfl rfl (List.Subset.refl _) rfl id (fun c hc => hgo.told j c hc)
          (fun _ _ _ _ hb => .inl hb) (fun _ _ hs => hs) (fun _ _ hu => hu)
      · exact hgo
  | _ =>
    exact h.goOn rfl rfl rfl (List.Subset.refl _) rfl (by rw [hi]; rfl) rfl (fun _ hc => nomatch hc)

theorem Claims.isExpired_mono {c : Claims} {t t' : Int64} (h : t ≤ t') (hexp : c.isExpired t) :
    c.isExpired t' := by
  simp only [Claims.isExpired, decide_eq_true_eq] at hexp ⊢
  exact Int64.lt_of_lt_of_le hexp h

theorem Apart.clock (h : Apart mac s) {millis : Int64} (hmillis : s.currentTimeMillis ≤ millis) :
    Apart mac { s with currentTimeMillis := millis } where
  idle := h.idle
  told := h.told
  held i ticket c hi hs hv := (h.held i ticket c hi hs hv).imp_right fun ⟨hexp, hbetw⟩ =>
    ⟨Claims.isExpired_mono hmillis hexp, hbetw⟩
  alone := h.alone

theorem Apart.arrive (h : Apart mac s) (r : HandshakeRequest) :
    Apart mac { s.set s.arrivals ⟨r, .arrived, false, none⟩ with arrivals := s.arrivals + 1 } := by
  have hne : ∀ {i}, i ≠ s.arrivals → Function.update s.connection s.arrivals
      ⟨r, .arrived, false, none⟩ i = s.connection i := fun hi => Function.update_of_ne hi _ _
  have hself : Function.update s.connection s.arrivals ⟨r, .arrived, false, none⟩ s.arrivals =
      ⟨r, .arrived, false, none⟩ := Function.update_self _ _ _
  -- the new connection has come to no point that matters
  have hold : ∀ {P : SocketStage → Bool}, P .arrived = false → ∀ i, P (Function.update s.connection
      s.arrivals ⟨r, .arrived, false, none⟩ i).stage = true → i ≠ s.arrivals := by
    rintro P hP i hi rfl
    rw [hself] at hi
    rw [show P _ = false from hP] at hi
    cases hi
  constructor
  · intro i (hi : s.arrivals + 1 ≤ i)
    show (Function.update s.connection s.arrivals _ i).stage = _
    rw [hne (by omega)]
    exact h.idle i (by omega)
  · intro i c (hc : (Function.update s.connection s.arrivals _ i).stage.claims = some c)
    show verifyAndParse mac (Function.update s.connection s.arrivals _ i).request.presented = _
    by_cases hi : i = s.arrivals
    · subst hi
      rw [hself] at hc
      cases hc
    · rw [hne hi] at hc ⊢
      exact h.told i c hc
  · intro i ticket c (hi : (Function.update s.connection s.arrivals _ i).request.presented = _)
      (hs : (Function.update s.connection s.arrivals _ i).stage.isSpent = true) hv
    have hi' := hold (P := SocketStage.isSpent) rfl i hs
    rw [hne hi'] at hi hs
    refine (h.held i ticket c hi hs hv).imp_right fun ⟨hexp, hbetw⟩ => ⟨hexp, fun k hk => ?_⟩
    show (Function.update s.connection s.arrivals _ k).stage.isBetween = false
    by_cases hk' : k = s.arrivals
    · subst hk'
      rw [hself]
      rfl
    · have hk'' : (Function.update s.connection s.arrivals ⟨r, .arrived, false, none⟩
          k).request.presented = some ticket := hk
      rw [hne hk'] at hk'' ⊢
      exact hbetw k hk''
  · intro i j ticket (hi : (Function.update s.connection s.arrivals _ i).request.presented = _)
      (hj : (Function.update s.connection s.arrivals _ j).request.presented = _)
      (his : (Function.update s.connection s.arrivals _ i).stage.isUnused = true ∨
        (Function.update s.connection s.arrivals _ i).stage.isSpent = true)
      (hjs : (Function.update s.connection s.arrivals _ j).stage.isUnused = true ∨
        (Function.update s.connection s.arrivals _ j).stage.isSpent = true)
    have hi' := his.elim (hold (P := SocketStage.isUnused) rfl i)
      (hold (P := SocketStage.isSpent) rfl i)
    have hj' := hjs.elim (hold (P := SocketStage.isUnused) rfl j)
      (hold (P := SocketStage.isSpent) rfl j)
    rw [hne hi'] at hi his
    rw [hne hj'] at hj hjs
    exact h.alone i j ticket hi hj his hjs

/-- **One operation** keeps the tickets apart. -/
theorem apart_exec {env : ServerEnv} {op : ServerOp} (h : Apart env.mac s)
    (hC : s.KeepsApart env.mac op) : Apart env.mac (s.exec env op) := by
  cases op with
  | clock millis => exact h.clock hC
  | arrive r => exact h.arrive r
  | step i => exact apart_stepConnection h hC
  | openSession i =>
    dsimp only [exec]
    split
    · next hi =>
      exact h.goOn rfl rfl rfl (List.Subset.refl _) rfl (by rw [hi]; rfl) rfl
        (fun _ hc => nomatch hc)
    · exact h
  | disconnect i =>
    exact h.move rfl rfl rfl (List.Subset.refl _) rfl id (fun c hc => h.told i c hc)
      (fun _ _ _ _ hb => .inl hb) (fun _ _ hs => hs) (fun _ _ hu => hu)
  | onClose i =>
    dsimp only [exec]
    split
    · exact h
    · exact ⟨h.idle, h.told, h.held, h.alone⟩

/-- **Single use.**  In a run whose steps keep the handshakes of each ticket apart, every ticket
is accepted at most once. -/
theorem singleUse_run (env : ServerEnv) (now : Int64) {ops : List ServerOp}
    (hC : Along (exec env) (fun s op => s.KeepsApart env.mac op) (start now) ops) :
    (run (exec env) ops (start now)).SingleUse :=
  (run_invariant (I := Apart env.mac) (fun _ _ h hC => apart_exec h hC) (apart_start now)
    hC).singleUse

/-- The first ticket is accepted and then refused, another one is accepted. -/
def separateRun : List ServerOp :=
  [ServerOp.arrive (ticketRequest "dash" 0 ⟨0, 0⟩)] ++ List.replicate 6 (ServerOp.step 0) ++
    [ServerOp.clock 5000, .arrive (ticketRequest "dash" 0 ⟨0, 0⟩),
      .arrive (ticketRequest "panel" 0 ⟨0, 1⟩)] ++
    List.replicate 6 (ServerOp.step 1) ++ List.replicate 6 (ServerOp.step 2)

theorem singleUse_separateRun :
    Along (exec openEnv) (fun s op => s.KeepsApart openEnv.mac op) (start 0) separateRun ∧
      (run (exec openEnv) separateRun (start 0)).SingleUse :=
  have hC : Along (exec openEnv) (fun s op => s.KeepsApart openEnv.mac op) (start 0)
      separateRun := by decide
  ⟨hC, singleUse_run openEnv 0 hC⟩

/-- The handshake that comes more than a minute after the last clean-up clears the set with its
own `jti` in it, and the same ticket is accepted again within its ten seconds. -/
def reapRun : List ServerOp :=
  [ServerOp.clock 60001, .arrive (ticketRequest "dash" 60001 ⟨0, 0⟩)] ++
    List.replicate 8 (ServerOp.step 0) ++
    [ServerOp.clock 61001, .arrive (ticketRequest "dash" 60001 ⟨0, 0⟩)] ++
    List.replicate 6 (ServerOp.step 1)

theorem not_singleUse :
    ¬ ∀ (env : ServerEnv) (now : Int64) (ops : List ServerOp),
      (run (exec env) ops (start now)).SingleUse := by
  intro h
  have htwice : (run (exec openEnv) reapRun (start 0)).Accepts 0
        (issue openEnv.mac (lit "dash") 1 (lit "telemetry") 60001 ⟨0, 0⟩) ∧
      (run (exec openEnv) reapRun (start 0)).Accepts 1
        (issue openEnv.mac (lit "dash") 1 (lit "telemetry") 60001 ⟨0, 0⟩) := by
    unfold Accepts Presents
    decide +kernel
  have h01 := h openEnv 0 reapRun 0 1 _ htwice.1 htwice.2
  cases h01

end TelemetryServer

end MatrixFactory
