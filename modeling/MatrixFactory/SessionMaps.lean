/-
# The maps of the telemetry hub

`TelemetryHub` keeps its sessions by their id, the run of each session by the same id, and the
session of each client token.  A registration with a token in use closes the session before it, and
the close of that session unregisters it later, or has done so before.

Whatever the calls are, the first two maps hold the sessions that were registered last, each under
its own id, and a broadcast reaches those of its run that are open, each of them once.
-/
import MatrixFactory.Lib.Runs
import Mathlib.Data.List.Nodup
import Mathlib.Data.Set.Finite.Basic
import Mathlib.Logic.Function.Basic

namespace MatrixFactory

open Runs

/-- The maps, and which sessions are open. -/
structure TelemetryHub (σ ι τ R : Type) where
  sessionsById : ι → Option σ
  runIdBySessionId : ι → Option R
  sessionByClientToken : τ → Option σ
  isOpen : σ → Bool

/-- The calls, and what the connections do by themselves.  `closes` tells that `close` of the prior
session does not throw. -/
inductive HubOp (σ τ R : Type)
  | register (session : σ) (runId : R) (clientToken : τ) (closes : Bool)
  | unregister (session : σ)
  | setOpen (session : σ) (isOpen : Bool)

/-- The call is not about the session `y`, and gives the token `t` to no session. -/
def HubOp.Leaves {σ τ R : Type} (y : σ) (t : τ) : HubOp σ τ R → Prop
  | .register session _ clientToken _ => session ≠ y ∧ clientToken ≠ t
  | .unregister session => session ≠ y
  | .setOpen _ _ => True

namespace TelemetryHub

variable {σ ι τ R : Type} [DecidableEq σ] [DecidableEq ι] [DecidableEq τ]
  (getId : σ → ι)

/-- Nothing is registered. -/
def empty : TelemetryHub σ ι τ R where
  sessionsById _ := none
  runIdBySessionId _ := none
  sessionByClientToken _ := none
  isOpen _ := false

def register (session : σ) (runId : R) (clientToken : τ) (closes : Bool)
    (s : TelemetryHub σ ι τ R) : TelemetryHub σ ι τ R :=
  let prior := s.sessionByClientToken clientToken
  { sessionsById := Function.update s.sessionsById (getId session) (some session)
    runIdBySessionId := Function.update s.runIdBySessionId (getId session) (some runId)
    sessionByClientToken := Function.update s.sessionByClientToken clientToken (some session)
    isOpen :=
      match prior with
      | none => s.isOpen
      | some x =>
        if s.isOpen x ∧ getId x ≠ getId session ∧ closes then Function.update s.isOpen x false
        else s.isOpen }

def unregister (session : σ) (s : TelemetryHub σ ι τ R) : TelemetryHub σ ι τ R :=
  { s with
    sessionsById := Function.update s.sessionsById (getId session) none
    runIdBySessionId := Function.update s.runIdBySessionId (getId session) none
    sessionByClientToken := fun t =>
      (s.sessionByClientToken t).filter fun existing => getId existing ≠ getId session }

/-- One call. -/
def exec : HubOp σ τ R → TelemetryHub σ ι τ R → TelemetryHub σ ι τ R
  | .register session runId clientToken closes, s =>
    s.register getId session runId clientToken closes
  | .unregister session, s => s.unregister getId session
  | .setOpen session isOpen, s => { s with isOpen := Function.update s.isOpen session isOpen }

/-- The entries of a map, in some order. -/
structure EntrySet (m : ι → Option R) (entries : List (ι × R)) : Prop where
  nodup : entries.Nodup
  mem : ∀ id r, (id, r) ∈ entries ↔ m id = some r

/-! ## Who is registered -/

/-- The run that each session is registered for, after one more call. -/
def registerCall : HubOp σ τ R → (σ → Option R) → σ → Option R
  | .register session runId _ _, registered => Function.update registered session (some runId)
  | .unregister session, registered => Function.update registered session none
  | .setOpen _ _, registered => registered

/-- The run that a session is registered for, after its last `register` or `unregister`. -/
def registeredRun (ops : List (HubOp σ τ R)) (session : σ) : Option R :=
  run registerCall ops (fun _ => none) session

/-- The maps hold the registered sessions, each under its id. -/
structure Holds (s : TelemetryHub σ ι τ R) (registered : σ → Option R) : Prop where
  sessions : ∀ x, s.sessionsById (getId x) = (registered x).map fun _ => x
  runIds : ∀ x, s.runIdBySessionId (getId x) = registered x
  noSession : ∀ i, (∀ x, getId x ≠ i) → s.sessionsById i = none ∧ s.runIdBySessionId i = none
  tokens : ∀ t x, s.sessionByClientToken t = some x → (registered x).isSome

variable {getId} {s : TelemetryHub σ ι τ R} {registered : σ → Option R}

omit [DecidableEq σ] [DecidableEq ι] [DecidableEq τ] in
theorem holds_empty : Holds getId (empty : TelemetryHub σ ι τ R) fun _ => none where
  sessions _ := rfl
  runIds _ := rfl
  noSession _ _ := ⟨rfl, rfl⟩
  tokens _ _ h := nomatch h

/-- A registration puts the session under its id and its token. -/
theorem Holds.register (hid : getId.Injective) (h : Holds getId s registered) (session : σ)
    (runId : R) (clientToken : τ) (closes : Bool) :
    Holds getId (s.register getId session runId clientToken closes)
      (Function.update registered session (some runId)) where
  sessions x := by
    by_cases hx : x = session
    · subst hx
      simp only [TelemetryHub.register, Function.update_self, Option.map_some]
    · have hne : getId x ≠ getId session := fun heq => hx (hid heq)
      simp only [TelemetryHub.register, Function.update_of_ne hne, Function.update_of_ne hx,
        h.sessions]
  runIds x := by
    by_cases hx : x = session
    · subst hx
      simp only [TelemetryHub.register, Function.update_self]
    · have hne : getId x ≠ getId session := fun heq => hx (hid heq)
      simp only [TelemetryHub.register, Function.update_of_ne hne, Function.update_of_ne hx,
        h.runIds]
  noSession i hi := by
    have hne : i ≠ getId session := fun heq => hi session heq.symm
    simp only [TelemetryHub.register, Function.update_of_ne hne]
    exact h.noSession i hi
  tokens t x ht := by
    by_cases hx : x = session
    · rw [hx, Function.update_self]
      rfl
    · rw [Function.update_of_ne hx]
      by_cases htoken : t = clientToken
      · subst htoken
        simp only [TelemetryHub.register, Function.update_self] at ht
        exact absurd (Option.some.inj ht).symm hx
      · simp only [TelemetryHub.register, Function.update_of_ne htoken] at ht
        exact h.tokens t x ht

omit [DecidableEq τ] in
/-- An `unregister` removes the session from all maps, and nothing of another session. -/
theorem Holds.unregister (hid : getId.Injective) (h : Holds getId s registered) (session : σ) :
    Holds getId (s.unregister getId session) (Function.update registered session none) where
  sessions x := by
    by_cases hx : x = session
    · subst hx
      simp only [TelemetryHub.unregister, Function.update_self, Option.map_none]
    · have hne : getId x ≠ getId session := fun heq => hx (hid heq)
      simp only [TelemetryHub.unregister, Function.update_of_ne hne, Function.update_of_ne hx,
        h.sessions]
  runIds x := by
    by_cases hx : x = session
    · subst hx
      simp only [TelemetryHub.unregister, Function.update_self]
    · have hne : getId x ≠ getId session := fun heq => hx (hid heq)
      simp only [TelemetryHub.unregister, Function.update_of_ne hne, Function.update_of_ne hx,
        h.runIds]
  noSession i hi := by
    have hne : i ≠ getId session := fun heq => hi session heq.symm
    simp only [TelemetryHub.unregister, Function.update_of_ne hne]
    exact h.noSession i hi
  tokens t x ht := by
    obtain ⟨hold, hne⟩ := Option.filter_eq_some_iff.mp ht
    have hx : x ≠ session := by
      rintro rfl
      simp at hne
    rw [Function.update_of_ne hx]
    exact h.tokens t x hold

/-- **One call keeps the maps together.** -/
theorem Holds.exec (hid : getId.Injective) (h : Holds getId s registered) (op : HubOp σ τ R) :
    Holds getId (s.exec getId op) (registerCall op registered) := by
  cases op with
  | register session runId clientToken closes =>
    exact h.register hid session runId clientToken closes
  | unregister session => exact h.unregister hid session
  | setOpen session isOpen => exact ⟨h.sessions, h.runIds, h.noSession, h.tokens⟩

theorem Holds.run (hid : getId.Injective) (h : Holds getId s registered)
    (ops : List (HubOp σ τ R)) :
    Holds getId (Runs.run (TelemetryHub.exec getId) ops s)
      (Runs.run registerCall ops registered) := by
  induction ops generalizing s registered with
  | nil => exact h
  | cons op ops ih => exact ih (h.exec hid op)

/-! ## The successor of a session -/

/-- The session `y` is registered for the run `r`, and the token `t` is its own. -/
structure Listed (getId : σ → ι) (s : TelemetryHub σ ι τ R) (y : σ) (r : R) (t : τ) : Prop where
  session : s.sessionsById (getId y) = some y
  runId : s.runIdBySessionId (getId y) = some r
  token : s.sessionByClientToken t = some y

variable {y : σ} {r : R} {t : τ}

theorem listed_register (getId : σ → ι) (s : TelemetryHub σ ι τ R) (y : σ) (r : R) (t : τ)
    (closes : Bool) : Listed getId (s.register getId y r t closes) y r t :=
  ⟨Function.update_self _ _ _, Function.update_self _ _ _, Function.update_self _ _ _⟩

/-- **A call about other sessions and other tokens leaves a session listed.** -/
theorem Listed.exec (hid : getId.Injective) (h : Listed getId s y r t) {op : HubOp σ τ R}
    (hop : op.Leaves y t) : Listed getId (s.exec getId op) y r t := by
  cases op with
  | register session runId clientToken closes =>
    have hne : getId y ≠ getId session := fun heq => hop.1 (hid heq).symm
    refine ⟨?_, ?_, ?_⟩
    · exact (Function.update_of_ne hne _ _).trans h.session
    · exact (Function.update_of_ne hne _ _).trans h.runId
    · exact (Function.update_of_ne hop.2.symm _ _).trans h.token
  | unregister session =>
    have hne : getId y ≠ getId session := fun heq => hop (hid heq).symm
    refine ⟨?_, ?_, ?_⟩
    · exact (Function.update_of_ne hne _ _).trans h.session
    · exact (Function.update_of_ne hne _ _).trans h.runId
    · show (s.sessionByClientToken t).filter _ = some y
      rw [h.token]
      exact Option.filter_some_pos (by simpa using hne)
  | setOpen session isOpen => exact ⟨h.session, h.runId, h.token⟩

theorem Listed.run (hid : getId.Injective) (h : Listed getId s y r t) {ops : List (HubOp σ τ R)}
    (hops : ∀ op ∈ ops, op.Leaves y t) :
    Listed getId (Runs.run (TelemetryHub.exec getId) ops s) y r t :=
  run_invariant (I := fun s => Listed getId s y r t) (C := fun _ op => op.Leaves y t)
    (fun _ _ h hop => h.exec hid hop) h
    (along_of_forall fun _ op hop => hops op hop)

/-! ## The broadcast -/

variable [DecidableEq R]

/-- The loop of `broadcast` over the entries of `runIdBySessionId`: the sessions that the frame is
sent to, and `delivered`. -/
def broadcastFrom (s : TelemetryHub σ ι τ R) (runId : R) : List (ι × R) → Bool → List σ × Bool
  | [], delivered => ([], delivered)
  | (id, r) :: entries, delivered =>
    if r ≠ runId then s.broadcastFrom runId entries delivered
    else
      match s.sessionsById id with
      | none => s.broadcastFrom runId entries delivered
      | some session =>
        if s.isOpen session then
          (session :: (s.broadcastFrom runId entries true).1,
            (s.broadcastFrom runId entries true).2)
        else s.broadcastFrom runId entries delivered

/-- `broadcast`: the sessions that the frame is sent to, and whether it is a failed delivery because
there is none. -/
def broadcast (s : TelemetryHub σ ι τ R) (runId : R) (entries : List (ι × R)) : List σ × Bool :=
  ((s.broadcastFrom runId entries false).1, !(s.broadcastFrom runId entries false).2)

/-- The session that an entry stands for, if the frame is sent to it. -/
def target (s : TelemetryHub σ ι τ R) (runId : R) (entry : ι × R) : Option σ :=
  if entry.2 = runId then (s.sessionsById entry.1).filter s.isOpen else none

omit [DecidableEq σ] [DecidableEq ι] [DecidableEq τ] in
/-- The loop sends to the target of each entry. -/
theorem broadcastFrom_eq (s : TelemetryHub σ ι τ R) (runId : R) (entries : List (ι × R))
    (delivered : Bool) : s.broadcastFrom runId entries delivered =
      (entries.filterMap (s.target runId),
        delivered || !(entries.filterMap (s.target runId)).isEmpty) := by
  induction entries generalizing delivered with
  | nil => simp [broadcastFrom]
  | cons entry entries ih =>
    obtain ⟨id, r⟩ := entry
    rw [broadcastFrom, List.filterMap_cons]
    by_cases hrun : r = runId
    · simp only [target, hrun, ne_eq, not_true_eq_false, if_false, if_true]
      cases hsession : s.sessionsById id with
      | none => exact ih delivered
      | some session =>
        by_cases hopen : s.isOpen session
        · simp only [hopen, if_true, Option.filter_some_pos, ih]
          simp
        · simp only [hopen, Bool.false_eq_true, if_false, Option.filter_some, ih]
    · simp only [target, hrun, ne_eq, not_false_eq_true, if_true, if_false]
      exact ih delivered

omit [DecidableEq ι] [DecidableEq τ] in
/-- The frame is sent to a session once if it is registered for the run and open, and not else. -/
theorem count_broadcast (h : Holds getId s registered) (runId : R)
    {entries : List (ι × R)} (hentries : EntrySet s.runIdBySessionId entries) (x : σ) :
    (s.broadcast runId entries).1.count x =
      if registered x = some runId ∧ s.isOpen x then 1 else 0 := by
  have hmem : ∀ (entry : ι × R) (x : σ), x ∈ s.target runId entry ↔
      entry.2 = runId ∧ s.sessionsById entry.1 = some x ∧ s.isOpen x := by
    intro entry x
    unfold target
    split_ifs with hrun
    · rw [Option.mem_def, Option.filter_eq_some_iff]
      exact ⟨fun h => ⟨hrun, h⟩, fun h => h.2⟩
    · exact ⟨nofun, fun h => absurd h.1 hrun⟩
  -- the map of the sessions gives each of them back under its own id only
  have hown : ∀ i x, s.sessionsById i = some x → i = getId x := by
    intro i x hx
    by_cases hi : ∃ z, getId z = i
    · obtain ⟨z, rfl⟩ := hi
      rw [h.sessions, Option.map_eq_some_iff] at hx
      obtain ⟨-, -, rfl⟩ := hx
      rfl
    · rw [(h.noSession i fun z hz => hi ⟨z, hz⟩).1] at hx
      cases hx
  have hnodup : (entries.filterMap (s.target runId)).Nodup := by
    refine hentries.nodup.filterMap fun e e' x he he' => ?_
    obtain ⟨hrun, hsession, -⟩ := (hmem e x).mp he
    obtain ⟨hrun', hsession', -⟩ := (hmem e' x).mp he'
    exact Prod.ext ((hown _ _ hsession).trans (hown _ _ hsession').symm) (hrun.trans hrun'.symm)
  rw [broadcast, broadcastFrom_eq, hnodup.count]
  refine if_congr ?_ rfl rfl
  rw [List.mem_filterMap]
  constructor
  · rintro ⟨⟨i, r⟩, hentry, hx⟩
    obtain ⟨rfl, hsession, hopen⟩ := (hmem _ x).mp hx
    obtain rfl := hown i x hsession
    rw [hentries.mem, h.runIds] at hentry
    exact ⟨hentry, hopen⟩
  · rintro ⟨hrun, hopen⟩
    refine ⟨(getId x, runId), ?_, (hmem _ x).mpr ⟨rfl, ?_, hopen⟩⟩
    · rw [hentries.mem, h.runIds, hrun]
    · rw [h.sessions, hrun]
      rfl

omit [DecidableEq R] in
/-- A map with one more entry, or one less, has its entries in some order again. -/
theorem EntrySet.update {m : ι → Option R} {entries : List (ι × R)} (h : EntrySet m entries)
    (i : ι) (v : Option R) : ∃ entries', EntrySet (Function.update m i v) entries' := by
  have hkept : ∀ id r, (id, r) ∈ entries.filter (fun e => e.1 ≠ i) ↔ m id = some r ∧ id ≠ i := by
    intro id r
    rw [List.mem_filter, h.mem, decide_eq_true_eq]
  cases v with
  | none =>
    refine ⟨entries.filter fun e => e.1 ≠ i, h.nodup.filter _, fun id r => ?_⟩
    rw [hkept]
    by_cases hid : id = i
    · simp [hid]
    · simp [hid]
  | some v =>
    refine ⟨(i, v) :: entries.filter fun e => e.1 ≠ i, ?_, fun id r => ?_⟩
    · refine List.nodup_cons.mpr ⟨fun hmem => ?_, h.nodup.filter _⟩
      exact ((hkept i v).mp hmem).2 rfl
    · rw [List.mem_cons, hkept, Prod.mk.injEq]
      by_cases hid : id = i
      · subst hid
        simp [Function.update_self, eq_comm]
      · simp [hid]

omit [DecidableEq R] in
/-- The entries of the runs are finitely many at every time, so that they have an order. -/
theorem exists_entrySet (ops : List (HubOp σ τ R)) :
    ∃ entries, EntrySet (Runs.run (TelemetryHub.exec getId) ops empty).runIdBySessionId
      entries := by
  refine run_invariant
    (I := fun s : TelemetryHub σ ι τ R => ∃ entries, EntrySet s.runIdBySessionId entries)
    (C := fun _ _ => True) ?_ ⟨[], List.nodup_nil, fun _ _ => ⟨nofun, nofun⟩⟩
    (along_of_forall fun _ _ _ => trivial)
  rintro s op ⟨entries, h⟩ -
  cases op with
  | register session runId clientToken closes => exact h.update (getId session) (some runId)
  | unregister session => exact h.update (getId session) none
  | setOpen session isOpen => exact ⟨entries, h⟩

/-- **The maps stay together over every sequence of calls**: they hold the sessions registered last,
a token belongs to one of them, the late close of any other session leaves a session listed, and
a broadcast reaches the open sessions of its run once each and no other. -/
theorem hub_consistent (hid : getId.Injective) (ops : List (HubOp σ τ R)) :
    let s := Runs.run (TelemetryHub.exec getId) ops empty
    (∀ i, (s.sessionsById i).isSome ↔ (s.runIdBySessionId i).isSome) ∧
      (∀ t x, s.sessionByClientToken t = some x →
        s.sessionsById (getId x) = some x ∧ (registeredRun ops x).isSome) ∧
      (∀ (x y : σ) (r : R) (t : τ) (closes : Bool) (later : List (HubOp σ τ R)), x ≠ y →
        (∀ op ∈ later, op.Leaves y t) →
        Listed getId (Runs.run (TelemetryHub.exec getId)
          (.register y r t closes :: later ++ [.unregister x]) s) y r t) ∧
      ∀ (runId : R) (entries : List (ι × R)), EntrySet s.runIdBySessionId entries → ∀ x,
        (s.broadcast runId entries).1.count x =
          if registeredRun ops x = some runId ∧ s.isOpen x then 1 else 0 := by
  intro s
  have h : Holds getId s fun x => registeredRun ops x := holds_empty.run hid ops
  refine ⟨fun i => ?_, fun t x ht => ?_, ?_, ?_⟩
  · by_cases hi : ∃ x, getId x = i
    · obtain ⟨x, rfl⟩ := hi
      rw [h.sessions, h.runIds, Option.isSome_map]
    · obtain ⟨hsession, hrun⟩ := h.noSession i fun x hx => hi ⟨x, hx⟩
      rw [hsession, hrun]
      rfl
  · obtain ⟨r, hr⟩ := Option.isSome_iff_exists.mp (h.tokens t x ht)
    refine ⟨?_, h.tokens t x ht⟩
    rw [h.sessions, hr]
    rfl
  · intro x y r t closes later hxy hlater
    rw [List.cons_append, run_cons]
    refine (listed_register getId s y r t closes).run hid fun op hop => ?_
    rcases List.mem_append.mp hop with hop | hop
    · exact hlater op hop
    · rw [List.mem_singleton.mp hop]
      exact hxy
  · exact fun runId entries hentries x => count_broadcast h runId hentries x

/-- A client comes back with the session 1 before the close of its session 0 arrives. -/
def reconnect : List (HubOp ℕ String ℕ) :=
  [.setOpen 0 true, .register 0 7 "client" true, .setOpen 1 true, .register 1 7 "client" true,
    .unregister 0]

theorem hub_consistent_reconnect :
    let s := Runs.run (TelemetryHub.exec id) reconnect empty
    (∀ i, (s.sessionsById i).isSome ↔ (s.runIdBySessionId i).isSome) ∧
      (∀ t x, s.sessionByClientToken t = some x →
        s.sessionsById (id x) = some x ∧ (registeredRun reconnect x).isSome) ∧
      (∀ (x y r : ℕ) (t : String) (closes : Bool) (later : List (HubOp ℕ String ℕ)), x ≠ y →
        (∀ op ∈ later, op.Leaves y t) →
        Listed id (Runs.run (TelemetryHub.exec id)
          (.register y r t closes :: later ++ [.unregister x]) s) y r t) ∧
      ∀ (runId : ℕ) (entries : List (ℕ × ℕ)), EntrySet s.runIdBySessionId entries → ∀ x,
        (s.broadcast runId entries).1.count x =
          if registeredRun reconnect x = some runId ∧ s.isOpen x then 1 else 0 :=
  hub_consistent Function.injective_id reconnect

/-- The frame is sent to the session 1 only. -/
example : ((Runs.run (TelemetryHub.exec id) reconnect empty).broadcast 7 [(1, 7)]).1 = [1] := by
  decide

end TelemetryHub

end MatrixFactory
