/-
# A belief that announcements replace

An agent believes a version.  When another one is announced, its plan removes the version
believed, adds the one announced and pursues a goal, whose plan first drops all intentions of
the agent.  Other plans only add the initial version.

While such a plan is under way and nothing else touches the belief, the agent believes the old
version, none, or the new one, as far as the plan has come; so the belief is the last version
announced whenever no such plan is under way, and the goal has been pursued once for each
change.
-/
import MatrixFactory.Lib.Critical

namespace AgentSpeak

variable {N B T S I A V : Type*}

/-- What a statement does to the belief: it removes a version, adds one, pursues the goal that
renews the agent, or drops its intentions; `announces` is for one that pursues an announcement,
which no plan has. -/
inductive VersionRole (V : Type*) where
  | removes (v : V)
  | adds (v : V)
  | renews
  | clears
  | announces
  | other
  deriving DecidableEq

/-- The versions believed, the version that an event announces, the goal that renews the agent,
what its statements do, and the initial version. -/
structure Versioned (B T S V : Type*) where
  version : B → List V
  announced : T → Option V
  renew : T
  role : S → VersionRole V
  initial : V

/-- The versions that an agent has processed, newest first, how often it has been renewed, and
whether it has added a version. -/
structure VersionHistory (V : Type*) where
  processed : List V := []
  renewals : ℕ := 0
  begun : Bool := false
  deriving DecidableEq

namespace VersionHistory

/-- A version is processed. -/
def process (x : V) (h : VersionHistory V) : VersionHistory V :=
  { h with processed := x :: h.processed }

/-- A statement is executed. -/
def perform : Option (VersionRole V) → VersionHistory V → VersionHistory V
  | some .clears, h => { h with renewals := h.renewals + 1 }
  | some (.adds _), h => { h with begun := true }
  | _, h => h

@[simp] theorem process_renewals (x : V) (h : VersionHistory V) :
    (h.process x).renewals = h.renewals := rfl

@[simp] theorem process_begun (x : V) (h : VersionHistory V) :
    (h.process x).begun = h.begun := rfl

/-- The version processed last. -/
def last (initial : V) (h : VersionHistory V) : V := h.processed.headD initial

/-- How often a version is not the one before it; newest first. -/
def countChanges [DecidableEq V] (initial : V) : List V → ℕ
  | [] => 0
  | v :: l => countChanges initial l + if v = l.headD initial then 0 else 1

/-- How often the version has changed. -/
def changes [DecidableEq V] (initial : V) (h : VersionHistory V) : ℕ :=
  countChanges initial h.processed

@[simp] theorem last_process (initial x : V) (h : VersionHistory V) :
    (h.process x).last initial = x := rfl

theorem changes_process [DecidableEq V] (initial x : V) (h : VersionHistory V) :
    (h.process x).changes initial
      = h.changes initial + if x = h.last initial then 0 else 1 := rfl

/-- How often a version is greater than the one before it; newest first. -/
def countIncreases [LT V] [DecidableLT V] (initial : V) : List V → ℕ
  | [] => 0
  | v :: l => countIncreases initial l + if l.headD initial < v then 1 else 0

/-- How often the version has increased. -/
def increases [LT V] [DecidableLT V] (initial : V) (h : VersionHistory V) : ℕ :=
  countIncreases initial h.processed

/-- Versions that never decrease change as often as they increase. -/
theorem changes_eq_increases [LinearOrder V] {initial : V} {h : VersionHistory V}
    (hmono : (h.processed ++ [initial]).Pairwise (· ≥ ·)) :
    h.changes initial = h.increases initial := by
  unfold changes increases
  generalize h.processed = l at hmono
  induction l with
  | nil => rfl
  | cons v l ih =>
    rw [List.cons_append, List.pairwise_cons] at hmono
    have hle : l.headD initial ≤ v := by
      apply hmono.1
      cases l with
      | nil => exact List.mem_singleton_self _
      | cons w l => exact List.mem_cons_self
    rw [countChanges, countIncreases, ih hmono.2]
    congr 1
    rcases eq_or_lt_of_le hle with heq | hlt
    · rw [if_pos heq.symm, if_neg heq.not_lt]
    · rw [if_neg hlt.ne', if_pos hlt]

theorem changes_of_initial [DecidableEq V] {initial : V} {h : VersionHistory V}
    (hall : ∀ v ∈ h.processed, v = initial) :
    h.last initial = initial ∧ h.changes initial = 0 := by
  unfold last changes
  generalize h.processed = l at hall
  induction l with
  | nil => exact ⟨rfl, rfl⟩
  | cons v l ih =>
    obtain ⟨hlast, hzero⟩ := ih fun w hw => hall w (List.mem_cons_of_mem _ hw)
    have hv := hall v List.mem_cons_self
    refine ⟨hv, ?_⟩
    rw [countChanges, hzero, hlast, if_pos hv]

end VersionHistory

namespace Versioned

variable (v : Versioned B T S V)

/-- The section of a change: from the plan that answers an announcement to the statement that
drops the intentions. -/
def critical [DecidableEq T] [DecidableEq V] : Critical T S where
  goal g := g = v.renew || (v.announced g).isSome
  stmt s :=
    match v.role s with
    | .removes _ | .renews | .clears | .announces => true
    | .adds x => x ≠ v.initial
    | .other => false

/-- What a statement that has nothing to do with the belief comes to. -/
def Leaves [DecidableEq T] [DecidableEq V] (b : B) : Outcome B T S A → Prop
  | .next b' code _ => v.version b' = v.version b ∧ ∀ s ∈ code, v.critical.stmt s = false
  | .subgoal g => v.critical.goal g = false
  | .drop goals => goals v.renew = false ∧ ∀ t, (v.announced t).isSome → goals t = false
  | .blocked => True
  | .failed _ => True

/-- The plans and statements of the program are those of an agent that believes a version. -/
structure Governs [DecidableEq T] [DecidableEq V] (prog : Program N B T S I A) : Prop where
  announced_renew : v.announced v.renew = none
  plan_announced : ∀ n b t x, v.announced t = some x →
    (prog.plan n b t).map (List.map v.role)
      = ((v.version b).find? (· ≠ x)).map fun old => [.removes old, .adds x, .renews]
  plan_renew : ∀ n b, ∃ s rest, prog.plan n b v.renew = some (s :: rest) ∧
    v.role s = .clears ∧ ∀ s' ∈ rest, v.critical.stmt s' = false
  plan_other : ∀ n b t body, v.announced t = none → t ≠ v.renew → prog.plan n b t = some body →
    ∀ s ∈ body, v.critical.stmt s = false
  recover : ∀ t t', prog.recover t = some t' → v.announced t' = none ∧ t' ≠ v.renew
  exec_removes : ∀ n b s x old, v.role s = .removes old → ∃ b' acts,
    prog.exec n b s x = .next b' [] acts ∧ v.version b' = (v.version b).erase old
  exec_adds : ∀ n b s x new, v.role s = .adds new → ∃ b' acts,
    prog.exec n b s x = .next b' [] acts ∧ v.version b' = (v.version b).insert new
  exec_renews : ∀ n b s x, v.role s = .renews → prog.exec n b s x = .subgoal v.renew
  exec_clears : ∀ n b s x, v.role s = .clears → ∃ goals, prog.exec n b s x = .drop goals
  exec_other : ∀ n b s x, v.role s = .other → v.Leaves b (prog.exec n b s x)

/-- What the agents have processed after agent `n` has answered its oldest event. -/
def onSelect [DecidableEq N] (n : N) (p : Population N B T S) (h : N → VersionHistory V) :
    N → VersionHistory V :=
  match p.events.find? (·.1 = n) with
  | none => h
  | some e => Function.update h n ((v.announced e.2).elim (h n) (h n).process)

/-- What the agents have done after a move of intention `i`. -/
def onMove [DecidableEq N] (i : ℕ) (p : Population N B T S) (h : N → VersionHistory V) :
    N → VersionHistory V :=
  match p.intentions[i]? with
  | none => h
  | some θ => Function.update h θ.owner ((h θ.owner).perform (θ.head.map v.role))

variable [DecidableEq N] [DecidableEq T] [DecidableEq V]

/-- The condition on answering an event: an announcement is answered while no change is under
way and the agent believes a version, or the initial one is announced; or the change under way
is to the version announced, which no belief contradicts. -/
def InTurn (n : N) (p : Population N B T S) (h : VersionHistory V) : Prop :=
  ∀ e ∈ p.events.find? (·.1 = n), ∀ x ∈ v.announced e.2,
    if v.critical.holders n p = [] then v.version (p.beliefs n) ≠ [] ∨ x = v.initial
    else x = h.last v.initial ∧ ∀ y ∈ v.version (p.beliefs n), y = x

/-- The condition on a move: a version that is added outside a change is added while no other
than the initial one has been processed. -/
def AddsInTime (i : ℕ) (p : Population N B T S) (h : N → VersionHistory V) : Prop :=
  ∀ θ ∈ p.intentions[i]?, ∀ s ∈ θ.head,
    match v.role s with
    | .adds _ => v.critical.holds θ ∨ ∀ y ∈ (h θ.owner).processed, y = v.initial
    | _ => True

instance (n : N) (p : Population N B T S) (h : VersionHistory V) : Decidable (v.InTurn n p h) := by
  unfold InTurn
  infer_instance

instance (i : ℕ) (p : Population N B T S) (h : N → VersionHistory V) :
    Decidable (v.AddsInTime i p h) :=
  have (θ : Intention N T S) (s : S) : Decidable (match v.role s with
      | .adds _ => v.critical.holds θ ∨ ∀ y ∈ (h θ.owner).processed, y = v.initial
      | _ => True) := by
    split <;> infer_instance
  inferInstanceAs (Decidable (∀ θ ∈ p.intentions[i]?, ∀ s ∈ θ.head, _))

/-! ## The change under way -/

/-- How far a change to `x` has come, and which versions the agent then believes. -/
inductive OnWay (believed : List V) (x : V) (n : N) : Intention N T S → Prop
  | entered {t : T} {s₁ s₂ s₃ : S} {old : V} (ht : v.announced t = some x)
      (h₁ : v.role s₁ = .removes old) (h₂ : v.role s₂ = .adds x) (h₃ : v.role s₃ = .renews)
      (hb : believed = [old]) : OnWay believed x n ⟨n, none, [⟨t, [s₁, s₂, s₃]⟩]⟩
  | removed {t : T} {s₂ s₃ : S} (ht : v.announced t = some x) (h₂ : v.role s₂ = .adds x)
      (h₃ : v.role s₃ = .renews) (hb : believed = []) :
      OnWay believed x n ⟨n, none, [⟨t, [s₂, s₃]⟩]⟩
  | added {t : T} {s₃ : S} (ht : v.announced t = some x) (h₃ : v.role s₃ = .renews)
      (hb : believed = [x]) : OnWay believed x n ⟨n, none, [⟨t, [s₃]⟩]⟩
  | waiting {t : T} (ht : v.announced t = some x) (hb : believed = [x]) :
      OnWay believed x n ⟨n, some v.renew, [⟨t, []⟩]⟩
  | renewing {t : T} {s : S} {rest : List S} (ht : v.announced t = some x)
      (hs : v.role s = .clears) (hrest : ∀ s' ∈ rest, v.critical.stmt s' = false)
      (hb : believed = [x]) : OnWay believed x n ⟨n, none, [⟨v.renew, s :: rest⟩, ⟨t, []⟩]⟩

/-- What an agent believes and has done, given the changes of it that are under way. -/
def Believes (believed : List V) (h : VersionHistory V) (n : N) : List (Intention N T S) → Prop
  | [] => (believed = if h.begun then [h.last v.initial] else []) ∧
      h.renewals = h.changes v.initial ∧ (h.begun = false → ∀ x ∈ h.processed, x = v.initial)
  | [θ] => h.begun ∧ v.OnWay believed (h.last v.initial) n θ ∧
      h.renewals + 1 = h.changes v.initial
  | _ :: _ :: _ => False

/-- The agent believes one version at most; once it has added one, and no change is under way,
it believes the version processed last and has been renewed once for each change. -/
def Current (n : N) (p : Population N B T S) (h : VersionHistory V) : Prop :=
  (v.version (p.beliefs n)).length ≤ 1 ∧
    (h.begun → v.critical.holders n p = [] →
      v.version (p.beliefs n) = [h.last v.initial] ∧ h.renewals = h.changes v.initial)

instance (n : N) (p : Population N B T S) (h : VersionHistory V) : Decidable (v.Current n p h) :=
  inferInstanceAs (Decidable (_ ∧ _))

/-- The invariant of a population in which agents believe a version. -/
structure Kept (p : Population N B T S) (h : N → VersionHistory V) : Prop where
  events : ∀ e ∈ p.events, e.2 ≠ v.renew
  believes : ∀ n, v.Believes (v.version (p.beliefs n)) (h n) n (v.critical.holders n p)

variable {v}

omit [DecidableEq N] in
theorem OnWay.holds {believed : List V} {x : V} {n : N} {θ : Intention N T S}
    (h : v.OnWay believed x n θ) : v.critical.holds θ := by
  cases h <;> simp_all [Critical.holds, critical]

/-- A move that drops neither announcements nor the goal keeps a change under way. -/
theorem OnWay.keeps {believed : List V} {x : V} {n : N} {θ : Intention N T S}
    (h : v.OnWay believed x n θ) {m : Move N B T S A} (hrenew : m.drops v.renew = false)
    (hdrops : ∀ t, (v.announced t).isSome → m.drops t = false) : Population.keeps m θ := by
  have hdrop : ∀ {t : T}, v.announced t = some x → m.drops t = false := fun ht =>
    hdrops _ (by rw [ht]; rfl)
  cases h with
  | entered ht => simp [Population.keeps, hdrop ht]
  | removed ht => simp [Population.keeps, hdrop ht]
  | added ht => simp [Population.keeps, hdrop ht]
  | waiting ht => simp [Population.keeps, hdrop ht, hrenew]
  | renewing ht => simp [Population.keeps, hdrop ht, hrenew]

theorem Kept.current {p : Population N B T S} {h : N → VersionHistory V} (hk : v.Kept p h)
    (n : N) : v.Current n p (h n) := by
  have hbn := hk.believes n
  match hh : v.critical.holders n p, hbn with
  | [], ⟨hb, hrenewals, _⟩ =>
    refine ⟨?_, fun hbegun _ => ⟨?_, hrenewals⟩⟩
    · rw [hb]
      split <;> simp
    · rw [hb, if_pos hbegun]
  | [θ], ⟨_, hway, _⟩ =>
    refine ⟨?_, fun _ hnil => ?_⟩
    · generalize v.version (p.beliefs n) = believed at hway
      cases hway <;> simp_all
    · rw [hh] at hnil
      cases hnil

/-! ## Answering an event -/

section

variable {prog : Program N B T S I A} {p : Population N B T S} {h : N → VersionHistory V} {n : N}

omit [DecidableEq T] [DecidableEq V] in
theorem onSelect_of_ne {m : N} (hm : m ≠ n) : v.onSelect n p h m = h m := by
  unfold onSelect
  cases p.events.find? (·.1 = n) with
  | none => rfl
  | some e => exact Function.update_of_ne hm _ _

omit [DecidableEq T] [DecidableEq V] in
theorem onSelect_eq {e : N × T} (he : p.events.find? (·.1 = n) = some e) :
    v.onSelect n p h n = (v.announced e.2).elim (h n) (h n).process := by
  unfold onSelect
  rw [he]
  exact Function.update_self _ _ _

omit [DecidableEq N] in
/-- The agent answers an announcement that its belief does not contradict. -/
theorem believes_confirmed {x : V} {believed : List V} {h : VersionHistory V}
    {holders : List (Intention N T S)} (hk : v.Believes believed h n holders)
    (hC : if holders = [] then believed ≠ [] ∨ x = v.initial
      else x = h.last v.initial ∧ ∀ y ∈ believed, y = x)
    (hsame : ∀ y ∈ believed, y = x) :
    v.Believes believed (h.process x) n holders := by
  have hchanges : x = h.last v.initial → (h.process x).changes v.initial = h.changes v.initial := by
    intro hx
    rw [VersionHistory.changes_process, if_pos hx, Nat.add_zero]
  match holders with
  | [] =>
    obtain ⟨hb, hrenewals, hinitial⟩ := hk
    cases hbegun : h.begun with
    | false =>
      rw [hbegun] at hb
      have hx : x = v.initial := by simpa [hb] using hC
      have hall := hinitial hbegun
      have hlast := (VersionHistory.changes_of_initial hall).1
      refine ⟨by simpa [hbegun] using hb, ?_, fun _ y hy => ?_⟩
      · rw [hchanges (hx.trans hlast.symm)]
        exact hrenewals
      · rcases List.mem_cons.mp hy with rfl | hy
        · exact hx
        · exact hall y hy
    | true =>
      rw [hbegun, if_pos rfl] at hb
      have hx : h.last v.initial = x := hsame _ (by simp [hb])
      refine ⟨by simp [hb, hbegun, hx], ?_, fun hno => absurd hbegun (by simp_all)⟩
      rw [hchanges hx.symm]
      exact hrenewals
  | [θ] =>
    obtain ⟨hbegun, hway, hrenewals⟩ := hk
    have hx : x = h.last v.initial := hC.1
    refine ⟨hbegun, ?_, ?_⟩
    · rw [VersionHistory.last_process, hx]
      exact hway
    · rw [hchanges hx]
      exact hrenewals
  | _ :: _ :: _ => exact hk

omit [DecidableEq N] in
/-- The agent answers an announcement that its belief contradicts. -/
theorem believes_entered {x old : V} {believed : List V} {h : VersionHistory V} {t : T}
    {body : List S} (hk : v.Believes believed h n ([] : List (Intention N T S)))
    (ht : v.announced t = some x) (hold : believed.find? (· ≠ x) = some old)
    (hbody : body.map v.role = [.removes old, .adds x, .renews]) :
    v.Believes believed (h.process x) n
      [⟨n, none, [⟨t, body⟩]⟩] := by
  obtain ⟨hb, hrenewals, -⟩ := hk
  have hmem := List.mem_of_find?_eq_some hold
  have hne : old ≠ x := by simpa using List.find?_some hold
  cases hbegun : h.begun with
  | false => simp [hb, hbegun] at hmem
  | true =>
    rw [hbegun, if_pos rfl] at hb
    obtain rfl : old = h.last v.initial := by simpa [hb] using hmem
    obtain ⟨s₁, l, rfl, h₁, hl⟩ := List.map_eq_cons_iff.mp hbody
    obtain ⟨s₂, l, rfl, h₂, hl⟩ := List.map_eq_cons_iff.mp hl
    obtain ⟨s₃, l, rfl, h₃, hl⟩ := List.map_eq_cons_iff.mp hl
    obtain rfl := List.map_eq_nil_iff.mp hl
    refine ⟨hbegun, .entered ht h₁ h₂ h₃ hb, ?_⟩
    rw [VersionHistory.changes_process, if_neg hne.symm, ← hrenewals]
    rfl

/-- **Answering an event in turn keeps the invariant.** -/
theorem Kept.select (hg : v.Governs prog) (hk : v.Kept p h) (hC : v.InTurn n p (h n)) :
    v.Kept (p.select prog n) (v.onSelect n p h) := by
  refine ⟨fun e he => hk.events e (Critical.mem_select_events he), fun m => ?_⟩
  have hbm := hk.believes m
  rw [Critical.select_beliefs]
  by_cases hm : m = n
  · subst hm
    cases he : p.events.find? (·.1 = m) with
    | none =>
      rw [Critical.holders_select_of_outside (by simp [he]), onSelect, he]
      exact hbm
    | some e =>
      have hne := hk.events e (List.mem_of_find?_eq_some he)
      cases hx : v.announced e.2 with
      | none =>
        have hout : ∀ e' ∈ p.events.find? (·.1 = m), ∀ body,
            prog.plan m (p.beliefs m) e'.2 = some body → ∀ s ∈ body, v.critical.stmt s = false := by
          intro e' he' body hbody
          obtain rfl := Option.some_inj.mp (he.symm.trans he')
          exact hg.plan_other _ _ _ _ hx hne hbody
        rw [Critical.holders_select_of_outside hout, onSelect_eq he, hx]
        exact hbm
      | some x =>
        have hplan := hg.plan_announced m (p.beliefs m) e.2 x hx
        have hturn := hC e he x hx
        rw [onSelect_eq he, hx, Option.elim_some]
        cases hold : (v.version (p.beliefs m)).find? (· ≠ x) with
        | none =>
          have hnone : prog.plan m (p.beliefs m) e.2 = none := by
            rw [hold] at hplan
            simpa using hplan
          rw [Critical.holders_select_of_outside (by simp [he, hnone])]
          refine believes_confirmed hbm hturn fun y hy => ?_
          simpa using List.find?_eq_none.mp hold y hy
        | some old =>
          rw [hold] at hplan
          obtain ⟨body, hbody, hroles⟩ := Option.map_eq_some_iff.mp hplan
          -- a change under way would agree with the announcement
          have hnil : v.critical.holders m p = [] := by
            by_contra hsome
            rw [if_neg hsome] at hturn
            have hne : old ≠ x := by simpa using List.find?_some hold
            exact hne (hturn.2 old (List.mem_of_find?_eq_some hold))
          have henters : ∃ s ∈ body, v.critical.stmt s := by
            obtain ⟨s, l, rfl, hs, -⟩ := List.map_eq_cons_iff.mp hroles
            exact ⟨s, List.mem_cons_self, by simp [critical, hs]⟩
          rw [Critical.holders_select_of_enters he hbody henters, hnil, List.nil_append]
          rw [hnil] at hbm
          exact believes_entered hbm hx hold hroles
  · rw [Critical.holders_select_of_ne (Ne.symm hm), onSelect_of_ne hm]
    exact hbm

/-! ## Moves -/

omit [DecidableEq T] [DecidableEq V] in
theorem onMove_of_ne {i : ℕ} {θ : Intention N T S} (hi : p.intentions[i]? = some θ) {m : N}
    (hm : m ≠ θ.owner) : v.onMove i p h m = h m := by
  unfold onMove
  rw [hi]
  exact Function.update_of_ne hm _ _

omit [DecidableEq T] [DecidableEq V] in
theorem onMove_eq {i : ℕ} {θ : Intention N T S} (hi : p.intentions[i]? = some θ) :
    v.onMove i p h θ.owner = (h θ.owner).perform (θ.head.map v.role) := by
  unfold onMove
  rw [hi]
  exact Function.update_self _ _ _

omit [DecidableEq N] in
/-- What a statement outside a change is. -/
theorem role_of_outside {s : S} (hs : v.critical.stmt s = false) :
    v.role s = .other ∨ v.role s = .adds v.initial := by
  unfold critical at hs
  cases hr : v.role s with
  | adds x => simp_all
  | other => exact Or.inl rfl
  | _ => simp_all

omit [DecidableEq N] in
/-- A failure plan stays outside a change. -/
theorem recovers (hg : v.Governs prog) (b : B) (frames : List (Frame T S)) :
    v.critical.Recovers prog n b frames := by
  intro f _ t body ht hbody
  obtain ⟨hno, hne⟩ := hg.recover f.trigger t ht
  exact hg.plan_other _ _ _ _ hno hne hbody

omit [DecidableEq N] in
theorem not_announced_of_goal {g : T} (hg : v.critical.goal g = false) :
    v.announced g = none ∧ g ≠ v.renew := by
  simp only [critical, Bool.or_eq_false_iff, decide_eq_false_iff_not] at hg
  exact ⟨by simpa using hg.2, hg.1⟩

omit [DecidableEq N] in
/-- A move outside a change stays outside. -/
theorem outside_move (hg : v.Governs prog) {θ : Intention N T S} {x : I} {b : B}
    (hθ : v.critical.holds θ = false) : v.critical.holds (prog.move x b θ).intention = false := by
  refine Critical.not_holds_move hθ ?_ ?_ ?_
  · intro g hp body hbody
    obtain ⟨hno, hne⟩ := not_announced_of_goal ((Critical.not_holds_iff.mp hθ).1 g hp)
    exact hg.plan_other _ _ _ _ hno hne hbody
  · exact fun _ _ _ => recovers hg _ _
  · intro s hs
    have hout : v.critical.stmt s = false := by
      by_contra hc
      rw [Critical.holds_of_head hs (by simpa using hc)] at hθ
      cases hθ
    rcases role_of_outside hout with hr | hr
    · have := hg.exec_other θ.owner b s x hr
      revert this
      cases prog.exec θ.owner b s x with
      | next b' code acts => exact fun h => h.2
      | subgoal g => exact id
      | drop goals => exact fun _ => trivial
      | blocked => exact id
      | failed acts => exact fun _ => recovers hg _ _
    · obtain ⟨b', acts, he, -⟩ := hg.exec_adds θ.owner b s x _ hr
      rw [he]
      simp [Critical.Outside]

omit [DecidableEq N] in
/-- A move outside a change drops no change. -/
theorem outside_drops (hg : v.Governs prog) {θ : Intention N T S} {x : I} {b : B}
    (hθ : v.critical.holds θ = false) :
    (prog.move x b θ).drops v.renew = false ∧
      ∀ t, (v.announced t).isSome → (prog.move x b θ).drops t = false := by
  rcases prog.move_drops x b θ with hd | ⟨s, hs, he⟩
  · rw [hd]
    exact ⟨rfl, fun _ _ => rfl⟩
  · have hout : v.critical.stmt s = false := by
      by_contra hc
      rw [Critical.holds_of_head hs (by simpa using hc)] at hθ
      cases hθ
    rcases role_of_outside hout with hr | hr
    · have := hg.exec_other θ.owner b s x hr
      rw [he] at this
      exact this
    · obtain ⟨b', acts, he', -⟩ := hg.exec_adds θ.owner b s x _ hr
      rw [he'] at he
      cases he

omit [DecidableEq N] in
/-- A move outside a change leaves the belief, or adds the initial version. -/
theorem outside_effect (hg : v.Governs prog) {θ : Intention N T S} (x : I) (b : B)
    (hθ : v.critical.holds θ = false) :
    (v.version (prog.move x b θ).beliefs = v.version b ∧
        ∀ h : VersionHistory V, h.perform (θ.head.map v.role) = h) ∨
      ∃ s, θ.head = some s ∧ v.role s = .adds v.initial ∧
        v.version (prog.move x b θ).beliefs = (v.version b).insert v.initial := by
  have heffect := prog.move_effect x b θ
  cases hs : θ.head with
  | none =>
    rw [hs] at heffect
    rcases heffect with ⟨hb, -⟩ | ⟨s, hs', -⟩
    · exact Or.inl ⟨congrArg v.version hb, fun _ => rfl⟩
    · cases hs'
  | some s =>
    have hout : v.critical.stmt s = false := by
      by_contra hc
      rw [Critical.holds_of_head hs (by simpa using hc)] at hθ
      cases hθ
    rcases role_of_outside hout with hr | hr
    · refine Or.inl ⟨?_, fun h => ?_⟩
      · have hexec := hg.exec_other θ.owner b s x hr
        rcases heffect with ⟨hb, -⟩ | ⟨s', hs', ⟨code, he⟩ | ⟨hb, -⟩⟩
        · exact congrArg v.version hb
        · obtain rfl := Option.some_inj.mp (hs.symm.trans hs')
          rw [he] at hexec
          exact hexec.1
        · exact congrArg v.version hb
      · rw [Option.map_some, hr]
        rfl
    · obtain ⟨b', acts, he, hv⟩ := hg.exec_adds θ.owner b s x _ hr
      refine Or.inr ⟨s, rfl, hr, ?_⟩
      rw [(prog.move_of_next hs he).1]
      exact hv

omit [DecidableEq N] in
/-- The initial version is added while no other has been processed. -/
theorem believes_initial {believed : List V} {h : VersionHistory V}
    {holders : List (Intention N T S)} (hk : v.Believes believed h n holders)
    (hall : ∀ y ∈ h.processed, y = v.initial) :
    v.Believes (believed.insert v.initial) { h with begun := true } n holders := by
  obtain ⟨hlast, hzero⟩ := VersionHistory.changes_of_initial hall
  match holders with
  | [] =>
    obtain ⟨hb, hrenewals, -⟩ := hk
    refine ⟨?_, hrenewals, fun h => by cases h⟩
    have hl : ({ h with begun := true } : VersionHistory V).last v.initial = v.initial := hlast
    rw [if_pos rfl, hl, hb, hlast]
    cases h.begun <;> simp
  | [θ] =>
    obtain ⟨-, -, hrenewals⟩ := hk
    omega
  | _ :: _ :: _ => exact hk

omit [DecidableEq N] in
/-- A change goes on, or ends. -/
theorem OnWay.move (hg : v.Governs prog) {h : VersionHistory V} {θ : Intention N T S} {b : B}
    (hway : v.OnWay (v.version b) (h.last v.initial) n θ) (hbegun : h.begun)
    (hrenewals : h.renewals + 1 = h.changes v.initial) (x : I) :
    v.Believes (v.version (prog.move x b θ).beliefs) (h.perform (θ.head.map v.role)) n
      (if v.critical.holds (prog.move x b θ).intention then [(prog.move x b θ).intention]
        else []) := by
  generalize hlast : h.last v.initial = y at hway
  have hgoes : ∀ {believed : List V} {θ' : Intention N T S}, v.OnWay believed y n θ' →
      v.Believes believed h n (if v.critical.holds θ' then [θ'] else []) := by
    intro believed θ' hway'
    rw [if_pos hway'.holds]
    exact ⟨hbegun, hlast ▸ hway', hrenewals⟩
  cases hway with
  | @entered t s₁ s₂ s₃ old ht h₁ h₂ h₃ hb =>
    obtain ⟨b', acts, he, hv⟩ := hg.exec_removes n b s₁ x old h₁
    have hmove : prog.move x b ⟨n, none, [⟨t, [s₁, s₂, s₃]⟩]⟩
        = { beliefs := b', intention := ⟨n, none, [⟨t, [s₂, s₃]⟩]⟩, actions := acts } := by
      simp [Program.move, he, Program.settle]
    have hp : h.perform
        ((⟨n, none, [⟨t, [s₁, s₂, s₃]⟩]⟩ : Intention N T S).head.map v.role) = h := by
      simp [Intention.head, h₁, VersionHistory.perform]
    rw [hmove, hp]
    refine hgoes (.removed ht h₂ h₃ ?_)
    rw [hv, hb, List.erase_cons_head]
  | @removed t s₂ s₃ ht h₂ h₃ hb =>
    obtain ⟨b', acts, he, hv⟩ := hg.exec_adds n b s₂ x y h₂
    have hmove : prog.move x b ⟨n, none, [⟨t, [s₂, s₃]⟩]⟩
        = { beliefs := b', intention := ⟨n, none, [⟨t, [s₃]⟩]⟩, actions := acts } := by
      simp [Program.move, he, Program.settle]
    have hp : h.perform ((⟨n, none, [⟨t, [s₂, s₃]⟩]⟩ : Intention N T S).head.map v.role) = h := by
      obtain ⟨processed, renewals, begun⟩ := h
      simp_all [Intention.head, VersionHistory.perform]
    rw [hmove, hp]
    refine hgoes (.added ht h₃ ?_)
    rw [hv, hb]
    rfl
  | @added t s₃ ht h₃ hb =>
    have hmove : prog.move x b ⟨n, none, [⟨t, [s₃]⟩]⟩
        = { beliefs := b, intention := ⟨n, some v.renew, [⟨t, []⟩]⟩ } := by
      simp [Program.move, hg.exec_renews n b s₃ x h₃]
    have hp : h.perform ((⟨n, none, [⟨t, [s₃]⟩]⟩ : Intention N T S).head.map v.role) = h := by
      simp [Intention.head, h₃, VersionHistory.perform]
    rw [hmove, hp]
    exact hgoes (.waiting ht hb)
  | @waiting t ht hb =>
    obtain ⟨s, rest, hplan, hs, hrest⟩ := hg.plan_renew n b
    have hmove : prog.move x b ⟨n, some v.renew, [⟨t, []⟩]⟩
        = { beliefs := b, intention := ⟨n, none, [⟨v.renew, s :: rest⟩, ⟨t, []⟩]⟩ } := by
      simp [Program.move, hplan, Program.settle]
    rw [hmove]
    exact hgoes (.renewing ht hs hrest hb)
  | @renewing t s rest ht hs hrest hb =>
    obtain ⟨goals, he⟩ := hg.exec_clears n b s x hs
    have hmove : prog.move x b ⟨n, none, [⟨v.renew, s :: rest⟩, ⟨t, []⟩]⟩
        = { beliefs := b, intention := ⟨n, none, Program.settle [⟨v.renew, rest⟩, ⟨t, []⟩]⟩,
            drops := goals } := by
      simp [Program.move, he]
    have hout : v.critical.holds (⟨n, none, Program.settle [⟨v.renew, rest⟩, ⟨t, []⟩]⟩ :
        Intention N T S) = false := by
      refine Critical.not_holds_iff.mpr ⟨by simp, fun f hf => ?_⟩
      rcases List.mem_cons.mp (Critical.mem_of_mem_settle hf) with rfl | hf
      · exact hrest
      · obtain rfl := List.mem_singleton.mp hf
        simp
    have hp : h.perform ((⟨n, none, [⟨v.renew, s :: rest⟩, ⟨t, []⟩]⟩ :
        Intention N T S).head.map v.role) = { h with renewals := h.renewals + 1 } := by
      simp [Intention.head, hs, VersionHistory.perform]
    rw [hmove, hout, hp]
    refine ⟨?_, hrenewals, fun hno => ?_⟩
    · rw [if_pos hbegun, hb, ← hlast]
      rfl
    · exact absurd hbegun (by simpa using hno)

/-- **A move keeps the invariant**, if it adds a version in time. -/
theorem Kept.move (hg : v.Governs prog) (hk : v.Kept p h) {i : ℕ} {θ : Intention N T S}
    (hi : p.intentions[i]? = some θ) (hC : v.AddsInTime i p h) (x : I) :
    v.Kept (p.apply i (prog.move x (p.beliefs θ.owner) θ)) (v.onMove i p h) := by
  refine ⟨hk.events, fun m => ?_⟩
  have hbm := hk.believes m
  have howner := prog.move_owner x (p.beliefs θ.owner) θ
  by_cases hm : m = θ.owner
  · subst hm
    rw [onMove_eq hi]
    have hbeliefs : (p.apply i (prog.move x (p.beliefs θ.owner) θ)).beliefs θ.owner
        = (prog.move x (p.beliefs θ.owner) θ).beliefs := by
      simp [Population.apply]
    rw [hbeliefs]
    cases hθ : v.critical.holds θ with
    | false =>
      obtain ⟨hrenew, hdrops⟩ := outside_drops hg (x := x) (b := p.beliefs θ.owner) hθ
      have hkeeps : ∀ θ' ∈ v.critical.holders θ.owner p,
          Population.keeps (prog.move x (p.beliefs θ.owner) θ) θ' = true := by
        intro θ' hθ'
        rcases hh : v.critical.holders θ.owner p with _ | ⟨θ'', _ | ⟨_, _⟩⟩
        · rw [hh] at hθ'
          exact absurd hθ' List.not_mem_nil
        · rw [hh] at hbm hθ'
          obtain rfl := List.mem_singleton.mp hθ'
          exact hbm.2.1.keeps hrenew hdrops
        · rw [hh] at hbm
          exact hbm.elim
      rw [Critical.holders_apply_of_outside hi hθ (outside_move hg hθ) hkeeps]
      rcases outside_effect hg x (p.beliefs θ.owner) hθ with ⟨hv, hp⟩ | ⟨s, hs, hr, hv⟩
      · rw [hv, hp]
        exact hbm
      · rw [hv, hs, Option.map_some, hr]
        have hin := hC θ hi s hs
        rw [hr, hθ] at hin
        exact believes_initial hbm (hin.resolve_left Bool.false_ne_true)
    | true =>
      have hmem : θ ∈ v.critical.holders θ.owner p :=
        Critical.mem_holders.mpr ⟨List.mem_of_getElem? hi, rfl, hθ⟩
      rcases hh : v.critical.holders θ.owner p with _ | ⟨θ', _ | ⟨_, _⟩⟩
      · rw [hh] at hmem
        exact absurd hmem List.not_mem_nil
      · obtain ⟨rfl, hnew⟩ := Critical.holders_apply_of_holder hi rfl howner hθ hh
        rw [hh] at hbm
        rw [hnew]
        exact hbm.2.1.move hg hbm.1 hbm.2.2 x
      · rw [hh] at hbm
        exact hbm.elim
  · rw [onMove_of_ne hi hm, Critical.holders_apply_of_ne hi howner (Ne.symm hm)]
    have hbeliefs : (p.apply i (prog.move x (p.beliefs θ.owner) θ)).beliefs m = p.beliefs m := by
      simp [Population.apply, hm]
    rw [hbeliefs]
    exact hbm

theorem Kept.post (hk : v.Kept p h) {t : T} (ht : t ≠ v.renew) : v.Kept (p.post n t) h := by
  refine ⟨fun e he => ?_, hk.believes⟩
  rcases List.mem_append.mp he with he | he
  · exact hk.events e he
  · rw [List.mem_singleton.mp he]
    exact ht

theorem Kept.believe (hk : v.Kept p h) {f : B → B} (hf : ∀ b, v.version (f b) = v.version b) :
    v.Kept (p.believe n f) h := by
  refine ⟨hk.events, fun m => ?_⟩
  rw [Critical.holders_believe]
  have hv : v.version ((p.believe n f).beliefs m) = v.version (p.beliefs m) := by
    by_cases hm : m = n
    · subst hm
      simp [Population.believe, hf]
    · simp [Population.believe, hm]
  rw [hv]
  exact hk.believes m

end

end Versioned

end AgentSpeak
