/-
# Agents with beliefs, plans and intentions

The operational part of AgentSpeak that invariants of a program need: events are
answered by the first applicable plan, every answer becomes an intention, and the
intentions of all agents are executed one statement at a time in any order.  A
`Population` is a family of agents that run the same program; what the agents do to
their surroundings is left to the system they are part of, which receives it as a list
of actions.

Two rules carry invariants over a move: `Population.All` for properties that hold of
every event and statement, and `Weight` for quantities that no move increases.
-/
import Mathlib.Logic.Function.Basic
import Mathlib.Algebra.BigOperators.Group.List.Basic
import Mathlib.Algebra.Order.BigOperators.Group.List
import Mathlib.Tactic.Linarith

namespace AgentSpeak

/-- A plan at work: the event it answers and the statements left to execute. -/
structure Frame (T S : Type*) where
  trigger : T
  body : List S

/-- An intention of an agent: its plans, the innermost first, and the subgoal it waits
for, if that has not yet been answered. -/
structure Intention (N T S : Type*) where
  owner : N
  pending : Option T := none
  frames : List (Frame T S) := []

/-- What executing a statement comes to.  `next` replaces the statement by `code`. -/
inductive Outcome (B T S A : Type*) where
  | next (beliefs : B) (code : List S) (actions : List A)
  | subgoal (goal : T)
  | drop (goals : T → Bool)
  | blocked
  | failed (actions : List A)

/-- A program: the applicable plan of an event, the event that the failure of a goal
raises, and the execution of a statement, which may read an input. -/
structure Program (N B T S I A : Type*) where
  plan : N → B → T → Option (List S)
  recover : T → Option T
  exec : N → B → S → I → Outcome B T S A

/-- The result of a move: the beliefs and the intention after it, the actions, and the
goals whose intentions the agent drops. -/
structure Move (N B T S A : Type*) where
  beliefs : B
  intention : Intention N T S
  actions : List A := []
  drops : T → Bool := fun _ => false

variable {N B T S I A : Type*}

namespace Program

/-- Finished plans leave the intention. -/
def settle (frames : List (Frame T S)) : List (Frame T S) :=
  frames.dropWhile (·.body.isEmpty)

variable (prog : Program N B T S I A)

/-- A failure goes up to the innermost goal with an applicable failure plan. -/
def unwind (n : N) (b : B) : List (Frame T S) → List (Frame T S)
  | [] => []
  | f :: frames =>
    match (prog.recover f.trigger).bind fun t => (prog.plan n b t).map (Frame.mk t) with
    | some f' => settle (f' :: frames)
    | none => unwind n b frames

/-- One move of an intention: the answer to its subgoal, or its next statement. -/
def move (x : I) (b : B) (θ : Intention N T S) : Move N B T S A :=
  match θ.pending with
  | some g =>
    match prog.plan θ.owner b g with
    | some body => { beliefs := b, intention := ⟨θ.owner, none, settle (⟨g, body⟩ :: θ.frames)⟩ }
    | none =>
      { beliefs := b, intention := ⟨θ.owner, none, prog.unwind θ.owner b (⟨g, []⟩ :: θ.frames)⟩ }
  | none =>
    match θ.frames with
    | ⟨t, s :: body⟩ :: frames =>
      match prog.exec θ.owner b s x with
      | .next b' code acts =>
        { beliefs := b', intention := ⟨θ.owner, none, settle (⟨t, code ++ body⟩ :: frames)⟩,
          actions := acts }
      | .subgoal g => { beliefs := b, intention := ⟨θ.owner, some g, ⟨t, body⟩ :: frames⟩ }
      | .drop goals =>
        { beliefs := b, intention := ⟨θ.owner, none, settle (⟨t, body⟩ :: frames)⟩,
          drops := goals }
      | .blocked => { beliefs := b, intention := θ }
      | .failed acts =>
        { beliefs := b, intention := ⟨θ.owner, none, prog.unwind θ.owner b (⟨t, body⟩ :: frames)⟩,
          actions := acts }
    | _ => { beliefs := b, intention := θ }

end Program

/-- Agents that run one program, with their pending events (oldest first) and their
intentions. -/
structure Population (N B T S : Type*) where
  beliefs : N → B
  events : List (N × T) := []
  intentions : List (Intention N T S) := []

namespace Population

variable [DecidableEq N]

/-- An event is raised. -/
def post (n : N) (t : T) (p : Population N B T S) : Population N B T S :=
  { p with events := p.events ++ [(n, t)] }

/-- The beliefs of an agent change. -/
def believe (n : N) (f : B → B) (p : Population N B T S) : Population N B T S :=
  { p with beliefs := Function.update p.beliefs n (f (p.beliefs n)) }

/-- The agent answers its oldest event. -/
def select (prog : Program N B T S I A) (n : N) (p : Population N B T S) : Population N B T S :=
  match p.events.find? (·.1 = n) with
  | none => p
  | some e =>
    let rest := p.events.eraseP (·.1 = n)
    match prog.plan n (p.beliefs n) e.2 with
    | none => { p with events := rest }
    | some body =>
      { p with
        events := rest
        intentions := p.intentions ++ [⟨n, none, Program.settle [⟨e.2, body⟩]⟩] }

/-- The intention stays when the agent of the move drops its goals. -/
def keeps (m : Move N B T S A) (θ : Intention N T S) : Bool :=
  θ.owner ≠ m.intention.owner ||
    !(θ.pending.any m.drops || θ.frames.any fun f => m.drops f.trigger)

/-- The effect of a move of intention `i`. -/
def apply (i : ℕ) (m : Move N B T S A) (p : Population N B T S) : Population N B T S :=
  { p with
    beliefs := Function.update p.beliefs m.intention.owner m.beliefs
    intentions := (p.intentions.take i).filter (keeps m) ++
      m.intention :: (p.intentions.drop (i + 1)).filter (keeps m) }

end Population

/-! ## Beliefs told by others -/

/-- The belief update for a told belief: one whose literal is held already changes nothing
and raises no event. -/
def tell {H L : Type*} [DecidableEq L] (lit : H → L) (h : H) (held : List H) : List H × Bool :=
  if lit h ∈ held.map lit then (held, false) else (h :: held, true)

/-! ## Moves -/

/-- The statement an intention executes next. -/
def Intention.head (θ : Intention N T S) : Option S :=
  match θ.pending, θ.frames with
  | none, ⟨_, s :: _⟩ :: _ => some s
  | _, _ => none

/-- The statement an intention executes next, with the event or goal that its plan
answers. -/
def Intention.next (θ : Intention N T S) : Option (T × S) :=
  match θ.pending, θ.frames with
  | none, ⟨t, s :: _⟩ :: _ => some (t, s)
  | _, _ => none

theorem Intention.next_eq {θ : Intention N T S} {t : T} {s : S} {body : List S}
    {frames : List (Frame T S)} (hp : θ.pending = none)
    (hf : θ.frames = ⟨t, s :: body⟩ :: frames) : θ.next = some (t, s) := by
  rw [Intention.next, hp, hf]

theorem Intention.head_of_next {θ : Intention N T S} {p : T × S} (h : θ.next = some p) :
    θ.head = some p.2 := by
  unfold Intention.next at h
  split at h
  · next hp hf =>
    cases h
    rw [Intention.head, hp, hf]
  · cases h

theorem Intention.head_eq {θ : Intention N T S} {t : T} {s : S} {body : List S}
    {frames : List (Frame T S)} (hp : θ.pending = none)
    (hf : θ.frames = ⟨t, s :: body⟩ :: frames) : θ.head = some s := by
  rw [Intention.head, hp, hf]

namespace Program

variable (prog : Program N B T S I A)

@[simp] theorem move_owner (x : I) (b : B) (θ : Intention N T S) :
    (prog.move x b θ).intention.owner = θ.owner := by
  unfold move
  (repeat' split) <;> rfl

/-- A move that executes a statement has its beliefs and actions. -/
theorem move_of_next {x : I} {b b' : B} {θ : Intention N T S} {s : S} {code : List S}
    {acts : List A} (hs : θ.head = some s) (he : prog.exec θ.owner b s x = .next b' code acts) :
    (prog.move x b θ).beliefs = b' ∧ (prog.move x b θ).actions = acts := by
  unfold Intention.head at hs
  split at hs
  · next t s' body frames hp hf =>
    obtain rfl := Option.some_inj.mp hs
    rw [move, hp]
    dsimp only
    rw [hf]
    dsimp only
    rw [he]
    exact ⟨rfl, rfl⟩
  · cases hs

/-- A move that executes a statement that drops goals drops them. -/
theorem drops_of_head {x : I} {b : B} {θ : Intention N T S} {s : S} {goals : T → Bool}
    (hs : θ.head = some s) (he : prog.exec θ.owner b s x = .drop goals) :
    (prog.move x b θ).drops = goals := by
  unfold Intention.head at hs
  split at hs
  · next t s' body frames hp hf =>
    obtain rfl := Option.some_inj.mp hs
    rw [move, hp]
    dsimp only
    rw [hf]
    dsimp only
    rw [he]
  · cases hs

/-- A move that drops goals executes a statement that does. -/
theorem move_drops (x : I) (b : B) (θ : Intention N T S) :
    (prog.move x b θ).drops = (fun _ => false) ∨
      ∃ s, θ.head = some s ∧ prog.exec θ.owner b s x = .drop (prog.move x b θ).drops := by
  unfold move
  split
  · split <;> exact Or.inl rfl
  · next hnone =>
    split
    · next t s body frames hf =>
      split
      · exact Or.inl rfl
      · exact Or.inl rfl
      · next he => exact Or.inr ⟨s, Intention.head_eq hnone hf, he⟩
      · exact Or.inl rfl
      · exact Or.inl rfl
    · exact Or.inl rfl

/-- Beliefs and actions of a move are those of the statement it executes. -/
theorem move_effect (x : I) (b : B) (θ : Intention N T S) :
    ((prog.move x b θ).beliefs = b ∧ (prog.move x b θ).actions = []) ∨
      ∃ s, θ.head = some s ∧
        ((∃ code, prog.exec θ.owner b s x
            = .next (prog.move x b θ).beliefs code (prog.move x b θ).actions) ∨
          ((prog.move x b θ).beliefs = b ∧
            prog.exec θ.owner b s x = .failed (prog.move x b θ).actions)) := by
  unfold move
  split
  · split <;> exact Or.inl ⟨rfl, rfl⟩
  · next hnone =>
    split
    · next t s body frames hf =>
      have hhead := Intention.head_eq hnone hf
      split
      · next he => exact Or.inr ⟨s, hhead, Or.inl ⟨_, he⟩⟩
      · exact Or.inl ⟨rfl, rfl⟩
      · exact Or.inl ⟨rfl, rfl⟩
      · exact Or.inl ⟨rfl, rfl⟩
      · next he => exact Or.inr ⟨s, hhead, Or.inr ⟨rfl, he⟩⟩
    · exact Or.inl ⟨rfl, rfl⟩

end Program

/-! ## Properties of every belief base and statement -/

/-- A property of belief bases, of events, of goals, of the events and goals whose plans
wait for a subgoal, and of the statements in the plan for an event or goal. -/
structure Property (N B T S : Type*) where
  beliefs : N → B → Prop
  event : N → T → Prop
  goal : N → T → Prop
  outer : N → T → Prop
  stmt : N → T → S → Prop

namespace Property

variable (P : Property N B T S)

/-- The plans of an intention: all but the outermost answer goals, and all but the innermost
wait for a subgoal. -/
def Stack (n : N) : List (Frame T S) → Prop
  | [] => True
  | [f] => ∀ s ∈ f.body, P.stmt n f.trigger s
  | f :: f' :: frames =>
    P.goal n f.trigger ∧ (∀ s ∈ f.body, P.stmt n f.trigger s) ∧ P.outer n f'.trigger ∧
      Stack n (f' :: frames)

/-- Every goal, plan and statement of the intention has the property. -/
structure Intention (θ : Intention N T S) : Prop where
  frames : P.Stack θ.owner θ.frames
  pending : ∀ g ∈ θ.pending, P.goal θ.owner g ∧ ∃ f ∈ θ.frames.head?, P.outer θ.owner f.trigger

/-- Every belief base, event and intention of the population has the property. -/
structure All (p : Population N B T S) : Prop where
  beliefs : ∀ n, P.beliefs n (p.beliefs n)
  events : ∀ e ∈ p.events, P.event e.1 e.2
  intentions : ∀ θ ∈ p.intentions, P.Intention θ

/-- A failure plan that takes the place of the plan for `t` has the property. -/
def Recovered (prog : Program N B T S I A) (n : N) (b : B) (t : T) : Prop :=
  ∀ t' body, prog.recover t = some t' → prog.plan n b t' = some body →
    (P.goal n t → P.goal n t') ∧ ∀ s ∈ body, P.stmt n t' s

/-- A plan for a goal with the property consists of statements with it. -/
structure Plans (prog : Program N B T S I A) (n : N) (b : B) : Prop where
  goal : ∀ t body, P.goal n t → prog.plan n b t = some body → ∀ s ∈ body, P.stmt n t s
  goal_failed : ∀ t, P.goal n t → P.Recovered prog n b t
  outer_failed : ∀ t, P.outer n t → P.Recovered prog n b t

/-- What a statement in a plan for `t` comes to has the property, and its actions satisfy
`act`. -/
def Outcome (prog : Program N B T S I A) (act : A → Prop) (n : N) (b : B) (t : T) :
    Outcome B T S A → Prop
  | .next b' code acts => P.beliefs n b' ∧ (∀ s ∈ code, P.stmt n t s) ∧ ∀ a ∈ acts, act a
  | .subgoal g => P.goal n g ∧ P.outer n t
  | .drop _ => True
  | .blocked => True
  | .failed acts => P.Recovered prog n b t ∧ ∀ a ∈ acts, act a

variable {P}

theorem Stack.tail {n : N} {f : Frame T S} {frames : List (Frame T S)}
    (h : P.Stack n (f :: frames)) : P.Stack n frames := by
  cases frames with
  | nil => trivial
  | cons f' frames => exact h.2.2.2

theorem Stack.head {n : N} {f : Frame T S} {frames : List (Frame T S)}
    (h : P.Stack n (f :: frames)) : ∀ s ∈ f.body, P.stmt n f.trigger s := by
  cases frames with
  | nil => exact h
  | cons f' frames => exact h.2.1

/-- A plan whose trigger is no goal and that never waits is the only plan of its
intention. -/
theorem Stack.alone {n : N} {frames : List (Frame T S)} (h : P.Stack n frames) {f : Frame T S}
    (hf : f ∈ frames) (hgoal : ¬ P.goal n f.trigger) (houter : ¬ P.outer n f.trigger) :
    frames = [f] := by
  induction frames with
  | nil => cases hf
  | cons f' frames ih =>
    rcases List.mem_cons.mp hf with rfl | hf
    · cases frames with
      | nil => rfl
      | cons f'' frames => exact absurd h.1 hgoal
    · rw [ih h.tail hf] at h
      exact absurd h.2.2.1 houter

/-- The statements of the innermost plan may be exchanged. -/
theorem Stack.set_body {n : N} {t : T} {body body' : List S} {frames : List (Frame T S)}
    (h : P.Stack n (⟨t, body⟩ :: frames)) (hbody : ∀ s ∈ body', P.stmt n t s) :
    P.Stack n (⟨t, body'⟩ :: frames) := by
  cases frames with
  | nil => exact hbody
  | cons f' frames => exact ⟨h.1, hbody, h.2.2⟩

/-- Every statement of the plans has the property. -/
theorem Stack.stmt {n : N} {frames : List (Frame T S)} (h : P.Stack n frames) :
    ∀ f ∈ frames, ∀ s ∈ f.body, P.stmt n f.trigger s := by
  induction frames with
  | nil => simp
  | cons f frames ih =>
    intro f' hf'
    rcases List.mem_cons.mp hf' with rfl | hf'
    · exact h.head
    · exact ih h.tail f' hf'

theorem Stack.settle {n : N} {frames : List (Frame T S)} (h : P.Stack n frames) :
    P.Stack n (Program.settle frames) := by
  induction frames with
  | nil => exact h
  | cons f frames ih =>
    rw [Program.settle, List.dropWhile_cons]
    split
    · exact ih h.tail
    · exact h

theorem Stack.unwind {prog : Program N B T S I A} {n : N} {b : B}
    (houter : ∀ t, P.outer n t → P.Recovered prog n b t) {frames : List (Frame T S)}
    (h : P.Stack n frames) (hhead : ∀ f ∈ frames.head?, P.Recovered prog n b f.trigger) :
    P.Stack n (prog.unwind n b frames) := by
  induction frames with
  | nil => exact h
  | cons f frames ih =>
    rw [Program.unwind]
    split
    · next f' hf' =>
      obtain ⟨t, ht, hmap⟩ := Option.bind_eq_some_iff.mp hf'
      obtain ⟨body, hbody, rfl⟩ := Option.map_eq_some_iff.mp hmap
      obtain ⟨hgoal, hstmt⟩ := hhead f rfl t body ht hbody
      apply Stack.settle
      cases frames with
      | nil => exact hstmt
      | cons f'' frames => exact ⟨hgoal h.1, hstmt, h.2.2⟩
    · refine ih h.tail fun f' hf' => ?_
      cases frames with
      | nil => simp at hf'
      | cons f'' frames =>
        obtain rfl := Option.some_inj.mp hf'
        exact houter _ h.2.2.1

/-- **A move keeps the property**, if the plan for the goal it answers, the failure plans
and what the statement it executes comes to have it. -/
theorem move_of {prog : Program N B T S I A} {act : A → Prop} {x : I} {b : B}
    {θ : AgentSpeak.Intention N T S} (hb : P.beliefs θ.owner b) (hθ : P.Intention θ)
    (hplan : ∀ g ∈ θ.pending, ∀ body, P.goal θ.owner g → prog.plan θ.owner b g = some body →
      ∀ s ∈ body, P.stmt θ.owner g s)
    (hgoal : ∀ t, P.goal θ.owner t → P.Recovered prog θ.owner b t)
    (houter : ∀ t, P.outer θ.owner t → P.Recovered prog θ.owner b t)
    (hexec : ∀ t s, θ.next = some (t, s) → P.stmt θ.owner t s →
      P.Outcome prog act θ.owner b t (prog.exec θ.owner b s x)) :
    P.beliefs θ.owner (prog.move x b θ).beliefs ∧ P.Intention (prog.move x b θ).intention ∧
      ∀ a ∈ (prog.move x b θ).actions, act a := by
  obtain ⟨hframes, hpend⟩ := hθ
  unfold Program.move
  split
  · next g hg =>
    obtain ⟨hg', f, hf, hout⟩ := hpend g hg
    obtain ⟨frames, hfs⟩ : ∃ frames, θ.frames = f :: frames := by
      cases hfs : θ.frames with
      | nil => simp [hfs] at hf
      | cons f' frames =>
        rw [hfs] at hf
        exact ⟨frames, by rw [Option.some_inj.mp hf]⟩
    rw [hfs] at hframes ⊢
    split
    · next body hbody =>
      refine ⟨hb, ⟨Stack.settle ?_, by simp⟩, by simp⟩
      exact ⟨hg', hplan g hg body hg' hbody, hout, hframes⟩
    · refine ⟨hb, ⟨Stack.unwind houter ?_ ?_, by simp⟩, by simp⟩
      · exact ⟨hg', by simp, hout, hframes⟩
      · intro f' hf'
        obtain rfl := Option.some_inj.mp hf'
        exact hgoal g hg'
  · next hnone =>
    split
    · next t s body frames hf =>
      rw [hf] at hframes
      have hs := hframes.head
      have hbody := fun s' hs' => hs s' (List.mem_cons_of_mem s hs')
      have hout := hexec t s (Intention.next_eq hnone hf) (hs s List.mem_cons_self)
      have hrest : P.Stack θ.owner (⟨t, body⟩ :: frames) := hframes.set_body hbody
      split
      · next b' code acts he =>
        rw [he] at hout
        refine ⟨hout.1, ⟨Stack.settle (hframes.set_body fun s' hs' => ?_), by simp⟩, hout.2.2⟩
        exact (List.mem_append.mp hs').elim (hout.2.1 s') (hbody s')
      · next g he =>
        rw [he] at hout
        refine ⟨hb, ⟨hrest, fun g' hg' => ?_⟩, by simp⟩
        obtain rfl := Option.some_inj.mp hg'
        exact ⟨hout.1, _, rfl, hout.2⟩
      · exact ⟨hb, ⟨hrest.settle, by simp⟩, by simp⟩
      · exact ⟨hb, ⟨hf ▸ hframes, hpend⟩, by simp⟩
      · next acts he =>
        rw [he] at hout
        refine ⟨hb, ⟨Stack.unwind houter hrest fun f' hf' => ?_, by simp⟩, hout.2⟩
        obtain rfl := Option.some_inj.mp hf'
        exact hout.1
    · exact ⟨hb, ⟨hframes, hpend⟩, by simp⟩

theorem All.post {p : Population N B T S} (hp : P.All p) {n : N} {t : T} (ht : P.event n t) :
    P.All (p.post n t) where
  beliefs := hp.beliefs
  events e he := by
    rcases List.mem_append.mp he with he | he
    · exact hp.events e he
    · exact List.mem_singleton.mp he ▸ ht
  intentions := hp.intentions

/-- A property may be weakened. -/
theorem All.imp {Q : Property N B T S} {p : Population N B T S} (hp : P.All p)
    (hb : ∀ n, P.beliefs n (p.beliefs n) → Q.beliefs n (p.beliefs n))
    (he : ∀ e ∈ p.events, P.event e.1 e.2 → Q.event e.1 e.2)
    (hi : ∀ θ ∈ p.intentions, P.Intention θ → Q.Intention θ) : Q.All p where
  beliefs n := hb n (hp.beliefs n)
  events e h := he e h (hp.events e h)
  intentions θ h := hi θ h (hp.intentions θ h)

theorem Stack.imp {Q : Property N B T S} {n : N} {frames : List (Frame T S)}
    (h : P.Stack n frames) (hg : ∀ t, P.goal n t → Q.goal n t)
    (ho : ∀ t, P.outer n t → Q.outer n t)
    (hs : ∀ f ∈ frames, ∀ s ∈ f.body, P.stmt n f.trigger s → Q.stmt n f.trigger s) :
    Q.Stack n frames := by
  induction frames with
  | nil => trivial
  | cons f frames ih =>
    have hhead := fun s hs' => hs f List.mem_cons_self s hs' (h.head s hs')
    have htail := ih h.tail fun f' hf' => hs f' (List.mem_cons_of_mem f hf')
    cases frames with
    | nil => exact hhead
    | cons f' frames => exact ⟨hg _ h.1, hhead, ho _ h.2.2.1, htail⟩

theorem Intention.imp {Q : Property N B T S} {θ : AgentSpeak.Intention N T S}
    (h : P.Intention θ) (hg : ∀ t, P.goal θ.owner t → Q.goal θ.owner t)
    (ho : ∀ t, P.outer θ.owner t → Q.outer θ.owner t)
    (hs : ∀ f ∈ θ.frames, ∀ s ∈ f.body, P.stmt θ.owner f.trigger s → Q.stmt θ.owner f.trigger s) :
    Q.Intention θ where
  frames := h.frames.imp hg ho hs
  pending g hg' := by
    obtain ⟨hgoal, f, hf, houter⟩ := h.pending g hg'
    exact ⟨hg g hgoal, f, hf, ho _ houter⟩

variable [DecidableEq N]

theorem All.believe {p : Population N B T S} (hp : P.All p) {n : N} {f : B → B}
    (hf : P.beliefs n (f (p.beliefs n))) : P.All (p.believe n f) where
  beliefs m := by
    rcases eq_or_ne m n with rfl | hne
    · simpa [Population.believe] using hf
    · simpa [Population.believe, hne] using hp.beliefs m
  events := hp.events
  intentions := hp.intentions

theorem All.select {prog : Program N B T S I A} {p : Population N B T S} (hp : P.All p) {n : N}
    (hplan : ∀ e ∈ p.events.find? (·.1 = n), ∀ body,
      prog.plan n (p.beliefs n) e.2 = some body → ∀ s ∈ body, P.stmt n e.2 s) :
    P.All (p.select prog n) := by
  unfold Population.select
  split
  · exact hp
  · next e he =>
    have hevents : ∀ e' ∈ p.events.eraseP (·.1 = n), P.event e'.1 e'.2 := fun e' he' =>
      hp.events e' (List.mem_of_mem_eraseP he')
    dsimp only
    split
    · exact ⟨hp.beliefs, hevents, hp.intentions⟩
    · next body hbody =>
      refine ⟨hp.beliefs, hevents, fun θ hθ => ?_⟩
      rcases List.mem_append.mp hθ with hθ | hθ
      · exact hp.intentions θ hθ
      · obtain rfl := List.mem_singleton.mp hθ
        exact ⟨Stack.settle (hplan e he body hbody), by simp⟩

theorem All.apply {p : Population N B T S} (hp : P.All p) {i : ℕ} {m : Move N B T S A}
    (hb : P.beliefs m.intention.owner m.beliefs) (hm : P.Intention m.intention) :
    P.All (p.apply i m) where
  beliefs n := by
    rcases eq_or_ne n m.intention.owner with rfl | hne
    · simpa [Population.apply] using hb
    · simpa [Population.apply, hne] using hp.beliefs n
  events := hp.events
  intentions θ hθ := by
    rcases List.mem_append.mp hθ with hθ | hθ
    · exact hp.intentions θ (List.mem_of_mem_take (List.mem_of_mem_filter hθ))
    · rcases List.mem_cons.mp hθ with rfl | hθ
      · exact hm
      · exact hp.intentions θ (List.mem_of_mem_drop (List.mem_of_mem_filter hθ))

/-- **A move of one of its intentions keeps the property of a population**, if the plan for
the goal it answers, the failure plans and what the statement it executes comes to have it. -/
theorem apply_move_of {prog : Program N B T S I A} {act : A → Prop} {x : I}
    {p : Population N B T S} (hp : P.All p) {i : ℕ} {θ : AgentSpeak.Intention N T S}
    (hi : p.intentions[i]? = some θ)
    (hplan : ∀ g ∈ θ.pending, ∀ body, P.goal θ.owner g →
      prog.plan θ.owner (p.beliefs θ.owner) g = some body → ∀ s ∈ body, P.stmt θ.owner g s)
    (hgoal : ∀ t, P.goal θ.owner t → P.Recovered prog θ.owner (p.beliefs θ.owner) t)
    (houter : ∀ t, P.outer θ.owner t → P.Recovered prog θ.owner (p.beliefs θ.owner) t)
    (hexec : ∀ t s, θ.next = some (t, s) → P.stmt θ.owner t s →
      P.Outcome prog act θ.owner (p.beliefs θ.owner) t
        (prog.exec θ.owner (p.beliefs θ.owner) s x)) :
    P.All (p.apply i (prog.move x (p.beliefs θ.owner) θ)) ∧
      ∀ a ∈ (prog.move x (p.beliefs θ.owner) θ).actions, act a := by
  obtain ⟨hb, hm, ha⟩ := move_of (x := x) (hp.beliefs θ.owner)
    (hp.intentions θ (List.mem_of_getElem? hi)) hplan hgoal houter hexec
  refine ⟨hp.apply ?_ hm, ha⟩
  rw [Program.move_owner]
  exact hb

/-- A move of one of its intentions keeps the property of a population, if the plans have it
and the statement it executes comes to something that has it. -/
theorem apply_move {prog : Program N B T S I A} {act : A → Prop} {x : I}
    {p : Population N B T S} (hp : P.All p) {i : ℕ} {θ : AgentSpeak.Intention N T S}
    (hi : p.intentions[i]? = some θ) (hplan : P.Plans prog θ.owner (p.beliefs θ.owner))
    (hexec : ∀ t s, θ.next = some (t, s) → P.stmt θ.owner t s →
      P.Outcome prog act θ.owner (p.beliefs θ.owner) t
        (prog.exec θ.owner (p.beliefs θ.owner) s x)) :
    P.All (p.apply i (prog.move x (p.beliefs θ.owner) θ)) ∧
      ∀ a ∈ (prog.move x (p.beliefs θ.owner) θ).actions, act a :=
  apply_move_of hp hi (fun g _ => hplan.goal g) hplan.goal_failed hplan.outer_failed hexec

end Property

/-! ## What an agent is about to do -/

/-- An event that satisfies `ev` waits for agent `n`, or one of its intentions has a
statement that satisfies `st` ahead. -/
def Population.About (n : N) (ev : T → Prop) (st : S → Prop) (p : Population N B T S) : Prop :=
  (∃ e ∈ p.events, e.1 = n ∧ ev e.2) ∨
    ∃ θ ∈ p.intentions, θ.owner = n ∧ ∃ f ∈ θ.frames, ∃ s ∈ f.body, st s

namespace Program

theorem mem_settle {frames : List (Frame T S)} {f : Frame T S} (hf : f ∈ frames) {s : S}
    (hs : s ∈ f.body) : f ∈ settle frames := by
  induction frames with
  | nil => exact hf
  | cons f' frames ih =>
    rw [settle, List.dropWhile_cons]
    split
    · next hempty =>
      rcases List.mem_cons.mp hf with rfl | hf
      · rw [List.isEmpty_iff.mp hempty] at hs
        cases hs
      · exact ih hf
    · exact hf

/-- A move keeps every statement ahead except the one it executes, unless it fails. -/
theorem mem_move {prog : Program N B T S I A} {x : I} {b : B} {θ : Intention N T S}
    (hgoal : ∀ g ∈ θ.pending, prog.plan θ.owner b g ≠ none)
    (hexec : ∀ t s, θ.next = some (t, s) → ∀ acts, prog.exec θ.owner b s x ≠ .failed acts)
    {f : Frame T S} (hf : f ∈ θ.frames) {s : S} (hs : s ∈ f.body) :
    (∃ t, θ.next = some (t, s)) ∨
      ∃ f' ∈ (prog.move x b θ).intention.frames, f'.trigger = f.trigger ∧ s ∈ f'.body := by
  unfold move
  split
  · next g hg =>
    split
    · next body _ =>
      exact Or.inr ⟨f, mem_settle (List.mem_cons_of_mem _ hf) hs, rfl, hs⟩
    · next hnone => exact absurd hnone (hgoal g hg)
  · next hnone =>
    split
    · next t s' body frames hfs =>
      have hnext := Intention.next_eq hnone hfs
      -- the statement is the one executed, one after it, or one of an outer plan
      have hcases : s = s' ∨ (f.trigger = t ∧ s ∈ body) ∨ f ∈ frames := by
        rw [hfs] at hf
        rcases List.mem_cons.mp hf with rfl | hf
        · rcases List.mem_cons.mp hs with rfl | hs
          · exact Or.inl rfl
          · exact Or.inr (Or.inl ⟨rfl, hs⟩)
        · exact Or.inr (Or.inr hf)
      rcases hcases with rfl | ⟨rfl, hbody⟩ | hf
      · exact Or.inl ⟨t, hnext⟩
      · right
        split
        · next b' code acts _ =>
          have hmem := List.mem_append_right code hbody
          exact ⟨⟨f.trigger, code ++ body⟩, mem_settle List.mem_cons_self hmem, rfl, hmem⟩
        · exact ⟨⟨f.trigger, body⟩, List.mem_cons_self, rfl, hbody⟩
        · exact ⟨⟨f.trigger, body⟩, mem_settle List.mem_cons_self hbody, rfl, hbody⟩
        · exact ⟨⟨f.trigger, s' :: body⟩, by rw [hfs]; exact List.mem_cons_self, rfl,
            List.mem_cons_of_mem _ hbody⟩
        · next acts he => exact absurd he (hexec _ _ hnext acts)
      · right
        split
        · exact ⟨f, mem_settle (List.mem_cons_of_mem _ hf) hs, rfl, hs⟩
        · exact ⟨f, List.mem_cons_of_mem _ hf, rfl, hs⟩
        · exact ⟨f, mem_settle (List.mem_cons_of_mem _ hf) hs, rfl, hs⟩
        · exact ⟨f, by rw [hfs]; exact List.mem_cons_of_mem _ hf, rfl, hs⟩
        · next acts he => exact absurd he (hexec _ _ hnext acts)
    · exact Or.inr ⟨f, hf, rfl, hs⟩

end Program

namespace Population

variable {n : N} {ev : T → Prop} {st : S → Prop} {p : Population N B T S}

theorem About.post (h : p.About n ev st) (m : N) (t : T) : (p.post m t).About n ev st := by
  rcases h with ⟨e, he, h⟩ | h
  · exact Or.inl ⟨e, List.mem_append_left _ he, h⟩
  · exact Or.inr h

theorem about_post {m : N} {t : T} (h : ev t) : (p.post m t).About m ev st :=
  Or.inl ⟨(m, t), List.mem_append_right _ List.mem_cons_self, rfl, h⟩

variable [DecidableEq N]

theorem About.believe (h : p.About n ev st) (m : N) (f : B → B) :
    (p.believe m f).About n ev st := h

omit [DecidableEq N] in
/-- Erasing the first element with a property leaves every other element. -/
theorem mem_eraseP_of_ne {α : Type*} {q : α → Bool} {l : List α} {a b : α}
    (hb : l.find? q = some b) (ha : a ∈ l) (hne : a ≠ b) : a ∈ l.eraseP q := by
  induction l with
  | nil => cases ha
  | cons c l ih =>
    by_cases hc : q c
    · rw [List.find?_cons_of_pos hc, Option.some_inj] at hb
      rw [List.eraseP_cons_of_pos hc]
      exact (List.mem_cons.mp ha).resolve_left fun h => hne (h.trans hb)
    · rw [List.find?_cons_of_neg hc] at hb
      rw [List.eraseP_cons_of_neg hc]
      rcases List.mem_cons.mp ha with rfl | ha
      · exact List.mem_cons_self
      · exact List.mem_cons_of_mem _ (ih hb ha)

/-- Answering an event leaves what an agent is about to do, if the plan for an event that
satisfies `ev` has a statement that satisfies `st`. -/
theorem About.select {prog : Program N B T S I A} (h : p.About n ev st) {m : N}
    (hplan : ∀ e ∈ p.events.find? (·.1 = m), m = n → ev e.2 →
      ∃ body, prog.plan n (p.beliefs n) e.2 = some body ∧ ∃ s ∈ body, st s) :
    (p.select prog m).About n ev st := by
  unfold Population.select
  split
  · exact h
  · next e he =>
    have hm : e.1 = m := by simpa using List.find?_some he
    rcases h with ⟨e', he', hn, hev⟩ | ⟨θ, hθ, h⟩
    · by_cases hsame : e' = e
      · subst hsame
        have hmn : m = n := hm.symm.trans hn
        obtain ⟨body, hbody, s, hs, hst⟩ := hplan e' he hmn hev
        rw [hmn, hbody]
        have hmem := Program.mem_settle (f := ⟨e'.2, body⟩) (List.mem_singleton_self _) hs
        exact Or.inr ⟨_, List.mem_append_right _ List.mem_cons_self, rfl, _, hmem, s, hs, hst⟩
      · -- only the event answered goes
        have hrest := mem_eraseP_of_ne he he' hsame
        dsimp only
        split <;> exact Or.inl ⟨e', hrest, hn, hev⟩
    · dsimp only
      split
      · exact Or.inr ⟨θ, hθ, h⟩
      · exact Or.inr ⟨θ, List.mem_append_left _ hθ, h⟩

/-- A move leaves what an agent is about to do, if it does not fail and does not drop what
the agent is about to do; or it does it. -/
theorem About.apply_move {prog : Program N B T S I A} {x : I} (h : p.About n ev st) {i : ℕ}
    {θ : Intention N T S} (hi : p.intentions[i]? = some θ)
    (hgoal : ∀ g ∈ θ.pending, prog.plan θ.owner (p.beliefs θ.owner) g ≠ none)
    (hexec : ∀ t s, θ.next = some (t, s) →
      ∀ acts, prog.exec θ.owner (p.beliefs θ.owner) s x ≠ .failed acts)
    (hkeep : ∀ θ' ∈ p.intentions, θ'.owner = n → (∃ f ∈ θ'.frames, ∃ s ∈ f.body, st s) →
      keeps (prog.move x (p.beliefs θ.owner) θ) θ') :
    (θ.owner = n ∧ ∃ t s, θ.next = some (t, s) ∧ st s) ∨
      (p.apply i (prog.move x (p.beliefs θ.owner) θ)).About n ev st := by
  rcases h with ⟨e, he, h⟩ | ⟨θ', hθ', hn, hf⟩
  · exact Or.inr (Or.inl ⟨e, he, h⟩)
  · have hk := hkeep θ' hθ' hn hf
    obtain ⟨hlt, hget⟩ := List.getElem?_eq_some_iff.mp hi
    have hsplit : p.intentions = p.intentions.take i ++ θ :: p.intentions.drop (i + 1) := by
      rw [← hget, ← List.drop_eq_getElem_cons hlt, List.take_append_drop]
    rw [hsplit] at hθ'
    rcases List.mem_append.mp hθ' with hθ' | hθ'
    · refine Or.inr (Or.inr ⟨θ', List.mem_append_left _ ?_, hn, hf⟩)
      exact List.mem_filter.mpr ⟨hθ', hk⟩
    · rcases List.mem_cons.mp hθ' with rfl | hθ'
      · obtain ⟨f, hf, s, hs, hst⟩ := hf
        rcases Program.mem_move hgoal hexec hf hs with ⟨t, hnext⟩ | ⟨f', hf', _, hs'⟩
        · exact Or.inl ⟨hn, t, s, hnext, hst⟩
        · refine Or.inr (Or.inr ⟨_, List.mem_append_right _ List.mem_cons_self, ?_, f', hf', s,
            hs', hst⟩)
          rw [Program.move_owner]
          exact hn
      · refine Or.inr (Or.inr ⟨θ', List.mem_append_right _ (List.mem_cons_of_mem _ ?_), hn, hf⟩)
        exact List.mem_filter.mpr ⟨hθ', hk⟩

end Population

/-! ## Weights -/

/-- A weight of events and goals together with one of statements. -/
structure Weight (N T S : Type*) where
  trigger : N → T → ℕ
  stmt : N → S → ℕ

namespace Weight

variable (w : Weight N T S)

/-- The weight of a list of statements. -/
def body (n : N) (l : List S) : ℕ := (l.map (w.stmt n)).sum

/-- The weight of the plans of an intention. -/
def frames (n : N) (l : List (Frame T S)) : ℕ := (l.map fun f => w.body n f.body).sum

/-- The weight of an intention. -/
def intention (θ : Intention N T S) : ℕ :=
  θ.pending.elim 0 (w.trigger θ.owner) + w.frames θ.owner θ.frames

/-- The weight of a population. -/
def total (p : Population N B T S) : ℕ :=
  (p.events.map fun e => w.trigger e.1 e.2).sum + (p.intentions.map w.intention).sum

/-- A plan weighs no more than the event it answers, and a failure plan nothing. -/
def Plans (prog : Program N B T S I A) (n : N) (b : B) : Prop :=
  (∀ t body, prog.plan n b t = some body → w.body n body ≤ w.trigger n t) ∧
    ∀ t t' body, prog.recover t = some t' → prog.plan n b t' = some body → w.body n body = 0

/-- What a statement comes to weighs at most `k`, its actions weighed by `cost`. -/
def Outcome (cost : A → ℕ) (n : N) (k : ℕ) : Outcome B T S A → Prop
  | .next _ code acts => w.body n code + (acts.map cost).sum ≤ k
  | .subgoal g => w.trigger n g ≤ k
  | .drop _ => True
  | .blocked => True
  | .failed acts => (acts.map cost).sum ≤ k

variable {w}

@[simp] theorem body_nil (n : N) : w.body n [] = 0 := rfl

@[simp] theorem body_cons (n : N) (s : S) (l : List S) :
    w.body n (s :: l) = w.stmt n s + w.body n l := by
  simp [body]

theorem body_append (n : N) (l l' : List S) :
    w.body n (l ++ l') = w.body n l + w.body n l' := by
  simp [body]

@[simp] theorem frames_cons (n : N) (f : Frame T S) (l : List (Frame T S)) :
    w.frames n (f :: l) = w.body n f.body + w.frames n l := by
  simp [frames]

theorem frames_settle (n : N) (l : List (Frame T S)) :
    w.frames n (Program.settle l) = w.frames n l := by
  induction l with
  | nil => rfl
  | cons f l ih =>
    rw [Program.settle, List.dropWhile_cons]
    split
    · next hf =>
      rw [List.isEmpty_iff] at hf
      rw [frames_cons, hf, body_nil, Nat.zero_add]
      exact ih
    · rfl

theorem frames_unwind {prog : Program N B T S I A} {n : N} {b : B} (hplan : w.Plans prog n b)
    (l : List (Frame T S)) : w.frames n (prog.unwind n b l) ≤ w.frames n l := by
  induction l with
  | nil => exact le_rfl
  | cons f l ih =>
    rw [Program.unwind, frames_cons]
    split
    · next f' hf' =>
      obtain ⟨t, ht, hmap⟩ := Option.bind_eq_some_iff.mp hf'
      obtain ⟨body, hbody, rfl⟩ := Option.map_eq_some_iff.mp hmap
      rw [frames_settle, frames_cons, hplan.2 _ _ _ ht hbody]
      omega
    · exact le_trans ih (Nat.le_add_left _ _)

/-- **A move does not gain weight**, its actions included, if no plan and no statement
does; `k` bounds what the statement it executes may gain. -/
theorem move {prog : Program N B T S I A} {x : I} {b : B} {θ : AgentSpeak.Intention N T S}
    (cost : A → ℕ) (k : ℕ) (hplan : w.Plans prog θ.owner b)
    (hexec : ∀ s, θ.head = some s →
      w.Outcome cost θ.owner (w.stmt θ.owner s + k) (prog.exec θ.owner b s x)) :
    w.intention (prog.move x b θ).intention + ((prog.move x b θ).actions.map cost).sum
      ≤ w.intention θ + k := by
  unfold Program.move
  split
  · next g hg =>
    have hw : w.intention θ = w.trigger θ.owner g + w.frames θ.owner θ.frames := by
      rw [intention, hg]
      rfl
    rw [hw]
    split
    · next body hbody =>
      have hle := hplan.1 g body hbody
      simp only [intention, Option.elim_none, frames_settle, frames_cons, List.map_nil,
        List.sum_nil]
      omega
    · have hle := frames_unwind hplan (⟨g, []⟩ :: θ.frames)
      simp only [frames_cons, body_nil] at hle
      simp only [intention, Option.elim_none, List.map_nil, List.sum_nil]
      omega
  · next hnone =>
    have hw : w.intention θ = w.frames θ.owner θ.frames := by
      rw [intention, hnone]
      exact Nat.zero_add _
    split
    · next t s body frames hf =>
      have hout := hexec s (AgentSpeak.Intention.head_eq hnone hf)
      rw [hw, hf, frames_cons, body_cons]
      split
      · next b' code acts he =>
        rw [he] at hout
        simp only [Outcome] at hout
        simp only [intention, Option.elim_none, frames_settle, frames_cons, body_append]
        omega
      · next g he =>
        rw [he] at hout
        simp only [Outcome] at hout
        simp only [intention, Option.elim_some, frames_cons, List.map_nil, List.sum_nil]
        omega
      · simp only [intention, Option.elim_none, frames_settle, frames_cons, List.map_nil,
          List.sum_nil]
        omega
      · simp only [List.map_nil, List.sum_nil, hw, hf, frames_cons, body_cons]
        omega
      · next acts he =>
        rw [he] at hout
        simp only [Outcome] at hout
        have hle := frames_unwind hplan (⟨t, body⟩ :: frames)
        simp only [frames_cons] at hle
        simp only [intention, Option.elim_none]
        omega
    · simp

@[simp] theorem total_post (n : N) (t : T) (p : Population N B T S) :
    w.total (p.post n t) = w.total p + w.trigger n t := by
  simp only [total, Population.post, List.map_append, List.sum_append, List.map_cons,
    List.map_nil, List.sum_cons, List.sum_nil]
  omega

/-- The statement an intention executes next weighs no more than the intention. -/
theorem stmt_le_intention {θ : AgentSpeak.Intention N T S} {s : S} (hs : θ.head = some s) :
    w.stmt θ.owner s ≤ w.intention θ := by
  unfold AgentSpeak.Intention.head at hs
  split at hs
  · next t s' body frames hp hf =>
    obtain rfl := Option.some_inj.mp hs
    rw [intention, hp, hf, frames_cons, body_cons]
    simp only [Option.elim_none]
    omega
  · simp at hs

theorem intention_le_total {p : Population N B T S} {i : ℕ} {θ : AgentSpeak.Intention N T S}
    (hi : p.intentions[i]? = some θ) : w.intention θ ≤ w.total p :=
  le_trans (List.single_le_sum (fun _ _ => Nat.zero_le _) _
    (List.mem_map_of_mem (List.mem_of_getElem? hi))) (Nat.le_add_left _ _)

/-- What an agent is about to do weighs no more than the population. -/
theorem le_total_of_about {p : Population N B T S} {n : N} {ev : T → Prop} {st : S → Prop} {k : ℕ}
    (h : p.About n ev st) (hev : ∀ t, ev t → k ≤ w.trigger n t) (hst : ∀ s, st s → k ≤ w.stmt n s) :
    k ≤ w.total p := by
  rcases h with ⟨e, he, rfl, h⟩ | ⟨θ, hθ, rfl, f, hf, s, hs, h⟩
  · have hle := List.single_le_sum (fun _ _ => Nat.zero_le _) _
      (List.mem_map_of_mem (f := fun e : N × T => w.trigger e.1 e.2) he)
    exact ((hev _ h).trans hle).trans (Nat.le_add_right _ _)
  · have hbody : w.stmt θ.owner s ≤ w.body θ.owner f.body :=
      List.single_le_sum (fun _ _ => Nat.zero_le _) _ (List.mem_map_of_mem hs)
    have hframes : w.body θ.owner f.body ≤ w.frames θ.owner θ.frames :=
      List.single_le_sum (fun _ _ => Nat.zero_le _) _ (List.mem_map_of_mem hf)
    have htotal : w.intention θ ≤ (p.intentions.map w.intention).sum :=
      List.single_le_sum (fun _ _ => Nat.zero_le _) _ (List.mem_map_of_mem hθ)
    have := hst s h
    simp only [total, intention] at htotal ⊢
    omega

theorem sum_map_add_le {α : Type*} {f g h : α → ℕ} (l : List α) (hle : ∀ a ∈ l, f a + g a ≤ h a) :
    (l.map f).sum + (l.map g).sum ≤ (l.map h).sum := by
  induction l with
  | nil => exact le_rfl
  | cons a l ih =>
    have hhead := hle a List.mem_cons_self
    have htail := ih fun b hb => hle b (List.mem_cons_of_mem a hb)
    simp only [List.map_cons, List.sum_cons]
    omega

/-- Two weights of a population together are at most a third. -/
theorem total_add_le {u v : Weight N T S}
    (ht : ∀ n t, w.trigger n t + u.trigger n t ≤ v.trigger n t)
    (hs : ∀ n s, w.stmt n s + u.stmt n s ≤ v.stmt n s) (p : Population N B T S) :
    w.total p + u.total p ≤ v.total p := by
  have hbody : ∀ n l, w.body n l + u.body n l ≤ v.body n l := fun n l =>
    sum_map_add_le l fun s _ => hs n s
  have hframes : ∀ n (l : List (Frame T S)), w.frames n l + u.frames n l ≤ v.frames n l :=
    fun n l => sum_map_add_le l fun f _ => hbody n f.body
  have hintention : ∀ θ : AgentSpeak.Intention N T S,
      w.intention θ + u.intention θ ≤ v.intention θ := by
    intro θ
    have hle := hframes θ.owner θ.frames
    cases hp : θ.pending with
    | none =>
      simp only [intention, hp, Option.elim_none]
      omega
    | some g =>
      have := ht θ.owner g
      simp only [intention, hp, Option.elim_some]
      omega
  have hevents := sum_map_add_le p.events fun e _ => ht e.1 e.2
  have hintentions := sum_map_add_le p.intentions fun θ _ => hintention θ
  simp only [total]
  omega

variable [DecidableEq N]

@[simp] theorem total_believe (n : N) (f : B → B) (p : Population N B T S) :
    w.total (p.believe n f) = w.total p := rfl

theorem sum_filter_le {α : Type*} (f : α → ℕ) (q : α → Bool) (l : List α) :
    ((l.filter q).map f).sum ≤ (l.map f).sum :=
  (List.filter_sublist.map f).sum_le_sum fun _ _ => Nat.zero_le _

theorem sum_eraseP {α : Type*} (f : α → ℕ) (q : α → Bool) {l : List α} {a : α}
    (ha : l.find? q = some a) : ((l.eraseP q).map f).sum + f a = (l.map f).sum := by
  induction l with
  | nil => simp at ha
  | cons b l ih =>
    by_cases hb : q b
    · rw [List.find?_cons_of_pos hb, Option.some_inj] at ha
      rw [List.eraseP_cons_of_pos hb, List.map_cons, List.sum_cons, ha, Nat.add_comm]
    · rw [List.find?_cons_of_neg hb] at ha
      rw [List.eraseP_cons_of_neg hb, List.map_cons, List.sum_cons, List.map_cons, List.sum_cons,
        ← ih ha]
      omega

/-- Answering an event does not gain weight. -/
theorem select {prog : Program N B T S I A} {n : N} {p : Population N B T S}
    (hplan : w.Plans prog n (p.beliefs n)) : w.total (p.select prog n) ≤ w.total p := by
  unfold Population.select
  split
  · exact le_rfl
  · next e he =>
    have hn : e.1 = n := by simpa using List.find?_some he
    have hsum := sum_eraseP (fun e : N × T => w.trigger e.1 e.2) _ he
    dsimp only
    split
    · simp only [total]
      omega
    · next body hbody =>
      have hle := hplan.1 _ _ hbody
      rw [hn] at hsum
      simp only [total, List.map_append, List.sum_append, List.map_cons, List.map_nil,
        List.sum_cons, List.sum_nil, intention, Option.elim_none, frames_settle, frames_cons]
      simp only [frames, List.map_nil, List.sum_nil]
      omega

/-- The effect of a move on a sum over the intentions. -/
theorem sum_apply_le (f : AgentSpeak.Intention N T S → ℕ) {p : Population N B T S} {i : ℕ}
    {θ : AgentSpeak.Intention N T S} (hi : p.intentions[i]? = some θ) (m : Move N B T S A) :
    ((p.apply i m).intentions.map f).sum + f θ ≤ (p.intentions.map f).sum + f m.intention := by
  obtain ⟨hlt, rfl⟩ := List.getElem?_eq_some_iff.mp hi
  have hsplit : (p.intentions.map f).sum
      = ((p.intentions.take i).map f).sum + f p.intentions[i]
        + ((p.intentions.drop (i + 1)).map f).sum := by
    conv_lhs => rw [← List.take_append_drop i p.intentions, List.drop_eq_getElem_cons hlt]
    rw [List.map_append, List.sum_append, List.map_cons, List.sum_cons, Nat.add_assoc]
  have htake := sum_filter_le f (Population.keeps m) (p.intentions.take i)
  have hdrop := sum_filter_le f (Population.keeps m) (p.intentions.drop (i + 1))
  simp only [Population.apply, List.map_append, List.sum_append, List.map_cons, List.sum_cons]
  omega

/-- The effect of a move on the weight of the population. -/
theorem apply {p : Population N B T S} {i : ℕ} {θ : AgentSpeak.Intention N T S}
    (hi : p.intentions[i]? = some θ) (m : Move N B T S A) :
    w.total (p.apply i m) + w.intention θ ≤ w.total p + w.intention m.intention := by
  have hle := sum_apply_le w.intention hi m
  have hevents : (p.apply i m).events = p.events := rfl
  simp only [total, hevents]
  omega

end Weight

end AgentSpeak
