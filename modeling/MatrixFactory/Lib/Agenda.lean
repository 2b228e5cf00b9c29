/-
# What an intention has still to do

The agenda of an intention lists what it has still to do, in order: the goal it waits for, and
then the statements of its plans, those of the innermost plan first.  In a program without
failure plans a move changes only the head of an agenda: a goal gives way to its plan and a
statement to what it comes to.  So a property that speaks of the order of statements across
plans is one of agendas, and has a rule like that of `Property`.
-/
import MatrixFactory.Lib.AgentSpeak

namespace AgentSpeak

variable {N B T S I A : Type*}

/-- What an intention has still to do. -/
def Intention.agenda (θ : Intention N T S) : List (T ⊕ S) :=
  θ.pending.toList.map Sum.inl ++ (θ.frames.flatMap Frame.body).map Sum.inr

theorem mem_agenda_goal {θ : Intention N T S} {g : T} : .inl g ∈ θ.agenda ↔ g ∈ θ.pending := by
  simp [Intention.agenda]

theorem mem_agenda_stmt {θ : Intention N T S} {s : S} :
    .inr s ∈ θ.agenda ↔ ∃ f ∈ θ.frames, s ∈ f.body := by
  simp [Intention.agenda]

/-- An intention that waits for no goal has a statement to execute, unless it is finished. -/
def Intention.Settled (θ : Intention N T S) : Prop :=
  θ.pending = none → ∀ f ∈ θ.frames.head?, f.body ≠ []

namespace Program

variable (prog : Program N B T S I A)

/-- The agenda after a move. -/
def advance (x : I) (n : N) (b : B) : List (T ⊕ S) → List (T ⊕ S)
  | [] => []
  | .inl g :: rest =>
    match prog.plan n b g with
    | some body => body.map Sum.inr ++ rest
    | none => []
  | .inr s :: rest =>
    match prog.exec n b s x with
    | .next _ code _ => code.map Sum.inr ++ rest
    | .subgoal g => .inl g :: rest
    | .drop _ => rest
    | .blocked => .inr s :: rest
    | .failed _ => []

/-- The beliefs after a move, and its actions. -/
def effect (x : I) (n : N) (b : B) : List (T ⊕ S) → B × List A
  | .inr s :: _ =>
    match prog.exec n b s x with
    | .next b' _ acts => (b', acts)
    | .failed acts => (b, acts)
    | _ => (b, [])
  | _ => (b, [])

theorem settle_body (frames : List (Frame T S)) :
    (settle frames).flatMap Frame.body = frames.flatMap Frame.body := by
  induction frames with
  | nil => rfl
  | cons f frames ih =>
    rw [settle, List.dropWhile_cons]
    split
    · next hf =>
      rw [List.isEmpty_iff] at hf
      rw [List.flatMap_cons, hf, List.nil_append]
      exact ih
    · rfl

theorem settle_head {frames : List (Frame T S)} {f : Frame T S}
    (hf : f ∈ (settle frames).head?) : f.body ≠ [] := by
  have h := List.head?_dropWhile_not (fun f : Frame T S => f.body.isEmpty) frames
  rw [settle] at hf
  rw [Option.mem_def.mp hf] at h
  simpa using h

theorem unwind_nil (n : N) (b : B) {frames : List (Frame T S)}
    (hrecover : ∀ f ∈ frames, prog.recover f.trigger = none) : prog.unwind n b frames = [] := by
  induction frames with
  | nil => rfl
  | cons f frames ih =>
    rw [unwind, hrecover f List.mem_cons_self]
    exact ih fun f' hf' => hrecover f' (List.mem_cons_of_mem _ hf')

/-- **A move advances the agenda**, and its effect is that of the agenda's head, unless a
failure plan answers its failure. -/
theorem move_agenda_of {x : I} {b : B} {θ : Intention N T S} (hθ : θ.Settled)
    (hgoal : ∀ g ∈ θ.pending, prog.plan θ.owner b g = none →
      prog.recover g = none ∧ ∀ f ∈ θ.frames, prog.recover f.trigger = none)
    (hexec : ∀ s ∈ θ.head, ∀ acts, prog.exec θ.owner b s x = .failed acts →
      ∀ f ∈ θ.frames, prog.recover f.trigger = none) :
    (prog.move x b θ).intention.Settled ∧
      (prog.move x b θ).intention.agenda = prog.advance x θ.owner b θ.agenda ∧
      ((prog.move x b θ).beliefs, (prog.move x b θ).actions)
        = prog.effect x θ.owner b θ.agenda := by
  unfold move
  split
  · next g hg =>
    have hagenda : θ.agenda = .inl g :: (θ.frames.flatMap Frame.body).map Sum.inr := by
      rw [Intention.agenda, hg]
      rfl
    rw [hagenda]
    split
    · next body hbody =>
      refine ⟨fun _ _ hf => settle_head hf, ?_, rfl⟩
      simp [Intention.agenda, settle_body, advance, hbody]
    · next hnone =>
      obtain ⟨hg', hframes⟩ := hgoal g hg hnone
      rw [unwind_nil prog θ.owner b (List.forall_mem_cons.mpr ⟨hg', hframes⟩)]
      refine ⟨fun _ _ hf => ?_, ?_, rfl⟩
      · cases hf
      · simp [Intention.agenda, advance, hnone]
  · next hpending =>
    split
    · next t s body frames hf =>
      have hagenda : θ.agenda
          = .inr s :: ((body ++ frames.flatMap Frame.body).map Sum.inr : List (T ⊕ S)) := by
        rw [Intention.agenda, hpending, hf]
        rfl
      rw [hagenda]
      split
      · next b' code acts he =>
        refine ⟨fun _ _ hf => settle_head hf, ?_, ?_⟩
        · simp [Intention.agenda, settle_body, advance, he]
        · simp [effect, he]
      · next g he =>
        refine ⟨fun h => ?_, ?_, ?_⟩
        · cases h
        · simp [Intention.agenda, advance, he]
        · simp [effect, he]
      · next goals he =>
        refine ⟨fun _ _ hf => settle_head hf, ?_, ?_⟩
        · simp [Intention.agenda, settle_body, advance, he]
        · simp [effect, he]
      · next he =>
        refine ⟨hθ, ?_, ?_⟩
        · rw [hagenda, advance, he]
        · simp [effect, he]
      · next acts he =>
        have hframes := hexec s (Intention.head_eq hpending hf) acts he
        rw [hf, List.forall_mem_cons] at hframes
        have hnil : prog.unwind θ.owner b (⟨t, body⟩ :: frames) = [] :=
          unwind_nil prog θ.owner b (List.forall_mem_cons.mpr ⟨hframes.1, hframes.2⟩)
        rw [hnil]
        refine ⟨fun _ _ hf => ?_, ?_, ?_⟩
        · cases hf
        · simp [Intention.agenda, advance, he]
        · simp [effect, he]
    · next hno =>
      -- nothing is left to do
      have hframes : θ.frames = [] := by
        cases hf : θ.frames with
        | nil => rfl
        | cons f frames =>
          obtain ⟨t, body⟩ := f
          cases body with
          | nil => exact absurd rfl (hθ hpending ⟨t, []⟩ (by rw [hf]; rfl))
          | cons s body => exact absurd hf (hno t s body frames)
      have hagenda : θ.agenda = [] := by
        rw [Intention.agenda, hpending, hframes]
        rfl
      rw [hagenda]
      exact ⟨hθ, rfl, rfl⟩

/-- In a program without failure plans a move advances the agenda. -/
theorem move_agenda (hrecover : ∀ t, prog.recover t = none) (x : I) (b : B)
    {θ : Intention N T S} (hθ : θ.Settled) :
    (prog.move x b θ).intention.Settled ∧
      (prog.move x b θ).intention.agenda = prog.advance x θ.owner b θ.agenda ∧
      ((prog.move x b θ).beliefs, (prog.move x b θ).actions)
        = prog.effect x θ.owner b θ.agenda :=
  prog.move_agenda_of hθ (fun g _ _ => ⟨hrecover g, fun f _ => hrecover f.trigger⟩)
    fun _ _ _ _ f _ => hrecover f.trigger

/-- The plans of an intention after a move answer what they answered before, or the goal that it
waited for, if none of these has a failure plan. -/
theorem move_triggers {P : T → Prop} {x : I} {b : B} {θ : Intention N T S}
    (hpending : ∀ g ∈ θ.pending, P g) (hframes : ∀ f ∈ θ.frames, P f.trigger)
    (hrecover : ∀ t, P t → prog.recover t = none) :
    ∀ f ∈ (prog.move x b θ).intention.frames, P f.trigger := by
  have hsettle : ∀ frames : List (Frame T S), (∀ f ∈ frames, P f.trigger) →
      ∀ f ∈ settle frames, P f.trigger := fun frames h f hf =>
    h f (List.IsSuffix.mem hf (List.dropWhile_suffix _))
  have hunwind : ∀ frames : List (Frame T S), (∀ f ∈ frames, P f.trigger) →
      ∀ f ∈ prog.unwind θ.owner b frames, P f.trigger := by
    intro frames h
    rw [unwind_nil prog θ.owner b fun f hf => hrecover _ (h f hf)]
    simp
  unfold move
  split
  · next g hg =>
    split
    · exact hsettle _ (List.forall_mem_cons.mpr ⟨hpending g hg, hframes⟩)
    · exact hunwind _ (List.forall_mem_cons.mpr ⟨hpending g hg, hframes⟩)
  · split
    · next t s body frames hf =>
      rw [hf, List.forall_mem_cons] at hframes
      have hrest : ∀ body' : List S, ∀ f ∈ ⟨t, body'⟩ :: frames, P f.trigger := fun body' =>
        List.forall_mem_cons.mpr hframes
      split
      · exact hsettle _ (hrest _)
      · exact hrest _
      · exact hsettle _ (hrest _)
      · rw [hf]
        exact hrest _
      · exact hunwind _ (hrest _)
    · exact hframes

/-- The statement at the head of an agenda is executed next. -/
theorem head_of_agenda {θ : Intention N T S} (hθ : θ.Settled) {s : S} {rest : List (T ⊕ S)}
    (h : θ.agenda = .inr s :: rest) : θ.head = some s := by
  unfold Intention.agenda at h
  cases hp : θ.pending with
  | some g =>
    rw [hp] at h
    cases (List.cons.inj h).1
  | none =>
    rw [hp] at h
    cases hf : θ.frames with
    | nil =>
      rw [hf] at h
      cases h
    | cons f frames =>
      obtain ⟨t, body⟩ := f
      cases body with
      | nil => exact absurd rfl (hθ hp ⟨t, []⟩ (by rw [hf]; rfl))
      | cons s' body =>
        rw [hf] at h
        cases (List.cons.inj h).1
        rw [Intention.head, hp, hf]

/-- The statement that is executed next is at the head of the agenda. -/
theorem agenda_of_head {θ : Intention N T S} {s : S} (h : θ.head = some s) :
    ∃ rest, θ.agenda = .inr s :: rest := by
  unfold Intention.head at h
  split at h
  · next t s' body frames hp hf =>
    obtain rfl := Option.some_inj.mp h
    exact ⟨(body ++ frames.flatMap Frame.body).map Sum.inr, by rw [Intention.agenda, hp, hf]; rfl⟩
  · cases h

/-- An intention that is kept when its agent drops everything has nothing left to do. -/
theorem agenda_of_keeps [DecidableEq N] {m : Move N B T S A} {θ : Intention N T S}
    (hdrops : ∀ t, m.drops t) (howner : θ.owner = m.intention.owner)
    (h : Population.keeps m θ) : θ.agenda = [] := by
  simp only [Population.keeps, howner, ne_eq, not_true_eq_false, decide_false, Bool.false_or,
    Bool.not_eq_true', Bool.or_eq_false_iff] at h
  unfold Intention.agenda
  cases hp : θ.pending with
  | some g =>
    rw [hp, Option.any_some, hdrops] at h
    cases h.1
  | none =>
    cases hf : θ.frames with
    | nil => rfl
    | cons f frames =>
      rw [hf, List.any_cons, hdrops, Bool.true_or] at h
      cases h.2

end Program

/-! ## Properties of every agenda -/

namespace Population

/-- Every agenda of the population satisfies `P`. -/
def Agendas (P : N → List (T ⊕ S) → Prop) (p : Population N B T S) : Prop :=
  ∀ θ ∈ p.intentions, θ.Settled ∧ P θ.owner θ.agenda

variable {P Q : N → List (T ⊕ S) → Prop} {p : Population N B T S}

theorem Agendas.imp (h : p.Agendas P) (hPQ : ∀ n l, P n l → Q n l) : p.Agendas Q :=
  fun θ hθ => ⟨(h θ hθ).1, hPQ _ _ (h θ hθ).2⟩

/-- The intentions of a population are settled. -/
theorem Agendas.settled (h : p.Agendas P) {i : ℕ} {θ : Intention N T S}
    (hi : p.intentions[i]? = some θ) : θ.Settled :=
  (h θ (List.mem_of_getElem? hi)).1

theorem Agendas.get (h : p.Agendas P) {i : ℕ} {θ : Intention N T S}
    (hi : p.intentions[i]? = some θ) : P θ.owner θ.agenda :=
  (h θ (List.mem_of_getElem? hi)).2

variable [DecidableEq N]

/-- Answering an event adds the agenda of its plan. -/
theorem Agendas.select {prog : Program N B T S I A} (h : p.Agendas P) {n : N}
    (hplan : ∀ e ∈ p.events.find? (·.1 = n), ∀ body,
      prog.plan n (p.beliefs n) e.2 = some body → P n (body.map Sum.inr)) :
    (p.select prog n).Agendas P := by
  unfold Population.select
  split
  · exact h
  · next e he =>
    dsimp only
    split
    · exact h
    · next body hbody =>
      intro θ hθ
      rcases List.mem_append.mp hθ with hθ | hθ
      · exact h θ hθ
      · obtain rfl := List.mem_singleton.mp hθ
        refine ⟨fun _ _ hf => Program.settle_head hf, ?_⟩
        have hbodies := hplan e he body hbody
        simpa [Intention.agenda, Program.settle_body] using hbodies

/-- A move advances one agenda; the others stay or are dropped. -/
theorem Agendas.apply_move {prog : Program N B T S I A} (hrecover : ∀ t, prog.recover t = none)
    {x : I} (h : p.Agendas P) {i : ℕ} {θ : Intention N T S} (hi : p.intentions[i]? = some θ)
    (hothers : ∀ j θ', p.intentions[j]? = some θ' → j ≠ i → P θ'.owner θ'.agenda →
      Q θ'.owner θ'.agenda)
    (hmove : P θ.owner θ.agenda →
      Q θ.owner (prog.advance x θ.owner (p.beliefs θ.owner) θ.agenda)) :
    (p.apply i (prog.move x (p.beliefs θ.owner) θ)).Agendas Q := by
  intro θ' hθ'
  rcases List.mem_append.mp hθ' with hθ' | hθ'
  · have hmem := List.mem_of_mem_filter hθ'
    obtain ⟨j, hj, hget⟩ := List.mem_iff_getElem.mp hmem
    rw [List.length_take] at hj
    rw [List.getElem_take] at hget
    have hold : p.intentions[j]? = some θ' := by
      rw [List.getElem?_eq_getElem (by omega), hget]
    have hP := h θ' (List.mem_of_getElem? hold)
    exact ⟨hP.1, hothers j θ' hold (by omega) hP.2⟩
  · rcases List.mem_cons.mp hθ' with rfl | hθ'
    · have hP := h θ (List.mem_of_getElem? hi)
      obtain ⟨hsettled, hagenda, -⟩ :=
        prog.move_agenda hrecover x (p.beliefs θ.owner) hP.1
      refine ⟨hsettled, ?_⟩
      rw [hagenda, Program.move_owner]
      exact hmove hP.2
    · have hmem := List.mem_of_mem_filter hθ'
      obtain ⟨j, hj, hget⟩ := List.mem_iff_getElem.mp hmem
      rw [List.length_drop] at hj
      rw [List.getElem_drop] at hget
      have hold : p.intentions[i + 1 + j]? = some θ' := by
        rw [List.getElem?_eq_getElem (by omega), hget]
      have hP := h θ' (List.mem_of_getElem? hold)
      exact ⟨hP.1, hothers _ θ' hold (by omega) hP.2⟩

end Population

end AgentSpeak
