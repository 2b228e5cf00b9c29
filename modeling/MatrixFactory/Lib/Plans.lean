/-
# What a plan at work has still to do

A plan at work is a frame of an intention: the event it answers and the statements left of it.
Failure plans may take the place of plans, so an agenda, which forgets the events, says too
little of a program that has them.  A property of the plans at work has a rule like that of
`Property`, and it may speak of the order of the statements of a plan.
-/
import MatrixFactory.Lib.AgentSpeak

namespace AgentSpeak

variable {N B T S I A : Type*}

/-- The plan whose statement is executed next. -/
theorem Intention.frames_of_next {θ : Intention N T S} {t : T} {s : S} (h : θ.next = some (t, s)) :
    θ.pending = none ∧ ∃ body frames, θ.frames = ⟨t, s :: body⟩ :: frames := by
  unfold Intention.next at h
  split at h
  · next hp hf =>
    cases h
    exact ⟨hp, _, _, hf⟩
  · cases h

theorem Intention.next_of_head {θ : Intention N T S} {s : S} (h : θ.head = some s) :
    ∃ t, θ.next = some (t, s) := by
  unfold Intention.head at h
  split at h
  · next t s' body frames hp hf =>
    obtain rfl := Option.some_inj.mp h
    exact ⟨t, Intention.next_eq hp hf⟩
  · cases h

namespace Program

variable (prog : Program N B T S I A)

theorem mem_of_mem_settle {frames : List (Frame T S)} {f : Frame T S} (h : f ∈ settle frames) :
    f ∈ frames :=
  (List.dropWhile_sublist _).mem h

/-- After a failure every plan was at work before, or it is a failure plan. -/
theorem mem_unwind {n : N} {b : B} {frames : List (Frame T S)} {f : Frame T S}
    (h : f ∈ prog.unwind n b frames) :
    f ∈ frames ∨ ∃ t, prog.recover t = some f.trigger ∧ prog.plan n b f.trigger = some f.body := by
  induction frames with
  | nil => cases h
  | cons f' frames ih =>
    rw [unwind] at h
    split at h
    · next f'' hf'' =>
      obtain ⟨t, ht, hmap⟩ := Option.bind_eq_some_iff.mp hf''
      obtain ⟨body, hbody, rfl⟩ := Option.map_eq_some_iff.mp hmap
      rcases List.mem_cons.mp (mem_of_mem_settle h) with rfl | h
      · exact Or.inr ⟨f'.trigger, ht, hbody⟩
      · exact Or.inl (List.mem_cons_of_mem _ h)
    · exact (ih h).imp_left (List.mem_cons_of_mem _)

/-- A failure that no plan at work recovers from ends the intention. -/
theorem unwind_eq_nil {n : N} {b : B} {frames : List (Frame T S)}
    (h : ∀ f ∈ frames, prog.recover f.trigger = none) : prog.unwind n b frames = [] := by
  induction frames with
  | nil => rfl
  | cons f frames ih =>
    rw [unwind, h f List.mem_cons_self]
    exact ih fun f' hf' => h f' (List.mem_cons_of_mem _ hf')

/-- The move of a statement that fails in such an intention. -/
theorem move_failed {x : I} {b : B} {θ : Intention N T S} {t : T} {s : S} {acts : List A}
    (hnext : θ.next = some (t, s)) (hfailed : prog.exec θ.owner b s x = .failed acts)
    (h : ∀ f ∈ θ.frames, prog.recover f.trigger = none) :
    prog.move x b θ =
      { beliefs := b, intention := { owner := θ.owner }, actions := acts } := by
  obtain ⟨hpending, body, frames, hframes⟩ := θ.frames_of_next hnext
  rw [hframes] at h
  have hunwind : prog.unwind θ.owner b (⟨t, body⟩ :: frames) = [] := by
    apply prog.unwind_eq_nil
    intro f hf
    rcases List.mem_cons.mp hf with rfl | hf
    · exact h ⟨t, s :: body⟩ List.mem_cons_self
    · exact h f (List.mem_cons_of_mem _ hf)
  unfold move
  simp only [hpending, hframes, hfailed, hunwind]

/-- What is left of a plan, after one of its statements. -/
def Leaves (Q : List S → Prop) (s : S) (body : List S) : Outcome B T S A → Prop
  | .next _ code _ => Q (code ++ body)
  | .blocked => Q (s :: body)
  | _ => Q body

end Program

namespace Population

/-- Every plan at work satisfies `Q`. -/
def Working (Q : N → T → List S → Prop) (p : Population N B T S) : Prop :=
  ∀ θ ∈ p.intentions, ∀ f ∈ θ.frames, Q θ.owner f.trigger f.body

variable {Q Q' : N → T → List S → Prop} {p : Population N B T S}

theorem Working.imp (h : p.Working Q)
    (hQ : ∀ θ ∈ p.intentions, ∀ f ∈ θ.frames, Q θ.owner f.trigger f.body →
      Q' θ.owner f.trigger f.body) : p.Working Q' :=
  fun θ hθ f hf => hQ θ hθ f hf (h θ hθ f hf)

variable [DecidableEq N] {prog : Program N B T S I A}

/-- Answering an event adds its plan. -/
theorem Working.select (h : p.Working Q) {n : N}
    (hplan : ∀ e ∈ p.events.find? (·.1 = n), ∀ body,
      prog.plan n (p.beliefs n) e.2 = some body → Q n e.2 body) :
    (p.select prog n).Working Q := by
  unfold Population.select
  split
  · exact h
  · next e he =>
    dsimp only
    split
    · exact h
    · next body hbody =>
      intro θ hθ f hf
      rcases List.mem_append.mp hθ with hθ | hθ
      · exact h θ hθ f hf
      · obtain rfl := List.mem_singleton.mp hθ
        obtain rfl := List.mem_singleton.mp (Program.mem_of_mem_settle hf)
        exact hplan e he body hbody

/-- A move keeps the plans at work, except the one whose statement it executes; it may add the
plan for a goal or a failure plan. -/
theorem Working.apply_move {x : I} (h : p.Working Q) {i : ℕ} {θ : Intention N T S}
    (hi : p.intentions[i]? = some θ)
    (hothers : ∀ θ' ∈ p.intentions, ∀ f ∈ θ'.frames, Q θ'.owner f.trigger f.body →
      Q' θ'.owner f.trigger f.body)
    (hgoal : ∀ g ∈ θ.pending, ∀ body, prog.plan θ.owner (p.beliefs θ.owner) g = some body →
      Q' θ.owner g body)
    (hrecover : ∀ t t' body, prog.recover t = some t' →
      prog.plan θ.owner (p.beliefs θ.owner) t' = some body → Q' θ.owner t' body)
    (hhead : ∀ t s body, θ.next = some (t, s) → ⟨t, s :: body⟩ ∈ θ.frames →
      Q θ.owner t (s :: body) →
      Program.Leaves (Q' θ.owner t) s body (prog.exec θ.owner (p.beliefs θ.owner) s x)) :
    (p.apply i (prog.move x (p.beliefs θ.owner) θ)).Working Q' := by
  have hmem := List.mem_of_getElem? hi
  have hown : ∀ f ∈ θ.frames, Q' θ.owner f.trigger f.body := fun f hf =>
    hothers θ hmem f hf (h θ hmem f hf)
  have hunwind : ∀ frames : List (Frame T S), (∀ f ∈ frames, Q' θ.owner f.trigger f.body) →
      ∀ f ∈ prog.unwind θ.owner (p.beliefs θ.owner) frames, Q' θ.owner f.trigger f.body := by
    intro frames hframes f hf
    rcases prog.mem_unwind hf with hf | ⟨t, ht, hbody⟩
    · exact hframes f hf
    · exact hrecover t _ _ ht hbody
  have hmove : ∀ f ∈ (prog.move x (p.beliefs θ.owner) θ).intention.frames,
      Q' θ.owner f.trigger f.body := by
    unfold Program.move
    split
    · next g hg =>
      split
      · next body hbody =>
        intro f hf
        rcases List.mem_cons.mp (Program.mem_of_mem_settle hf) with rfl | hf
        · exact hgoal g hg body hbody
        · exact hown f hf
      · -- the frame of a goal without a plan is empty, and it is left
        intro f hf
        have hg' : ∀ f ∈ prog.unwind θ.owner (p.beliefs θ.owner) (⟨g, []⟩ :: θ.frames),
            Q' θ.owner f.trigger f.body := by
          rw [Program.unwind]
          split
          · next f'' hf'' =>
            obtain ⟨t, ht, hmap⟩ := Option.bind_eq_some_iff.mp hf''
            obtain ⟨body, hbody, rfl⟩ := Option.map_eq_some_iff.mp hmap
            intro f hf
            rcases List.mem_cons.mp (Program.mem_of_mem_settle hf) with rfl | hf
            · exact hrecover _ _ _ ht hbody
            · exact hown f hf
          · exact hunwind θ.frames hown
        exact hg' f hf
    · next hnone =>
      split
      · next t s body frames hf =>
        have hnext := Intention.next_eq hnone hf
        have hin : ⟨t, s :: body⟩ ∈ θ.frames := by
          rw [hf]
          exact List.mem_cons_self
        have hout := hhead t s body hnext hin (h θ hmem _ hin)
        have htail : ∀ f ∈ frames, Q' θ.owner f.trigger f.body := fun f hf' =>
          hown f (by rw [hf]; exact List.mem_cons_of_mem _ hf')
        have hcons : ∀ body', Q' θ.owner t body' →
            ∀ f ∈ (⟨t, body'⟩ :: frames : List (Frame T S)), Q' θ.owner f.trigger f.body := by
          intro body' hbody' f hf'
          rcases List.mem_cons.mp hf' with rfl | hf'
          · exact hbody'
          · exact htail f hf'
        split
        · next he =>
          rw [he] at hout
          exact fun f hf' => hcons _ hout f (Program.mem_of_mem_settle hf')
        · next he =>
          rw [he] at hout
          exact hcons _ hout
        · next he =>
          rw [he] at hout
          exact fun f hf' => hcons _ hout f (Program.mem_of_mem_settle hf')
        · next he =>
          rw [he] at hout
          rw [hf]
          exact hcons _ hout
        · next he =>
          rw [he] at hout
          exact hunwind _ (hcons _ hout)
      · exact hown
  intro θ' hθ' f hf
  rcases List.mem_append.mp hθ' with hθ' | hθ'
  · have hold := List.mem_of_mem_take (List.mem_of_mem_filter hθ')
    exact hothers θ' hold f hf (h θ' hold f hf)
  · rcases List.mem_cons.mp hθ' with rfl | hθ'
    · rw [Program.move_owner]
      exact hmove f hf
    · have hold := List.mem_of_mem_drop (List.mem_of_mem_filter hθ')
      exact hothers θ' hold f hf (h θ' hold f hf)

/-- An intention that the agent of a move keeps stays, unless it is the one that moves. -/
theorem mem_apply {A' : Type*} {m : Move N B T S A'} {i : ℕ} {θ θ' : Intention N T S}
    (hi : p.intentions[i]? = some θ) (hθ' : θ' ∈ p.intentions) (hkeep : keeps m θ') :
    θ' = θ ∨ θ' ∈ (p.apply i m).intentions := by
  obtain ⟨hlt, hget⟩ := List.getElem?_eq_some_iff.mp hi
  have hsplit : p.intentions = p.intentions.take i ++ θ :: p.intentions.drop (i + 1) := by
    rw [← hget, ← List.drop_eq_getElem_cons hlt, List.take_append_drop]
  rw [hsplit] at hθ'
  rcases List.mem_append.mp hθ' with hθ' | hθ'
  · exact Or.inr (List.mem_append_left _ (List.mem_filter.mpr ⟨hθ', hkeep⟩))
  · rcases List.mem_cons.mp hθ' with rfl | hθ'
    · exact Or.inl rfl
    · refine Or.inr (List.mem_append_right _ (List.mem_cons_of_mem _ ?_))
      exact List.mem_filter.mpr ⟨hθ', hkeep⟩

/-- A move that drops no goal changes the beliefs of its agent and its intention. -/
theorem apply_eq_set {m : Move N B T S A} {i : ℕ} (hi : i < p.intentions.length)
    (hdrops : m.drops = fun _ => false) :
    p.apply i m = { p with
      beliefs := Function.update p.beliefs m.intention.owner m.beliefs
      intentions := p.intentions.set i m.intention } := by
  have hkeeps : ∀ θ : Intention N T S, keeps m θ = true := by
    intro θ
    simp [keeps, hdrops]
  have hfilter : ∀ l : List (Intention N T S), l.filter (keeps m) = l := fun l =>
    List.filter_eq_self.mpr fun θ _ => hkeeps θ
  unfold apply
  rw [hfilter, hfilter, List.set_eq_take_append_cons_drop, if_pos hi]

/-- A statement that fails, where no plan at work recovers from it, ends its intention and changes
nothing else. -/
theorem apply_failed {x : I} {i : ℕ} {θ : Intention N T S} {t : T} {s : S} {acts : List A}
    (hi : p.intentions[i]? = some θ) (hnext : θ.next = some (t, s))
    (hfailed : prog.exec θ.owner (p.beliefs θ.owner) s x = .failed acts)
    (h : ∀ f ∈ θ.frames, prog.recover f.trigger = none) :
    p.apply i (prog.move x (p.beliefs θ.owner) θ) =
        { p with intentions := p.intentions.set i { owner := θ.owner } } ∧
      (prog.move x (p.beliefs θ.owner) θ).actions = acts := by
  obtain ⟨hlt, -⟩ := List.getElem?_eq_some_iff.mp hi
  rw [prog.move_failed hnext hfailed h]
  refine ⟨?_, rfl⟩
  rw [apply_eq_set hlt rfl]
  show { p with
    beliefs := Function.update p.beliefs θ.owner (p.beliefs θ.owner)
    intentions := p.intentions.set i { owner := θ.owner } } = _
  rw [Function.update_eq_self]

/-- An intention that has ended does nothing more. -/
theorem apply_ended {x : I} {i : ℕ} {n : N} (hi : p.intentions[i]? = some { owner := n }) :
    (p.apply i (prog.move x (p.beliefs n) { owner := n })) = p ∧
      (prog.move x (p.beliefs n) { owner := n }).actions = [] := by
  obtain ⟨hlt, hget⟩ := List.getElem?_eq_some_iff.mp hi
  refine ⟨?_, rfl⟩
  rw [apply_eq_set hlt rfl]
  show { p with
    beliefs := Function.update p.beliefs n (p.beliefs n)
    intentions := p.intentions.set i { owner := n } } = p
  rw [Function.update_eq_self, ← hget, List.set_getElem_self]

end Population

namespace Property

variable {P : Property N B T S}

/-- All plans of an intention but the innermost wait for a subgoal. -/
theorem Stack.outer {n : N} {f : Frame T S} {frames : List (Frame T S)}
    (h : P.Stack n (f :: frames)) : ∀ f' ∈ frames, P.outer n f'.trigger := by
  induction frames generalizing f with
  | nil => simp
  | cons f' frames ih =>
    intro f'' hf''
    rcases List.mem_cons.mp hf'' with rfl | hf''
    · exact h.2.2.1
    · exact ih h.2.2.2 f'' hf''

end Property

end AgentSpeak
