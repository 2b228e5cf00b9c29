/-
# Critical sections of agents

Some goals and statements of a program belong to a critical section: an intention holds it
while it waits for such a goal or has such a statement ahead.  The intentions of an agent that
hold the section form a list, and each change of a population does one thing to that list: a
plan that enters the section adds an intention at the end, and a move changes the intention
that moves and may drop others.  So an agent whose list is never longer than one has its
section executed as if nothing else were under way.
-/
import MatrixFactory.Lib.AgentSpeak

namespace AgentSpeak

variable {N B T S I A : Type*}

/-- The goals and statements of a critical section. -/
structure Critical (T S : Type*) where
  goal : T → Bool
  stmt : S → Bool

namespace Critical

variable (c : Critical T S)

/-- The intention waits for a goal of the section, or has a statement of it ahead. -/
def holds (θ : Intention N T S) : Bool :=
  θ.pending.any c.goal || θ.frames.any fun f => f.body.any c.stmt

/-- The intentions of agent `n` that hold the section, oldest first. -/
def holders [DecidableEq N] (n : N) (p : Population N B T S) : List (Intention N T S) :=
  p.intentions.filter fun θ => θ.owner = n && c.holds θ

variable {c}

theorem not_holds_iff {θ : Intention N T S} :
    c.holds θ = false ↔
      (∀ g ∈ θ.pending, c.goal g = false) ∧ ∀ f ∈ θ.frames, ∀ s ∈ f.body, c.stmt s = false := by
  cases h : θ.pending <;> simp [holds, h]

theorem outside_of_any {l : List S} (h : l.any c.stmt = false) : ∀ s ∈ l, c.stmt s = false := by
  simpa using h

/-- The next statement of an intention is one of its plans. -/
theorem mem_of_head {θ : Intention N T S} {s : S} (hs : θ.head = some s) :
    ∃ f ∈ θ.frames, s ∈ f.body := by
  unfold Intention.head at hs
  split at hs
  · next t s' body frames hp hf =>
    obtain rfl := Option.some_inj.mp hs
    rw [hf]
    exact ⟨_, List.mem_cons_self, List.mem_cons_self⟩
  · cases hs

/-- An intention whose next statement belongs to the section holds it. -/
theorem holds_of_head {θ : Intention N T S} {s : S} (hs : θ.head = some s) (h : c.stmt s) :
    c.holds θ := by
  obtain ⟨f, hf, hmem⟩ := mem_of_head hs
  simp only [holds, Bool.or_eq_true, List.any_eq_true]
  exact Or.inr ⟨f, hf, s, hmem, h⟩

theorem mem_of_mem_settle {frames : List (Frame T S)} {f : Frame T S}
    (hf : f ∈ Program.settle frames) : f ∈ frames :=
  List.IsSuffix.mem hf (List.dropWhile_suffix _)

theorem settle_of_ne {f : Frame T S} {frames : List (Frame T S)} (h : f.body ≠ []) :
    Program.settle (f :: frames) = f :: frames := by
  rw [Program.settle, List.dropWhile_cons_of_neg]
  simpa using h

/-! ## Moves outside the section -/

/-- The failure plans for the plans of the intention stay outside the section. -/
def Recovers (c : Critical T S) (prog : Program N B T S I A) (n : N) (b : B)
    (frames : List (Frame T S)) : Prop :=
  ∀ f ∈ frames, ∀ t body, prog.recover f.trigger = some t → prog.plan n b t = some body →
    ∀ s ∈ body, c.stmt s = false

/-- What a statement comes to stays outside the section. -/
def Outside (c : Critical T S) (prog : Program N B T S I A) (n : N) (b : B)
    (frames : List (Frame T S)) : Outcome B T S A → Prop
  | .next _ code _ => ∀ s ∈ code, c.stmt s = false
  | .subgoal g => c.goal g = false
  | .drop _ => True
  | .blocked => True
  | .failed _ => c.Recovers prog n b frames

theorem unwind_outside {prog : Program N B T S I A} {n : N} {b : B} {frames : List (Frame T S)}
    (hrec : c.Recovers prog n b frames) (h : ∀ f ∈ frames, ∀ s ∈ f.body, c.stmt s = false) :
    ∀ f ∈ prog.unwind n b frames, ∀ s ∈ f.body, c.stmt s = false := by
  induction frames with
  | nil => simp [Program.unwind]
  | cons f frames ih =>
    rw [Program.unwind]
    split
    · next f' hf' =>
      obtain ⟨t, ht, hmap⟩ := Option.bind_eq_some_iff.mp hf'
      obtain ⟨body, hbody, rfl⟩ := Option.map_eq_some_iff.mp hmap
      intro f'' hf''
      rcases List.mem_cons.mp (mem_of_mem_settle hf'') with rfl | hmem
      · exact hrec f List.mem_cons_self t body ht hbody
      · exact h f'' (List.mem_cons_of_mem _ hmem)
    · exact ih (fun f' hf' => hrec f' (List.mem_cons_of_mem _ hf'))
        fun f' hf' => h f' (List.mem_cons_of_mem _ hf')

/-- **An intention outside the section stays outside**, if the plan for the goal that it
answers and what its statement comes to do. -/
theorem not_holds_move {prog : Program N B T S I A} {x : I} {b : B} {θ : Intention N T S}
    (hθ : c.holds θ = false)
    (hplan : ∀ g ∈ θ.pending, ∀ body, prog.plan θ.owner b g = some body →
      ∀ s ∈ body, c.stmt s = false)
    (hgoal : ∀ g ∈ θ.pending, prog.plan θ.owner b g = none →
      c.Recovers prog θ.owner b (⟨g, []⟩ :: θ.frames))
    (hexec : ∀ s, θ.head = some s → c.Outside prog θ.owner b θ.frames (prog.exec θ.owner b s x)) :
    c.holds (prog.move x b θ).intention = false := by
  obtain ⟨hpend, hframes⟩ := not_holds_iff.mp hθ
  apply not_holds_iff.mpr
  unfold Program.move
  split
  · next g hg =>
    split
    · next body hbody =>
      refine ⟨by simp, fun f hf => ?_⟩
      rcases List.mem_cons.mp (mem_of_mem_settle hf) with rfl | hf
      · exact hplan g hg body hbody
      · exact hframes f hf
    · next hbody =>
      refine ⟨by simp, unwind_outside (hgoal g hg hbody) fun f hf => ?_⟩
      rcases List.mem_cons.mp hf with rfl | hf
      · simp
      · exact hframes f hf
  · next hnone =>
    split
    · next t s body frames hf =>
      have hout := hexec s (Intention.head_eq hnone hf)
      rw [hf] at hframes hout
      have hbody : ∀ s' ∈ body, c.stmt s' = false := fun s' hs' =>
        hframes _ List.mem_cons_self s' (List.mem_cons_of_mem s hs')
      have hrest : ∀ f ∈ (⟨t, body⟩ :: frames : List (Frame T S)), ∀ s' ∈ f.body,
          c.stmt s' = false := by
        intro f hf'
        rcases List.mem_cons.mp hf' with rfl | hf'
        · exact hbody
        · exact hframes f (List.mem_cons_of_mem _ hf')
      split
      · next b' code acts he =>
        rw [he] at hout
        refine ⟨by simp, fun f hf' => ?_⟩
        rcases List.mem_cons.mp (mem_of_mem_settle hf') with rfl | hf'
        · intro s' hs'
          exact (List.mem_append.mp hs').elim (hout s') (hbody s')
        · exact hframes f (List.mem_cons_of_mem _ hf')
      · next g he =>
        rw [he] at hout
        refine ⟨fun g' hg' => ?_, hrest⟩
        obtain rfl := Option.some_inj.mp hg'
        exact hout
      · exact ⟨by simp, fun f hf' => hrest f (mem_of_mem_settle hf')⟩
      · refine ⟨hpend, ?_⟩
        rw [hf]
        exact hframes
      · next acts he =>
        rw [he] at hout
        refine ⟨by simp, unwind_outside ?_ hrest⟩
        intro f hf' t' body' ht'
        rcases List.mem_cons.mp hf' with rfl | hf'
        · exact hout _ List.mem_cons_self t' body' ht'
        · exact hout f (List.mem_cons_of_mem _ hf') t' body' ht'
    · exact ⟨hpend, hframes⟩

/-! ## The holders of a population -/

variable [DecidableEq N] {n : N} {p : Population N B T S}

theorem mem_holders {θ : Intention N T S} :
    θ ∈ c.holders n p ↔ θ ∈ p.intentions ∧ θ.owner = n ∧ c.holds θ := by
  simp [holders]

@[simp] theorem holders_post (m : N) (t : T) : c.holders n (p.post m t) = c.holders n p := rfl

@[simp] theorem holders_believe (m : N) (f : B → B) :
    c.holders n (p.believe m f) = c.holders n p := rfl

@[simp] theorem select_beliefs (prog : Program N B T S I A) (n : N)
    (p : Population N B T S) : (p.select prog n).beliefs = p.beliefs := by
  unfold Population.select
  (repeat' split) <;> rfl

theorem mem_select_events {prog : Program N B T S I A} {e : N × T}
    (he : e ∈ (p.select prog n).events) : e ∈ p.events := by
  unfold Population.select at he
  split at he
  · exact he
  · dsimp only at he
    split at he <;> exact List.mem_of_mem_eraseP he

/-- Another agent answers an event. -/
theorem holders_select_of_ne {prog : Program N B T S I A} {m : N} (hm : m ≠ n) :
    c.holders n (p.select prog m) = c.holders n p := by
  unfold Population.select
  split
  · rfl
  · dsimp only
    split
    · rfl
    · simp [holders, hm]

/-- The agent answers an event with a plan outside the section. -/
theorem holders_select_of_outside {prog : Program N B T S I A}
    (hplan : ∀ e ∈ p.events.find? (·.1 = n), ∀ body, prog.plan n (p.beliefs n) e.2 = some body →
      ∀ s ∈ body, c.stmt s = false) :
    c.holders n (p.select prog n) = c.holders n p := by
  unfold Population.select
  split
  · rfl
  · next e he =>
    dsimp only
    split
    · rfl
    · next body hbody =>
      have hout := hplan e he body hbody
      have hno : c.holds (⟨n, none, Program.settle [⟨e.2, body⟩]⟩ : Intention N T S) = false := by
        refine not_holds_iff.mpr ⟨by simp, fun f hf => ?_⟩
        obtain rfl := List.mem_singleton.mp (mem_of_mem_settle hf)
        exact hout
      simp [holders, hno]

/-- The agent answers an event with a plan that enters the section. -/
theorem holders_select_of_enters {prog : Program N B T S I A} {e : N × T} {body : List S}
    (he : p.events.find? (·.1 = n) = some e) (hbody : prog.plan n (p.beliefs n) e.2 = some body)
    (henters : ∃ s ∈ body, c.stmt s) :
    c.holders n (p.select prog n) = c.holders n p ++ [⟨n, none, [⟨e.2, body⟩]⟩] := by
  obtain ⟨s, hs, hc⟩ := henters
  have hset : Program.settle [⟨e.2, body⟩] = [(⟨e.2, body⟩ : Frame T S)] :=
    settle_of_ne (List.ne_nil_of_mem hs)
  have hholds : c.holds (⟨n, none, [⟨e.2, body⟩]⟩ : Intention N T S) = true := by
    simpa [holds] using ⟨s, hs, hc⟩
  simp [Population.select, he, hbody, holders, hset, hholds]

/-- The intentions around the one that moves, before and after the move. -/
theorem intentions_apply {i : ℕ} {θ : Intention N T S} (hi : p.intentions[i]? = some θ)
    (m : Move N B T S A) :
    ∃ before after, p.intentions = before ++ θ :: after ∧
      (p.apply i m).intentions =
        before.filter (Population.keeps m) ++ m.intention :: after.filter (Population.keeps m) := by
  obtain ⟨hlt, hget⟩ := List.getElem?_eq_some_iff.mp hi
  refine ⟨p.intentions.take i, p.intentions.drop (i + 1), ?_, rfl⟩
  rw [← hget, ← List.drop_eq_getElem_cons hlt, List.take_append_drop]

/-- Filters commute where the first keeps what the second looks for. -/
theorem filter_filter_of_keeps {α : Type*} {q r : α → Bool} {l : List α}
    (h : ∀ a ∈ l, q a → r a) : (l.filter r).filter q = l.filter q := by
  rw [List.filter_filter]
  apply List.filter_congr
  intro a ha
  cases hq : q a with
  | false => simp
  | true => simp [h a ha hq]

section

variable {i : ℕ} {θ : Intention N T S} {m : Move N B T S A}

/-- An intention of another agent moves. -/
theorem holders_apply_of_ne (hi : p.intentions[i]? = some θ) (hm : m.intention.owner = θ.owner)
    (hne : θ.owner ≠ n) : c.holders n (p.apply i m) = c.holders n p := by
  obtain ⟨before, after, hp, ha⟩ := intentions_apply hi m
  have hkeeps : ∀ θ' : Intention N T S, (decide (θ'.owner = n) && c.holds θ') = true →
      Population.keeps m θ' = true := by
    intro θ' h
    have howner : θ'.owner = n := by simpa using (Bool.and_eq_true_iff.mp h).1
    have : θ'.owner ≠ m.intention.owner := by
      rw [howner, hm]
      exact hne.symm
    simp [Population.keeps, this]
  rw [holders, holders, hp, ha, List.filter_append, List.filter_append, List.filter_cons,
    List.filter_cons, filter_filter_of_keeps fun θ' _ => hkeeps θ',
    filter_filter_of_keeps fun θ' _ => hkeeps θ']
  simp [hm, hne]

/-- An intention outside the section moves, and stays outside. -/
theorem holders_apply_of_outside (hi : p.intentions[i]? = some θ)
    (hθ : c.holds θ = false) (hm : c.holds m.intention = false)
    (hkeeps : ∀ θ' ∈ c.holders n p, Population.keeps m θ' = true) :
    c.holders n (p.apply i m) = c.holders n p := by
  obtain ⟨before, after, hp, ha⟩ := intentions_apply hi m
  have hk : ∀ θ' ∈ p.intentions, (decide (θ'.owner = n) && c.holds θ') = true →
      Population.keeps m θ' = true := fun θ' hmem h =>
    hkeeps θ' (List.mem_filter.mpr ⟨hmem, h⟩)
  rw [hp] at hk
  rw [holders, holders, hp, ha, List.filter_append, List.filter_append, List.filter_cons,
    List.filter_cons,
    filter_filter_of_keeps fun θ' h => hk θ' (List.mem_append_left _ h),
    filter_filter_of_keeps fun θ' h => hk θ' (List.mem_append_right _ (List.mem_cons_of_mem _ h))]
  simp [hθ, hm]

/-- The only holder moves. -/
theorem holders_apply_of_holder (hi : p.intentions[i]? = some θ) (hown : θ.owner = n)
    (hm : m.intention.owner = θ.owner) (hθ : c.holds θ) {θ' : Intention N T S}
    (hone : c.holders n p = [θ']) :
    θ' = θ ∧ c.holders n (p.apply i m) = if c.holds m.intention then [m.intention] else [] := by
  obtain ⟨before, after, hp, ha⟩ := intentions_apply hi m
  have hhead : (decide (θ.owner = n) && c.holds θ) = true := by simp [hown, hθ]
  rw [holders, hp, List.filter_append, List.filter_cons, if_pos hhead] at hone
  obtain ⟨hbefore, hafter⟩ : before.filter (fun θ => θ.owner = n && c.holds θ) = [] ∧
      after.filter (fun θ => θ.owner = n && c.holds θ) = [] ∧ θ = θ' := by
    rcases List.append_eq_singleton_iff.mp hone with ⟨hb, h⟩ | ⟨_, h⟩
    · obtain ⟨rfl, ha⟩ := List.cons_eq_cons.mp h
      exact ⟨hb, ha, rfl⟩
    · cases h
  refine ⟨hafter.2.symm, ?_⟩
  have hnone : ∀ {l : List (Intention N T S)}, l.filter (fun θ => θ.owner = n && c.holds θ) = [] →
      (l.filter (Population.keeps m)).filter (fun θ => θ.owner = n && c.holds θ) = [] := by
    intro l hl
    rw [List.filter_filter]
    apply List.filter_eq_nil_iff.mpr
    intro θ'' hmem
    have := List.filter_eq_nil_iff.mp hl θ'' hmem
    simp only [Bool.and_eq_true, not_and] at this ⊢
    exact fun h _ => this h.1 h.2
  rw [holders, ha, List.filter_append, hnone hbefore, List.filter_cons, hnone hafter.1]
  simp [hm, hown]

end

end Critical

end AgentSpeak
