/-
# A keyword at the beginning of a line

The matches of a pattern that stands at the beginning of a line, after white space only, and begins
with a keyword.  The place is fresh there: only white space stands between it and the beginning of
a line.

A text without the keyword at a fresh place is quiet.  Quiet texts are put together, and stay quiet
when whole words are continued or a string in the middle of a line is replaced; a scan passes over
them without a match.
-/
import MatrixFactory.Lib.Words

namespace LineScan

open Words

variable {α : Type*} (space lineEnd : α → Bool) (kw : List α)

/-- Whether the place after the character is fresh. -/
def nextFresh (fresh : Bool) (c : α) : Bool := lineEnd c || (fresh && space c)

/-- Whether the place after the text is fresh. -/
def endFresh (fresh : Bool) (s : List α) : Bool := s.foldl (nextFresh space lineEnd) fresh

/-- The number of matches from here, with `skip` characters of the last match left.  The matcher
gives what follows a match. -/
def countFrom (matcher : List α → Option (List α)) : ℕ → Bool → List α → ℕ
  | _, _, [] => 0
  | skip + 1, _, _ :: s => countFrom matcher skip false s
  | 0, fresh, c :: s =>
    match if fresh then matcher (c :: s) else none with
    | some rest => 1 + countFrom matcher (s.length - rest.length) false s
    | none => countFrom matcher 0 (nextFresh space lineEnd fresh c) s

/-- The keyword stands at no fresh place of the text. -/
def Quiet : Bool → List α → Prop
  | _, [] => True
  | fresh, c :: s => (fresh = true → ¬kw <+: c :: s) ∧ Quiet (nextFresh space lineEnd fresh c) s

instance decidableQuiet [DecidableEq α] (fresh : Bool) (s : List α) :
    Decidable (Quiet space lineEnd kw fresh s) :=
  match s with
  | [] => .isTrue trivial
  | c :: s =>
    have := decidableQuiet (nextFresh space lineEnd fresh c) s
    inferInstanceAs (Decidable (_ ∧ _))

variable {space lineEnd kw} {fresh : Bool} {u v s : List α} {c : α}
  {matcher : List α → Option (List α)}

@[simp] theorem endFresh_cons : endFresh space lineEnd fresh (c :: s) =
    endFresh space lineEnd (nextFresh space lineEnd fresh c) s := rfl

theorem endFresh_append : endFresh space lineEnd fresh (u ++ v) =
    endFresh space lineEnd (endFresh space lineEnd fresh u) v := List.foldl_append

/-- Inside a line a place is not fresh. -/
theorem endFresh_inline (hu : ∀ c ∈ u, lineEnd c = false) :
    endFresh space lineEnd false u = false := by
  induction u with
  | nil => rfl
  | cons c u ih =>
    have hc : nextFresh space lineEnd false c = false := by
      rw [nextFresh, hu c List.mem_cons_self]
      rfl
    rw [endFresh_cons, hc]
    exact ih fun d hd => hu d (List.mem_cons_of_mem _ hd)

/-- A prefix of a text in two parts ends in the first, or the first part is a prefix of it. -/
theorem prefix_append_cases {x : List α} (h : x <+: u ++ v) : x <+: u ∨ u <+: x := by
  rcases Nat.le_total x.length u.length with hle | hle
  · exact .inl (List.prefix_of_prefix_length_le h (List.prefix_append u v) hle)
  · exact .inr (List.prefix_of_prefix_length_le (List.prefix_append u v) h hle)

/-- The keyword does not begin in a text that ends with a character it has not, and end after it. -/
theorem not_prefix_append (hne : u ≠ []) (hlast : ∀ c ∈ u.getLast?, c ∉ kw) (h : ¬kw <+: u) :
    ¬kw <+: u ++ v := by
  intro hpre
  rcases prefix_append_cases hpre with hpre | hpre
  · exact h hpre
  · refine hlast (u.getLast hne) (List.getLast?_eq_some_getLast hne) ?_
    exact hpre.subset (List.getLast_mem hne)

/-! ## The scan -/

theorem countFrom_skip (hne : u ≠ []) :
    countFrom space lineEnd matcher u.length fresh (u ++ s) =
      countFrom space lineEnd matcher 0 false s := by
  induction u generalizing fresh with
  | nil => exact absurd rfl hne
  | cons c u ih =>
    show countFrom space lineEnd matcher u.length false (u ++ s) = _
    rcases eq_or_ne u [] with rfl | hu
    · rfl
    · exact ih hu

/-- **A match** is counted, and the scan goes on after it. -/
theorem countFrom_match (hne : u ≠ []) (h : matcher (c :: u ++ s) = some s) :
    countFrom space lineEnd matcher 0 true (c :: u ++ s) =
      1 + countFrom space lineEnd matcher 0 false s := by
  have hlength : (u ++ s).length - s.length = u.length := by
    rw [List.length_append, Nat.add_sub_cancel]
  rw [List.cons_append] at h ⊢
  rw [countFrom, if_pos rfl, h]
  show 1 + countFrom space lineEnd matcher ((u ++ s).length - s.length) false (u ++ s) = _
  rw [hlength, countFrom_skip hne]

/-- Where there is no match the scan goes on with the next character. -/
theorem countFrom_cons (h : fresh = true → matcher (c :: s) = none) :
    countFrom space lineEnd matcher 0 fresh (c :: s) =
      countFrom space lineEnd matcher 0 (nextFresh space lineEnd fresh c) s := by
  cases fresh with
  | false => rfl
  | true => rw [countFrom, if_pos rfl, h rfl]

/-- **A quiet text** has no match. -/
theorem countFrom_quiet (hmatcher : ∀ s, ¬kw <+: s → matcher s = none)
    (hu : Quiet space lineEnd kw fresh u) (hlast : ∀ c ∈ u.getLast?, c ∉ kw) (s : List α) :
    countFrom space lineEnd matcher 0 fresh (u ++ s) =
      countFrom space lineEnd matcher 0 (endFresh space lineEnd fresh u) s := by
  induction u generalizing fresh with
  | nil => rfl
  | cons c u ih =>
    have hstep : fresh = true → matcher (c :: (u ++ s)) = none := fun hfresh =>
      hmatcher _ (not_prefix_append (List.cons_ne_nil c u) hlast (hu.1 hfresh))
    rw [List.cons_append, countFrom_cons hstep, endFresh_cons]
    apply ih hu.2
    intro d hd
    exact hlast d (List.mem_getLast?_cons hd)

/-- The rest of a line has no match. -/
theorem countFrom_inline (hu : ∀ c ∈ u, lineEnd c = false) (s : List α) :
    countFrom space lineEnd matcher 0 false (u ++ s) =
      countFrom space lineEnd matcher 0 false s := by
  induction u with
  | nil => rfl
  | cons c u ih =>
    have hc : nextFresh space lineEnd false c = false := by
      rw [nextFresh, hu c List.mem_cons_self]
      rfl
    have hstep : false = true → matcher (c :: (u ++ s)) = none := nofun
    rw [List.cons_append, countFrom_cons hstep, hc]
    exact ih fun d hd => hu d (List.mem_cons_of_mem _ hd)

/-! ## Quiet texts -/

theorem quiet_append (hu : Quiet space lineEnd kw fresh u) (hlast : ∀ c ∈ u.getLast?, c ∉ kw)
    (hv : Quiet space lineEnd kw (endFresh space lineEnd fresh u) v) :
    Quiet space lineEnd kw fresh (u ++ v) := by
  induction u generalizing fresh with
  | nil => exact hv
  | cons c u ih =>
    refine ⟨fun hfresh => not_prefix_append (List.cons_ne_nil c u) hlast (hu.1 hfresh), ?_⟩
    exact ih hu.2 (fun d hd => hlast d (List.mem_getLast?_cons hd)) hv

/-- The rest of a line is quiet. -/
theorem quiet_inline (hu : ∀ c ∈ u, lineEnd c = false) :
    Quiet space lineEnd kw false (u ++ v) ↔ Quiet space lineEnd kw false v := by
  induction u with
  | nil => rfl
  | cons c u ih =>
    have hc : nextFresh space lineEnd false c = false := by
      rw [nextFresh, hu c List.mem_cons_self]
      rfl
    show (false = true → _) ∧ Quiet space lineEnd kw (nextFresh space lineEnd false c) (u ++ v) ↔ _
    rw [hc, ih fun d hd => hu d (List.mem_cons_of_mem _ hd)]
    exact and_iff_right nofun

/-- A text that begins with no white space and not with the keyword is quiet as far as its first
line goes. -/
theorem quiet_cons_inline (hc : space c = false) (hu : ∀ d ∈ c :: u, lineEnd d = false)
    (h : fresh = true → ¬kw <+: c :: u ++ v) (hv : Quiet space lineEnd kw false v) :
    Quiet space lineEnd kw fresh (c :: u ++ v) := by
  have hnext : nextFresh space lineEnd fresh c = false := by
    rw [nextFresh, hu c List.mem_cons_self, hc, Bool.and_false]
    rfl
  refine ⟨h, ?_⟩
  rw [hnext]
  exact (quiet_inline fun d hd => hu d (List.mem_cons_of_mem _ hd)).mpr hv

/-- One more character that the keyword has not. -/
theorem quiet_concat (hu : Quiet space lineEnd kw fresh u) (hne : kw ≠ []) (hc : c ∉ kw) :
    Quiet space lineEnd kw fresh (u ++ [c]) := by
  have hlast : ∀ x : List α, ¬kw <+: x → ¬kw <+: x ++ [c] := by
    intro x hx hpre
    rcases List.prefix_concat_iff.mp hpre with heq | hpre
    · exact hc (heq ▸ List.mem_append_right x List.mem_cons_self)
    · exact hx hpre
  induction u generalizing fresh with
  | nil => exact ⟨fun _ => hlast [] fun hnil => hne (List.prefix_nil.mp hnil), trivial⟩
  | cons d u ih => exact ⟨fun hfresh => hlast (d :: u) (hu.1 hfresh), ih hu.2⟩

/-! ## Continued words -/

/-- **Continued words** keep a text quiet, if words shorter than the keyword stay as they are. -/
theorem quiet_mapFrom {isWord : α → Bool} {f : List α → List α} (hne : kw ≠ [])
    (hkw : ∀ c ∈ kw, isWord c = true)
    (hf : ∀ w, ∃ v, f w = w ++ v ∧ (∀ c ∈ v, space c = false ∧ lineEnd c = false) ∧
      (v = [] ∨ kw.length ≤ w.length)) (s : List α) :
    ∀ (w : List α) (fresh : Bool), (∀ c ∈ w, isWord c = true) →
      (∀ c ∈ w ++ s, isWord c = true → space c = false ∧ lineEnd c = false) →
      Quiet space lineEnd kw fresh (w ++ s) →
      Quiet space lineEnd kw fresh (mapFrom isWord f w s) := by
  -- the text after the word in hand, which the next character continues or ends
  have hword : ∀ (d : α) (w v : List α) (fresh : Bool), (∀ c ∈ d :: w, isWord c = true) →
      (∀ c ∈ d :: w, isWord c = true → space c = false ∧ lineEnd c = false) →
      (∀ c ∈ v, space c = false ∧ lineEnd c = false) →
      ∀ rest, (fresh = true → ¬kw <+: (d :: w) ++ v ++ rest) → Quiet space lineEnd kw false rest →
        Quiet space lineEnd kw fresh ((d :: w) ++ v ++ rest) := by
    intro d w v fresh hw hplain hv rest hstart hrest
    refine quiet_cons_inline (u := w ++ v) (hplain d List.mem_cons_self
      (hw d List.mem_cons_self)).1 (fun c hc => ?_) hstart hrest
    rcases List.mem_append.mp (show c ∈ (d :: w) ++ v from hc) with hc | hc
    · exact (hplain c hc (hw c hc)).2
    · exact (hv c hc).2
  induction s with
  | nil =>
    intro w fresh hw hplain hquiet
    cases w with
    | nil => trivial
    | cons d w =>
      obtain ⟨v, hfw, hv, hlong⟩ := hf (d :: w)
      show Quiet space lineEnd kw fresh (f (d :: w))
      rw [hfw, ← List.append_nil ((d :: w) ++ v)]
      rw [List.append_nil] at hplain hquiet
      refine hword d w v fresh hw hplain hv [] (fun hfresh hpre => hquiet.1 hfresh ?_) trivial
      rw [List.append_nil] at hpre
      rcases hlong with rfl | hlong
      · rwa [List.append_nil] at hpre
      · exact List.prefix_of_prefix_length_le hpre (List.prefix_append _ _) hlong
  | cons c s ih =>
    intro w fresh hw hplain hquiet
    rw [mapFrom]
    cases hc : isWord c with
    | true =>
      rw [if_pos rfl]
      refine ih (w ++ [c]) fresh (fun d hd => ?_) ?_ ?_
      · rcases List.mem_append.mp hd with hd | hd
        · exact hw d hd
        · rw [List.mem_singleton.mp hd, hc]
      · rwa [List.append_assoc, List.singleton_append]
      · rwa [List.append_assoc, List.singleton_append]
    | false =>
      rw [if_neg Bool.false_ne_true]
      have hckw : c ∉ kw := fun hmem => Bool.false_ne_true (hc.symm.trans (hkw c hmem))
      have hrest : ∀ d ∈ [] ++ s, isWord d = true → space d = false ∧ lineEnd d = false :=
        fun d hd => hplain d (List.mem_append_right w (List.mem_cons_of_mem c hd))
      cases w with
      | nil =>
        refine ⟨fun _ hpre => ?_, ih [] _ (fun _ hd => absurd hd List.not_mem_nil) hrest hquiet.2⟩
        obtain ⟨k, kw', rfl⟩ := List.exists_cons_of_ne_nil hne
        exact hckw ((List.cons_prefix_cons.mp hpre).1 ▸ List.mem_cons_self)
      | cons d w =>
        obtain ⟨v, hfw, hv, hlong⟩ := hf (d :: w)
        show Quiet space lineEnd kw fresh (f (d :: w) ++ c :: mapFrom isWord f [] s)
        rw [hfw]
        have hd : nextFresh space lineEnd fresh d = false := by
          obtain ⟨hspace, hend⟩ := hplain d List.mem_cons_self (hw d List.mem_cons_self)
          rw [nextFresh, hspace, hend, Bool.and_false]
          rfl
        have hinside : ∀ e ∈ w, lineEnd e = false := fun e he =>
          (hplain e (List.mem_append_left _ (List.mem_cons_of_mem d he))
            (hw e (List.mem_cons_of_mem d he))).2
        have htail : Quiet space lineEnd kw false (c :: s) := by
          have h := hquiet.2
          rw [hd] at h
          exact (quiet_inline hinside).mp h
        refine hword d w v fresh hw (fun e he => hplain e (List.mem_append_left _ he)) hv _
          (fun hfresh hpre => hquiet.1 hfresh ?_) ⟨fun h => absurd h Bool.false_ne_true, ?_⟩
        · rcases hlong with rfl | hlong
          · rw [List.append_nil] at hpre
            rcases prefix_append_cases hpre with hin | ⟨t, ht⟩
            · exact hin.trans (List.prefix_append _ _)
            · -- the keyword would go on with the character that ends the word
              cases t with
              | nil => exact ht ▸ (List.append_nil _).symm ▸ List.prefix_append _ _
              | cons e t =>
                rw [← ht, List.prefix_append_right_inj] at hpre
                refine absurd ?_ hckw
                rw [← ht, (List.cons_prefix_cons.mp hpre).1]
                exact List.mem_append_right _ List.mem_cons_self
          · rw [List.append_assoc] at hpre
            exact (List.prefix_of_prefix_length_le hpre (List.prefix_append _ _) hlong).trans
              (List.prefix_append _ _)
        · exact ih [] _ (fun _ hd => absurd hd List.not_mem_nil) hrest htail.2

theorem quiet_mapWords {isWord : α → Bool} {f : List α → List α} (hne : kw ≠ [])
    (hkw : ∀ c ∈ kw, isWord c = true)
    (hf : ∀ w, ∃ v, f w = w ++ v ∧ (∀ c ∈ v, space c = false ∧ lineEnd c = false) ∧
      (v = [] ∨ kw.length ≤ w.length))
    (hs : ∀ c ∈ s, isWord c = true → space c = false ∧ lineEnd c = false)
    (h : Quiet space lineEnd kw fresh s) : Quiet space lineEnd kw fresh (mapWords isWord f s) :=
  quiet_mapFrom hne hkw hf s [] fresh (fun _ hc => nomatch hc) hs h

/-! ## A replaced string -/

variable [DecidableEq α] {old new : List α} {o d : α}

/-- What the replacement does not begin with was there before. -/
theorem prefix_of_prefix_replaceFrom {x : List α} (hx : d ∉ x) (s : List α)
    (h : x <+: replaceFrom old (d :: new) 0 s) : x <+: s := by
  induction s generalizing x with
  | nil => exact h
  | cons c s ih =>
    cases x with
    | nil => exact List.nil_prefix
    | cons e x =>
      rw [replaceFrom] at h
      split_ifs at h
      · refine absurd ?_ hx
        rw [(List.cons_prefix_cons.mp h).1]
        exact List.mem_cons_self
      · obtain ⟨rfl, htail⟩ := List.cons_prefix_cons.mp h
        have hx' : d ∉ x := fun hmem => hx (List.mem_cons_of_mem _ hmem)
        exact List.cons_prefix_cons.mpr ⟨rfl, ih hx' htail⟩

/-- **A replaced string** inside of a line keeps a text quiet. -/
theorem quiet_replaceFrom (hne : kw ≠ []) (hd : d ∉ kw)
    (hold : ∀ c ∈ o :: old, space c = false ∧ lineEnd c = false)
    (hnew : ∀ c ∈ d :: new, space c = false ∧ lineEnd c = false) (s : List α) :
    ∀ (skip : ℕ) (fresh : Bool), (skip ≠ 0 → fresh = false) →
      (∀ c ∈ s.take skip, lineEnd c = false) → Quiet space lineEnd kw fresh s →
      Quiet space lineEnd kw fresh (replaceFrom (o :: old) (d :: new) skip s) := by
  induction s with
  | nil =>
    intro skip fresh _ _ _
    cases skip with
    | zero => trivial
    | succ skip => trivial
  | cons c s ih =>
    intro skip fresh hfresh htake hquiet
    cases skip with
    | succ skip =>
      obtain rfl := hfresh (Nat.succ_ne_zero skip)
      have hc : nextFresh space lineEnd false c = false := by
        rw [nextFresh, htake c List.mem_cons_self]
        rfl
      have hrest := hquiet.2
      rw [hc] at hrest
      exact ih skip false (fun _ => rfl) (fun e he => htake e (List.mem_cons_of_mem _ he)) hrest
    | zero =>
      rw [replaceFrom]
      split_ifs with hmatch
      · obtain ⟨rfl, t, rfl⟩ := List.cons_prefix_cons.mp hmatch
        obtain ⟨hspace, hend⟩ := hold o List.mem_cons_self
        have ho : nextFresh space lineEnd fresh o = false := by
          rw [nextFresh, hspace, hend, Bool.and_false]
          rfl
        have hrest := hquiet.2
        rw [ho] at hrest
        obtain ⟨hspace', -⟩ := hnew d List.mem_cons_self
        refine quiet_cons_inline hspace' (fun e he => (hnew e he).2) (fun _ hpre => ?_)
          (ih _ false (fun _ => rfl) (fun e he => ?_) hrest)
        · obtain ⟨k, kw', rfl⟩ := List.exists_cons_of_ne_nil hne
          exact hd ((List.cons_prefix_cons.mp hpre).1 ▸ List.mem_cons_self)
        · rw [List.length_cons, Nat.add_sub_cancel, List.take_left] at he
          exact (hold e (List.mem_cons_of_mem _ he)).2
      · refine ⟨fun hnow hpre => hquiet.1 hnow ?_, ih 0 _ (fun h => absurd rfl h)
          (fun e he => absurd he List.not_mem_nil) hquiet.2⟩
        cases kw with
        | nil => exact List.nil_prefix
        | cons k kw =>
          obtain ⟨rfl, htail⟩ := List.cons_prefix_cons.mp hpre
          have hd' : d ∉ kw := fun hmem => hd (List.mem_cons_of_mem _ hmem)
          exact List.cons_prefix_cons.mpr ⟨rfl, prefix_of_prefix_replaceFrom hd' s htail⟩

theorem quiet_replace (hne : kw ≠ []) (hd : d ∉ kw)
    (hold : ∀ c ∈ o :: old, space c = false ∧ lineEnd c = false)
    (hnew : ∀ c ∈ d :: new, space c = false ∧ lineEnd c = false)
    (h : Quiet space lineEnd kw fresh s) :
    Quiet space lineEnd kw fresh (replace (o :: old) (d :: new) s) :=
  quiet_replaceFrom hne hd hold hnew s 0 fresh (fun h => absurd rfl h) (fun _ hc => nomatch hc) h

/-- The characters of the result. -/
theorem mem_replaceFrom {c : α} (s : List α) : ∀ skip, c ∈ replaceFrom old new skip s →
    c ∈ s ∨ c ∈ new := by
  induction s with
  | nil =>
    intro skip h
    cases skip with
    | zero => exact nomatch h
    | succ skip => exact nomatch h
  | cons e s ih =>
    intro skip h
    cases skip with
    | succ skip => exact (ih skip h).imp (List.mem_cons_of_mem e) id
    | zero =>
      rw [replaceFrom] at h
      split_ifs at h
      · rcases List.mem_append.mp h with h | h
        · exact .inr h
        · exact (ih _ h).imp (List.mem_cons_of_mem e) id
      · rcases List.mem_cons.mp h with rfl | h
        · exact .inl List.mem_cons_self
        · exact (ih 0 h).imp (List.mem_cons_of_mem e) id

theorem mem_replace {c : α} (h : c ∈ replace old new s) : c ∈ s ∨ c ∈ new := mem_replaceFrom s 0 h

end LineScan
