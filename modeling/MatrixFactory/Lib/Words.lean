/-
# Whole words of a text

A text over an alphabet with word characters is a sequence of words, the maximal runs of word
characters, with other characters between them.  `mapWords f` replaces each word by its image.

`subWord` is what a regular expression engine does to replace a name between word boundaries,
scanning from the left; for a name of word characters it replaces exactly the words that are the
name (`subWord_eq`).
-/
import Mathlib.Data.List.Basic

namespace Words

variable {α : Type*} (isWord : α → Bool)

/-! ## The words of a text -/

/-- The image of a word; no word has none. -/
def emit (f : List α → List α) : List α → List α
  | [] => []
  | c :: w => f (c :: w)

/-- The text `s` after the beginning `w` of a word, each word replaced by its image. -/
def mapFrom (f : List α → List α) : List α → List α → List α
  | w, [] => emit f w
  | w, c :: s =>
    if isWord c then mapFrom f (w ++ [c]) s else emit f w ++ c :: mapFrom f [] s

/-- Each word replaced by its image. -/
def mapWords (f : List α → List α) (s : List α) : List α := mapFrom isWord f [] s

/-- A word. -/
def IsWord (w : List α) : Prop := w ≠ [] ∧ ∀ c ∈ w, isWord c = true

variable {isWord} {f g : List α → List α}

theorem emit_of_ne {w : List α} (h : w ≠ []) : emit f w = f w := by
  cases w with
  | nil => exact absurd rfl h
  | cons => rfl

@[simp] theorem mapWords_nil : mapWords isWord f [] = [] := rfl

/-- A character that is no word character cuts the text. -/
theorem mapFrom_append_cons {c : α} (hc : isWord c = false) (u s : List α) :
    ∀ w, mapFrom isWord f w (u ++ c :: s) = mapFrom isWord f w u ++ c :: mapWords isWord f s := by
  induction u with
  | nil =>
    intro w
    show (if isWord c then _ else emit f w ++ c :: mapFrom isWord f [] s) = _
    rw [hc, if_neg Bool.false_ne_true]
    rfl
  | cons d u ih =>
    intro w
    rw [List.cons_append, mapFrom, mapFrom]
    cases hd : isWord d with
    | true => rw [if_pos rfl, if_pos rfl, ih]
    | false =>
      rw [if_neg Bool.false_ne_true, if_neg Bool.false_ne_true, ih, List.append_assoc,
        List.cons_append]

theorem mapWords_append_cons {c : α} (hc : isWord c = false) (u s : List α) :
    mapWords isWord f (u ++ c :: s) = mapWords isWord f u ++ c :: mapWords isWord f s :=
  mapFrom_append_cons hc u s []

theorem mapWords_cons {c : α} (hc : isWord c = false) (s : List α) :
    mapWords isWord f (c :: s) = c :: mapWords isWord f s :=
  mapWords_append_cons hc [] s

theorem mapFrom_word {u : List α} (hu : ∀ c ∈ u, isWord c = true) :
    ∀ w, mapFrom isWord f w u = emit f (w ++ u) := by
  induction u with
  | nil =>
    intro w
    rw [List.append_nil]
    rfl
  | cons c u ih =>
    intro w
    rw [mapFrom, hu c List.mem_cons_self, if_pos rfl,
      ih fun d hd => hu d (List.mem_cons_of_mem _ hd), List.append_assoc, List.singleton_append]

/-- The text that is one word. -/
theorem mapWords_word {w : List α} (h : IsWord isWord w) : mapWords isWord f w = f w := by
  rw [mapWords, mapFrom_word h.2, List.nil_append, emit_of_ne h.1]

/-- The words at the edge of a text that begins with the word `w`. -/
theorem mapFrom_congr (hfg : ∀ w, IsWord isWord w → f w = g w) (s : List α) :
    ∀ w, (∀ c ∈ w, isWord c = true) → mapFrom isWord f w s = mapFrom isWord g w s := by
  have hemit : ∀ w, (∀ c ∈ w, isWord c = true) → emit f w = emit g w := by
    intro w hw
    cases w with
    | nil => rfl
    | cons c w => exact hfg _ ⟨List.cons_ne_nil _ _, hw⟩
  induction s with
  | nil => exact hemit
  | cons c s ih =>
    intro w hw
    rw [mapFrom, mapFrom]
    cases hc : isWord c with
    | true =>
      rw [if_pos rfl, if_pos rfl]
      apply ih
      intro d hd
      rcases List.mem_append.1 hd with hd | hd
      · exact hw d hd
      · rw [List.mem_singleton.1 hd, hc]
    | false =>
      rw [if_neg Bool.false_ne_true, if_neg Bool.false_ne_true, hemit w hw,
        ih [] fun _ hd => (nomatch hd)]

theorem mapWords_congr (hfg : ∀ w, IsWord isWord w → f w = g w) (s : List α) :
    mapWords isWord f s = mapWords isWord g s :=
  mapFrom_congr hfg s [] fun _ hd => (nomatch hd)

/-- **Two replacements in a row.** -/
theorem mapWords_mapFrom (f g : List α → List α) (s : List α) :
    ∀ w, mapWords isWord f (mapFrom isWord g w s) =
      mapFrom isWord (fun w => mapWords isWord f (g w)) w s := by
  have hemit : ∀ w, mapWords isWord f (emit g w) = emit (fun w => mapWords isWord f (g w)) w := by
    intro w
    cases w <;> rfl
  induction s with
  | nil => exact hemit
  | cons c s ih =>
    intro w
    rw [mapFrom, mapFrom]
    cases hc : isWord c with
    | true => rw [if_pos rfl, if_pos rfl, ih]
    | false =>
      rw [if_neg Bool.false_ne_true, if_neg Bool.false_ne_true, mapWords_append_cons hc, hemit, ih]

theorem mapWords_mapWords (f g : List α → List α) (s : List α) :
    mapWords isWord f (mapWords isWord g s) =
      mapWords isWord (fun w => mapWords isWord f (g w)) s :=
  mapWords_mapFrom f g s []

/-- Where the characters of the result come from. -/
theorem mem_mapFrom {P : α → Prop} (hf : ∀ w, ∀ c ∈ f w, c ∈ w ∨ P c) {c : α} (s : List α) :
    ∀ w, c ∈ mapFrom isWord f w s → c ∈ w ∨ c ∈ s ∨ P c := by
  have hemit : ∀ w, c ∈ emit f w → c ∈ w ∨ P c := by
    intro w hc
    cases w with
    | nil => exact absurd hc List.not_mem_nil
    | cons d w => exact hf _ c hc
  induction s with
  | nil => exact fun w hc => (hemit w hc).imp_right .inr
  | cons d s ih =>
    intro w hc
    rw [mapFrom] at hc
    split at hc
    · rcases ih _ hc with hw | hs | hp
      · rcases List.mem_append.1 hw with hw | hd
        · exact .inl hw
        · rw [List.mem_singleton.1 hd]
          exact .inr (.inl List.mem_cons_self)
      · exact .inr (.inl (List.mem_cons_of_mem _ hs))
      · exact .inr (.inr hp)
    · rcases List.mem_append.1 hc with hw | hc
      · exact (hemit w hw).imp_right .inr
      · rcases List.mem_cons.1 hc with rfl | hc
        · exact .inr (.inl List.mem_cons_self)
        · rcases ih _ hc with hw | hs | hp
          · exact absurd hw List.not_mem_nil
          · exact .inr (.inl (List.mem_cons_of_mem _ hs))
          · exact .inr (.inr hp)

theorem mem_mapWords {P : α → Prop} (hf : ∀ w, ∀ c ∈ f w, c ∈ w ∨ P c) {c : α} {s : List α}
    (hc : c ∈ mapWords isWord f s) : c ∈ s ∨ P c :=
  (mem_mapFrom hf s [] hc).resolve_left List.not_mem_nil

/-! ## Replacing a name between word boundaries -/

section

variable [DecidableEq α] (isWord)

/-- The text begins with a word character. -/
def headIsWord (s : List α) : Bool := s.head?.any isWord

/-- The name between word boundaries matches at the beginning of `s`, before which a word character
stands or not. -/
def matchesAt (name : List α) (prev : Bool) (s : List α) : Bool :=
  prev != headIsWord isWord s && decide (name <+: s) &&
    name.getLast?.any isWord != headIsWord isWord (s.drop name.length)

/-- The scan from the left; `skip` characters still belong to the last match. -/
def subFrom (name repl : List α) : ℕ → Bool → List α → List α
  | _, _, [] => []
  | skip + 1, _, c :: s => subFrom name repl skip (isWord c) s
  | 0, prev, c :: s =>
    if matchesAt isWord name prev (c :: s) then
      repl ++ subFrom name repl (name.length - 1) (isWord c) s
    else c :: subFrom name repl 0 (isWord c) s

/-- Every match of the name between word boundaries is replaced. -/
def subWord (name repl s : List α) : List α := subFrom isWord name repl 0 false s

variable {isWord} {name repl : List α}

/-- The rest of a match is skipped. -/
theorem subFrom_skip {u : List α} (hu : ∀ c ∈ u, isWord c = true) (s : List α) :
    subFrom isWord name repl u.length true (u ++ s) = subFrom isWord name repl 0 true s := by
  induction u with
  | nil => rfl
  | cons c u ih =>
    rw [List.length_cons, List.cons_append, subFrom, hu c List.mem_cons_self]
    exact ih fun d hd => hu d (List.mem_cons_of_mem _ hd)

/-- Within a word nothing matches. -/
theorem subFrom_inside {u : List α} (hu : ∀ c ∈ u, isWord c = true) (s : List α) :
    subFrom isWord name repl 0 true (u ++ s) = u ++ subFrom isWord name repl 0 true s := by
  induction u with
  | nil => rfl
  | cons c u ih =>
    have hc := hu c List.mem_cons_self
    have hno : matchesAt isWord name true (c :: (u ++ s)) = false := by
      rw [matchesAt, headIsWord, List.head?_cons, Option.any_some, hc]
      rfl
    rw [List.cons_append, subFrom, hno, if_neg Bool.false_ne_true, hc,
      ih fun d hd => hu d (List.mem_cons_of_mem _ hd), List.cons_append]

/-- At a character that is no word character nothing matches. -/
theorem subFrom_other (hname : IsWord isWord name) {c : α} (hc : isWord c = false) (prev : Bool)
    (s : List α) :
    subFrom isWord name repl 0 prev (c :: s) = c :: subFrom isWord name repl 0 false s := by
  have hno : ¬ name <+: c :: s := by
    intro hpre
    cases hn : name with
    | nil => exact hname.1 hn
    | cons d n =>
      rw [hn] at hpre
      obtain rfl := (List.cons_prefix_cons.1 hpre).1
      have hd := hname.2 d (by rw [hn]; exact List.mem_cons_self)
      rw [hc] at hd
      cases hd
  rw [subFrom, matchesAt, decide_eq_false hno, Bool.and_false, Bool.false_and,
    if_neg Bool.false_ne_true, hc]

/-- A name of word characters matches at the beginning of a word iff it is that word. -/
theorem matchesAt_word (hname : IsWord isWord name) {w s : List α} (hw : IsWord isWord w)
    (hs : headIsWord isWord s = false) :
    matchesAt isWord name false (w ++ s) = true ↔ w = name := by
  have hhead : headIsWord isWord (w ++ s) = true := by
    cases hw' : w with
    | nil => exact absurd hw' hw.1
    | cons c u =>
      rw [List.cons_append, headIsWord, List.head?_cons, Option.any_some]
      exact hw.2 c (by rw [hw']; exact List.mem_cons_self)
  have hlast : name.getLast?.any isWord = true := by
    rw [List.getLast?_eq_some_getLast hname.1, Option.any_some]
    exact hname.2 _ (List.getLast_mem _)
  rw [matchesAt, hhead, hlast]
  simp only [bne_iff_ne, ne_eq, Bool.and_eq_true, decide_eq_true_eq, Bool.true_eq,
    Bool.not_eq_true, Bool.false_eq_true, not_false_eq_true, true_and]
  constructor
  · rintro ⟨hpre, hend⟩
    rcases Nat.lt_trichotomy name.length w.length with hlt | heq | hgt
    · -- the next character would still be one of the word
      rw [List.drop_append_of_le_length (Nat.le_of_lt hlt)] at hend
      cases hd : w.drop name.length with
      | nil => exact absurd (List.drop_eq_nil_iff.1 hd) (by omega)
      | cons c u =>
        rw [hd, List.cons_append, headIsWord, List.head?_cons, Option.any_some,
          hw.2 c (List.mem_of_mem_drop (by rw [hd]; exact List.mem_cons_self))] at hend
        cases hend
    · have htake := List.prefix_iff_eq_take.1 hpre
      rw [heq, List.take_left] at htake
      exact htake.symm
    · -- the name would go on after the word
      obtain ⟨t, ht⟩ := hpre
      have hdrop : name.drop w.length ++ t = s := by
        have h := congrArg (List.drop w.length) ht
        rwa [List.drop_append_of_le_length (Nat.le_of_lt hgt), List.drop_left] at h
      cases hd : name.drop w.length with
      | nil => exact absurd (List.drop_eq_nil_iff.1 hd) (by omega)
      | cons c u =>
        rw [← hdrop, hd, List.cons_append, headIsWord, List.head?_cons, Option.any_some,
          hname.2 c (List.mem_of_mem_drop (by rw [hd]; exact List.mem_cons_self))] at hs
        cases hs
  · rintro rfl
    exact ⟨List.prefix_append _ _, by rwa [List.drop_left]⟩

/-- One word is replaced or kept. -/
theorem subFrom_word (hname : IsWord isWord name) {w s : List α} (hw : IsWord isWord w)
    (hs : headIsWord isWord s = false) :
    subFrom isWord name repl 0 false (w ++ s) =
      (if w = name then repl else w) ++ subFrom isWord name repl 0 true s := by
  cases hw' : w with
  | nil => exact absurd hw' hw.1
  | cons c u =>
    have hc := hw.2 c (by rw [hw']; exact List.mem_cons_self)
    have hu : ∀ d ∈ u, isWord d = true := fun d hd => hw.2 d (by
      rw [hw']
      exact List.mem_cons_of_mem _ hd)
    have hiff := matchesAt_word hname hw hs
    rw [hw', List.cons_append] at hiff
    rw [List.cons_append, subFrom]
    by_cases h : c :: u = name
    · rw [if_pos (hiff.2 h), if_pos h, ← h, hc, List.length_cons, Nat.add_sub_cancel,
        subFrom_skip hu]
    · rw [if_neg fun hm => h (hiff.1 hm), if_neg h, hc, subFrom_inside hu, List.cons_append]

/-- **Replacing a name.** -/
theorem subFrom_eq (hname : IsWord isWord name) (s : List α) :
    ∀ w, (∀ c ∈ w, isWord c = true) → subFrom isWord name repl 0 false (w ++ s) =
      mapFrom isWord (fun w => if w = name then repl else w) w s := by
  induction s with
  | nil =>
    intro w hw
    by_cases hnil : w = []
    · rw [hnil]
      rfl
    · rw [subFrom_word hname ⟨hnil, hw⟩ rfl, mapFrom, emit_of_ne hnil, subFrom, List.append_nil]
  | cons c s ih =>
    intro w hw
    rw [mapFrom]
    cases hc : isWord c with
    | true =>
      rw [if_pos rfl, ← ih, List.append_assoc, List.singleton_append]
      intro d hd
      rcases List.mem_append.1 hd with hd | hd
      · exact hw d hd
      · rw [List.mem_singleton.1 hd, hc]
    | false =>
      rw [if_neg Bool.false_ne_true]
      have hrest : subFrom isWord name repl 0 false s =
          mapFrom isWord (fun w => if w = name then repl else w) [] s :=
        ih [] fun _ hd => (nomatch hd)
      by_cases hnil : w = []
      · rw [hnil, List.nil_append, subFrom_other hname hc, hrest]
        rfl
      · have hhead : headIsWord isWord (c :: s) = false := by
          rw [headIsWord, List.head?_cons, Option.any_some, hc]
        rw [subFrom_word hname ⟨hnil, hw⟩ hhead, subFrom_other hname hc, hrest, emit_of_ne hnil]

theorem subWord_eq (hname : IsWord isWord name) (s : List α) :
    subWord isWord name repl s = mapWords isWord (fun w => if w = name then repl else w) s :=
  subFrom_eq hname s [] fun _ hd => (nomatch hd)

/-! ## Replacing a string -/

/-- The scan from the left that replaces `old`, with `skip` characters of the last match left. -/
def replaceFrom (old new : List α) : ℕ → List α → List α
  | _, [] => []
  | skip + 1, _ :: s => replaceFrom old new skip s
  | 0, c :: s =>
    if old <+: c :: s then new ++ replaceFrom old new (old.length - 1) s
    else c :: replaceFrom old new 0 s

/-- Every occurrence of a nonempty string is replaced. -/
def replace (old new s : List α) : List α := replaceFrom old new 0 s

/-- A text without the first character of the string is not changed. -/
theorem replace_of_not_mem {d : α} {old : List α} (new : List α) {s : List α} (h : d ∉ s) :
    replace (d :: old) new s = s := by
  unfold replace
  induction s with
  | nil => rfl
  | cons c s ih =>
    have hno : ¬ d :: old <+: c :: s := by
      intro hpre
      exact h ((List.cons_prefix_cons.1 hpre).1 ▸ List.mem_cons_self)
    rw [replaceFrom, if_neg hno, ih fun hs => h (List.mem_cons_of_mem _ hs)]

end

end Words
