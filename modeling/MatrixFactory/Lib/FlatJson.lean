/-
# Flat JSON objects

The text that `JSON.stringify` writes for an object whose values are strings and numbers.  Strings
are escaped unit by unit; an escape is longer than what it stands for, and neither begins nor ends
with a space.
-/
import MatrixFactory.Lib.Text

namespace Text

/-! ## Strings -/

/-- Every unit of a text is looked at, not every unit there is. -/
instance (priority := 2000) decidableForallUnit (s : Text) (p : UInt16 → Prop)
    [DecidablePred p] : Decidable (∀ c ∈ s, p c) := List.decidableBAll p s

/-- A hexadecimal digit. -/
def hexUnit (d : ℕ) : UInt16 :=
  if d < 10 then UInt16.ofNat (0x30 + d) else UInt16.ofNat (0x61 + (d - 10))

/-- The escape of a code unit by its code. -/
def unicodeEscape (c : UInt16) : Text :=
  [0x5C, 0x75, hexUnit (c.toNat / 16 ^ 3 % 16), hexUnit (c.toNat / 16 ^ 2 % 16),
    hexUnit (c.toNat / 16 % 16), hexUnit (c.toNat % 16)]

/-- A code unit of a string that is not in a surrogate pair. -/
def quoteUnit (c : UInt16) : Text :=
  if c = 0x08 then [0x5C, 0x62]
  else if c = 0x09 then [0x5C, 0x74]
  else if c = 0x0A then [0x5C, 0x6E]
  else if c = 0x0C then [0x5C, 0x66]
  else if c = 0x0D then [0x5C, 0x72]
  else if c = 0x22 ∨ c = 0x5C then [0x5C, c]
  else if c < 0x20 ∨ isHigh c ∨ isLow c then unicodeEscape c
  else [c]

/-- A string between its quotation marks. -/
def quoteBody : Text → Text
  | [] => []
  | [c] => quoteUnit c
  | c :: d :: s =>
    if isHigh c && isLow d then c :: d :: quoteBody s else quoteUnit c ++ quoteBody (d :: s)

/-- The letters and digits of an escape. -/
def escapeUnits : Text := lit "0123456789abcdefnrtu"

theorem hexUnit_mem (n : ℕ) : hexUnit (n % 16) ∈ escapeUnits := by
  have hlt := Nat.mod_lt n (show 0 < 16 by decide)
  generalize n % 16 = d at hlt
  interval_cases d <;> decide

theorem escape_letter {v : UInt16} (hv : v ∈ lit "btnfr") : ∀ u ∈ [v], u ∈ escapeUnits := by
  revert v
  decide

/-- A unit is written as it is, or after a backslash. -/
theorem quoteUnit_cases (c : UInt16) :
    quoteUnit c = [c] ∧ ¬ c < 0x20 ∨ ∃ t ≠ [], quoteUnit c = 0x5C :: t ∧
      ((∀ u ∈ t, u ∈ escapeUnits) ∨ t = [c] ∧ (c = 0x22 ∨ c = 0x5C)) := by
  unfold quoteUnit
  split_ifs with h₁ h₂ h₃ h₄ h₅ h₆ h₇
  · exact Or.inr ⟨_, List.cons_ne_nil _ _, rfl, Or.inl (escape_letter (by decide))⟩
  · exact Or.inr ⟨_, List.cons_ne_nil _ _, rfl, Or.inl (escape_letter (by decide))⟩
  · exact Or.inr ⟨_, List.cons_ne_nil _ _, rfl, Or.inl (escape_letter (by decide))⟩
  · exact Or.inr ⟨_, List.cons_ne_nil _ _, rfl, Or.inl (escape_letter (by decide))⟩
  · exact Or.inr ⟨_, List.cons_ne_nil _ _, rfl, Or.inl (escape_letter (by decide))⟩
  · exact Or.inr ⟨_, List.cons_ne_nil _ _, rfl, Or.inr ⟨rfl, h₆⟩⟩
  · refine Or.inr ⟨_, List.cons_ne_nil _ _, rfl, Or.inl fun u hu => ?_⟩
    simp only [List.mem_cons, List.not_mem_nil, or_false] at hu
    rcases hu with rfl | rfl | rfl | rfl | rfl
    · decide
    · exact hexUnit_mem _
    · exact hexUnit_mem _
    · exact hexUnit_mem _
    · exact hexUnit_mem _
  · exact Or.inl ⟨rfl, fun h => h₇ (Or.inl h)⟩

theorem quoteUnit_ne_nil (c : UInt16) : quoteUnit c ≠ [] := by
  rcases quoteUnit_cases c with ⟨h, -⟩ | ⟨t, -, h, -⟩
  · rw [h]
    exact List.cons_ne_nil _ _
  · rw [h]
    exact List.cons_ne_nil _ _

theorem quoteBody_ne_nil {s : Text} (h : s ≠ []) : quoteBody s ≠ [] := by
  induction s using quoteBody.induct with
  | case1 => exact absurd rfl h
  | case2 c => exact quoteUnit_ne_nil c
  | case3 c d s hpair ih =>
    rw [quoteBody, if_pos hpair]
    exact List.cons_ne_nil _ _
  | case4 c d s hpair ih =>
    rw [quoteBody, if_neg hpair]
    exact List.append_ne_nil_of_left_ne_nil (quoteUnit_ne_nil c) _

/-- A unit that no escape is made of is in a string if it is written. -/
theorem mem_of_mem_quoteBody {u : UInt16} (hu : u ∉ 0x5C :: escapeUnits) {s : Text}
    (h : u ∈ quoteBody s) : u ∈ s := by
  rw [List.mem_cons, not_or] at hu
  have hunit : ∀ c, u ∈ quoteUnit c → u = c := by
    intro c hc
    rcases quoteUnit_cases c with ⟨he, -⟩ | ⟨t, -, he, ht⟩
    · rw [he] at hc
      exact List.mem_singleton.mp hc
    · rw [he] at hc
      have hmem := (List.mem_cons.mp hc).resolve_left hu.1
      rcases ht with ht | ⟨rfl, -⟩
      · exact absurd (ht u hmem) hu.2
      · exact List.mem_singleton.mp hmem
  induction s using quoteBody.induct with
  | case1 => exact h
  | case2 c => exact List.mem_singleton.mpr (hunit c h)
  | case3 c d s hpair ih =>
    rw [quoteBody, if_pos hpair, List.mem_cons, List.mem_cons] at h
    rw [List.mem_cons, List.mem_cons]
    exact h.imp_right (Or.imp_right ih)
  | case4 c d s hpair ih =>
    rw [quoteBody, if_neg hpair, List.mem_append] at h
    rw [List.mem_cons]
    exact h.imp (hunit c) ih

/-- Writing adds no space before a string. -/
theorem head_quoteBody {u : UInt16} (hu : u ≤ 0x20) {s : Text} (h : u ∈ (quoteBody s).head?) :
    u ∈ s.head? := by
  have hunit : ∀ c t, u ∈ (quoteUnit c ++ t).head? → u = c := by
    intro c t hc
    rcases quoteUnit_cases c with ⟨he, -⟩ | ⟨_, -, he, -⟩
    · rw [he] at hc
      exact (Option.mem_some_iff.mp hc).symm
    · rw [he] at hc
      rw [← Option.mem_some_iff.mp hc] at hu
      exact absurd hu (by decide)
  induction s using quoteBody.induct with
  | case1 => exact h
  | case2 c => exact Option.mem_some_iff.mpr (hunit c [] (by rwa [List.append_nil])).symm
  | case3 c d s hpair ih =>
    rw [quoteBody, if_pos hpair] at h
    exact h
  | case4 c d s hpair ih =>
    rw [quoteBody, if_neg hpair] at h
    exact Option.mem_some_iff.mpr (hunit c _ h).symm

/-- Nor after it. -/
theorem getLast_quoteBody {u : UInt16} (hu : u ≤ 0x20) {s : Text}
    (h : u ∈ (quoteBody s).getLast?) : u ∈ s.getLast? := by
  have hspace : ∀ v ∈ escapeUnits, ¬ v ≤ 0x20 := by decide
  have hunit : ∀ c, u ∈ (quoteUnit c).getLast? → u = c := by
    intro c hc
    rcases quoteUnit_cases c with ⟨he, -⟩ | ⟨t, hne, he, ht⟩
    · rw [he] at hc
      exact (Option.mem_some_iff.mp hc).symm
    · rw [he, List.getLast?_cons_of_ne_nil hne] at hc
      rcases ht with ht | ⟨rfl, -⟩
      · exact absurd hu (hspace u (ht u (List.mem_of_mem_getLast? hc)))
      · exact (Option.mem_some_iff.mp hc).symm
  induction s using quoteBody.induct with
  | case1 => exact h
  | case2 c => exact Option.mem_some_iff.mpr (hunit c h).symm
  | case3 c d s hpair ih =>
    rw [quoteBody, if_pos hpair] at h
    by_cases hs : s = []
    · subst hs
      exact h
    · rw [List.getLast?_cons_cons, List.getLast?_cons_of_ne_nil (quoteBody_ne_nil hs)] at h
      rw [List.getLast?_cons_cons, List.getLast?_cons_of_ne_nil hs]
      exact ih h
  | case4 c d s hpair ih =>
    rw [quoteBody, if_neg hpair,
      List.getLast?_append_of_ne_nil _ (quoteBody_ne_nil (List.cons_ne_nil _ _))] at h
    rw [List.getLast?_cons_cons]
    exact ih h

/-! ## Pieces -/

/-- A joined list is cut again into its pieces, if none is empty. -/
theorem split_intercalate {sep : UInt16} {ls : List Text} (h : ∀ p ∈ ls, sep ∉ p)
    (hne : ∀ p ∈ ls, p ≠ []) (hls : ls ≠ []) : split sep ([sep].intercalate ls) = ls := by
  have hpieces := List.splitOn_intercalate sep h hls
  unfold split
  split
  · rw [hpieces]
    obtain ⟨init, x, rfl⟩ := (List.eq_nil_or_concat' ls).resolve_left hls
    exact dropEmpties_append_cons (hne x (by simp)) init []
  · next hmem =>
    rw [List.splitOn_eq_singleton hmem] at hpieces
    exact hpieces

theorem mem_intercalate {sep p : Text} {ls : List Text} (hp : p ∈ ls) {u : UInt16} (hu : u ∈ p) :
    u ∈ sep.intercalate ls := by
  induction ls with
  | nil => exact absurd hp List.not_mem_nil
  | cons q ls ih =>
    by_cases hls : ls = []
    · subst hls
      rw [List.intercalate_singleton]
      exact List.mem_singleton.mp hp ▸ hu
    · rw [List.intercalate_cons_of_ne_nil hls, List.mem_append]
      rcases List.mem_cons.mp hp with rfl | hp
      · exact Or.inl (List.mem_append_left _ hu)
      · exact Or.inr (ih hp)

theorem mem_splitOn_of_mem_split {sep : UInt16} {s p : Text} (h : p ∈ split sep s) :
    p ∈ s.splitOn sep := by
  unfold split at h
  split at h
  · exact (List.rdropWhile_prefix _ _).subset h
  · next hmem => rwa [List.splitOn_eq_singleton hmem]

/-- A piece has no separator, and no unit that the string does not have. -/
theorem mem_of_mem_split {sep : UInt16} {s p : Text} (h : p ∈ split sep s) {u : UInt16}
    (hu : u ∈ p) : u ≠ sep ∧ u ∈ s := by
  have hp := mem_splitOn_of_mem_split h
  refine ⟨fun hsep => notMem_of_mem_splitOn hp (hsep ▸ hu), ?_⟩
  rw [← @List.intercalate_splitOn _ s _ _ sep]
  exact mem_intercalate hp hu

/-! ## Objects -/

/-- The text of a number. -/
structure NumberText where
  text : Text
  digits : ∀ c ∈ text, c ∈ lit "0123456789+-.e"
  ne_nil : text ≠ []

/-- A value: a string, a number, or the `null` of a number that is not finite. -/
inductive JsonValue where
  | string (s : Text)
  | number (n : NumberText)
  | null

namespace JsonValue

/-- The text of a value. -/
def text : JsonValue → Text
  | string s => s
  | number n => n.text
  | null => lit "null"

/-- A value as it is written, less the quotation marks. -/
def body : JsonValue → Text
  | string s => quoteBody s
  | number n => n.text
  | null => lit "null"

/-- A value as it is written. -/
def toJson : JsonValue → Text
  | string s => 0x22 :: (quoteBody s ++ [0x22])
  | number n => n.text
  | null => lit "null"

end JsonValue

/-- A member of an object. -/
def member (p : Text × JsonValue) : Text := 0x22 :: (quoteBody p.1 ++ 0x22 :: 0x3A :: p.2.toJson)

/-- `JSON.stringify`. -/
def stringify (l : List (Text × JsonValue)) : Text :=
  0x7B :: ([0x2C].intercalate (l.map member) ++ [0x7D])

end Text
