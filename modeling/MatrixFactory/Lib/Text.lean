/-
# Strings of UTF-16 code units

Strings as the lists of their UTF-16 code units, with the operations of a standard
library on them: conversion to and from UTF-8 (`bytes`, `ofBytes`), URL-safe Base64
without padding (`encode64`, `decode64`), decimal numbers (`decimal`, `parse`) and
splitting at a separator (`split`).  Each pair comes with its round trip; the one
through UTF-8 replaces unpaired surrogates (`ofBytes_bytes`).
-/
import Mathlib.Data.Nat.Digits.Defs
import Mathlib.Data.List.Basic
import Mathlib.Data.List.DropRight
import Mathlib.Tactic.IntervalCases
import Mathlib.Tactic.Ring

/-- A string, as the sequence of its UTF-16 code units. -/
abbrev Text := List UInt16

namespace Text

/-! ## Code units and characters -/

/-- High (leading) surrogates. -/
def isHigh (c : UInt16) : Bool := 0xD800 ≤ c && c ≤ 0xDBFF

/-- Low (trailing) surrogates. -/
def isLow (c : UInt16) : Bool := 0xDC00 ≤ c && c ≤ 0xDFFF

/-- The code units of one character. -/
def ofChar (c : Char) : Text :=
  if c.toNat < 0x10000 then [UInt16.ofNat c.toNat]
  else [UInt16.ofNat (0xD800 + (c.toNat - 0x10000) / 0x400),
    UInt16.ofNat (0xDC00 + (c.toNat - 0x10000) % 0x400)]

/-- The code units of a literal. -/
def lit (s : String) : Text := s.toList.flatMap ofChar

/-- The character of a surrogate pair. -/
def pair (c d : UInt16) : Char :=
  Char.ofNat (0x10000 + (c.toNat - 0xD800) * 0x400 + (d.toNat - 0xDC00))

/-- The characters of a string; an unpaired surrogate is read as `?`. -/
def chars : Text → List Char
  | [] => []
  | [c] => [if isHigh c || isLow c then '?' else Char.ofNat c.toNat]
  | c :: d :: s =>
    if isHigh c && isLow d then pair c d :: chars s
    else (if isHigh c || isLow c then '?' else Char.ofNat c.toNat) :: chars (d :: s)

/-- The string with each unpaired surrogate replaced by `?`. -/
def scrub : Text → Text
  | [] => []
  | [c] => [if isHigh c || isLow c then 0x3F else c]
  | c :: d :: s =>
    if isHigh c && isLow d then c :: d :: scrub s
    else (if isHigh c || isLow c then 0x3F else c) :: scrub (d :: s)

/-- No surrogate is unpaired. -/
def WellFormed (s : Text) : Prop := scrub s = s

instance (s : Text) : Decidable (WellFormed s) := inferInstanceAs (Decidable (_ = _))

theorem isHigh_iff {c : UInt16} : isHigh c = true ↔ 0xD800 ≤ c.toNat ∧ c.toNat ≤ 0xDBFF := by
  simp [isHigh, UInt16.le_iff_toNat_le]

theorem isLow_iff {c : UInt16} : isLow c = true ↔ 0xDC00 ≤ c.toNat ∧ c.toNat ≤ 0xDFFF := by
  simp [isLow, UInt16.le_iff_toNat_le]

theorem toNat_ofNat_char {n : ℕ} (h : n < 0xD800 ∨ 0xDFFF < n ∧ n < 0x110000) :
    (Char.ofNat n).toNat = n := by
  have hv : n.isValidChar := h
  rw [Char.ofNat, dif_pos hv]
  rfl

/-- A code unit that is no surrogate is its character's only code unit. -/
theorem ofChar_ofNat {c : UInt16} (h : (isHigh c || isLow c) = false) :
    ofChar (Char.ofNat c.toNat) = [c] := by
  rw [Bool.or_eq_false_iff, ← Bool.not_eq_true, ← Bool.not_eq_true, isHigh_iff, isLow_iff] at h
  have hlt := c.toNat_lt
  have hn : (Char.ofNat c.toNat).toNat = c.toNat := toNat_ofNat_char (by omega)
  rw [ofChar, hn, if_pos (by omega), UInt16.ofNat_toNat]

/-- The two code units of a surrogate pair's character are the pair. -/
theorem ofChar_pair {c d : UInt16} (hc : isHigh c = true) (hd : isLow d = true) :
    ofChar (pair c d) = [c, d] := by
  rw [isHigh_iff] at hc
  rw [isLow_iff] at hd
  have hn : (pair c d).toNat = 0x10000 + (c.toNat - 0xD800) * 0x400 + (d.toNat - 0xDC00) :=
    toNat_ofNat_char (by omega)
  have h1 : 0xD800 + ((pair c d).toNat - 0x10000) / 0x400 = c.toNat := by omega
  have h2 : 0xDC00 + ((pair c d).toNat - 0x10000) % 0x400 = d.toNat := by omega
  rw [ofChar, if_neg (by omega), h1, h2, UInt16.ofNat_toNat, UInt16.ofNat_toNat]

theorem ofChar_single (c : UInt16) :
    ofChar (if isHigh c || isLow c then '?' else Char.ofNat c.toNat)
      = [if isHigh c || isLow c then 0x3F else c] := by
  cases h : isHigh c || isLow c with
  | true => rfl
  | false => exact ofChar_ofNat h

/-- Reading the characters and writing them again replaces the unpaired surrogates. -/
theorem flatMap_chars (s : Text) : (chars s).flatMap ofChar = scrub s := by
  induction s using chars.induct with
  | case1 => rfl
  | case2 c => rw [chars, scrub, List.flatMap_singleton, ofChar_single]
  | case3 c d s h ih =>
    rw [chars, scrub, if_pos h, if_pos h, List.flatMap_cons, ih]
    rw [Bool.and_eq_true] at h
    rw [ofChar_pair h.1 h.2]
    rfl
  | case4 c d s h ih =>
    rw [chars, scrub, if_neg h, if_neg h, List.flatMap_cons, ih, ofChar_single]
    rfl

theorem scrub_length (s : Text) : (scrub s).length = s.length := by
  induction s using scrub.induct with
  | case1 => rfl
  | case2 c => rfl
  | case3 c d s h ih => simp [scrub, h, ih]
  | case4 c d s h ih => simp only [scrub, h, List.length_cons, ih, Bool.false_eq_true, if_false]

theorem scrub_ne_nil {s : Text} (h : s ≠ []) : scrub s ≠ [] := by
  intro h0
  have := scrub_length s
  rw [h0] at this
  exact h (List.eq_nil_of_length_eq_zero this.symm)

/-- A code unit that is no surrogate splits the replacement. -/
theorem scrub_append_cons {u : UInt16} (hu : (isHigh u || isLow u) = false) (s t : Text) :
    scrub (s ++ u :: t) = scrub s ++ u :: scrub t := by
  have hl : isLow u = false := by simp_all
  have hh : isHigh u = false := by simp_all
  have hcons : scrub (u :: t) = u :: scrub t := by
    cases t <;> simp [scrub, hl, hh]
  induction s using scrub.induct with
  | case1 => exact hcons
  | case2 c => simp [scrub, hl, hcons]
  | case3 c d s h ih => simpa [scrub, h] using ih
  | case4 c d s h ih =>
    simp only [List.cons_append] at ih ⊢
    rw [scrub, scrub, if_neg h, if_neg h, ih]
    rfl

/-- Replacing leaves a string without surrogates as it is. -/
theorem scrub_eq_self {s : Text} (h : ∀ c ∈ s, (isHigh c || isLow c) = false) : scrub s = s := by
  induction s with
  | nil => rfl
  | cons c s ih =>
    rw [show c :: s = [] ++ c :: s from rfl, scrub_append_cons (h c List.mem_cons_self),
      ih fun d hd => h d (List.mem_cons_of_mem _ hd)]
    rfl

/-- Replacing neither makes nor removes a code unit other than `?` and the surrogates. -/
theorem mem_scrub {u : UInt16} (hu : (isHigh u || isLow u) = false) (hq : u ≠ 0x3F)
    (s : Text) : u ∈ scrub s ↔ u ∈ s := by
  have hone : ∀ c : UInt16, u = (if isHigh c || isLow c then 0x3F else c) ↔ u = c := by
    intro c
    cases h : isHigh c || isLow c with
    | true =>
      refine ⟨fun e => absurd e hq, fun e => ?_⟩
      rw [e, h] at hu
      exact absurd hu (by decide)
    | false => exact Iff.rfl
  induction s using scrub.induct with
  | case1 => exact Iff.rfl
  | case2 c => simp only [scrub, List.mem_singleton, hone]
  | case3 c d s h ih => simp only [scrub, h, if_true, List.mem_cons, ih]
  | case4 c d s h ih =>
    rw [scrub, if_neg h]
    exact (List.mem_cons.trans (or_congr (hone c) ih)).trans List.mem_cons.symm

/-! ## UTF-8 -/

/-- The UTF-8 bytes of a string. -/
def bytes (s : Text) : List UInt8 := (chars s).flatMap String.utf8EncodeChar

/-- Continuation bytes. -/
def isContinuation (b : UInt8) : Bool := b &&& 0xC0 == 0x80

/-- How many bytes the replacement of a malformed sequence stands for. -/
def malformedLength : List UInt8 → ℕ
  | b :: c :: bs =>
    let rest := if bs.head?.any isContinuation then 3 else 2
    if 0xE0 ≤ b && b ≤ 0xEF then
      if (b == 0xE0 && c < 0xA0) || !isContinuation c then 1 else rest
    else if 0xF0 ≤ b && b ≤ 0xF4 then
      if (b == 0xF0 && c < 0x90) || (b == 0xF4 && 0x90 ≤ c) || !isContinuation c then 1 else rest
    else 1
  | _ => 1

/-- Decoding with at most `n` steps; a malformed sequence becomes `U+FFFD`. -/
def ofBytesFrom : ℕ → List UInt8 → Text
  | 0, _ => []
  | _ + 1, [] => []
  | n + 1, b :: bs =>
    match (b :: bs).toByteArray.utf8DecodeChar? 0 with
    | some c => ofChar c ++ ofBytesFrom n ((b :: bs).drop c.utf8Size)
    | none => 0xFFFD :: ofBytesFrom n ((b :: bs).drop (malformedLength (b :: bs)))

/-- The string of a sequence of UTF-8 bytes. -/
def ofBytes (bs : List UInt8) : Text := ofBytesFrom bs.length bs

theorem ofBytesFrom_flatMap (cs : List Char) :
    ∀ n, (cs.flatMap String.utf8EncodeChar).length ≤ n →
      ofBytesFrom n (cs.flatMap String.utf8EncodeChar) = cs.flatMap ofChar := by
  induction cs with
  | nil => intro n _; cases n <;> rfl
  | cons c cs ih =>
    intro n hn
    rw [List.flatMap_cons] at hn ⊢
    have hlen : (String.utf8EncodeChar c).length = c.utf8Size := String.length_utf8EncodeChar c
    have hpos := c.utf8Size_pos
    rw [List.length_append, hlen] at hn
    obtain ⟨m, rfl⟩ : ∃ m, n = m + 1 := ⟨n - 1, by omega⟩
    obtain ⟨b, bs, hb⟩ := List.exists_cons_of_ne_nil
      (List.ne_nil_of_length_pos (hlen ▸ hpos))
    have hdec : (String.utf8EncodeChar c
        ++ cs.flatMap String.utf8EncodeChar).toByteArray.utf8DecodeChar? 0 = some c := by
      rw [List.toByteArray_append, ByteArray.utf8DecodeChar?_utf8EncodeChar_append]
    have hdrop : (String.utf8EncodeChar c ++ cs.flatMap String.utf8EncodeChar).drop c.utf8Size
        = cs.flatMap String.utf8EncodeChar := List.drop_left' hlen
    rw [hb, List.cons_append] at hdec hdrop ⊢
    rw [ofBytesFrom, hdec]
    simp only [hdrop]
    rw [ih m (by omega), List.flatMap_cons]

/-- **The round trip through UTF-8.** -/
theorem ofBytes_bytes (s : Text) : ofBytes (bytes s) = scrub s := by
  rw [ofBytes, bytes, ofBytesFrom_flatMap _ _ le_rfl, flatMap_chars]

/-! ## URL-safe Base64 without padding -/

/-- The code unit of a sextet. -/
def sextet (i : ℕ) : UInt16 :=
  if i < 26 then UInt16.ofNat (0x41 + i)
  else if i < 52 then UInt16.ofNat (0x61 + (i - 26))
  else if i < 62 then UInt16.ofNat (0x30 + (i - 52))
  else if i = 62 then 0x2D else 0x5F

/-- The sextet of a code unit. -/
def sextetValue (u : UInt16) : Option ℕ :=
  if 0x41 ≤ u ∧ u ≤ 0x5A then some (u.toNat - 0x41)
  else if 0x61 ≤ u ∧ u ≤ 0x7A then some (u.toNat - 0x61 + 26)
  else if 0x30 ≤ u ∧ u ≤ 0x39 then some (u.toNat - 0x30 + 52)
  else if u = 0x2D then some 62
  else if u = 0x5F then some 63
  else none

theorem sextetValue_sextet {i : ℕ} (h : i < 64) : sextetValue (sextet i) = some i := by
  interval_cases i <;> rfl

theorem sextet_ne_dot {i : ℕ} (h : i < 64) : sextet i ≠ 0x2E := by
  interval_cases i <;> decide

/-- Base64 of a sequence of bytes. -/
def encode64 : List UInt8 → Text
  | [] => []
  | [a] => [sextet (a.toNat / 4), sextet (a.toNat % 4 * 16)]
  | [a, b] =>
    [sextet (a.toNat / 4), sextet (a.toNat % 4 * 16 + b.toNat / 16), sextet (b.toNat % 16 * 4)]
  | a :: b :: c :: bs =>
    sextet (a.toNat / 4) :: sextet (a.toNat % 4 * 16 + b.toNat / 16) ::
      sextet (b.toNat % 16 * 4 + c.toNat / 64) :: sextet (c.toNat % 64) :: encode64 bs

/-- The first, second and third byte of a group of four sextets. -/
def byte1 (i j : ℕ) : UInt8 := UInt8.ofNat (i * 4 + j / 16)

/-- The second byte of a group of four sextets. -/
def byte2 (j k : ℕ) : UInt8 := UInt8.ofNat (j % 16 * 16 + k / 4)

/-- The third byte of a group of four sextets. -/
def byte3 (k l : ℕ) : UInt8 := UInt8.ofNat (k % 4 * 64 + l)

/-- The bytes of a Base64 string; the padding may be left out. -/
def decode64 : Text → Option (List UInt8)
  | [] => some []
  | [_] => none
  | [u, v] => do
    let i ← sextetValue u
    let j ← sextetValue v
    return [byte1 i j]
  | [u, v, w] => do
    let i ← sextetValue u
    let j ← sextetValue v
    let k ← sextetValue w
    return [byte1 i j, byte2 j k]
  | u :: v :: w :: x :: s =>
    if x = 0x3D then
      if s ≠ [] then none
      else if w = 0x3D then do
        let i ← sextetValue u
        let j ← sextetValue v
        return [byte1 i j]
      else do
        let i ← sextetValue u
        let j ← sextetValue v
        let k ← sextetValue w
        return [byte1 i j, byte2 j k]
    else do
      let i ← sextetValue u
      let j ← sextetValue v
      let k ← sextetValue w
      let l ← sextetValue x
      let bs ← decode64 s
      return byte1 i j :: byte2 j k :: byte3 k l :: bs

theorem sextet_ne_pad {i : ℕ} (h : i < 64) : sextet i ≠ 0x3D := by
  interval_cases i <;> decide

theorem byte1_eq (a : UInt8) {j : ℕ} (hj : j / 16 = a.toNat % 4) :
    byte1 (a.toNat / 4) j = a := by
  rw [byte1, hj, show a.toNat / 4 * 4 + a.toNat % 4 = a.toNat from by omega, UInt8.ofNat_toNat]

theorem byte2_eq (b : UInt8) {j k : ℕ} (hj : j % 16 = b.toNat / 16) (hk : k / 4 = b.toNat % 16) :
    byte2 j k = b := by
  rw [byte2, hj, hk, show b.toNat / 16 * 16 + b.toNat % 16 = b.toNat from by omega,
    UInt8.ofNat_toNat]

theorem byte3_eq (c : UInt8) {k l : ℕ} (hk : k % 4 = c.toNat / 64) (hl : l = c.toNat % 64) :
    byte3 k l = c := by
  rw [byte3, hk, hl, show c.toNat / 64 * 64 + c.toNat % 64 = c.toNat from by omega,
    UInt8.ofNat_toNat]

/-- **The round trip through Base64.** -/
theorem decode64_encode64 (bs : List UInt8) : decode64 (encode64 bs) = some bs := by
  induction bs using encode64.induct with
  | case1 => rfl
  | case2 a =>
    have ha := a.toNat_lt
    rw [encode64, decode64, sextetValue_sextet (by omega), sextetValue_sextet (by omega)]
    simp only [Option.bind_eq_bind, Option.bind_some, Option.pure_def]
    rw [byte1_eq a (by omega)]
  | case3 a b =>
    have ha := a.toNat_lt
    have hb := b.toNat_lt
    rw [encode64, decode64, sextetValue_sextet (by omega), sextetValue_sextet (by omega),
      sextetValue_sextet (by omega)]
    simp only [Option.bind_eq_bind, Option.bind_some, Option.pure_def]
    rw [byte1_eq a (by omega), byte2_eq b (by omega) (by omega)]
  | case4 a b c bs ih =>
    have ha := a.toNat_lt
    have hb := b.toNat_lt
    have hc := c.toNat_lt
    rw [encode64, decode64, if_neg (sextet_ne_pad (by omega)), sextetValue_sextet (by omega),
      sextetValue_sextet (by omega), sextetValue_sextet (by omega), sextetValue_sextet (by omega),
      ih]
    simp only [Option.bind_eq_bind, Option.bind_some, Option.pure_def]
    rw [byte1_eq a (by omega), byte2_eq b (by omega) (by omega), byte3_eq c (by omega) rfl]

/-- No dot occurs in a Base64 string. -/
theorem dot_notMem_encode64 (bs : List UInt8) : 0x2E ∉ encode64 bs := by
  induction bs using encode64.induct with
  | case1 => exact List.not_mem_nil
  | case2 a =>
    have ha := a.toNat_lt
    simp only [encode64, List.mem_cons, List.not_mem_nil, or_false, not_or]
    exact ⟨(sextet_ne_dot (by omega)).symm, (sextet_ne_dot (by omega)).symm⟩
  | case3 a b =>
    have ha := a.toNat_lt
    have hb := b.toNat_lt
    simp only [encode64, List.mem_cons, List.not_mem_nil, or_false, not_or]
    exact ⟨(sextet_ne_dot (by omega)).symm, (sextet_ne_dot (by omega)).symm,
      (sextet_ne_dot (by omega)).symm⟩
  | case4 a b c bs ih =>
    have ha := a.toNat_lt
    have hb := b.toNat_lt
    have hc := c.toNat_lt
    simp only [encode64, List.mem_cons, not_or]
    exact ⟨(sextet_ne_dot (by omega)).symm, (sextet_ne_dot (by omega)).symm,
      (sextet_ne_dot (by omega)).symm, (sextet_ne_dot (by omega)).symm, ih⟩

/-! ## Decimal numbers -/

/-- The decimal digits zero of the basic plane. -/
def zeros : List ℕ :=
  [0x30, 0x660, 0x6F0, 0x7C0, 0x966, 0x9E6, 0xA66, 0xAE6, 0xB66, 0xBE6, 0xC66, 0xCE6, 0xD66, 0xDE6,
    0xE50, 0xED0, 0xF20, 0x1040, 0x1090, 0x17E0, 0x1810, 0x1946, 0x19D0, 0x1A80, 0x1A90, 0x1B50,
    0x1BB0, 0x1C40, 0x1C50, 0xA620, 0xA8D0, 0xA900, 0xA9D0, 0xA9F0, 0xAA50, 0xABF0, 0xFF10]

/-- The value of a decimal digit. -/
def digit (u : UInt16) : Option ℕ :=
  (zeros.find? fun z => z ≤ u.toNat ∧ u.toNat < z + 10).map (u.toNat - ·)

/-- The value of a nonempty sequence of digits, `acc` being that of the digits before. -/
def digitsFrom : ℕ → Text → Option ℕ
  | acc, [] => some acc
  | acc, u :: s => (digit u).bind fun d => digitsFrom (acc * 10 + d) s

/-- The number a string stands for in decimal. -/
def parse : Text → Option ℤ
  | [] => none
  | u :: s =>
    if u = 0x2D then if s = [] then none else (digitsFrom 0 s).map fun n => -(n : ℤ)
    else if u = 0x2B then if s = [] then none else (digitsFrom 0 s).map fun n => (n : ℤ)
    else (digitsFrom 0 (u :: s)).map fun n => (n : ℤ)

/-- The digit of a number below ten. -/
def ofDigit (d : ℕ) : UInt16 := UInt16.ofNat (0x30 + d)

/-- A natural number in decimal. -/
def decimalNat (n : ℕ) : Text :=
  if n = 0 then [0x30] else (Nat.digits 10 n).reverse.map ofDigit

/-- An integer in decimal. -/
def decimal (n : ℤ) : Text :=
  if n < 0 then 0x2D :: decimalNat n.natAbs else decimalNat n.natAbs

theorem digit_ofDigit {d : ℕ} (h : d < 10) : digit (ofDigit d) = some d := by
  interval_cases d <;> rfl

theorem digitsFrom_append (s t : Text) :
    ∀ acc, digitsFrom acc (s ++ t) = (digitsFrom acc s).bind fun n => digitsFrom n t := by
  induction s with
  | nil => intro acc; rfl
  | cons u s ih =>
    intro acc
    rw [List.cons_append, digitsFrom, digitsFrom]
    cases digit u with
    | none => rfl
    | some d => exact ih _

theorem digitsFrom_reverse (ds : List ℕ) (h : ∀ d ∈ ds, d < 10) :
    digitsFrom 0 (ds.reverse.map ofDigit) = some (Nat.ofDigits 10 ds) := by
  induction ds with
  | nil => rfl
  | cons d ds ih =>
    rw [List.reverse_cons, List.map_append, digitsFrom_append,
      ih fun e he => h e (List.mem_cons_of_mem _ he)]
    simp only [List.map_cons, List.map_nil, Option.bind_some, digitsFrom,
      digit_ofDigit (h d List.mem_cons_self), Nat.ofDigits_cons]
    congr 1
    show _ = d + 10 * _
    omega

theorem digitsFrom_decimalNat (n : ℕ) : digitsFrom 0 (decimalNat n) = some n := by
  by_cases h : n = 0
  · rw [decimalNat, if_pos h, h]
    rfl
  · rw [decimalNat, if_neg h, digitsFrom_reverse _ fun d hd => Nat.digits_lt_base (by decide) hd,
      Nat.ofDigits_digits]

theorem decimalNat_ne_nil (n : ℕ) : decimalNat n ≠ [] := by
  by_cases h : n = 0
  · rw [decimalNat, if_pos h]
    exact List.cons_ne_nil _ _
  · rw [decimalNat, if_neg h]
    simpa [Nat.digits_eq_nil_iff_eq_zero] using h

/-- The code units of a decimal number are the ten digits. -/
theorem mem_decimalNat {n : ℕ} {u : UInt16} (h : u ∈ decimalNat n) :
    0x30 ≤ u.toNat ∧ u.toNat ≤ 0x39 := by
  by_cases h0 : n = 0
  · rw [decimalNat, if_pos h0, List.mem_singleton] at h
    rw [h]
    decide
  · rw [decimalNat, if_neg h0] at h
    obtain ⟨d, hd, rfl⟩ := List.mem_map.1 h
    have hlt : d < 10 := Nat.digits_lt_base (by decide) (List.mem_reverse.1 hd)
    interval_cases d <;> decide

theorem mem_decimal {n : ℤ} {u : UInt16} (h : u ∈ decimal n) :
    u.toNat = 0x2D ∨ 0x30 ≤ u.toNat ∧ u.toNat ≤ 0x39 := by
  by_cases h0 : n < 0
  · rw [decimal, if_pos h0, List.mem_cons] at h
    rcases h with rfl | h
    · exact Or.inl rfl
    · exact Or.inr (mem_decimalNat h)
  · rw [decimal, if_neg h0] at h
    exact Or.inr (mem_decimalNat h)

/-- **Decimal numbers are read back.** -/
theorem parse_decimal (n : ℤ) : parse (decimal n) = some n := by
  by_cases h0 : n < 0
  · rw [decimal, if_pos h0, parse, if_pos rfl, if_neg (decimalNat_ne_nil _), digitsFrom_decimalNat]
    show some (-(n.natAbs : ℤ)) = some n
    congr 1
    omega
  · rw [decimal, if_neg h0]
    obtain ⟨u, s, hu⟩ := List.exists_cons_of_ne_nil (decimalNat_ne_nil n.natAbs)
    have hmem := mem_decimalNat (hu ▸ List.mem_cons_self : u ∈ decimalNat n.natAbs)
    have h1 : u ≠ 0x2D := by rintro rfl; simp at hmem
    have h2 : u ≠ 0x2B := by rintro rfl; simp at hmem
    rw [hu, parse, if_neg h1, if_neg h2, ← hu, digitsFrom_decimalNat]
    show some (n.natAbs : ℤ) = some n
    congr 1
    omega

/-! ## Splitting -/

/-- The list without the empty strings at its end. -/
def dropEmpties (l : List Text) : List Text := l.rdropWhile (· = [])

/-- The pieces between the separators, without the empty ones at the end; a string
without a separator is its only piece. -/
def split (sep : UInt16) (s : Text) : List Text :=
  if sep ∈ s then dropEmpties (s.splitOn sep) else [s]

/-- A nonempty string stops the empty ones from being dropped. -/
theorem dropEmpties_append_cons {x : Text} (hx : x ≠ []) (l m : List Text) :
    dropEmpties (l ++ x :: m) = l ++ x :: dropEmpties m := by
  induction m using List.reverseRecOn with
  | nil =>
    rw [dropEmpties, List.rdropWhile_concat_neg _ _ _ (by simpa using hx)]
    rfl
  | append_singleton m y ih =>
    rw [show l ++ x :: (m ++ [y]) = (l ++ x :: m) ++ [y] by simp]
    unfold dropEmpties at ih ⊢
    by_cases hy : y = []
    · rw [List.rdropWhile_concat_pos _ _ _ (by simpa using hy),
        List.rdropWhile_concat_pos _ _ _ (by simpa using hy), ih]
    · rw [List.rdropWhile_concat_neg _ _ _ (by simpa using hy),
        List.rdropWhile_concat_neg _ _ _ (by simpa using hy)]
      simp

/-- No piece contains the separator. -/
theorem notMem_of_mem_splitOn {sep : UInt16} {s p : Text} (h : p ∈ s.splitOn sep) : sep ∉ p := by
  induction s generalizing p with
  | nil =>
    rw [List.splitOn_nil, List.mem_singleton] at h
    rw [h]
    exact List.not_mem_nil
  | cons u s ih =>
    rw [List.splitOn_cons_eq_if_modifyHead] at h
    obtain ⟨q, l, hl⟩ := List.exists_cons_of_ne_nil (List.splitOn_ne_nil sep s)
    rw [hl] at h ih
    by_cases hu : u = sep
    · rw [if_pos (by simpa using hu), List.mem_cons] at h
      rcases h with rfl | h
      · exact List.not_mem_nil
      · exact ih h
    · rw [if_neg (by simpa using hu), List.modifyHead_cons, List.mem_cons] at h
      rcases h with rfl | h
      · rw [List.mem_cons, not_or]
        exact ⟨fun e => hu e.symm, ih List.mem_cons_self⟩
      · exact ih (List.mem_cons_of_mem _ h)

end Text
