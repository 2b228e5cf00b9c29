/-
# Priority queues

The contract of a binary-heap priority queue, over an arbitrary order `le` given
as a relation.  The queue is held as a list whose arrangement is the
implementation's business: `offer` may place the new element anywhere and `poll`
may rearrange what it leaves, so two elements that tie may come out in either
order.  What every implementation promises is that nothing is lost or invented
(`offer_perm`, `poll_perm`) and that `poll` takes a least element
(`poll_least`).

`PriorityQueue.scan` is the plain implementation that scans for a least element;
it is used wherever a queue has to be run on a concrete input.
-/
import Mathlib.Data.List.Perm.Basic
import Mathlib.Order.Defs.Unbundled

/-- A priority queue on lists of `α` for the order `le`. -/
structure PriorityQueue (α : Type*) (le : α → α → Prop) where
  offer : α → List α → List α
  poll : List α → Option (α × List α)
  offer_perm : ∀ a l, (offer a l).Perm (a :: l)
  poll_nil : poll [] = none
  poll_isSome : ∀ l, l ≠ [] → (poll l).isSome
  poll_perm : ∀ l a rest, poll l = some (a, rest) → l.Perm (a :: rest)
  poll_least : ∀ l a rest, poll l = some (a, rest) → ∀ b ∈ l, le a b

namespace PriorityQueue

variable {α : Type*} {le : α → α → Prop} (pq : PriorityQueue α le)

theorem mem_offer {a b : α} {l : List α} : b ∈ pq.offer a l ↔ b = a ∨ b ∈ l := by
  rw [(pq.offer_perm a l).mem_iff, List.mem_cons]

@[simp] theorem length_offer (a : α) (l : List α) :
    (pq.offer a l).length = l.length + 1 := by
  rw [(pq.offer_perm a l).length_eq, List.length_cons]

/-- A queue answers `none` only when it is empty. -/
theorem poll_eq_none_iff {l : List α} : pq.poll l = none ↔ l = [] := by
  constructor
  · intro h
    by_contra hl
    have hsome := pq.poll_isSome l hl
    rw [h] at hsome
    simp at hsome
  · rintro rfl
    exact pq.poll_nil

theorem mem_of_poll {l rest : List α} {a : α} (h : pq.poll l = some (a, rest)) (b : α) :
    b ∈ l ↔ b = a ∨ b ∈ rest := by
  rw [(pq.poll_perm l a rest h).mem_iff, List.mem_cons]

theorem length_of_poll {l rest : List α} {a : α} (h : pq.poll l = some (a, rest)) :
    l.length = rest.length + 1 := by
  rw [(pq.poll_perm l a rest h).length_eq, List.length_cons]

/-! ## Offering several elements -/

/-- Offers the elements of a list one after the other. -/
def offerAll (l : List α) (q : List α) : List α := l.foldl (fun q a => pq.offer a q) q

theorem mem_offerAll {l q : List α} {b : α} : b ∈ pq.offerAll l q ↔ b ∈ l ∨ b ∈ q := by
  induction l generalizing q with
  | nil => simp [offerAll]
  | cons a l ih =>
    rw [offerAll, List.foldl_cons, ← offerAll, ih, mem_offer, List.mem_cons]
    tauto

theorem length_offerAll (l q : List α) :
    (pq.offerAll l q).length = l.length + q.length := by
  induction l generalizing q with
  | nil => simp [offerAll]
  | cons a l ih =>
    rw [offerAll, List.foldl_cons, ← offerAll, ih, length_offer, List.length_cons]
    omega

/-! ## A queue that scans -/

/-- Takes the leftmost least element of a list. -/
def scanPoll (le : α → α → Prop) [DecidableRel le] : List α → Option (α × List α)
  | [] => none
  | a :: l =>
    match scanPoll le l with
    | none => some (a, [])
    | some (b, rest) => if le a b then some (a, l) else some (b, a :: rest)

variable [DecidableRel le]

theorem scanPoll_eq_none {l : List α} (h : scanPoll le l = none) : l = [] := by
  cases l with
  | nil => rfl
  | cons a l =>
    rw [scanPoll] at h
    rcases hl : scanPoll le l with _ | ⟨b, rest⟩
    · rw [hl] at h; simp at h
    · rw [hl] at h; simp only at h; split at h <;> simp at h

theorem scanPoll_perm {l rest : List α} {a : α} (h : scanPoll le l = some (a, rest)) :
    l.Perm (a :: rest) := by
  induction l generalizing a rest with
  | nil => simp [scanPoll] at h
  | cons c l ih =>
    rw [scanPoll] at h
    rcases hl : scanPoll le l with _ | ⟨b, rest'⟩
    · rw [hl] at h
      obtain ⟨rfl, rfl⟩ : c = a ∧ [] = rest := by simpa using h
      rw [scanPoll_eq_none hl]
    · rw [hl] at h
      simp only at h
      split at h
      · obtain ⟨rfl, rfl⟩ : c = a ∧ l = rest := by simpa using h
        exact List.Perm.refl _
      · obtain ⟨rfl, rfl⟩ : b = a ∧ c :: rest' = rest := by simpa using h
        exact ((ih hl).cons c).trans (List.Perm.swap b c rest')

theorem scanPoll_least [IsTrans α le] [Std.Total le] {l rest : List α} {a : α}
    (h : scanPoll le l = some (a, rest)) : ∀ b ∈ l, le a b := by
  induction l generalizing a rest with
  | nil => simp [scanPoll] at h
  | cons c l ih =>
    have hrefl : ∀ x : α, le x x := fun x => (Std.Total.total (r := le) x x).elim id id
    rw [scanPoll] at h
    rcases hl : scanPoll le l with _ | ⟨d, rest'⟩
    · rw [hl] at h
      obtain ⟨rfl, rfl⟩ : c = a ∧ [] = rest := by simpa using h
      simp [scanPoll_eq_none hl, hrefl]
    · rw [hl] at h
      simp only at h
      have hd := ih hl
      split at h
      · next hcd =>
        obtain ⟨rfl, rfl⟩ : c = a ∧ l = rest := by simpa using h
        intro b hb
        rcases List.mem_cons.mp hb with rfl | hb
        · exact hrefl b
        · exact IsTrans.trans c d b hcd (hd b hb)
      · next hcd =>
        obtain ⟨rfl, rfl⟩ : d = a ∧ c :: rest' = rest := by simpa using h
        intro b hb
        rcases List.mem_cons.mp hb with rfl | hb
        · exact (Std.Total.total (r := le) b d).resolve_left hcd
        · exact hd b hb

/-- The queue that keeps its elements unsorted and scans for a least one. -/
def scan (le : α → α → Prop) [DecidableRel le] [IsTrans α le] [Std.Total le] :
    PriorityQueue α le where
  offer a l := l ++ [a]
  poll := scanPoll le
  offer_perm a l := List.perm_append_singleton a l
  poll_nil := rfl
  poll_isSome l hl := by
    rcases h : scanPoll le l with _ | p
    · exact absurd (scanPoll_eq_none h) hl
    · rfl
  poll_perm _ _ _ h := scanPoll_perm h
  poll_least _ _ _ h := scanPoll_least h

end PriorityQueue
