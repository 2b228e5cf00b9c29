/-
# The shop-floor grid and its reservation table

The static data of `AMRArtifact`: the cells, the station table `STATION_CELLS`
with the name parser `stationIndex`, and the space-time reservations
(`reservedBy` and `edgeReservations`) with the operations that write and age
them.

`reservedBy[x][y][t]` is a function of the cell and the time; a cell outside the
grid is never read or written by the code, so its value plays no role.
`edgeReservations` is a set of packed `long` keys, held as a list.
-/
import Mathlib.Data.Nat.Bitwise
import Mathlib.Data.Rat.Defs
import Mathlib.Data.List.Basic
import Mathlib.Tactic

namespace MatrixFactory

/-- A grid cell. -/
structure Cell where
  x : ℤ
  y : ℤ
  deriving DecidableEq, Repr, Inhabited

/-- The dimensions `gridCols` and `gridRows`. -/
structure Grid where
  gridCols : ℕ
  gridRows : ℕ
  deriving DecidableEq, Repr

namespace Grid

/-- `HORIZON_TICKS = gridCols + gridRows + 4`. -/
def horizonTicks (g : Grid) : ℕ := g.gridCols + g.gridRows + 4

/-- The bounds check of the planner. -/
def InBounds (g : Grid) (c : Cell) : Prop :=
  0 ≤ c.x ∧ c.x < g.gridCols ∧ 0 ≤ c.y ∧ c.y < g.gridRows

instance (g : Grid) (c : Cell) : Decidable (g.InBounds c) := by
  unfold InBounds; infer_instance

end Grid

/-! ## Stations -/

/-- `STATION_CELLS`. -/
def stationCells : List Cell := [⟨2, 2⟩, ⟨6, 2⟩, ⟨11, 2⟩, ⟨15, 2⟩, ⟨4, 7⟩]

/-- The pieces of `String.split`, before trailing empty ones are dropped. -/
def splitOnChar (c : Char) : List Char → List (List Char)
  | [] => [[]]
  | d :: ds =>
    if d = c then [] :: splitOnChar c ds
    else
      match splitOnChar c ds with
      | [] => [[d]]
      | w :: ws => (d :: w) :: ws

/-- `norm.split("_")`: trailing empty pieces are not part of the result. -/
def splitUnderscore (s : List Char) : List (List Char) :=
  ((splitOnChar '_' s).reverse.dropWhile (· = [])).reverse

/-- `s.replace("station_", "S")`, scanning from the left. -/
def replaceStationPrefix : ℕ → List Char → List Char
  | 0, s => s
  | _, [] => []
  | fuel + 1, c :: cs =>
    if "station_".toList.isPrefixOf (c :: cs) then
      'S' :: replaceStationPrefix fuel ((c :: cs).drop 8)
    else c :: replaceStationPrefix fuel cs

/-- The normalised station name of `stationIndex`: `station_1_4` becomes `S1`,
and any other name is upper-cased. -/
def normStation (stationId : String) : List Char :=
  let norm := stationId.toList
  if "station_".toList.isPrefixOf norm then
    match splitUnderscore norm with
    | _ :: p :: _ => 'S' :: p
    | _ => norm
  else (replaceStationPrefix norm.length norm).map Char.toUpper

/-- `stationIndex`, with `none` for `-1`. -/
def stationIndex (stationId : String) : Option (Fin 5) :=
  let norm := normStation stationId
  if norm = ['S', '1'] then some 0
  else if norm = ['S', '2'] then some 1
  else if norm = ['S', '3'] then some 2
  else if norm = ['S', '4'] then some 3
  else if norm = ['S', '5'] then some 4
  else none

/-- The cell of a station the table knows. -/
def stationCell (stationId : String) : Option Cell :=
  (stationIndex stationId).bind fun i => stationCells[i.val]?

example : stationCell "station_1_4" = some ⟨2, 2⟩ := by decide
example : stationCell "s5" = some ⟨4, 7⟩ := by decide
example : stationCell "start" = none := by decide

/-! ## Packed keys -/

/-- The closed-set key `(x << 24) | (y << 12) | t` of the planner. -/
def nodeKey (c : Cell) (t : ℕ) : ℕ := c.x.toNat <<< 24 ||| c.y.toNat <<< 12 ||| t

/-- `edgeKey`, a 64-bit `long`. -/
def edgeKey (a b : Cell) (t : ℕ) : ℕ :=
  (a.x.toNat <<< 48 ||| a.y.toNat <<< 36 ||| b.x.toNat <<< 24 ||| b.y.toNat <<< 12 ||| t)
    % 2 ^ 64

theorem shiftLeft_or_eq_add {a b k : ℕ} (h : b < 2 ^ k) : a <<< k ||| b = a * 2 ^ k + b := by
  rw [Nat.shiftLeft_eq, Nat.mul_comm, Nat.two_pow_add_eq_or_of_lt h]

/-- Cells and times below the width of the key's fields are packed without
overlap. -/
theorem nodeKey_eq {c : Cell} {t : ℕ} (hy : c.y.toNat < 4096) (ht : t < 4096) :
    nodeKey c t = c.x.toNat * 2 ^ 24 + (c.y.toNat * 2 ^ 12 + t) := by
  have h12 : c.y.toNat <<< 12 ||| t = c.y.toNat * 2 ^ 12 + t := shiftLeft_or_eq_add (by omega)
  rw [nodeKey, Nat.lor_assoc, h12, shiftLeft_or_eq_add (by omega)]

theorem edgeKey_eq {a b : Cell} {t : ℕ} (hax : a.x.toNat < 4096) (hay : a.y.toNat < 4096)
    (hbx : b.x.toNat < 4096) (hby : b.y.toNat < 4096) (ht : t < 4096) :
    edgeKey a b t = a.x.toNat * 2 ^ 48 + (a.y.toNat * 2 ^ 36 +
      (b.x.toNat * 2 ^ 24 + (b.y.toNat * 2 ^ 12 + t))) := by
  have h12 : b.y.toNat <<< 12 ||| t = b.y.toNat * 2 ^ 12 + t := shiftLeft_or_eq_add (by omega)
  have h24 : b.x.toNat <<< 24 ||| (b.y.toNat * 2 ^ 12 + t)
      = b.x.toNat * 2 ^ 24 + (b.y.toNat * 2 ^ 12 + t) := shiftLeft_or_eq_add (by omega)
  have h36 : a.y.toNat <<< 36 ||| (b.x.toNat * 2 ^ 24 + (b.y.toNat * 2 ^ 12 + t))
      = a.y.toNat * 2 ^ 36 + (b.x.toNat * 2 ^ 24 + (b.y.toNat * 2 ^ 12 + t)) :=
    shiftLeft_or_eq_add (by omega)
  have h48 := shiftLeft_or_eq_add (a := a.x.toNat) (k := 48)
    (b := a.y.toNat * 2 ^ 36 + (b.x.toNat * 2 ^ 24 + (b.y.toNat * 2 ^ 12 + t))) (by omega)
  rw [edgeKey, Nat.lor_assoc, Nat.lor_assoc, Nat.lor_assoc, h12, h24, h36, h48]
  exact Nat.mod_eq_of_lt (by omega)

theorem packed_inj {a a' b b' k : ℕ} (hb : b < 2 ^ k) (hb' : b' < 2 ^ k)
    (h : a * 2 ^ k + b = a' * 2 ^ k + b') : a = a' ∧ b = b' := by
  have ha : (a * 2 ^ k + b) / 2 ^ k = (a' * 2 ^ k + b') / 2 ^ k := by rw [h]
  rw [Nat.mul_comm a, Nat.mul_comm a', Nat.mul_add_div (Nat.two_pow_pos k),
    Nat.mul_add_div (Nat.two_pow_pos k), Nat.div_eq_of_lt hb, Nat.div_eq_of_lt hb'] at ha
  obtain rfl : a = a' := by simpa using ha
  exact ⟨rfl, Nat.add_left_cancel h⟩

/-- The key of a move determines its cells and its time. -/
theorem edgeKey_inj {a b a' b' : Cell} {t t' : ℕ}
    (hw : ∀ n ∈ [a.x.toNat, a.y.toNat, b.x.toNat, b.y.toNat, t, a'.x.toNat, a'.y.toNat, b'.x.toNat,
      b'.y.toNat, t'], n < 4096) (h : edgeKey a b t = edgeKey a' b' t') :
    (a.x.toNat = a'.x.toNat ∧ a.y.toNat = a'.y.toNat) ∧
      (b.x.toNat = b'.x.toNat ∧ b.y.toNat = b'.y.toNat) ∧ t = t' := by
  simp only [List.mem_cons, List.not_mem_nil, or_false, forall_eq_or_imp, forall_eq] at hw
  obtain ⟨hax, hay, hbx, hby, ht, hax', hay', hbx', hby', ht'⟩ := hw
  rw [edgeKey_eq hax hay hbx hby ht, edgeKey_eq hax' hay' hbx' hby' ht'] at h
  obtain ⟨hx, h⟩ := packed_inj (k := 48) (by omega) (by omega) h
  obtain ⟨hy, h⟩ := packed_inj (k := 36) (by omega) (by omega) h
  obtain ⟨hx', h⟩ := packed_inj (k := 24) (by omega) (by omega) h
  obtain ⟨hy', h⟩ := packed_inj (k := 12) (by omega) (by omega) h
  exact ⟨⟨hx, hy⟩, ⟨hx', hy'⟩, h⟩

/-! ## Reservations -/

/-- `reservedBy` and `edgeReservations`. -/
structure Reservations where
  reservedBy : Cell → ℕ → Option String
  edgeReservations : List ℕ

namespace Reservations

/-- The table as `init` allocates it. -/
def empty : Reservations := ⟨fun _ _ => none, []⟩

/-- `reservedBy[x][y][t] = amrId`. -/
def reserve (r : Reservations) (c : Cell) (t : ℕ) (amrId : String) : Reservations :=
  { r with reservedBy := fun c' t' => if c' = c ∧ t' = t then some amrId else r.reservedBy c' t' }

/-- The loop of `commitReservation` from index `t` on; `prev` is the cell at
index `t - 1`, if there is one. -/
def commitFrom (g : Grid) (amrId : String) :
    Reservations → ℕ → Option Cell → List Cell → Reservations
  | r, _, _, [] => r
  | r, t, prev, cell :: path =>
    if t < g.horizonTicks then
      let r := r.reserve cell (t + 1) amrId
      let r :=
        match prev with
        | some p =>
          if p ≠ cell then { r with edgeReservations := edgeKey p cell t :: r.edgeReservations }
          else r
        | none => r
      commitFrom g amrId r (t + 1) (some cell) path
    else r

/-- `commitReservation`. -/
def commitReservation (g : Grid) (amrId : String) (path : List Cell) (r : Reservations) :
    Reservations :=
  commitFrom g amrId r 0 none path

/-- The shift of `reservedBy` by one tick, shared by `clearExpiredReservations`
and `refreshGridOccupancy`. -/
def shift (g : Grid) (reservedBy : Cell → ℕ → Option String) : Cell → ℕ → Option String :=
  fun c t => if t + 1 < g.horizonTicks then reservedBy c (t + 1) else none

/-- `clearExpiredReservations`. -/
def clearExpired (g : Grid) (r : Reservations) : Reservations :=
  ⟨shift g r.reservedBy, []⟩

/-- `refreshGridOccupancy`: the shift, then the occupancy slice at time 0, with
the fleet given as the AMRs' names and cells. -/
def refreshGridOccupancy (g : Grid) (fleet : List (String × Cell)) (r : Reservations) :
    Reservations :=
  fleet.foldl (fun r a => if g.InBounds a.2 then r.reserve a.2 0 a.1 else r)
    { r with reservedBy := shift g r.reservedBy }

end Reservations

end MatrixFactory
