/-
# The cache of the property tables

`LUTManager.initialize`: the tables of all fluids come from the stacked cache, or from the cache
of each fluid, or are generated.  The stacked cache is used when its grids have the right numbers
of pressures and temperatures, a fluid's cache when it was written for the same pressures and
temperatures; the entropies and the fluids are never compared.  An unreadable stacked cache is
survived on the fast path and not by the second attempt under the lock.

`initialized_iff` says for which contents of the cache directory the result is that of
generation.
-/
import Mathlib.Data.List.Basic
import Mathlib.Logic.Function.Basic
import Mathlib.Data.Rat.Defs

namespace MatrixFactory

/-! ## Tables and caches -/

/-- The properties of `PropertyType`. -/
inductive PropertyType
  | D
  | H
  | S
  | C
  | Z
  deriving DecidableEq, Repr

/-- The keys of a fluid's tables: a property over pressure and temperature, or the enthalpy over
pressure and entropy. -/
inductive TableKey
  | property (p : PropertyType)
  | hFromPS
  deriving DecidableEq, Repr

/-- A fluid's name. -/
abbrev Fluid := List Char

/-- `LUTConfig`; the interpolation is not read here, and the cache directory is `CacheDir`. -/
structure LUTConfig (V : Type) where
  pressureMin : V
  pressureMax : V
  pressurePoints : ℕ
  temperatureMin : V
  temperatureMax : V
  temperaturePoints : ℕ
  entropyMin : V
  entropyMax : V
  entropyPoints : ℕ
  properties : List PropertyType
  fluids : List Fluid

/-- The coordinate grids. -/
structure Grids (V : Type) where
  pressure : List V
  temperature : List V
  entropy : List V
  deriving DecidableEq

/-- An array with `data.length` rows of `cols` entries. -/
structure PropertyTable (V : Type) where
  cols : ℕ
  data : List (List V)
  deriving DecidableEq

/-- A fluid's tables. -/
abbrev Lut (V : Type) := TableKey → Option (PropertyTable V)

/-- The rows of the six stacked arrays for one fluid. -/
abbrev StackedRow (V : Type) := TableKey → PropertyTable V

/-- A file of the cache directory; an unreadable one raises when it is loaded. -/
inductive CacheFile (α : Type)
  | absent
  | unreadable
  | saved (a : α)

/-- The stacked cache.  The hash that is saved with it is never read. -/
structure StackedCache (V : Type) where
  grids : Grids V
  rows : List (StackedRow V)

/-- A fluid's cache; the configuration is `none` where an entry of a saved dictionary is
missing. -/
structure FluidCache (V : Type) where
  config : Option (LUTConfig V)
  lut : Lut V

/-- The cache directory. -/
structure CacheDir (V : Type) where
  stacked : CacheFile (StackedCache V)
  fluid : Fluid → CacheFile (FluidCache V)

/-- `numpy` and `CoolProp`, available: `PropsSI` with the pressure and the temperature, and with the
pressure and the entropy, is `none` where it raises a `ValueError`. -/
structure LutEnv (V : Type) where
  zero : V
  nan : V
  geomspace : V → V → ℕ → List V
  linspace : V → V → ℕ → List V
  propsPT : PropertyType → V → V → Fluid → Option V
  propsPS : PropertyType → V → V → Fluid → Option V

/-- The manager. -/
structure LutManager (V : Type) where
  grids : Grids V
  luts : Fluid → Option (Lut V)
  stacked : List (StackedRow V)

/-- How an attempt to load the stacked cache ends. -/
inductive LoadResult
  | loaded
  | invalid
  | raised
  deriving DecidableEq, Repr

namespace LutManager

variable {V : Type} (env : LutEnv V) (c : LUTConfig V)

/-! ## Generation -/

/-- The coordinate grids of the configuration. -/
def coordinateGrids : Grids V where
  pressure := env.geomspace c.pressureMin c.pressureMax c.pressurePoints
  temperature := env.linspace c.temperatureMin c.temperatureMax c.temperaturePoints
  entropy := env.linspace c.entropyMin c.entropyMax c.entropyPoints

/-- A table over two grids. -/
def tableOf (f : V → V → Option V) (xs ys : List V) : PropertyTable V :=
  ⟨ys.length, xs.map fun x => ys.map fun y => (f x y).getD env.nan⟩

/-- `_generate_lut`. -/
def generateLut (g : Grids V) (fluid : Fluid) : Lut V
  | .property p =>
    if p ∈ c.properties then
      some (tableOf env (fun x y => env.propsPT p x y fluid) g.pressure g.temperature)
    else none
  | .hFromPS => some (tableOf env (fun x y => env.propsPS .H x y fluid) g.pressure g.entropy)

/-! ## The stacked arrays -/

/-- The assignment of an array to a part of shape `n × m`, with `numpy`'s broadcasting. -/
def broadcast (n m : ℕ) (t : PropertyTable V) : Option (PropertyTable V) :=
  if (t.data.length = n ∨ t.data.length = 1) ∧ (t.cols = m ∨ t.cols = 1) then
    let rows := if t.data.length = n then t.data else List.replicate n (t.data.headD [])
    some ⟨m, if t.cols = m then rows else rows.map fun r => List.replicate m (r.headD env.zero)⟩
  else none

/-- The number of columns of a stacked array. -/
def stackedCols (g : Grids V) : TableKey → ℕ
  | .property _ => g.temperature.length
  | .hFromPS => g.entropy.length

/-- A fluid's part of a stacked array; `none` where the assignment raises. -/
def stackTable (g : Grids V) (lut : Lut V) (key : TableKey) : Option (PropertyTable V) :=
  match lut key with
  | none => some ⟨stackedCols g key,
      List.replicate g.pressure.length (List.replicate (stackedCols g key) env.zero)⟩
  | some t => broadcast env g.pressure.length (stackedCols g key) t

/-- The keys of the stacked arrays. -/
def stackedKeys : List TableKey :=
  [.property .H, .property .S, .property .C, .property .D, .property .Z, .hFromPS]

/-- A fluid's part of the stacked arrays. -/
def stackRow (g : Grids V) (lut : Lut V) : Option (StackedRow V) :=
  if ∀ key ∈ stackedKeys, (stackTable env g lut key).isSome then
    some fun key => (stackTable env g lut key).getD ⟨0, []⟩
  else none

/-- `_stack_luts`. -/
def stackLuts (m : LutManager V) : Option (List (StackedRow V)) :=
  let row fluid := stackRow env m.grids ((m.luts fluid).getD fun _ => none)
  if ∀ fluid ∈ c.fluids, (row fluid).isSome then
    some (c.fluids.map fun fluid => (row fluid).getD fun _ => ⟨0, []⟩)
  else none

/-! ## The caches -/

/-- The fluids take their tables from the rows. -/
def takeRows (l : List (Fluid × StackedRow V)) (luts : Fluid → Option (Lut V)) :
    Fluid → Option (Lut V) :=
  l.foldl (fun luts p => Function.update luts p.1 (some fun key => some (p.2 key))) luts

/-- `_load_stacked_cache`, of a file that can be read; a row that is missing raises. -/
def loadStackedCache (cache : StackedCache V) (m : LutManager V) : LoadResult × LutManager V :=
  if cache.grids.pressure.length ≠ c.pressurePoints ∨
      cache.grids.temperature.length ≠ c.temperaturePoints then (.invalid, m)
  else
    let m' : LutManager V :=
      { grids := cache.grids
        luts := takeRows (c.fluids.zip cache.rows) m.luts
        stacked := cache.rows }
    (if c.fluids.length ≤ cache.rows.length then .loaded else .raised, m')

/-- An attempt to load the stacked cache. -/
def attempt (file : CacheFile (StackedCache V)) (m : LutManager V) : LoadResult × LutManager V :=
  match file with
  | .absent => (.invalid, m)
  | .unreadable => (.raised, m)
  | .saved cache => loadStackedCache c cache m

/-- The check of `_load_from_cache`. -/
def rangesMatch [DecidableEq V] (saved : Option (LUTConfig V)) : Bool :=
  saved.any fun s => s.pressureMin = c.pressureMin && s.pressureMax = c.pressureMax &&
    s.pressurePoints = c.pressurePoints && s.temperatureMin = c.temperatureMin &&
    s.temperatureMax = c.temperatureMax && s.temperaturePoints = c.temperaturePoints

/-- `cache_path.stem.split('_')[1]`, for the cache path of a fluid. -/
def stemFluid (fluid : Fluid) : Fluid := fluid.takeWhile (· ≠ '_')

/-- `_load_from_cache`. -/
def loadFromCache [DecidableEq V] (g : Grids V) (fluid : Fluid) (cache : FluidCache V) : Lut V :=
  if rangesMatch c cache.config then cache.lut else generateLut env c g (stemFluid fluid)

/-- The tables that the slow path takes for a fluid. -/
def fluidLut [DecidableEq V] (g : Grids V) (fluid : Fluid) (file : CacheFile (FluidCache V)) :
    Lut V :=
  match file with
  | .absent | .unreadable => generateLut env c g fluid
  | .saved cache => loadFromCache env c g fluid cache

/-- The cache of a fluid after that. -/
def fluidFile (g : Grids V) (fluid : Fluid) (file : CacheFile (FluidCache V)) :
    CacheFile (FluidCache V) :=
  match file with
  | .absent | .unreadable => .saved ⟨some c, generateLut env c g fluid⟩
  | .saved cache => .saved cache

/-- One round of the loop over the fluids. -/
def loadFluid [DecidableEq V] (x : LutManager V × CacheDir V) (fluid : Fluid) :
    LutManager V × CacheDir V :=
  ({ x.1 with
      luts := Function.update x.1.luts fluid
        (some (fluidLut env c x.1.grids fluid (x.2.fluid fluid))) },
    { x.2 with
      fluid := Function.update x.2.fluid fluid
        (fluidFile env c x.1.grids fluid (x.2.fluid fluid)) })

/-- The slow path; the stacked cache is written at its end. -/
def slowPath [DecidableEq V] (m : LutManager V) (dir : CacheDir V) :
    Option (LutManager V × CacheDir V) :=
  let x := c.fluids.foldl (loadFluid env c) (m, dir)
  (stackLuts env c x.1).map fun rows =>
    ({ x.1 with stacked := rows }, { x.2 with stacked := .saved ⟨x.1.grids, rows⟩ })

/-- `initialize`, of a new manager; `none` where it raises. -/
def initializeLuts [DecidableEq V] (dir : CacheDir V) : Option (LutManager V × CacheDir V) :=
  match attempt c dir.stacked ⟨coordinateGrids env c, fun _ => none, []⟩ with
  | (.loaded, m) => some (m, dir)
  | (_, m) =>
    -- the second attempt, under the lock, is in no `try` block
    match attempt c dir.stacked m with
    | (.loaded, m) => some (m, dir)
    | (.raised, _) => none
    | (.invalid, m) => slowPath env c m dir

/-! ## What the result is meant to be -/

/-- The tables are, as far as generation produces them, those of generation. -/
def Agrees (fluid : Fluid) (lut : Lut V) : Prop :=
  ∀ key t, generateLut env c (coordinateGrids env c) fluid key = some t → lut key = some t

/-- The grids and every fluid's tables are those of generation, the stacked arrays included. -/
structure Generated (m : LutManager V) : Prop where
  grids : m.grids = coordinateGrids env c
  luts : ∀ fluid ∈ c.fluids, ∃ lut, m.luts fluid = some lut ∧ Agrees env c fluid lut
  stacked : ∀ (i : ℕ) (fluid : Fluid), c.fluids[i]? = some fluid →
    ∃ row, m.stacked[i]? = some row ∧ Agrees env c fluid fun key => some (row key)

/-- The fluid's cache is replaced by generation, or holds the generated tables and can be stacked.
-/
def FluidFits [DecidableEq V] (fluid : Fluid) : CacheFile (FluidCache V) → Prop
  | .absent | .unreadable => True
  | .saved cache =>
    if rangesMatch c cache.config then
      Agrees env c fluid cache.lut ∧
        ∀ key ∈ stackedKeys, (stackTable env (coordinateGrids env c) cache.lut key).isSome
    else Agrees env c fluid (generateLut env c (coordinateGrids env c) (stemFluid fluid))

/-- The stacked cache holds the grids and the tables of generation. -/
def StackedFits (cache : StackedCache V) : Prop :=
  cache.grids = coordinateGrids env c ∧ ∀ (i : ℕ) (fluid : Fluid), c.fluids[i]? = some fluid →
    ∃ row, cache.rows[i]? = some row ∧ Agrees env c fluid fun key => some (row key)

/-- The stacked cache is readable and fits, or is not used and the caches of all fluids fit. -/
def CachesFit [DecidableEq V] (dir : CacheDir V) : Prop :=
  match dir.stacked with
  | .absent => ∀ fluid ∈ c.fluids, FluidFits env c fluid (dir.fluid fluid)
  | .unreadable => False
  | .saved cache =>
    if cache.grids.pressure.length ≠ c.pressurePoints ∨
        cache.grids.temperature.length ≠ c.temperaturePoints then
      ∀ fluid ∈ c.fluids, FluidFits env c fluid (dir.fluid fluid)
    else StackedFits env c cache

/-! ## Generated tables and the stacked arrays -/

variable {env c}

theorem mem_stackedKeys (key : TableKey) : key ∈ stackedKeys := by
  cases key with
  | property p => cases p <;> decide
  | hFromPS => decide

/-- A generated table has the shape of its part of the stacked arrays. -/
theorem generateLut_shape {g : Grids V} {fluid : Fluid} {key : TableKey} {t : PropertyTable V}
    (h : generateLut env c g fluid key = some t) :
    t.data.length = g.pressure.length ∧ t.cols = stackedCols g key := by
  cases key with
  | property p =>
    rw [generateLut] at h
    split at h
    · rw [← Option.some.inj h]
      exact ⟨List.length_map _, rfl⟩
    · cases h
  | hFromPS =>
    rw [← Option.some.inj h]
    exact ⟨List.length_map _, rfl⟩

/-- A table of the right shape is stacked as it is. -/
theorem broadcast_of_shape {n m : ℕ} {t : PropertyTable V} (hn : t.data.length = n)
    (hm : t.cols = m) : broadcast env n m t = some t := by
  rw [broadcast, if_pos ⟨.inl hn, .inl hm⟩, if_pos hn]
  show some (⟨m, if t.cols = m then t.data else _⟩ : PropertyTable V) = _
  rw [if_pos hm, ← hm]

theorem stackTable_of_shape {g : Grids V} {lut : Lut V} {key : TableKey} {t : PropertyTable V}
    (hlut : lut key = some t)
    (h : t.data.length = g.pressure.length ∧ t.cols = stackedCols g key) :
    stackTable env g lut key = some t := by
  rw [stackTable, hlut]
  exact broadcast_of_shape h.1 h.2

/-- Generated tables can be stacked. -/
theorem stackTable_generateLut (g : Grids V) (fluid : Fluid) (key : TableKey) :
    (stackTable env g (generateLut env c g fluid) key).isSome := by
  cases h : generateLut env c g fluid key with
  | none =>
    rw [stackTable, h]
    rfl
  | some t =>
    rw [stackTable_of_shape h (generateLut_shape h)]
    rfl

theorem agrees_generateLut (fluid : Fluid) :
    Agrees env c fluid (generateLut env c (coordinateGrids env c) fluid) := fun _ _ h => h

/-! ## The slow path -/

variable [DecidableEq V]

/-- The configuration that saved a cache accepts it. -/
theorem rangesMatch_self : rangesMatch c (some c) = true := by
  simp only [rangesMatch, Option.any_some, decide_true, Bool.and_self]

/-- A fluid is taken again as it was taken the first time. -/
theorem fluidLut_fluidFile (g : Grids V) (fluid : Fluid) (file : CacheFile (FluidCache V)) :
    fluidLut env c g fluid (fluidFile env c g fluid file) = fluidLut env c g fluid file := by
  cases file with
  | saved cache => rfl
  | absent | unreadable =>
    show (if rangesMatch c (some c) then generateLut env c g fluid else _) = _
    rw [if_pos rangesMatch_self]
    rfl

/-- **The loop over the fluids.** -/
theorem foldl_loadFluid (env : LutEnv V) (c : LUTConfig V) (fluids : List Fluid) :
    ∀ x : LutManager V × CacheDir V,
    let x' := fluids.foldl (loadFluid env c) x
    x'.1.grids = x.1.grids ∧
      (∀ f, fluidLut env c x.1.grids f (x'.2.fluid f) = fluidLut env c x.1.grids f (x.2.fluid f)) ∧
      ∀ f, x'.1.luts f =
        if f ∈ fluids then some (fluidLut env c x.1.grids f (x.2.fluid f)) else x.1.luts f := by
  induction fluids with
  | nil => exact fun x => ⟨rfl, fun _ => rfl, fun f => (if_neg List.not_mem_nil).symm⟩
  | cons fluid fluids ih =>
    intro x
    obtain ⟨hgrids, hfiles, hluts⟩ := ih (loadFluid env c x fluid)
    have hfile : ∀ f, fluidLut env c x.1.grids f ((loadFluid env c x fluid).2.fluid f) =
        fluidLut env c x.1.grids f (x.2.fluid f) := by
      intro f
      show fluidLut env c x.1.grids f (Function.update x.2.fluid fluid _ f) = _
      by_cases hf : f = fluid
      · rw [hf, Function.update_self]
        exact fluidLut_fluidFile _ _ _
      · rw [Function.update_of_ne hf]
    refine ⟨hgrids, fun f => (hfiles f).trans (hfile f), fun f => ?_⟩
    rw [List.foldl_cons, hluts f]
    by_cases hmem : f ∈ fluids
    · rw [if_pos hmem, if_pos (List.mem_cons_of_mem _ hmem)]
      exact congrArg some (hfile f)
    · rw [if_neg hmem]
      show Function.update x.1.luts fluid _ f = _
      by_cases hf : f = fluid
      · rw [hf, Function.update_self, if_pos List.mem_cons_self]
      · rw [Function.update_of_ne hf, if_neg]
        exact fun h => (List.mem_cons.1 h).elim hf hmem

/-- The cache of a fluid fits iff the tables that the slow path takes do. -/
theorem fluidFits_iff (fluid : Fluid) (file : CacheFile (FluidCache V)) :
    FluidFits env c fluid file ↔
      Agrees env c fluid (fluidLut env c (coordinateGrids env c) fluid file) ∧
        ∀ key ∈ stackedKeys, (stackTable env (coordinateGrids env c)
          (fluidLut env c (coordinateGrids env c) fluid file) key).isSome := by
  cases file with
  | absent | unreadable =>
    exact ⟨fun _ => ⟨agrees_generateLut fluid, fun key _ => stackTable_generateLut _ _ key⟩,
      fun _ => trivial⟩
  | saved cache =>
    rw [FluidFits, fluidLut, loadFromCache]
    split
    · exact Iff.rfl
    · exact ⟨fun h => ⟨h, fun key _ => stackTable_generateLut _ _ key⟩, fun h => h.1⟩

/-- **The slow path** ends with generated tables iff the caches of all fluids fit. -/
theorem slowPath_iff {m : LutManager V} (hm : m.grids = coordinateGrids env c) (dir : CacheDir V) :
    (∃ m' dir', slowPath env c m dir = some (m', dir') ∧ Generated env c m') ↔
      ∀ fluid ∈ c.fluids, FluidFits env c fluid (dir.fluid fluid) := by
  obtain ⟨hgrids, -, hluts⟩ := foldl_loadFluid env c c.fluids (m, dir)
  generalize hx : c.fluids.foldl (loadFluid env c) (m, dir) = x at hgrids hluts
  have hgrids' : x.1.grids = coordinateGrids env c := hgrids.trans hm
  have hlut : ∀ f ∈ c.fluids,
      x.1.luts f = some (fluidLut env c (coordinateGrids env c) f (dir.fluid f)) := by
    intro f hf
    rw [hluts f, if_pos hf]
    exact congrArg (fun g => some (fluidLut env c g f (dir.fluid f))) hm
  have hslow : slowPath env c m dir = (stackLuts env c x.1).map fun rows =>
      ({ x.1 with stacked := rows }, { x.2 with stacked := .saved ⟨x.1.grids, rows⟩ }) := by
    rw [slowPath, hx]
  have hrow : ∀ f ∈ c.fluids, stackRow env x.1.grids ((x.1.luts f).getD fun _ => none) =
      stackRow env (coordinateGrids env c)
        (fluidLut env c (coordinateGrids env c) f (dir.fluid f)) := by
    intro f hf
    rw [hlut f hf, hgrids']
    rfl
  have hsome : ∀ lut : Lut V, (stackRow env (coordinateGrids env c) lut).isSome ↔
      ∀ key ∈ stackedKeys, (stackTable env (coordinateGrids env c) lut key).isSome := by
    intro lut
    unfold stackRow
    split
    · next h => exact ⟨fun _ => h, fun _ => rfl⟩
    · next h => exact ⟨fun h' => Bool.noConfusion h', fun h' => absurd h' h⟩
  have hstack : stackLuts env c x.1 =
      if ∀ f ∈ c.fluids, (stackRow env x.1.grids ((x.1.luts f).getD fun _ => none)).isSome then
        some (c.fluids.map fun f =>
          (stackRow env x.1.grids ((x.1.luts f).getD fun _ => none)).getD fun _ => ⟨0, []⟩)
      else none := rfl
  rw [hslow]
  constructor
  · rintro ⟨m', dir', heq, hgen⟩ f hf
    rw [fluidFits_iff]
    rw [hstack] at heq
    split at heq
    · next hall =>
      have hm' : x.1.luts = m'.luts := by rw [← (Prod.mk.inj (Option.some.inj heq)).1]
      obtain ⟨lut, hl, hagrees⟩ := hgen.luts f hf
      rw [← hm'] at hl
      rw [show lut = fluidLut env c (coordinateGrids env c) f (dir.fluid f) from
        Option.some.inj (hl.symm.trans (hlut f hf))] at hagrees
      refine ⟨hagrees, (hsome _).1 ?_⟩
      rw [← hrow f hf]
      exact hall f hf
    · cases heq
  · intro hfits
    have hall : ∀ f ∈ c.fluids,
        (stackRow env x.1.grids ((x.1.luts f).getD fun _ => none)).isSome := by
      intro f hf
      rw [hrow f hf, hsome]
      exact ((fluidFits_iff f _).1 (hfits f hf)).2
    rw [hstack, if_pos hall]
    refine ⟨_, _, rfl, hgrids', fun f hf => ⟨_, hlut f hf, ((fluidFits_iff f _).1 (hfits f hf)).1⟩,
      fun i f hi => ?_⟩
    have hf : f ∈ c.fluids := List.mem_of_getElem? hi
    obtain ⟨hagrees, hkeys⟩ := (fluidFits_iff f _).1 (hfits f hf)
    refine ⟨_, by rw [List.getElem?_map, hi]; rfl, fun key t ht => ?_⟩
    show some ((stackRow env x.1.grids ((x.1.luts f).getD fun _ => none)).getD
      (fun _ => ⟨0, []⟩) key) = some t
    rw [hrow f hf, stackRow, if_pos hkeys]
    show some ((stackTable _ _ _ key).getD _) = some t
    rw [stackTable_of_shape (hagrees key t ht) (generateLut_shape ht)]
    rfl

/-! ## The fast path -/

omit [DecidableEq V] in
/-- The tables that a fluid takes from the rows. -/
theorem takeRows_cases (l : List (Fluid × StackedRow V)) : ∀ (luts : Fluid → Option (Lut V)) f,
    (f ∉ l.map Prod.fst ∧ takeRows l luts f = luts f) ∨
      ∃ p ∈ l, p.1 = f ∧ takeRows l luts f = some fun key => some (p.2 key) := by
  induction l with
  | nil => exact fun luts f => .inl ⟨List.not_mem_nil, rfl⟩
  | cons p l ih =>
    intro luts f
    rw [show takeRows (p :: l) luts = takeRows l
      (Function.update luts p.1 (some fun key => some (p.2 key))) from rfl]
    rcases ih (Function.update luts p.1 (some fun key => some (p.2 key))) f with
      ⟨hmem, heq⟩ | ⟨p', hp', hf, heq⟩
    · rw [heq]
      by_cases hf : p.1 = f
      · refine .inr ⟨p, List.mem_cons_self, hf, ?_⟩
        rw [← hf, Function.update_self]
      · refine .inl ⟨fun h => ?_, Function.update_of_ne (Ne.symm hf) _ _⟩
        rw [List.map_cons] at h
        exact (List.mem_cons.1 h).elim (fun h => hf h.symm) hmem
    · exact .inr ⟨p', List.mem_cons_of_mem _ hp', hf, heq⟩

omit [DecidableEq V] in
/-- **The stacked cache** that is used leaves generated tables iff it fits. -/
theorem loadStackedCache_iff (env : LutEnv V) {cache : StackedCache V} (m : LutManager V)
    (h : ¬ (cache.grids.pressure.length ≠ c.pressurePoints ∨
      cache.grids.temperature.length ≠ c.temperaturePoints)) :
    ((loadStackedCache c cache m).1 = .loaded ∧ Generated env c (loadStackedCache c cache m).2) ↔
      StackedFits env c cache := by
  rw [loadStackedCache, if_neg h]
  show ((if c.fluids.length ≤ cache.rows.length then LoadResult.loaded else .raised) = .loaded
    ∧ _) ↔ _
  constructor
  · exact fun ⟨_, hgen⟩ => ⟨hgen.grids, hgen.stacked⟩
  · rintro ⟨hgrids, hrows⟩
    have hlen : c.fluids.length ≤ cache.rows.length := by
      by_contra hlt
      obtain ⟨row, hrow, -⟩ := hrows cache.rows.length _
        (List.getElem?_eq_getElem (Nat.not_le.1 hlt))
      rw [List.getElem?_eq_none le_rfl] at hrow
      cases hrow
    refine ⟨if_pos hlen, hgrids, fun f hf => ?_, hrows⟩
    rcases takeRows_cases (c.fluids.zip cache.rows) m.luts f with ⟨hmem, -⟩ | ⟨p, hp, hpf, heq⟩
    · rw [List.map_fst_zip hlen] at hmem
      exact absurd hf hmem
    · refine ⟨_, heq, ?_⟩
      obtain ⟨i, hi⟩ := List.mem_iff_getElem?.1 hp
      obtain ⟨hfluid, hrow⟩ := List.getElem?_zip_eq_some.1 hi
      obtain ⟨row, hrow', hagrees⟩ := hrows i f (hpf ▸ hfluid)
      rw [hrow] at hrow'
      rw [Option.some.inj hrow']
      exact hagrees

/-! ## The initialization -/

omit [DecidableEq V] in
/-- The second attempt ends as the first one; a cache that is not valid changes nothing. -/
theorem attempt_again (file : CacheFile (StackedCache V)) (m m' : LutManager V) :
    (attempt c file m').1 = (attempt c file m).1 ∧
      ((attempt c file m).1 = .invalid → (attempt c file m).2 = m) := by
  cases file with
  | absent => exact ⟨rfl, fun _ => rfl⟩
  | unreadable => exact ⟨rfl, fun _ => rfl⟩
  | saved cache =>
    show (loadStackedCache c cache m').1 = (loadStackedCache c cache m).1 ∧
      ((loadStackedCache c cache m).1 = .invalid → (loadStackedCache c cache m).2 = m)
    unfold loadStackedCache
    split
    · exact ⟨rfl, fun _ => rfl⟩
    · refine ⟨rfl, fun h => ?_⟩
      dsimp only at h
      split at h <;> cases h

/-- The initialization, by what an attempt to load the stacked cache gives. -/
theorem initializeLuts_eq (dir : CacheDir V) : initializeLuts env c dir =
    match attempt c dir.stacked ⟨coordinateGrids env c, fun _ => none, []⟩ with
    | (.loaded, m) => some (m, dir)
    | (.raised, _) => none
    | (.invalid, m) => slowPath env c m dir := by
  unfold initializeLuts
  match h : attempt c dir.stacked ⟨coordinateGrids env c, fun _ => none, []⟩ with
  | (.loaded, m) => rfl
  | (.raised, m) =>
    have hagain :=
      (attempt_again (c := c) dir.stacked ⟨coordinateGrids env c, fun _ => none, []⟩ m).1
    rw [h] at hagain
    dsimp only
    match h' : attempt c dir.stacked m with
    | (.raised, m') => rfl
    | (.loaded, m') | (.invalid, m') =>
      rw [h'] at hagain
      cases hagain
  | (.invalid, m) =>
    have hsame := (attempt_again (c := c) dir.stacked
      ⟨coordinateGrids env c, fun _ => none, []⟩ m).2
    rw [h] at hsame
    obtain rfl : m = ⟨coordinateGrids env c, fun _ => none, []⟩ := hsame rfl
    dsimp only
    rw [h]

/-- **For every content of the cache directory** the initialization ends with the grids and the
tables of generation iff the caches fit. -/
theorem initialized_iff (env : LutEnv V) (c : LUTConfig V) (dir : CacheDir V) :
    (∃ m dir', initializeLuts env c dir = some (m, dir') ∧ Generated env c m) ↔
      CachesFit env c dir := by
  rw [initializeLuts_eq, CachesFit]
  match dir.stacked with
  | .absent => exact slowPath_iff rfl dir
  | .unreadable =>
    constructor
    · rintro ⟨m, dir', heq, -⟩
      cases heq
    · exact fun h => h.elim
  | .saved cache =>
    by_cases h : cache.grids.pressure.length ≠ c.pressurePoints ∨
        cache.grids.temperature.length ≠ c.temperaturePoints
    · dsimp only
      rw [if_pos h, attempt, loadStackedCache, if_pos h]
      exact slowPath_iff rfl dir
    · have hload := loadStackedCache_iff env ⟨coordinateGrids env c, fun _ => none, []⟩ h
      dsimp only
      rw [if_neg h, ← hload, attempt]
      match hresult : loadStackedCache c cache ⟨coordinateGrids env c, fun _ => none, []⟩ with
      | (.loaded, m) =>
        constructor
        · rintro ⟨m', dir', heq, hgen⟩
          rw [← (Prod.mk.inj (Option.some.inj heq)).1] at hgen
          exact ⟨rfl, hgen⟩
        · exact fun hgen => ⟨m, dir, rfl, hgen.2⟩
      | (.raised, m) =>
        constructor
        · rintro ⟨m', dir', heq, -⟩
          cases heq
        · rintro ⟨heq, -⟩
          cases heq
      | (.invalid, m) =>
        rw [loadStackedCache, if_neg h] at hresult
        have hfst := (Prod.mk.inj hresult).1
        split at hfst <;> cases hfst

/-- **Generate once, cache forever**: what an initialization with the right result leaves in the
cache directory gives the right result again. -/
theorem cachesFit_initializeLuts {m : LutManager V} {dir dir' : CacheDir V}
    (h : initializeLuts env c dir = some (m, dir')) (hgen : Generated env c m) :
    CachesFit env c dir' := by
  have hfit : CachesFit env c dir := (initialized_iff env c dir).1 ⟨m, dir', h, hgen⟩
  rw [initializeLuts_eq] at h
  match hresult : attempt c dir.stacked ⟨coordinateGrids env c, fun _ => none, []⟩ with
  | (.loaded, m') =>
    rw [hresult] at h
    rwa [← (Prod.mk.inj (Option.some.inj h)).2]
  | (.raised, m') =>
    rw [hresult] at h
    cases h
  | (.invalid, m') =>
    rw [hresult] at h
    have hsame := (attempt_again (c := c) dir.stacked
      ⟨coordinateGrids env c, fun _ => none, []⟩ m').2
    rw [hresult] at hsame
    obtain rfl : m' = ⟨coordinateGrids env c, fun _ => none, []⟩ := hsame rfl
    have hfluids := (slowPath_iff rfl dir).1 ⟨m, dir', h, hgen⟩
    obtain ⟨-, hfiles, -⟩ := foldl_loadFluid env c c.fluids
      (⟨coordinateGrids env c, fun _ => none, []⟩, dir)
    obtain ⟨rows, -, hrows⟩ := Option.map_eq_some_iff.1 h
    obtain ⟨hm, hdir⟩ := Prod.mk.inj hrows
    rw [← hm] at hgen
    rw [← hdir, CachesFit]
    dsimp only
    split
    · intro f hf
      rw [fluidFits_iff, hfiles f, ← fluidFits_iff]
      exact hfluids f hf
    · exact ⟨hgen.grids, hgen.stacked⟩

/-! ## Two caches that do not fit -/

/-- Grids of at most two points, and the density of an ideal gas. -/
def twoPoints : LutEnv ℚ where
  zero := 0
  nan := 0
  geomspace a b n := (List.range n).map fun i => if i = 0 then a else b
  linspace a b n := (List.range n).map fun i => if i = 0 then a else b
  propsPT _ p t _ := some (p / (4124 * t))
  propsPS _ _ _ _ := none

/-- A configuration with the pressures up to `pressureMax`. -/
def hydrogen (pressureMax : ℚ) : LUTConfig ℚ where
  pressureMin := 50000
  pressureMax := pressureMax
  pressurePoints := 2
  temperatureMin := 250
  temperatureMax := 400
  temperaturePoints := 2
  entropyMin := 0
  entropyMax := 100000
  entropyPoints := 2
  properties := [.D]
  fluids := ["H2".toList]

/-- The directory after an initialization in an empty one. -/
def writtenUnder (c : LUTConfig ℚ) : CacheDir ℚ :=
  ((initializeLuts twoPoints c ⟨.absent, fun _ => .absent⟩).map Prod.snd).getD
    ⟨.absent, fun _ => .absent⟩

/-- An unreadable stacked cache makes the initialization raise, and one that was written for
another pressure range is used. -/
theorem not_initialized :
    (¬ ∃ m dir', initializeLuts twoPoints (hydrogen 45000000)
      ⟨.unreadable, fun _ => .absent⟩ = some (m, dir') ∧
        Generated twoPoints (hydrogen 45000000) m) ∧
    ¬ ∃ m dir', initializeLuts twoPoints (hydrogen 45000000)
      (writtenUnder (hydrogen 100000000)) = some (m, dir') ∧
        Generated twoPoints (hydrogen 45000000) m := by
  constructor
  · rintro ⟨m, dir', h, -⟩
    cases h
  · rintro ⟨m, dir', h, hgen⟩
    have hused : (initializeLuts twoPoints (hydrogen 45000000)
        (writtenUnder (hydrogen 100000000))).map (·.1.grids.pressure)
          = some [50000, 100000000] := by
      decide
    rw [h] at hused
    have hpressure :
        [50000, 100000000] = (coordinateGrids twoPoints (hydrogen 45000000)).pressure :=
      (Option.some.inj hused).symm.trans (congrArg Grids.pressure hgen.grids)
    exact absurd hpressure (by decide)

end LutManager

end MatrixFactory
