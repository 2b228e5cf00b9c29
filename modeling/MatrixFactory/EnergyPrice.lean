/-
# The signals of the energy price

`EnergyPriceArtifact`: the tick thread samples the price of the series and queues
`internalUpdatePrice` where the sample calls for it; the operation sets the price and then applies
the hysteresis, to the price that is in force and not to the one it was queued with.
-/
import MatrixFactory.Lib.Double
import MatrixFactory.Lib.Runs

namespace MatrixFactory

open Runs

/-! ## The artifact -/

/-- The signals of the artifact. -/
inductive PriceSignal
  | energyPriceChanged (price : Double)
  | energyPriceSpike (price : Double)
  | energyPriceNormal (price : Double)
  deriving DecidableEq

/-- The artifact.  The series stands in the order of the calls of `put`, `energyPrice` and
`energyPriceSpike` are observable, `queue` holds the prices of the operations that wait and
`running` tells that an operation has set the price and not yet applied the hysteresis. -/
structure EnergyPriceArtifact where
  priceAtSimTime : List (Double × Double)
  forceSpikeAt : Option Double
  currentPrice : Double
  spikeActive : Bool
  energyPrice : Double
  energyPriceSpike : Option Double
  queue : List Double
  running : Bool
  signals : List PriceSignal
  deriving DecidableEq

/-- What can happen: the tick thread calls `updatePrice`, or the next operation sets the price or
applies the hysteresis. -/
inductive PriceOp
  | updatePrice (simTime : Double)
  | setPrice
  | applyHysteresis
  deriving DecidableEq

namespace EnergyPriceArtifact

/-- `150.0`. -/
def spikeThresholdEurMwh : Double := .ofRat 150

/-- Where a spike is over. -/
def normalThresholdEurMwh : Double := spikeThresholdEurMwh * .ofRat 0.90

/-- Prices that differ by more than `1e-6`. -/
def differs (newPrice currentPrice : Double) : Bool :=
  decide (Double.ofRat 1e-6 < (newPrice - currentPrice).abs)

/-- The order of `Double.compare`, where what is not a number comes last. -/
def compareLe (x y : Double) : Bool := decide (y = .nan ∨ x ≤ y)

/-- `TreeMap.floorEntry`, of the entries in the order they are put in. -/
def floorEntry (entries : List (Double × Double)) (simTime : Double) : Option (Double × Double) :=
  entries.foldl (fun best entry =>
    if compareLe entry.1 simTime && best.all (compareLe ·.1 entry.1) then some entry else best) none

/-- The price that `updatePrice` samples. -/
def sample (a : EnergyPriceArtifact) (simTime : Double) : Option Double :=
  (floorEntry a.priceAtSimTime simTime).map fun entry =>
    if a.forceSpikeAt.any fun t => decide (t ≤ simTime) then
      Double.maximum entry.2 (spikeThresholdEurMwh + .ofRat 15)
    else entry.2

/-- After `init`. -/
def start (series : List (Double × Double)) (forceSpikeAt : Option Double) :
    EnergyPriceArtifact where
  priceAtSimTime := series
  forceSpikeAt := forceSpikeAt
  currentPrice := .finite 0
  spikeActive := false
  energyPrice := .finite 0
  energyPriceSpike := none
  queue := []
  running := false
  signals := []

/-- What makes `updatePrice` queue an operation. -/
def Submits (a : EnergyPriceArtifact) (newPrice : Double) : Prop :=
  differs newPrice a.currentPrice ∨ (a.spikeActive = false ∧ spikeThresholdEurMwh ≤ newPrice) ∨
    (a.spikeActive = true ∧ newPrice < normalThresholdEurMwh)

instance (a : EnergyPriceArtifact) (newPrice : Double) : Decidable (a.Submits newPrice) :=
  inferInstanceAs (Decidable (_ ∨ _))

/-- `updatePrice`. -/
def updatePrice (simTime : Double) (a : EnergyPriceArtifact) : EnergyPriceArtifact :=
  match a.sample simTime with
  | none => a
  | some newPrice =>
    if a.Submits newPrice then { a with queue := a.queue ++ [newPrice] } else a

/-- The first half of `internalUpdatePrice`, of the operation that waits longest. -/
def setPrice (a : EnergyPriceArtifact) : EnergyPriceArtifact :=
  match a.running, a.queue with
  | false, newPrice :: queue =>
    if differs newPrice a.currentPrice then
      { a with
        currentPrice := newPrice
        energyPrice := newPrice
        queue := queue
        running := true
        signals := a.signals ++ [.energyPriceChanged newPrice] }
    else { a with queue := queue, running := true }
  | _, _ => a

/-- The second half of `internalUpdatePrice`. -/
def applyHysteresis (a : EnergyPriceArtifact) : EnergyPriceArtifact :=
  if a.running then
    if a.spikeActive = false ∧ spikeThresholdEurMwh ≤ a.currentPrice then
      { a with
        spikeActive := true
        energyPriceSpike := some a.currentPrice
        running := false
        signals := a.signals ++ [.energyPriceSpike a.currentPrice] }
    else if a.spikeActive = true ∧ a.currentPrice < normalThresholdEurMwh then
      { a with
        spikeActive := false
        energyPriceSpike := none
        running := false
        signals := a.signals ++ [.energyPriceNormal a.currentPrice] }
    else { a with running := false }
  else a

/-- One step. -/
def exec : PriceOp → EnergyPriceArtifact → EnergyPriceArtifact
  | .updatePrice simTime, a => a.updatePrice simTime
  | .setPrice, a => a.setPrice
  | .applyHysteresis, a => a.applyHysteresis

/-! ## What is meant to hold -/

/-- Spikes from 150 on and normal prices below 135 alternate strictly; a spike comes next where
`active` is false, and `active'` tells the same at the end. -/
def Alternate : Bool → List PriceSignal → Bool → Prop
  | active, [], active' => active = active'
  | active, .energyPriceChanged _ :: l, active' => Alternate active l active'
  | active, .energyPriceSpike p :: l, active' =>
    active = false ∧ Double.finite 150 ≤ p ∧ Alternate true l active'
  | active, .energyPriceNormal p :: l, active' =>
    active = true ∧ p < Double.finite 135 ∧ Alternate false l active'

/-- The hysteresis applied to each of the prices. -/
def hysteresis : Bool → List Double → List PriceSignal
  | _, [] => []
  | false, p :: prices =>
    if Double.finite 150 ≤ p then .energyPriceSpike p :: hysteresis true prices
    else hysteresis false prices
  | true, p :: prices =>
    if p < Double.finite 135 then .energyPriceNormal p :: hysteresis false prices
    else hysteresis true prices

/-- The price in force after a sample: one that differs from it by no more than `1e-6` counts as
the price in force. -/
def settle (currentPrice newPrice : Double) : Double :=
  if differs newPrice currentPrice then newPrice else currentPrice

/-- The prices in force after each of the samples. -/
def inForce : Double → List Double → List Double
  | _, [] => []
  | c, p :: prices => settle c p :: inForce (settle c p) prices

/-- The samples of a run. -/
def samples (a : EnergyPriceArtifact) (ops : List PriceOp) : List Double :=
  ops.filterMap fun op =>
    match op with
    | .updatePrice simTime => a.sample simTime
    | _ => none

/-- The signals of the hysteresis. -/
def spikeSignals (a : EnergyPriceArtifact) : List PriceSignal :=
  a.signals.filter fun signal =>
    match signal with
    | .energyPriceChanged _ => false
    | _ => true

/-- No operation is outstanding. -/
def Idle (a : EnergyPriceArtifact) : Prop := a.queue = [] ∧ a.running = false

/-- No operation is outstanding when `updatePrice` is called. -/
def Undelayed (a : EnergyPriceArtifact) : PriceOp → Prop
  | .updatePrice _ => a.Idle
  | _ => True

instance (a : EnergyPriceArtifact) : Decidable a.Idle := inferInstanceAs (Decidable (_ ∧ _))

instance (a : EnergyPriceArtifact) (op : PriceOp) : Decidable (a.Undelayed op) :=
  match op with
  | .updatePrice _ => inferInstanceAs (Decidable a.Idle)
  | .setPrice => .isTrue trivial
  | .applyHysteresis => .isTrue trivial

/-! ## The thresholds -/

theorem spikeThreshold_eq : spikeThresholdEurMwh = .finite 150 := by decide +kernel

theorem normalThreshold_eq : normalThresholdEurMwh = .finite 135 := by decide +kernel

/-- No price is at the upper threshold and below the lower one. -/
theorem not_normal_of_spike {p : Double} (h : Double.finite 150 ≤ p) : ¬p < Double.finite 135 := by
  intro hlt
  match p, h, hlt with
  | .finite q, h, hlt =>
    rw [Double.finite_le_finite] at h
    rw [Double.finite_lt_finite] at hlt
    linarith
  | .infinite true, h, _ => exact Bool.noConfusion h
  | .infinite false, _, hlt => exact Bool.noConfusion hlt

/-! ## Alternation -/

theorem alternate_append {b c d : Bool} {l l' : List PriceSignal} (h : Alternate b l c)
    (h' : Alternate c l' d) : Alternate b (l ++ l') d := by
  induction l generalizing b with
  | nil =>
    cases h
    exact h'
  | cons signal l ih =>
    match signal with
    | .energyPriceChanged _ => exact ih h
    | .energyPriceSpike _ => exact ⟨h.1, h.2.1, ih h.2.2⟩
    | .energyPriceNormal _ => exact ⟨h.1, h.2.1, ih h.2.2⟩

/-- One more signal. -/
theorem alternate_snoc {b c d : Bool} {l : List PriceSignal} {signal : PriceSignal}
    (h : Alternate b l c) (h' : Alternate c [signal] d) : Alternate b (l ++ [signal]) d :=
  alternate_append h h'

/-- The signals so far alternate, up to the state of the artifact. -/
def Alternates (a : EnergyPriceArtifact) : Prop := Alternate false a.signals a.spikeActive

theorem updatePrice_signals (simTime : Double) (a : EnergyPriceArtifact) :
    (a.updatePrice simTime).signals = a.signals ∧
      (a.updatePrice simTime).spikeActive = a.spikeActive := by
  unfold updatePrice
  split
  · exact ⟨rfl, rfl⟩
  · split_ifs <;> exact ⟨rfl, rfl⟩

/-- Every step keeps the alternation, whatever has been queued. -/
theorem alternates_exec (op : PriceOp) {a : EnergyPriceArtifact} (h : a.Alternates) :
    (exec op a).Alternates := by
  match op with
  | .updatePrice simTime =>
    obtain ⟨hsignals, hactive⟩ := updatePrice_signals simTime a
    show Alternate false (a.updatePrice simTime).signals (a.updatePrice simTime).spikeActive
    rw [hsignals, hactive]
    exact h
  | .setPrice =>
    show Alternate false a.setPrice.signals a.setPrice.spikeActive
    unfold setPrice
    split
    · split_ifs
      · exact alternate_snoc h rfl
      · exact h
    · exact h
  | .applyHysteresis =>
    show Alternate false a.applyHysteresis.signals a.applyHysteresis.spikeActive
    unfold applyHysteresis
    rw [spikeThreshold_eq, normalThreshold_eq]
    split_ifs with hrunning hspike hnormal
    · exact alternate_snoc h ⟨hspike.1, hspike.2, rfl⟩
    · exact alternate_snoc h ⟨hnormal.1, hnormal.2, rfl⟩
    · exact h
    · exact h

/-- The signals of every run alternate. -/
theorem alternates_run (series : List (Double × Double)) (forceSpikeAt : Option Double)
    (ops : List PriceOp) : (run exec ops (start series forceSpikeAt)).Alternates := by
  have hstep : ∀ (a : EnergyPriceArtifact) (op : PriceOp), a.Alternates → True →
      (exec op a).Alternates := fun a op h _ => alternates_exec op h
  exact run_invariant (I := Alternates) (C := fun _ _ => True) hstep rfl
    (along_of_forall fun _ _ _ => trivial)

/-! ## Samples without delay -/

/-- The hysteresis has nothing to say about the price in force, unless an operation has just set
it. -/
def Steady (a : EnergyPriceArtifact) : Prop :=
  a.running = false → (a.spikeActive = false → ¬Double.finite 150 ≤ a.currentPrice) ∧
    (a.spikeActive = true → ¬a.currentPrice < Double.finite 135)

/-- What the signals come to once the waiting operations and those of further samples have run. -/
def expected (a : EnergyPriceArtifact) (prices : List Double) : List PriceSignal :=
  a.spikeSignals ++ hysteresis a.spikeActive
    ((if a.running then [a.currentPrice] else []) ++ inForce a.currentPrice (a.queue ++ prices))

theorem hysteresis_steady {b : Bool} {p : Double}
    (h : (b = false → ¬Double.finite 150 ≤ p) ∧ (b = true → ¬p < Double.finite 135))
    (prices : List Double) : hysteresis b (p :: prices) = hysteresis b prices := by
  match b with
  | false => exact if_neg (h.1 rfl)
  | true => exact if_neg (h.2 rfl)

/-- A sample that queues nothing leaves the price in force. -/
theorem settle_of_not_submits {a : EnergyPriceArtifact} {p : Double} (h : ¬a.Submits p) :
    settle a.currentPrice p = a.currentPrice :=
  if_neg fun hdiffers => h (.inl hdiffers)

theorem sample_exec (op : PriceOp) (a : EnergyPriceArtifact) : (exec op a).sample = a.sample := by
  have hseries : (exec op a).priceAtSimTime = a.priceAtSimTime ∧
      (exec op a).forceSpikeAt = a.forceSpikeAt := by
    match op with
    | .updatePrice simTime =>
      show (a.updatePrice simTime).priceAtSimTime = _ ∧ (a.updatePrice simTime).forceSpikeAt = _
      unfold updatePrice
      split
      · exact ⟨rfl, rfl⟩
      · split_ifs <;> exact ⟨rfl, rfl⟩
    | .setPrice =>
      show a.setPrice.priceAtSimTime = _ ∧ a.setPrice.forceSpikeAt = _
      unfold setPrice
      split
      · split_ifs <;> exact ⟨rfl, rfl⟩
      · exact ⟨rfl, rfl⟩
    | .applyHysteresis =>
      show a.applyHysteresis.priceAtSimTime = _ ∧ a.applyHysteresis.forceSpikeAt = _
      unfold applyHysteresis
      split_ifs <;> exact ⟨rfl, rfl⟩
  funext simTime
  rw [sample, sample, hseries.1, hseries.2]

/-- The first half of an operation only moves its price to the front. -/
theorem expected_setPrice (a : EnergyPriceArtifact) (prices : List Double) :
    a.setPrice.expected prices = a.expected prices := by
  unfold setPrice
  split
  · rename_i newPrice queue hrunning hqueue
    split_ifs with hdiffers <;>
      simp [expected, spikeSignals, hrunning, hqueue, inForce, settle, hdiffers]
  · rfl

/-- The second half emits what the hysteresis says. -/
theorem expected_applyHysteresis (a : EnergyPriceArtifact) (prices : List Double) :
    a.applyHysteresis.expected prices = a.expected prices := by
  unfold applyHysteresis
  rw [spikeThreshold_eq, normalThreshold_eq]
  split_ifs with hrunning hspike hnormal
  · simp [expected, spikeSignals, hrunning, hspike, hysteresis]
  · simp [expected, spikeSignals, hrunning, hnormal, hysteresis]
  · have hsteady : (a.spikeActive = false → ¬Double.finite 150 ≤ a.currentPrice) ∧
        (a.spikeActive = true → ¬a.currentPrice < Double.finite 135) :=
      ⟨fun h h' => hspike ⟨h, h'⟩, fun h h' => hnormal ⟨h, h'⟩⟩
    simp [expected, spikeSignals, hrunning, hysteresis_steady hsteady]
  · rfl

/-- A sample counts by the price that is in force after it. -/
theorem expected_updatePrice {a : EnergyPriceArtifact} (hidle : a.Idle) (hsteady : a.Steady)
    (simTime : Double) (prices : List Double) :
    (a.updatePrice simTime).expected prices =
      a.expected ((a.sample simTime).toList ++ prices) := by
  unfold updatePrice
  split
  · rename_i hsample
    rw [hsample]
    rfl
  · rename_i p hsample
    rw [hsample]
    split_ifs with hsubmits
    · simp [expected, spikeSignals]
    · have hsettle := settle_of_not_submits hsubmits
      simp [expected, hidle.1, hidle.2, inForce, hsettle,
        hysteresis_steady (hsteady hidle.2)]

/-- Every step keeps what the signals come to. -/
theorem expected_exec {op : PriceOp} {a : EnergyPriceArtifact} (hundelayed : a.Undelayed op)
    (hsteady : a.Steady) (ops : List PriceOp) :
    (exec op a).expected ((exec op a).samples ops) = a.expected (a.samples (op :: ops)) := by
  have hsamples : (exec op a).samples ops = a.samples ops := by
    rw [samples, samples, sample_exec]
  rw [hsamples]
  match op with
  | .updatePrice simTime =>
    rw [show exec (.updatePrice simTime) a = a.updatePrice simTime from rfl,
      expected_updatePrice hundelayed hsteady]
    cases hsample : a.sample simTime <;> simp [samples, hsample]
  | .setPrice => exact expected_setPrice a _
  | .applyHysteresis => exact expected_applyHysteresis a _

/-- The hysteresis is steady after every step. -/
theorem steady_exec (op : PriceOp) {a : EnergyPriceArtifact} (h : a.Steady) :
    (exec op a).Steady := by
  match op with
  | .updatePrice simTime =>
    show (a.updatePrice simTime).Steady
    unfold updatePrice
    split
    · exact h
    · split_ifs
      · exact h
      · exact h
  | .setPrice =>
    show a.setPrice.Steady
    unfold setPrice
    split
    · split_ifs <;> exact fun hrunning => nomatch hrunning
    · exact h
  | .applyHysteresis =>
    show a.applyHysteresis.Steady
    unfold applyHysteresis
    rw [spikeThreshold_eq, normalThreshold_eq]
    split_ifs with hrunning hspike hnormal
    · exact fun _ => ⟨(fun h => nomatch h), fun _ => not_normal_of_spike hspike.2⟩
    · exact fun _ => ⟨fun _ hle => not_normal_of_spike hle hnormal.2, (fun h => nomatch h)⟩
    · exact fun _ => ⟨fun h h' => hspike ⟨h, h'⟩, fun h h' => hnormal ⟨h, h'⟩⟩
    · exact h

/-- A run that no sample is delayed in keeps what the signals come to. -/
theorem expected_run {ops : List PriceOp} {a : EnergyPriceArtifact} (hsteady : a.Steady)
    (h : Along exec Undelayed a ops) :
    (run exec ops a).expected [] = a.expected (a.samples ops) := by
  induction ops generalizing a with
  | nil => rfl
  | cons op ops ih =>
    rw [run_cons, ih (steady_exec op hsteady) h.2]
    exact expected_exec h.1 hsteady ops

theorem steady_start (series : List (Double × Double)) (forceSpikeAt : Option Double) :
    (start series forceSpikeAt).Steady := by
  refine fun _ => ⟨fun _ => ?_, fun h => nomatch h⟩
  show ¬Double.finite 150 ≤ Double.finite 0
  rw [Double.finite_le_finite]
  norm_num

/-- Three samples, each with its operation. -/
def threeSamples : List PriceOp :=
  [PriceOp.updatePrice (.finite 0), .setPrice, .applyHysteresis,
    .updatePrice (.finite 1), .setPrice, .applyHysteresis,
    .updatePrice (.finite 2), .setPrice, .applyHysteresis]

/-- A price that rises to 160 and falls to 130. -/
def risingSeries : List (Double × Double) :=
  [(.finite 0, .finite 100), (.finite 1, .finite 160), (.finite 2, .finite 130)]

/-- A price just below 150 that rises to just above it, by less than `1e-6`. -/
def creepingSeries : List (Double × Double) :=
  [(.finite 0, .ofRat 149.9999995), (.finite 1, .ofRat 150.0000004)]

end EnergyPriceArtifact

end MatrixFactory
