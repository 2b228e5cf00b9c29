/-
# The seeds of the random streams

The stations, the AMR fleet and the Python bridge each seed a generator with a code of their name,
combined with the run by an exclusive or.  So two seeds are the same where the codes differ in the
same bits as the runs, and the codes of the four stations differ in a few low bits only.
-/
import MatrixFactory.Lib.Text
import Mathlib.Tactic.NormNum

namespace MatrixFactory

open Text

/-! ## The seeds -/

/-- `String.hashCode` -/
def hashCode (s : Text) : BitVec 32 :=
  s.foldl (fun h c => 31 * h + c.toBitVec.setWidth 32) 0

/-- The seed of `BaseStationArtifact.init`, an `int` as a `long`. -/
def stationSeed (stationId : Text) (runId : BitVec 32) : BitVec 64 :=
  (hashCode stationId ^^^ runId).signExtend 64

/-- The name that `AMRArtifact.init` takes the hash of. -/
def fleetName (runId : BitVec 32) : Text := lit "amr-fleet-" ++ decimal runId.toInt

/-- The seed of `fleetRng`. -/
def fleetSeed (runId : BitVec 32) : BitVec 64 :=
  (hashCode (fleetName runId) ^^^ runId).signExtend 64

/-- `int.from_bytes(bs, "little")` -/
def fromBytesLittle : List UInt8 → ℕ
  | [] => 0
  | b :: bs => b.toNat + 256 * fromBytesLittle bs

/-- The first eight bytes of a stack's name. -/
def stackCode (stackId : List Char) : ℕ :=
  fromBytesLittle ((stackId.flatMap String.utf8EncodeChar).take 8)

/-- `derive_seed` -/
def deriveSeed (stackId : List Char) (runId : ℕ) : ℕ := stackCode stackId ^^^ runId

/-! ## A batch -/

/-- The stations of the factory. -/
def stationIds : List Text := [lit "S1", lit "S2", lit "S3", lit "S4"]

/-- The stack that every daemon is started with. -/
def daemonStack : List Char := ['S', '5']

/-- The runs of a batch, from `--run-start-id` on. -/
def InBatch (start count runId : ℕ) : Prop := start ≤ runId ∧ runId < start + count

/-- No two streams of a batch are seeded alike. -/
structure BatchApart (start count : ℕ) : Prop where
  stations : ∀ s ∈ stationIds, ∀ s' ∈ stationIds, ∀ r r', InBatch start count r →
    InBatch start count r' → stationSeed s (.ofNat 32 r) = stationSeed s' (.ofNat 32 r') →
      s = s' ∧ r = r'
  fleets : ∀ r r', InBatch start count r → InBatch start count r' →
    fleetSeed (.ofNat 32 r) = fleetSeed (.ofNat 32 r') → r = r'
  daemons : ∀ r r', InBatch start count r → InBatch start count r' →
    deriveSeed daemonStack r = deriveSeed daemonStack r' → r = r'

/-! ## Codes and runs -/

theorem xor_eq_xor {a b c d : ℕ} (h : a ^^^ b = c ^^^ d) : a ^^^ c = b ^^^ d := by
  have hbit : ∀ p q r s : Bool, (p ^^ q) = (r ^^ s) → (p ^^ r) = (q ^^ s) := by decide
  apply Nat.eq_of_testBit_eq
  intro i
  have hi := congrArg (fun n => Nat.testBit n i) h
  simp only [Nat.testBit_xor] at hi ⊢
  exact hbit _ _ _ _ hi

theorem xor_eq_zero {a b : ℕ} (h : a ^^^ b = 0) : a = b := by
  have hzero := xor_eq_xor (h.trans (Nat.xor_self 0).symm)
  rwa [Nat.xor_zero, Nat.xor_zero] at hzero

/-- What differs on one side differs on the other. -/
theorem bits_xor_eq_xor_iff {w : ℕ} {a b c d : BitVec w} :
    a ^^^ b = c ^^^ d ↔ a ^^^ c = b ^^^ d := by
  have hxor : ∀ {a b c d : BitVec w}, a ^^^ b = c ^^^ d → a ^^^ c = b ^^^ d := by
    intro a b c d h
    apply BitVec.eq_of_toNat_eq
    rw [BitVec.toNat_xor, BitVec.toNat_xor]
    have hnat := congrArg BitVec.toNat h
    rw [BitVec.toNat_xor, BitVec.toNat_xor] at hnat
    exact xor_eq_xor hnat
  exact ⟨hxor, hxor⟩

theorem signExtend_inj {x y : BitVec 32} : x.signExtend 64 = y.signExtend 64 ↔ x = y := by
  refine ⟨fun h => ?_, congrArg _⟩
  have hint := congrArg BitVec.toInt h
  rw [BitVec.toInt_signExtend_of_le (by decide), BitVec.toInt_signExtend_of_le (by decide)] at hint
  exact BitVec.toInt_inj.mp hint

theorem stationSeed_eq_iff {s s' : Text} {r r' : BitVec 32} :
    stationSeed s r = stationSeed s' r' ↔ hashCode s ^^^ hashCode s' = r ^^^ r' :=
  signExtend_inj.trans bits_xor_eq_xor_iff

theorem fleetSeed_eq_iff {r r' : BitVec 32} : fleetSeed r = fleetSeed r' ↔
    hashCode (fleetName r) ^^^ hashCode (fleetName r') = r ^^^ r' :=
  signExtend_inj.trans bits_xor_eq_xor_iff

theorem deriveSeed_eq_iff {s s' : List Char} {r r' : ℕ} :
    deriveSeed s r = deriveSeed s' r' ↔ stackCode s ^^^ stackCode s' = r ^^^ r' :=
  ⟨xor_eq_xor, xor_eq_xor⟩

/-- A stack has a seed of its own for each run. -/
theorem deriveSeed_inj {s : List Char} {r r' : ℕ} : deriveSeed s r = deriveSeed s r' ↔ r = r' := by
  rw [deriveSeed_eq_iff, Nat.xor_self]
  constructor
  · intro h
    exact xor_eq_zero h.symm
  · rintro rfl
    exact (Nat.xor_self r).symm

/-! ## The stations of the factory -/

/-- In which bits the codes of two stations can differ. -/
theorem hashCode_stationIds : ∀ s ∈ stationIds, ∀ s' ∈ stationIds, s = s' ∨
    hashCode s ^^^ hashCode s' = 1 ∨ hashCode s ^^^ hashCode s' = 126 ∨
      hashCode s ^^^ hashCode s' = 127 := by decide

/-! ## A run and the next one -/

theorem xor_mod (r : ℕ) (n : ℕ) :
    (r ^^^ (r + 1)) % 2 ^ n = r % 2 ^ n ^^^ (r + 1) % 2 ^ n := Nat.xor_mod_two_pow

/-- Without a carry into the upper bits only the lower ones differ. -/
theorem xor_succ_of_div {r n : ℕ} (h : r / 2 ^ n = (r + 1) / 2 ^ n) :
    r ^^^ (r + 1) = r % 2 ^ n ^^^ (r + 1) % 2 ^ n := by
  have hdiv : (r ^^^ (r + 1)) / 2 ^ n = 0 := by
    rw [Nat.xor_div_two_pow, ← h, Nat.xor_self]
  rw [← xor_mod, Nat.mod_eq_of_lt (Nat.lt_of_div_eq_zero (Nat.two_pow_pos n) hdiv)]

theorem xor_succ_even {r : ℕ} (h : r % 2 = 0) : r ^^^ (r + 1) = 1 := by
  rw [xor_succ_of_div (n := 1) (by omega)]
  have hnext : (r + 1) % 2 ^ 1 = 1 := by omega
  rw [hnext, pow_one, h]
  rfl

theorem xor_succ_odd {r : ℕ} (h : r % 2 = 1) : (r ^^^ (r + 1)) % 4 = 3 := by
  have hmod := xor_mod r 2
  obtain ⟨hr, hnext⟩ | ⟨hr, hnext⟩ : r % 2 ^ 2 = 1 ∧ (r + 1) % 2 ^ 2 = 2 ∨
      r % 2 ^ 2 = 3 ∧ (r + 1) % 2 ^ 2 = 0 := by omega
  · rw [hr, hnext] at hmod
    exact hmod
  · rw [hr, hnext] at hmod
    exact hmod

set_option maxRecDepth 2000 in
theorem xor_succ_eq_iff {r : ℕ} : r ^^^ (r + 1) = 127 ↔ r % 128 = 63 := by
  constructor
  · intro h
    have hall : ∀ m < 256, m ^^^ (m + 1) % 256 = 127 → m % 128 = 63 := by decide
    have hmod := xor_mod r 8
    rw [h] at hmod
    have hlow := hall (r % 256) (Nat.mod_lt r (by decide))
    rw [Nat.mod_add_mod] at hlow
    have hr := hlow hmod.symm
    omega
  · intro h
    rw [xor_succ_of_div (n := 7) (by omega)]
    have hnext : (r + 1) % 2 ^ 7 = 64 := by omega
    have hr : r % 2 ^ 7 = 63 := h
    rw [hr, hnext]
    rfl

/-- Two runs as `int`s. -/
theorem ofNat_xor {r r' : ℕ} (c : ℕ) (hr : r < 2 ^ 31) (hr' : r' < 2 ^ 31) (hc : c < 2 ^ 31) :
    BitVec.ofNat 32 r ^^^ BitVec.ofNat 32 r' = BitVec.ofNat 32 c ↔ r ^^^ r' = c := by
  rw [← BitVec.toNat_inj, BitVec.toNat_xor, BitVec.toNat_ofNat, BitVec.toNat_ofNat,
    BitVec.toNat_ofNat, Nat.mod_eq_of_lt (by omega), Nat.mod_eq_of_lt (by omega),
    Nat.mod_eq_of_lt (by omega)]

/-! ## The names of the fleets -/

theorem hashCode_snoc (s : Text) (u : UInt16) :
    hashCode (s ++ [u]) = 31 * hashCode s + u.toBitVec.setWidth 32 := by
  rw [hashCode, List.foldl_append]
  rfl

/-- The last bit of a code is that of the sum of its units. -/
theorem hashCode_mod_two (s : Text) :
    (hashCode s).toNat % 2 = (s.map UInt16.toNat).sum % 2 := by
  induction s using List.reverseRecOn with
  | nil => rfl
  | append_singleton s u ih =>
    have hu : (u.toBitVec.setWidth 32).toNat = u.toNat := by
      rw [BitVec.toNat_setWidth]
      exact Nat.mod_eq_of_lt (Nat.lt_trans u.toBitVec.isLt (by decide))
    have h31 : (31 : BitVec 32).toNat = 31 := rfl
    rw [hashCode_snoc, BitVec.toNat_add, BitVec.toNat_mul, hu, h31, List.map_append,
      List.sum_append, List.map_singleton, List.sum_singleton]
    omega

/-- The last digit of a number. -/
theorem decimalNat_eq (n : ℕ) : decimalNat n =
    (Nat.digits 10 (n / 10)).reverse.map ofDigit ++ [ofDigit (n % 10)] := by
  rcases Nat.eq_zero_or_pos n with rfl | hn
  · rfl
  · rw [decimalNat, if_neg hn.ne', Nat.digits_def' (by decide) hn, List.reverse_cons,
      List.map_append, List.map_singleton]

theorem toNat_ofDigit {d : ℕ} (h : d < 10) : (ofDigit d).toNat = 48 + d := by
  interval_cases d <;> rfl

theorem sum_ofDigit {ds : List ℕ} (h : ∀ d ∈ ds, d < 10) :
    ((ds.map ofDigit).map UInt16.toNat).sum % 2 = ds.sum % 2 := by
  induction ds with
  | nil => rfl
  | cons d ds ih =>
    have hrest := ih fun e he => h e (List.mem_cons_of_mem _ he)
    rw [List.map_cons, List.map_cons, List.sum_cons, List.sum_cons,
      toNat_ofDigit (h d List.mem_cons_self)]
    omega

theorem fleetName_ofNat {r : ℕ} (hr : r < 2 ^ 31) :
    fleetName (.ofNat 32 r) = lit "amr-fleet-" ++ decimalNat r := by
  have hint : (BitVec.ofNat 32 r).toInt = r := by
    rw [BitVec.toInt_eq_toNat_of_lt (by rw [BitVec.toNat_ofNat]; omega), BitVec.toNat_ofNat]
    omega
  rw [fleetName, hint, decimal, if_neg (by omega), Int.natAbs_natCast]

/-- The last bit of a fleet's code is that of the digits' sum. -/
theorem hashCode_fleetName {r : ℕ} (hr : r < 2 ^ 31) :
    (hashCode (fleetName (.ofNat 32 r))).toNat % 2 = (Nat.digits 10 r).sum % 2 := by
  have hname : ((lit "amr-fleet-").map UInt16.toNat).sum % 2 = 0 := by decide
  have hdigits : ((decimalNat r).map UInt16.toNat).sum % 2 = (Nat.digits 10 r).sum % 2 := by
    rw [decimalNat]
    split_ifs with h0
    · rw [h0]
      rfl
    · rw [sum_ofDigit fun d hd => Nat.digits_lt_base (by decide) (List.mem_reverse.mp hd),
        List.sum_reverse]
  rw [hashCode_mod_two, fleetName_ofNat hr, List.map_append, List.sum_append]
  omega

/-- Behind an even run the code is the next one. -/
theorem hashCode_fleetName_succ {r : ℕ} (heven : r % 2 = 0) (hr : r + 1 < 2 ^ 31) :
    hashCode (fleetName (.ofNat 32 (r + 1))) = hashCode (fleetName (.ofNat 32 r)) + 1 := by
  have hdigit : ∀ d < 10, d % 2 = 0 → (ofDigit (d + 1)).toBitVec.setWidth 32 =
      (ofDigit d).toBitVec.setWidth 32 + 1#32 := by decide
  have hdiv : (r + 1) / 10 = r / 10 := by omega
  have hmod : (r + 1) % 10 = r % 10 + 1 := by omega
  rw [fleetName_ofNat hr, fleetName_ofNat (Nat.lt_of_succ_lt hr), decimalNat_eq, decimalNat_eq r,
    hdiv, hmod, ← List.append_assoc, ← List.append_assoc, hashCode_snoc, hashCode_snoc,
    hdigit (r % 10) (Nat.mod_lt r (by decide)) (by omega), BitVec.add_assoc]
  rfl

theorem bits_xor_succ {x : BitVec 32} : x ^^^ (x + 1) = 1 ↔ x.toNat % 2 = 0 := by
  have hnext : (x + 1).toNat = (x.toNat + 1) % 2 ^ 32 := rfl
  have hone : (1 : BitVec 32).toNat = 1 := rfl
  rw [← BitVec.toNat_inj, BitVec.toNat_xor, hnext, hone]
  rcases Nat.mod_two_eq_zero_or_one x.toNat with h | h
  · rw [Nat.mod_eq_of_lt (by omega)]
    exact iff_of_true (xor_succ_even h) h
  · refine iff_of_false (fun hxor => ?_) (by omega)
    have hfour := congrArg (· % 2 ^ 2) hxor
    have hwrap : (x.toNat + 1) % 2 ^ 32 % 2 ^ 2 = (x.toNat + 1) % 2 ^ 2 := by omega
    rw [Nat.xor_mod_two_pow, hwrap, ← xor_mod] at hfour
    exact absurd ((xor_succ_odd h).symm.trans hfour) (by decide)

/-- **The fleets of an even run and the next one** are seeded alike iff the sum of the run's digits
is even. -/
theorem fleetSeed_succ_iff {r : ℕ} (heven : r % 2 = 0) (hr : r + 1 < 2 ^ 31) :
    fleetSeed (.ofNat 32 r) = fleetSeed (.ofNat 32 (r + 1)) ↔ (Nat.digits 10 r).sum % 2 = 0 := by
  have hruns : BitVec.ofNat 32 r ^^^ BitVec.ofNat 32 (r + 1) = 1 :=
    (ofNat_xor 1 (Nat.lt_of_succ_lt hr) hr (by decide)).mpr (xor_succ_even heven)
  rw [fleetSeed_eq_iff, hashCode_fleetName_succ heven hr, hruns, bits_xor_succ,
    hashCode_fleetName (Nat.lt_of_succ_lt hr)]

/-! ## Batches -/

/-- The two stations whose codes differ in the last bit. -/
theorem stationSeed_last {r r' : ℕ} (hr : r < 2 ^ 31) (hr' : r' < 2 ^ 31) (h : r ^^^ r' = 1) :
    stationSeed (lit "S1") (.ofNat 32 r) = stationSeed (lit "S2") (.ofNat 32 r') := by
  have hcode : hashCode (lit "S1") ^^^ hashCode (lit "S2") = BitVec.ofNat 32 1 := by decide
  rw [stationSeed_eq_iff, hcode, (ofNat_xor 1 hr hr' (by decide)).mpr h]

/-- The two stations whose codes differ in the last seven bits. -/
theorem stationSeed_seven {r r' : ℕ} (hr : r < 2 ^ 31) (hr' : r' < 2 ^ 31) (h : r ^^^ r' = 127) :
    stationSeed (lit "S1") (.ofNat 32 r) = stationSeed (lit "S4") (.ofNat 32 r') := by
  have hcode : hashCode (lit "S1") ^^^ hashCode (lit "S4") = BitVec.ofNat 32 127 := by decide
  rw [stationSeed_eq_iff, hcode, (ofNat_xor 127 hr hr' (by decide)).mpr h]

/-- One of the first two of three runs is even. -/
theorem BatchApart.count_le {start count : ℕ} (hend : start + count ≤ 2 ^ 31)
    (h : BatchApart start count) : count ≤ 1 ∨ count = 2 ∧ start % 2 = 1 := by
  by_contra hcount
  obtain ⟨r, heven, hr, hnext⟩ : ∃ r, r % 2 = 0 ∧ InBatch start count r ∧
      InBatch start count (r + 1) := by
    unfold InBatch
    rcases Nat.mod_two_eq_zero_or_one start with hstart | hstart
    · exact ⟨start, hstart, by omega, by omega⟩
    · exact ⟨start + 1, by omega, by omega, by omega⟩
  have hseed := stationSeed_last (Nat.lt_of_lt_of_le hr.2 hend) (Nat.lt_of_lt_of_le hnext.2 hend)
    (xor_succ_even heven)
  have hsame := h.stations _ (by decide) _ (by decide) r (r + 1) hr hnext hseed
  exact absurd hsame.1 (by decide)

/-- **The streams of a batch** are apart iff it has one run, or two of which the first one is odd
and neither the stations' codes nor the fleets' differ as the two runs do. -/
theorem batchApart_iff {start count : ℕ} (hend : start + count ≤ 2 ^ 31) :
    BatchApart start count ↔ count ≤ 1 ∨ count = 2 ∧ start % 2 = 1 ∧ start % 128 ≠ 63 ∧
      hashCode (fleetName (.ofNat 32 start)) ^^^ hashCode (fleetName (.ofNat 32 (start + 1))) ≠
        .ofNat 32 start ^^^ .ofNat 32 (start + 1) := by
  constructor
  · intro h
    rcases h.count_le hend with hone | ⟨rfl, hodd⟩
    · exact .inl hone
    · have hr : InBatch start 2 start := by unfold InBatch; omega
      have hnext : InBatch start 2 (start + 1) := by unfold InBatch; omega
      refine .inr ⟨rfl, hodd, fun h63 => ?_, fun hfleet => ?_⟩
      · have hseed := stationSeed_seven (by omega) (by omega) (xor_succ_eq_iff.mpr h63)
        have hsame := h.stations _ (by decide) _ (by decide) start (start + 1) hr hnext hseed
        exact absurd hsame.1 (by decide)
      · have hsame := h.fleets start (start + 1) hr hnext (fleetSeed_eq_iff.mpr hfleet)
        omega
  · intro h
    -- two different runs are the two of a batch of two
    have htwo : ∀ r r', InBatch start count r → InBatch start count r' → r ≠ r' →
        (start % 2 = 1 ∧ start % 128 ≠ 63 ∧
          hashCode (fleetName (.ofNat 32 start)) ^^^ hashCode (fleetName (.ofNat 32 (start + 1))) ≠
            .ofNat 32 start ^^^ .ofNat 32 (start + 1)) ∧
        (r = start ∧ r' = start + 1 ∨ r = start + 1 ∧ r' = start) := by
      intro r r' hr hr' hne
      unfold InBatch at hr hr'
      rcases h with hone | ⟨rfl, hcond⟩
      · omega
      · exact ⟨hcond, by omega⟩
    have hbound : ∀ {r}, InBatch start count r → r < 2 ^ 31 := fun hr =>
      Nat.lt_of_lt_of_le hr.2 hend
    have hxor : ∀ r r', InBatch start count r → InBatch start count r' → r ≠ r' →
        r ^^^ r' ≠ 1 ∧ r ^^^ r' ≠ 126 ∧ r ^^^ r' ≠ 127 := by
      intro r r' hr hr' hne
      obtain ⟨⟨hodd, h63, -⟩, hpair⟩ := htwo r r' hr hr' hne
      have hsame : r ^^^ r' = start ^^^ (start + 1) := by
        rcases hpair with ⟨rfl, rfl⟩ | ⟨rfl, rfl⟩
        · rfl
        · exact Nat.xor_comm _ _
      have hfour := xor_succ_odd hodd
      have hseven := mt xor_succ_eq_iff.mp h63
      rw [hsame]
      omega
    constructor
    · intro s hs s' hs' r r' hr hr' hseed
      have hcodes := stationSeed_eq_iff.mp hseed
      by_cases hne : r = r'
      · subst hne
        rw [BitVec.xor_self] at hcodes
        refine ⟨?_, rfl⟩
        rcases hashCode_stationIds s hs s' hs' with hs | hcode | hcode | hcode
        · exact hs
        all_goals exact absurd (hcode.symm.trans hcodes) (by decide)
      · obtain ⟨hone, hsix, hseven⟩ := hxor r r' hr hr' hne
        rcases hashCode_stationIds s hs s' hs' with rfl | hcode | hcode | hcode
        · rw [BitVec.xor_self] at hcodes
          have hzero := (ofNat_xor 0 (hbound hr) (hbound hr') (by decide)).mp hcodes.symm
          exact absurd (xor_eq_zero hzero) hne
        · exact absurd ((ofNat_xor 1 (hbound hr) (hbound hr') (by decide)).mp
            (hcodes.symm.trans hcode)) hone
        · exact absurd ((ofNat_xor 126 (hbound hr) (hbound hr') (by decide)).mp
            (hcodes.symm.trans hcode)) hsix
        · exact absurd ((ofNat_xor 127 (hbound hr) (hbound hr') (by decide)).mp
            (hcodes.symm.trans hcode)) hseven
    · intro r r' hr hr' hseed
      by_contra hne
      obtain ⟨⟨-, -, hfleet⟩, hpair⟩ := htwo r r' hr hr' hne
      have hnames := fleetSeed_eq_iff.mp hseed
      rcases hpair with ⟨rfl, rfl⟩ | ⟨rfl, rfl⟩
      · exact hfleet hnames
      · rw [BitVec.xor_comm, hnames, BitVec.xor_comm] at hfleet
        exact hfleet rfl
    · intro r r' _ _ hseed
      exact deriveSeed_inj.mp hseed

/-- **The seeds**: two of them are apart iff the codes do not differ in the bits in which the runs
do, for each of the three generators; the fleets of an even run and the next one iff the sum of the
run's digits is odd; and the streams of a batch iff it is one of the few of `batchApart_iff`. -/
theorem seeds_apart_iff (s s' : Text) (r r' : BitVec 32) :
    (stationSeed s r ≠ stationSeed s' r' ↔ hashCode s ^^^ hashCode s' ≠ r ^^^ r') ∧
    (fleetSeed r ≠ fleetSeed r' ↔
      hashCode (fleetName r) ^^^ hashCode (fleetName r') ≠ r ^^^ r') ∧
    (∀ r, r % 2 = 0 → r + 1 < 2 ^ 31 → (fleetSeed (.ofNat 32 r) ≠ fleetSeed (.ofNat 32 (r + 1)) ↔
      ¬(Nat.digits 10 r).sum % 2 = 0)) ∧
    (∀ (s s' : List Char) (r r' : ℕ), deriveSeed s r ≠ deriveSeed s' r' ↔
      stackCode s ^^^ stackCode s' ≠ r ^^^ r') ∧
    ∀ start count, start + count ≤ 2 ^ 31 → (BatchApart start count ↔
      count ≤ 1 ∨ count = 2 ∧ start % 2 = 1 ∧ start % 128 ≠ 63 ∧
        hashCode (fleetName (.ofNat 32 start)) ^^^ hashCode (fleetName (.ofNat 32 (start + 1))) ≠
          .ofNat 32 start ^^^ .ofNat 32 (start + 1)) :=
  ⟨stationSeed_eq_iff.not, fleetSeed_eq_iff.not,
    fun _ heven hr => (fleetSeed_succ_iff heven hr).not, fun _ _ _ _ => deriveSeed_eq_iff.not,
    fun _ _ hend => batchApart_iff hend⟩

/-- The runs 1 and 2. -/
theorem seeds_apart_two : BatchApart 1 2 :=
  ((seeds_apart_iff [] [] 0 0).2.2.2.2 1 2 (by decide)).mpr (.inr ⟨rfl, rfl, by decide, by decide⟩)

/-- Of each generator two seeds are the same: of the stations S1 and S2 in the runs 0 and 1, of the
fleets of these runs, and of the stacks S4 and S5 in the runs 0 and 256. -/
theorem not_seeds_apart :
    (¬ ∀ (s s' : Text) (r r' : BitVec 32), 0 ≤ r.toInt → 0 ≤ r'.toInt → (s, r) ≠ (s', r') →
      stationSeed s r ≠ stationSeed s' r') ∧
    (¬ ∀ r r' : BitVec 32, 0 ≤ r.toInt → 0 ≤ r'.toInt → r ≠ r' → fleetSeed r ≠ fleetSeed r') ∧
    ¬ ∀ (s s' : List Char) (r r' : ℕ), (s, r) ≠ (s', r') → deriveSeed s r ≠ deriveSeed s' r' := by
  refine ⟨fun h => ?_, fun h => ?_, fun h => ?_⟩
  · exact h (lit "S1") (lit "S2") 0 1 (by decide) (by decide) (by decide) (by decide)
  · exact h 0 1 (by decide) (by decide) (by decide) (by decide)
  · exact h ['S', '4'] ['S', '5'] 0 256 (by decide) (by decide)

end MatrixFactory
