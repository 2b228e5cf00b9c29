/-
# The merged project of several runs

`generate_factory_jcm.py`: the agents' sources and the project template are renamed for each run,
and the blocks of all runs are merged into one project.  A name is renamed when it is one of
`CANONICAL_TOKENS`, wherever it stands as a whole word.

The renaming renames exactly these words and is idempotent for every text.  The group
`holonic_factory` of the template is not among the tokens, so all runs with a nonnegative id
share it; a run with a negative id has names that the block patterns do not match.
-/
import MatrixFactory.Lib.Words
import Mathlib.Data.Nat.Digits.Defs
import Mathlib.Data.Finset.Filter
import Mathlib.Data.Finset.Card
import Mathlib.Tactic.IntervalCases

namespace MatrixFactory

open Words

/-- A text of a source or project file. -/
abbrev FileText := List Char

namespace Generator

/-- The strict list of canonical tokens that must be isolated per run. -/
def CANONICAL_TOKENS : List FileText :=
  ["supervisor".toList,
    "order_1".toList, "order_2".toList, "order_3".toList, "order_4".toList, "order_5".toList,
    "station_1".toList, "station_2".toList, "station_3".toList, "station_4".toList,
    "station_5".toList,
    "amr_1".toList, "amr_2".toList,
    "factory_ws".toList,
    "factory_prosa_org".toList, "factory_adacor_org".toList,
    "adaptive_factory".toList]

/-- The characters of `\w`; `wide` says which of those beyond ASCII are. -/
def isWordChar (wide : Char → Bool) (c : Char) : Bool :=
  if c.toNat < 128 then c.isAlphanum || c == '_' else wide c

/-- The decimal digits of a number. -/
def digits (n : ℕ) : FileText :=
  if n = 0 then ['0'] else (Nat.digits 10 n).reverse.map Nat.digitChar

/-- `str` of a run id. -/
def str (runId : ℤ) : FileText :=
  if runId < 0 then '-' :: digits runId.natAbs else digits runId.natAbs

/-- The name of a token in a run. -/
def renamed (runId : ℤ) (token : FileText) : FileText := token ++ '_' :: str runId

/-- `rewrite_content`. -/
@[irreducible] def rewriteContent (wide : Char → Bool) (content : FileText) (runId : ℤ) : FileText :=
  CANONICAL_TOKENS.foldl
    (fun content token => subWord (isWordChar wide) token (renamed runId token) content) content

/-- The renaming of one word. -/
def renameWord (tokens : List FileText) (runId : ℤ) (w : FileText) : FileText :=
  if w ∈ tokens then renamed runId w else w

/-! ## The renaming of a text -/

variable {wide : Char → Bool}

/-- Every character of a text is looked at, not every character there is. -/
instance (priority := 2000) decidableForallMem (w : FileText) (p : Char → Prop)
    [DecidablePred p] : Decidable (∀ c ∈ w, p c) := List.decidableBAll p w

theorem isWord_token : ∀ t ∈ CANONICAL_TOKENS, IsWord (isWordChar wide) t := by
  have hascii : ∀ t ∈ CANONICAL_TOKENS, t ≠ [] ∧ ∀ c ∈ t, c.toNat < 128 ∧
      (c.isAlphanum || c == '_') = true := by decide
  intro t ht
  refine ⟨(hascii t ht).1, fun c hc => ?_⟩
  rw [isWordChar, if_pos ((hascii t ht).2 c hc).1, ((hascii t ht).2 c hc).2]

theorem digits_ne_nil (n : ℕ) : digits n ≠ [] := by
  unfold digits
  split
  · exact List.cons_ne_nil _ _
  · next hn =>
    rw [ne_eq, List.map_eq_nil_iff, List.reverse_eq_nil_iff]
    exact Nat.digits_ne_nil_iff_ne_zero.2 hn

theorem mem_digits {n : ℕ} {c : Char} (hc : c ∈ digits n) : c ∈ "0123456789".toList := by
  unfold digits at hc
  split at hc
  · rw [List.mem_singleton.1 hc]
    decide
  · obtain ⟨d, hd, rfl⟩ := List.mem_map.1 hc
    have hlt : d < 10 := Nat.digits_lt_base (by decide) (List.mem_reverse.1 hd)
    interval_cases d <;> decide

theorem isWord_digits (n : ℕ) : IsWord (isWordChar wide) (digits n) := by
  have hascii : ∀ c ∈ "0123456789".toList, c.toNat < 128 ∧ (c.isAlphanum || c == '_') = true := by
    decide
  refine ⟨digits_ne_nil n, fun c hc => ?_⟩
  have h := hascii c (mem_digits hc)
  rw [isWordChar, if_pos h.1, h.2]

/-- No token continues another one with an underscore. -/
theorem token_no_prefix :
    ∀ t ∈ CANONICAL_TOKENS, ∀ t' ∈ CANONICAL_TOKENS, ¬ t ++ ['_'] <+: t' := by decide

/-- No token begins with a digit. -/
theorem digits_not_token (n : ℕ) : digits n ∉ CANONICAL_TOKENS := by
  have hhead : ∀ t ∈ CANONICAL_TOKENS, ∀ c ∈ t.take 1, c ∉ "0123456789".toList := by
    decide
  intro hmem
  obtain ⟨c, u, hcu⟩ := List.exists_cons_of_ne_nil (digits_ne_nil n)
  refine hhead _ hmem c ?_ (mem_digits (n := n) (by rw [hcu]; exact List.mem_cons_self))
  rw [hcu]
  exact List.mem_cons_self

/-- A renamed token has no token among its words. -/
theorem mapWords_renamed {f : FileText → FileText} (hf : ∀ w, w ∉ CANONICAL_TOKENS → f w = w)
    (runId : ℤ) {t : FileText} (ht : t ∈ CANONICAL_TOKENS) :
    mapWords (isWordChar wide) f (renamed runId t) = renamed runId t := by
  have hword : IsWord (isWordChar wide) t := isWord_token t ht
  have hunder : isWordChar wide '_' = true := rfl
  have hnot : ∀ u, t ++ '_' :: u ∉ CANONICAL_TOKENS := by
    intro u hmem
    refine token_no_prefix t ht _ hmem ⟨u, ?_⟩
    rw [List.append_assoc, List.singleton_append]
  have hall : ∀ {u : FileText}, (∀ c ∈ u, isWordChar wide c = true) →
      IsWord (isWordChar wide) (t ++ '_' :: u) := by
    intro u hu
    refine ⟨List.append_ne_nil_of_left_ne_nil hword.1 _, fun c hc => ?_⟩
    rcases List.mem_append.1 hc with hc | hc
    · exact hword.2 c hc
    · rcases List.mem_cons.1 hc with rfl | hc
      · exact hunder
      · exact hu c hc
  unfold renamed str
  split
  · -- a negative id: the words are the token with an underscore and the digits
    have hminus : isWordChar wide '-' = false := rfl
    have hnil : ∀ c ∈ ([] : FileText), isWordChar wide c = true := fun _ hc =>
      absurd hc List.not_mem_nil
    rw [show t ++ '_' :: '-' :: digits runId.natAbs = (t ++ ['_']) ++ '-' :: digits runId.natAbs by
        rw [List.append_assoc, List.singleton_append],
      mapWords_append_cons hminus, mapWords_word (hall hnil), hf _ (hnot []),
      mapWords_word (isWord_digits _), hf _ (digits_not_token _)]
  · rw [mapWords_word (hall (isWord_digits _).2), hf _ (hnot _)]

/-- The loop over the tokens renames each word once. -/
theorem foldl_subWord (runId : ℤ) {tokens : List FileText} (h : tokens ⊆ CANONICAL_TOKENS) :
    ∀ content, tokens.foldl (fun content token =>
      subWord (isWordChar wide) token (renamed runId token) content) content =
        mapWords (isWordChar wide) (renameWord tokens runId) content := by
  induction tokens with
  | nil =>
    intro content
    have hid : ∀ s w, mapFrom (isWordChar wide) (renameWord [] runId) w s = w ++ s := by
      have hemit : ∀ w, emit (renameWord [] runId) w = w := by
        intro w
        cases w <;> rfl
      intro s
      induction s with
      | nil =>
        intro w
        rw [List.append_nil]
        exact hemit w
      | cons c s ih =>
        intro w
        rw [mapFrom, ih, ih, hemit, List.append_assoc, List.nil_append, List.singleton_append,
          ite_self]
    exact (hid content []).symm
  | cons t ts ih =>
    intro content
    have ht := h List.mem_cons_self
    rw [List.foldl_cons, ih fun t' ht' => h (List.mem_cons_of_mem _ ht'),
      subWord_eq (isWord_token t ht), mapWords_mapWords]
    apply mapWords_congr
    intro w hw
    by_cases hwt : w = t
    · rw [if_pos hwt, mapWords_renamed ?_ runId ht, renameWord, hwt, if_pos List.mem_cons_self]
      intro w' hw'
      rw [renameWord, if_neg fun hmem => hw' (h (List.mem_cons_of_mem _ hmem))]
    · rw [if_neg hwt, mapWords_word hw, renameWord, renameWord]
      simp only [List.mem_cons, hwt, false_or]

/-- **The renaming** replaces the words that are tokens, and nothing else. -/
theorem rewriteContent_eq (content : FileText) (runId : ℤ) :
    rewriteContent wide content runId =
      mapWords (isWordChar wide) (renameWord CANONICAL_TOKENS runId) content := by
  rw [rewriteContent]
  exact foldl_subWord runId (List.Subset.refl _) content

/-- The renaming is idempotent. -/
theorem rewriteContent_rewriteContent (content : FileText) (runId : ℤ) :
    rewriteContent wide (rewriteContent wide content runId) runId =
      rewriteContent wide content runId := by
  rw [rewriteContent_eq, rewriteContent_eq, mapWords_mapWords]
  apply mapWords_congr
  intro w hw
  have hfix : ∀ w, w ∉ CANONICAL_TOKENS → renameWord CANONICAL_TOKENS runId w = w :=
    fun w hw => if_neg hw
  by_cases hmem : w ∈ CANONICAL_TOKENS
  · rw [renameWord, if_pos hmem, mapWords_renamed hfix runId hmem]
  · rw [hfix w hmem, mapWords_word hw, hfix w hmem]

end Generator

/-! ## The project template -/

/-- A block `agent`. -/
structure JcmAgent where
  name : FileText
  file : FileText
  body : FileText
  deriving DecidableEq

/-- A block `workspace`. -/
structure JcmWorkspace where
  name : FileText
  body : FileText
  deriving DecidableEq

/-- A player: the agent and its role, with a number of spaces between them. -/
structure JcmPlayer where
  agent : FileText
  spaces : ℕ
  role : FileText
  deriving DecidableEq

/-- A block `group`. -/
structure JcmGroup where
  name : FileText
  type : FileText
  players : List JcmPlayer
  deriving DecidableEq

/-- A block `organisation`. -/
structure JcmOrganisation where
  name : FileText
  file : FileText
  group : JcmGroup
  deriving DecidableEq

/-- The blocks of a project; what stands between them is not extracted. -/
structure JcmProject where
  agents : List JcmAgent
  workspaces : List JcmWorkspace
  organisations : List JcmOrganisation
  deriving DecidableEq

namespace JcmProject

/-- The players of both organisations. -/
def templatePlayers : List JcmPlayer :=
  [⟨"supervisor".toList, 2, "supervisor".toList⟩,
    ⟨"order_1".toList, 5, "order_holon".toList⟩,
    ⟨"order_2".toList, 5, "order_holon".toList⟩,
    ⟨"order_3".toList, 5, "order_holon".toList⟩,
    ⟨"order_4".toList, 5, "order_holon".toList⟩,
    ⟨"order_5".toList, 5, "order_holon".toList⟩,
    ⟨"station_1".toList, 3, "resource_holon".toList⟩,
    ⟨"station_2".toList, 3, "resource_holon".toList⟩,
    ⟨"station_3".toList, 3, "resource_holon".toList⟩,
    ⟨"station_4".toList, 3, "resource_holon".toList⟩,
    ⟨"station_5".toList, 3, "resource_holon".toList⟩,
    ⟨"amr_1".toList, 7, "transport_holon".toList⟩,
    ⟨"amr_2".toList, 7, "transport_holon".toList⟩]

/-- The lines that the bodies of all order agents begin with. -/
def orderFocus : String :=
  "\n        focus: factory_ws.base_station_1, factory_ws.base_station_2,
               factory_ws.base_station_3, factory_ws.base_station_4,
               factory_ws.test_bench,     factory_ws.amr_artifact,
               factory_ws.timer_artifact, factory_ws.supervisor_artifact,
               factory_ws.utility_system, factory_ws.database
        beliefs: run_id(\x7b\x7bRUN_ID\x7d\x7d)
                 order_holon_id("

/-- `factory.jcm.template`. -/
def template : JcmProject where
  agents :=
    [⟨"supervisor".toList, "supervisor_agent.asl".toList,
      "\n        focus: factory_ws.supervisor_artifact,
               factory_ws.energy_price,
               factory_ws.amr_artifact,
               factory_ws.utility_system,
               factory_ws.timer_artifact,
               factory_ws.database\n    ".toList⟩,
      ⟨"order_1".toList, "order_holon.asl".toList,
        orderFocus.toList ++ "\"order_1\")\n    ".toList⟩,
      ⟨"order_2".toList, "order_holon.asl".toList,
        orderFocus.toList ++ "\"order_2\")\n    ".toList⟩,
      ⟨"order_3".toList, "order_holon.asl".toList,
        ' ' :: orderFocus.toList ++ "\"order_3\") \n    ".toList⟩,
      ⟨"order_4".toList, "order_holon.asl".toList,
        ' ' :: orderFocus.toList ++ "\"order_4\") \n    ".toList⟩,
      ⟨"order_5".toList, "order_holon.asl".toList,
        ' ' :: orderFocus.toList ++ "\"order_5\") \n    ".toList⟩,
      ⟨"station_1".toList, "resource_holon.asl".toList,
        "\n        focus: factory_ws.base_station_1, factory_ws.timer_artifact,
               factory_ws.supervisor_artifact, factory_ws.utility_system
        beliefs: station_id(1)\n    ".toList⟩,
      ⟨"station_2".toList, "resource_holon.asl".toList,
        "\n        focus: factory_ws.base_station_2, factory_ws.timer_artifact,
               factory_ws.supervisor_artifact, factory_ws.utility_system
        beliefs: station_id(2)\n    ".toList⟩,
      ⟨"station_3".toList, "resource_holon.asl".toList,
        " \n        focus: factory_ws.base_station_3, factory_ws.timer_artifact,
               factory_ws.supervisor_artifact, factory_ws.utility_system
        beliefs: station_id(3) \n    ".toList⟩,
      ⟨"station_4".toList, "resource_holon.asl".toList,
        " \n        focus: factory_ws.base_station_4, factory_ws.timer_artifact,
               factory_ws.supervisor_artifact, factory_ws.utility_system
        beliefs: station_id(4) \n    ".toList⟩,
      ⟨"station_5".toList, "resource_holon.asl".toList,
        "\n        focus: factory_ws.test_bench,     factory_ws.timer_artifact,
               factory_ws.supervisor_artifact, factory_ws.utility_system
        beliefs: station_id(5)\n    ".toList⟩,
      ⟨"amr_1".toList, "amr_agent.asl".toList,
        "\n        focus: factory_ws.amr_artifact, factory_ws.supervisor_artifact, factory_ws.timer_artifact
        beliefs: amr_id(\"AMR-1\")\n    ".toList⟩,
      ⟨"amr_2".toList, "amr_agent.asl".toList,
        "\n        focus: factory_ws.amr_artifact, factory_ws.supervisor_artifact, factory_ws.timer_artifact
        beliefs: amr_id(\"AMR-2\")\n    ".toList⟩]
  workspaces :=
    [⟨"factory_ws".toList,
      "\n        artifact base_station_1  : factory.BaseStationArtifact(\"S1\", 1, 5.0,  5.0,  0.005, \x7b\x7bRUN_ID\x7d\x7d, 1, 10.0)
        artifact base_station_2  : factory.BaseStationArtifact(\"S2\", 2, 12.0, 15.0, 0.012, \x7b\x7bRUN_ID\x7d\x7d, 2, 15.0)
        artifact base_station_3  : factory.BaseStationArtifact(\"S3\", 3, 3.0,  2.0,  0.002, \x7b\x7bRUN_ID\x7d\x7d, 3, 10.0)
        artifact base_station_4  : factory.BaseStationArtifact(\"S4\", 4, 24.0, 30.0, 0.008, \x7b\x7bRUN_ID\x7d\x7d, 4, 20.0)
        artifact test_bench      : factory.TestBenchArtifact(\"S5\", \x7b\x7bRUN_ID\x7d\x7d, 5, 10.0)
        artifact amr_artifact    : factory.AMRArtifact(20, 12, 2, \x7b\x7bRUN_ID\x7d\x7d)
        artifact utility_system  : factory.UtilitySystemArtifact(\x7b\x7bRUN_ID\x7d\x7d)
        artifact timer_artifact  : factory.TimerArtifact(\x7b\x7bRUN_ID\x7d\x7d)
        artifact energy_price    : factory.EnergyPriceArtifact(\"price_series_spike_test.csv\", \x7b\x7bRUN_ID\x7d\x7d)
        artifact database        : factory.DatabaseArtifact(\"factory_history.db\", \x7b\x7bRUN_ID\x7d\x7d)
        artifact telemetry       : factory.TelemetryArtifact(8080, \x7b\x7bRUN_ID\x7d\x7d)
        artifact supervisor_artifact : factory.SupervisorArtifact(\x7b\x7bRUN_ID\x7d\x7d)   // Phase 3 addition\n    ".toList⟩]
  organisations :=
    [⟨"factory_prosa_org".toList, "prosa_org.xml".toList,
      ⟨"holonic_factory".toList, "shop_floor".toList, templatePlayers⟩⟩,
    ⟨"factory_adacor_org".toList, "adacor_org.xml".toList,
      ⟨"adaptive_factory".toList, "shop_floor".toList, templatePlayers⟩⟩]

/-! ## The text of a project -/

/-- The text of an agent block. -/
def agentText (a : JcmAgent) : FileText :=
  "agent".toList ++ ' ' :: (a.name ++ ' ' :: ':' :: ' ' :: (a.file ++ ' ' :: '{' ::
    (a.body ++ '}' :: [])))

/-- The text of a workspace block. -/
def workspaceText (w : JcmWorkspace) : FileText :=
  "workspace".toList ++ ' ' :: (w.name ++ ' ' :: '{' :: (w.body ++ '}' :: []))

/-- The text of the players. -/
def playersText : List JcmPlayer → FileText
  | [] => []
  | [p] => p.agent ++ ' ' :: (List.replicate (p.spaces - 1) ' ' ++ p.role)
  | p :: q :: ps => p.agent ++ ' ' :: (List.replicate (p.spaces - 1) ' ' ++ p.role ++
    ',' :: '\n' :: (List.replicate 21 ' ' ++ playersText (q :: ps)))

/-- The text of an organisation block. -/
def organisationText (o : JcmOrganisation) : FileText :=
  "organisation".toList ++ ' ' :: (o.name ++ ' ' :: ':' :: ' ' :: (o.file ++ ' ' :: '{' :: '\n' ::
    (List.replicate 8 ' ' ++ "group".toList ++ ' ' :: (o.group.name ++ ' ' :: ':' :: ' ' ::
    (o.group.type ++ ' ' :: '{' :: '\n' :: (List.replicate 12 ' ' ++ "players".toList ++ ':' ::
    ' ' :: (playersText o.group.players ++ '\n' :: (List.replicate 8 ' ' ++ '}' :: '\n' ::
    (List.replicate 4 ' ' ++ '}' :: [])))))))))

/-! ## The project of one run -/

/-- The fields of a project but the roles, each changed by `f`. -/
def mapFields (f : FileText → FileText) (p : JcmProject) : JcmProject where
  agents := p.agents.map fun a => ⟨f a.name, f a.file, f a.body⟩
  workspaces := p.workspaces.map fun w => ⟨f w.name, f w.body⟩
  organisations := p.organisations.map fun o => ⟨f o.name, f o.file, f o.group.name, f o.group.type,
    o.group.players.map fun q => ⟨f q.agent, q.spaces, q.role⟩⟩

/-- The roles, each changed by `f` in view of its player. -/
def mapRoles (f : JcmPlayer → FileText) (p : JcmProject) : JcmProject :=
  { p with
    organisations := p.organisations.map fun o => { o with
      group := { o.group with
        players := o.group.players.map fun q => { q with role := f q } } } }

/-- `template_inner.replace`: the placeholder stands in bodies only. -/
def fillRunId (runId : ℤ) (p : JcmProject) : JcmProject :=
  p.mapFields (replace "\x7b\x7bRUN_ID\x7d\x7d".toList (Generator.str runId))

/-- `rewrite_content` of the text of a project. -/
def rewrite (wide : Char → Bool) (runId : ℤ) (p : JcmProject) : JcmProject :=
  (p.mapFields (Generator.rewriteContent wide · runId)).mapRoles fun q =>
    Generator.rewriteContent wide q.role runId

/-- The renamed role `supervisor` is restored, where two spaces stand before it. -/
def restoreRole (runId : ℤ) (q : JcmPlayer) : FileText :=
  if q.agent = Generator.renamed runId "supervisor".toList ∧ q.spaces = 2 ∧
      q.role = Generator.renamed runId "supervisor".toList then "supervisor".toList
  else q.role

/-- The renaming of a project for a run. -/
def rename (wide : Char → Bool) (runId : ℤ) (p : JcmProject) : JcmProject :=
  (p.rewrite wide runId).mapRoles (restoreRole runId)

/-- The characters of a name in the block patterns. -/
def nameChar (c : Char) : Bool := c.isAlphanum || c == '_'

/-- A name is matched. -/
def matchesName (s : FileText) : Bool := !s.isEmpty && s.all nameChar

/-- A file name is matched. -/
def matchesFile (ext s : FileText) : Bool :=
  decide (ext <:+ s) && decide (ext.length < s.length) && s.all fun c => nameChar c || c == '.'

/-- A body is matched. -/
def matchesBody (s : FileText) : Bool := !s.isEmpty && !s.contains '\x7d'

/-- The blocks that the three patterns find, the agents with the directory of the run. -/
def extract (runId : ℤ) (p : JcmProject) : JcmProject where
  agents := (p.agents.filter fun a =>
    matchesName a.name && matchesFile ".asl".toList a.file && matchesBody a.body).map fun a =>
      { a with file := "build/phase4_asl/run_".toList ++ Generator.str runId ++ '/' :: a.file }
  workspaces := p.workspaces.filter fun w => matchesName w.name && matchesBody w.body
  organisations := p.organisations.filter fun o =>
    matchesName o.name && matchesFile ".xml".toList o.file

/-- The blocks of a run in the merged project. -/
def ofRun (wide : Char → Bool) (runId : ℤ) : JcmProject :=
  ((template.fillRunId runId).rename wide runId).extract runId

/-- The kinds of names. -/
inductive NameKind
  | agent
  | workspace
  | organisation
  | group
  deriving DecidableEq, Repr

/-- The names that a project declares. -/
def names (p : JcmProject) : NameKind → List FileText
  | .agent => p.agents.map (·.name)
  | .workspace => p.workspaces.map (·.name)
  | .organisation => p.organisations.map (·.name)
  | .group => p.organisations.map (·.group.name)

/-- No two runs of the merged project share a name. -/
def SharesNoName (wide : Char → Bool) (ids : Finset ℤ) : Prop :=
  ∀ r ∈ ids, ∀ r' ∈ ids, r ≠ r' → ∀ kind, ∀ n ∈ (ofRun wide r).names kind,
    n ∉ (ofRun wide r').names kind

/-- The renaming renames the whole words that are tokens, in every text, and in the template all
of them but the roles. -/
def RenamesNames (wide : Char → Bool) (runId : ℤ) : Prop :=
  (∀ content, Generator.rewriteContent wide content runId =
    mapWords (Generator.isWordChar wide)
      (Generator.renameWord Generator.CANONICAL_TOKENS runId) content) ∧
  (template.fillRunId runId).rename wide runId =
    (template.fillRunId runId).mapFields (mapWords (Generator.isWordChar wide)
      (Generator.renameWord Generator.CANONICAL_TOKENS runId))

/-- The renaming of its own output changes nothing, for every text and for the template. -/
def RenamesOnce (wide : Char → Bool) (runId : ℤ) : Prop :=
  (∀ content, Generator.rewriteContent wide (Generator.rewriteContent wide content runId) runId =
    Generator.rewriteContent wide content runId) ∧
  ((template.fillRunId runId).rename wide runId).rename wide runId =
    (template.fillRunId runId).rename wide runId

variable {wide : Char → Bool}

open Generator

/-! ## Renaming the text and the fields -/

/-- The beginning of a text up to a character that is no word character. -/
theorem rewriteContent_append_cons {c : Char} (hc : isWordChar wide c = false) (u s : FileText)
    (runId : ℤ) : rewriteContent wide (u ++ c :: s) runId =
      rewriteContent wide u runId ++ c :: rewriteContent wide s runId := by
  simp only [rewriteContent_eq, mapWords_append_cons hc]

theorem rewriteContent_cons {c : Char} (hc : isWordChar wide c = false) (s : FileText)
    (runId : ℤ) : rewriteContent wide (c :: s) runId = c :: rewriteContent wide s runId := by
  rw [rewriteContent_eq, rewriteContent_eq, mapWords_cons hc]

theorem rewriteContent_replicate (k : ℕ) (s : FileText) (runId : ℤ) :
    rewriteContent wide (List.replicate k ' ' ++ s) runId =
      List.replicate k ' ' ++ rewriteContent wide s runId := by
  have hspace : isWordChar wide ' ' = false := rfl
  induction k with
  | zero => rw [List.replicate_zero, List.nil_append, List.nil_append]
  | succ k ih =>
    rw [List.replicate_succ, List.cons_append, rewriteContent_cons hspace, ih, List.cons_append]

/-- A word of ASCII characters that is no token and continues none. -/
def IsPlain (w : FileText) : Prop :=
  w ≠ [] ∧ (∀ c ∈ w, c.toNat < 128 ∧ (c.isAlphanum || c == '_') = true) ∧
    ∀ t ∈ CANONICAL_TOKENS, w ≠ t ∧ ¬ t ++ ['_'] <+: w

instance (w : FileText) : Decidable (IsPlain w) := inferInstanceAs (Decidable (_ ∧ _))

/-- Such a word stays. -/
theorem rewriteContent_plain {w : FileText} (hw : IsPlain w) (runId : ℤ) :
    rewriteContent wide w runId = w := by
  have hword : IsWord (isWordChar wide) w := by
    refine ⟨hw.1, fun c hc => ?_⟩
    rw [isWordChar, if_pos (hw.2.1 c hc).1, (hw.2.1 c hc).2]
  rw [rewriteContent_eq, mapWords_word hword, renameWord, if_neg]
  exact fun hmem => (hw.2.2 w hmem).1 rfl

/-- A token is renamed. -/
theorem rewriteContent_token {t : FileText} (ht : t ∈ CANONICAL_TOKENS) (runId : ℤ) :
    rewriteContent wide t runId = renamed runId t := by
  rw [rewriteContent_eq, mapWords_word (isWord_token t ht), renameWord, if_pos ht]

theorem rewriteContent_nil (runId : ℤ) : rewriteContent wide [] runId = [] := by
  rw [rewriteContent_eq, mapWords_nil]

/-- **Renaming the text of a block renames its fields.** -/
theorem rewriteContent_agentText (a : JcmAgent) (runId : ℤ) :
    rewriteContent wide (agentText a) runId = agentText ⟨rewriteContent wide a.name runId,
      rewriteContent wide a.file runId, rewriteContent wide a.body runId⟩ := by
  have hkey : IsPlain "agent".toList := by decide
  have hspace : isWordChar wide ' ' = false := rfl
  have hcolon : isWordChar wide ':' = false := rfl
  have hopen : isWordChar wide '\x7b' = false := rfl
  have hclose : isWordChar wide '\x7d' = false := rfl
  unfold agentText
  rw [rewriteContent_append_cons hspace, rewriteContent_plain hkey,
    rewriteContent_append_cons hspace, rewriteContent_cons hcolon, rewriteContent_cons hspace,
    rewriteContent_append_cons hspace, rewriteContent_cons hopen, rewriteContent_append_cons hclose,
    rewriteContent_nil]

theorem rewriteContent_workspaceText (w : JcmWorkspace) (runId : ℤ) :
    rewriteContent wide (workspaceText w) runId =
      workspaceText ⟨rewriteContent wide w.name runId, rewriteContent wide w.body runId⟩ := by
  have hkey : IsPlain "workspace".toList := by decide
  have hspace : isWordChar wide ' ' = false := rfl
  have hopen : isWordChar wide '\x7b' = false := rfl
  have hclose : isWordChar wide '\x7d' = false := rfl
  unfold workspaceText
  rw [rewriteContent_append_cons hspace, rewriteContent_plain hkey,
    rewriteContent_append_cons hspace, rewriteContent_cons hopen, rewriteContent_append_cons hclose,
    rewriteContent_nil]

/-- The fields of a player, renamed. -/
def rewritePlayer (wide : Char → Bool) (runId : ℤ) (q : JcmPlayer) : JcmPlayer :=
  ⟨rewriteContent wide q.agent runId, q.spaces, rewriteContent wide q.role runId⟩

theorem rewriteContent_playersText (runId : ℤ) : ∀ players : List JcmPlayer,
    rewriteContent wide (playersText players) runId =
      playersText (players.map (rewritePlayer wide runId))
  | [] => rewriteContent_nil runId
  | [p] => by
    have hspace : isWordChar wide ' ' = false := rfl
    show rewriteContent wide (p.agent ++ ' ' :: (List.replicate (p.spaces - 1) ' ' ++ p.role)) runId
      = rewriteContent wide p.agent runId ++
        ' ' :: (List.replicate (p.spaces - 1) ' ' ++ rewriteContent wide p.role runId)
    rw [rewriteContent_append_cons hspace, rewriteContent_replicate]
  | p :: q :: ps => by
    have hspace : isWordChar wide ' ' = false := rfl
    have hcomma : isWordChar wide ',' = false := rfl
    have hline : isWordChar wide '\n' = false := rfl
    show rewriteContent wide (p.agent ++ ' ' :: (List.replicate (p.spaces - 1) ' ' ++ p.role ++
        ',' :: '\n' :: (List.replicate 21 ' ' ++ playersText (q :: ps)))) runId =
      rewriteContent wide p.agent runId ++ ' ' :: (List.replicate (p.spaces - 1) ' ' ++
        rewriteContent wide p.role runId ++ ',' :: '\n' :: (List.replicate 21 ' ' ++
          playersText ((q :: ps).map (rewritePlayer wide runId))))
    rw [rewriteContent_append_cons hspace, List.append_assoc, rewriteContent_replicate,
      rewriteContent_append_cons hcomma, rewriteContent_cons hline, rewriteContent_replicate,
      rewriteContent_playersText runId (q :: ps), List.append_assoc]

theorem rewriteContent_organisationText (o : JcmOrganisation) (runId : ℤ) :
    rewriteContent wide (organisationText o) runId =
      organisationText ⟨rewriteContent wide o.name runId, rewriteContent wide o.file runId,
        rewriteContent wide o.group.name runId, rewriteContent wide o.group.type runId,
        o.group.players.map (rewritePlayer wide runId)⟩ := by
  have horganisation : IsPlain "organisation".toList := by decide
  have hgroup : IsPlain "group".toList := by decide
  have hplayers : IsPlain "players".toList := by decide
  have hspace : isWordChar wide ' ' = false := rfl
  have hcolon : isWordChar wide ':' = false := rfl
  have hline : isWordChar wide '\n' = false := rfl
  have hopen : isWordChar wide '\x7b' = false := rfl
  have hclose : isWordChar wide '\x7d' = false := rfl
  unfold organisationText
  rw [rewriteContent_append_cons hspace, rewriteContent_plain horganisation,
    rewriteContent_append_cons hspace, rewriteContent_cons hcolon, rewriteContent_cons hspace,
    rewriteContent_append_cons hspace, rewriteContent_cons hopen, rewriteContent_cons hline,
    List.append_assoc, rewriteContent_replicate, rewriteContent_append_cons hspace,
    rewriteContent_plain hgroup, rewriteContent_append_cons hspace, rewriteContent_cons hcolon,
    rewriteContent_cons hspace, rewriteContent_append_cons hspace, rewriteContent_cons hopen,
    rewriteContent_cons hline, List.append_assoc, rewriteContent_replicate,
    rewriteContent_append_cons hcolon, rewriteContent_plain hplayers, rewriteContent_cons hspace,
    rewriteContent_append_cons hline, rewriteContent_playersText, rewriteContent_replicate,
    rewriteContent_cons hclose, rewriteContent_cons hline, rewriteContent_replicate,
    rewriteContent_cons hclose, rewriteContent_nil, List.append_assoc, List.append_assoc]

/-! ## What the renaming of the template changes -/

/-- The role is no token, or the player is that whose renamed role is restored. -/
def KeepsRole (q : JcmPlayer) : Prop :=
  IsPlain q.role ∨ q = ⟨"supervisor".toList, 2, "supervisor".toList⟩

instance (q : JcmPlayer) : Decidable (KeepsRole q) := inferInstanceAs (Decidable (_ ∨ _))

theorem supervisor_mem : "supervisor".toList ∈ CANONICAL_TOKENS := List.mem_cons_self

/-- The role of such a player is the same after the renaming. -/
theorem restoreRole_rewritePlayer {q : JcmPlayer} (h : KeepsRole q) (runId : ℤ) :
    restoreRole runId (rewritePlayer wide runId q) = q.role := by
  unfold restoreRole rewritePlayer
  rcases h with hplain | rfl
  · rw [rewriteContent_plain hplain, if_neg]
    rintro ⟨-, -, hrole⟩
    -- a renamed token continues a token
    refine (hplain.2.2 _ supervisor_mem).2 ⟨str runId, ?_⟩
    rw [hrole, renamed, List.append_assoc, List.singleton_append]
  · rw [if_pos ⟨rewriteContent_token supervisor_mem runId, rfl,
      rewriteContent_token supervisor_mem runId⟩]

/-- The players of the template. -/
theorem keepsRole_template :
    ∀ o ∈ template.organisations, ∀ q ∈ o.group.players, KeepsRole q := by decide

/-- The roles of all players are kept by the renaming. -/
theorem rename_eq {p : JcmProject} {runId : ℤ}
    (h : ∀ o ∈ p.organisations, ∀ q ∈ o.group.players,
      restoreRole runId (rewritePlayer wide runId q) = q.role) :
    p.rename wide runId = p.mapFields (rewriteContent wide · runId) := by
  have horganisations : ((p.rewrite wide runId).mapRoles (restoreRole runId)).organisations =
      (p.mapFields (rewriteContent wide · runId)).organisations := by
    show List.map _ (List.map _ (List.map _ p.organisations)) = List.map _ p.organisations
    rw [List.map_map, List.map_map]
    apply List.map_congr_left
    intro o ho
    have hplayers : (((o.group.players.map fun q =>
        (⟨rewriteContent wide q.agent runId, q.spaces, q.role⟩ : JcmPlayer)).map fun q =>
          { q with role := rewriteContent wide q.role runId }).map fun q =>
          { q with role := restoreRole runId q }) =
        o.group.players.map fun q =>
          (⟨rewriteContent wide q.agent runId, q.spaces, q.role⟩ : JcmPlayer) := by
      rw [List.map_map, List.map_map]
      apply List.map_congr_left
      intro q hq
      show (⟨_, _, restoreRole runId (rewritePlayer wide runId q)⟩ : JcmPlayer) = _
      rw [h o ho q hq]
    show (⟨_, _, ⟨_, _, _⟩⟩ : JcmOrganisation) = ⟨_, _, ⟨_, _, _⟩⟩
    rw [hplayers]
  unfold rename
  rw [show (p.rewrite wide runId).mapRoles (restoreRole runId) =
      ⟨(p.mapFields (rewriteContent wide · runId)).agents,
        (p.mapFields (rewriteContent wide · runId)).workspaces,
        ((p.rewrite wide runId).mapRoles (restoreRole runId)).organisations⟩ from rfl,
    horganisations]

theorem mapFields_mapFields (f g : FileText → FileText) (p : JcmProject) :
    (p.mapFields f).mapFields g = p.mapFields (g ∘ f) := by
  show (⟨List.map _ (List.map _ _), List.map _ (List.map _ _), List.map _ (List.map _ _)⟩ :
    JcmProject) = ⟨_, _, _⟩
  rw [List.map_map, List.map_map, List.map_map]
  congr 2
  funext o
  show (⟨_, _, ⟨_, _, List.map _ (List.map _ _)⟩⟩ : JcmOrganisation) = ⟨_, _, _⟩
  rw [List.map_map]
  rfl

/-- The placeholder stands in bodies only. -/
theorem fillRunId_eq (runId : ℤ) : template.fillRunId runId =
    { template with
      agents := template.agents.map fun a => { a with
        body := replace "\x7b\x7bRUN_ID\x7d\x7d".toList (str runId) a.body }
      workspaces := template.workspaces.map fun w => { w with
        body := replace "\x7b\x7bRUN_ID\x7d\x7d".toList (str runId) w.body } } := by
  have hagents : ∀ a ∈ template.agents, '\x7b' ∉ a.name ∧ '\x7b' ∉ a.file := by decide
  have hworkspaces : ∀ w ∈ template.workspaces, '\x7b' ∉ w.name := by decide
  have hreplace : ∀ {s : FileText}, '\x7b' ∉ s →
      replace "\x7b\x7bRUN_ID\x7d\x7d".toList (str runId) s = s :=
    fun h => replace_of_not_mem (str runId) h
  have hagents' : (template.fillRunId runId).agents = template.agents.map fun a => { a with
      body := replace "\x7b\x7bRUN_ID\x7d\x7d".toList (str runId) a.body } := by
    apply List.map_congr_left
    intro a ha
    rw [hreplace (hagents a ha).1, hreplace (hagents a ha).2]
  have hworkspaces' : (template.fillRunId runId).workspaces =
      template.workspaces.map fun w => { w with
        body := replace "\x7b\x7bRUN_ID\x7d\x7d".toList (str runId) w.body } := by
    apply List.map_congr_left
    intro w hw
    rw [hreplace (hworkspaces w hw)]
  have horganisations : (template.fillRunId runId).organisations = template.organisations := rfl
  rw [← hagents', ← hworkspaces']
  show _ = (⟨_, _, template.organisations⟩ : JcmProject)
  rw [← horganisations]

theorem rename_fill (runId : ℤ) : (template.fillRunId runId).rename wide runId =
    (template.fillRunId runId).mapFields (rewriteContent wide · runId) := by
  apply rename_eq
  rw [fillRunId_eq]
  exact fun o ho q hq => restoreRole_rewritePlayer (keepsRole_template o ho q hq) runId

/-- Renaming changes the whole words that are tokens, and in the template no role. -/
theorem renamesNames (wide : Char → Bool) (runId : ℤ) : RenamesNames wide runId := by
  have hcontent : (rewriteContent wide · runId) =
      mapWords (isWordChar wide) (renameWord CANONICAL_TOKENS runId) := by
    funext content
    exact rewriteContent_eq content runId
  refine ⟨fun content => congrFun hcontent content, ?_⟩
  rw [rename_fill, hcontent]

/-- The renaming of the renamed template restores its roles again. -/
theorem renamesOnce (wide : Char → Bool) (runId : ℤ) : RenamesOnce wide runId := by
  refine ⟨fun content => rewriteContent_rewriteContent content runId, ?_⟩
  have hroles : ∀ o ∈ ((template.fillRunId runId).rename wide runId).organisations,
      ∀ q ∈ o.group.players, restoreRole runId (rewritePlayer wide runId q) = q.role := by
    rw [rename_fill, fillRunId_eq]
    intro o ho q hq
    obtain ⟨o', ho', rfl⟩ := List.mem_map.1 ho
    obtain ⟨q', hq', rfl⟩ := List.mem_map.1 hq
    have hsame : restoreRole runId (rewritePlayer wide runId q') = q'.role :=
      restoreRole_rewritePlayer (keepsRole_template o' ho' q' hq') runId
    -- the agent of a renamed player is renamed already
    rw [restoreRole, rewritePlayer] at hsame ⊢
    rw [rewriteContent_rewriteContent]
    exact hsame
  rw [rename_eq hroles, rename_fill, mapFields_mapFields]
  congr 1
  funext content
  exact rewriteContent_rewriteContent content runId

/-! ## The names of a run -/

theorem digits_ascii {n : ℕ} {c : Char} (hc : c ∈ digits n) : nameChar c = true ∧ c ≠ '_' := by
  have h : ∀ c ∈ "0123456789".toList, nameChar c = true ∧ c ≠ '_' := by decide
  exact h c (mem_digits hc)

/-- The number that a text of digits denotes. -/
def digitsValue (s : FileText) : ℕ := Nat.ofDigits 10 (s.reverse.map fun c => c.toNat - '0'.toNat)

theorem digitsValue_digits (n : ℕ) : digitsValue (digits n) = n := by
  have hchar : ∀ d < 10, (Nat.digitChar d).toNat - '0'.toNat = d := by decide
  unfold digitsValue digits
  split
  · next hn =>
    rw [hn]
    rfl
  · have hmap : (Nat.digits 10 n).map ((fun c => c.toNat - '0'.toNat) ∘ Nat.digitChar) =
        Nat.digits 10 n :=
      (List.map_congr_left fun d hd => hchar d (Nat.digits_lt_base (by decide) hd)).trans
        (List.map_id _)
    rw [← List.map_reverse, List.reverse_reverse, List.map_map, hmap, Nat.ofDigits_digits]

/-- A name of a run with a nonnegative id tells the run. -/
theorem runId_of_renamed {r r' : ℤ} (hr : 0 ≤ r) (hr' : 0 ≤ r') {t t' : FileText}
    (h : renamed r t = renamed r' t') : r = r' := by
  have hstr : ∀ {r : ℤ}, 0 ≤ r → str r = digits r.natAbs := fun hr => if_neg (Int.not_lt.2 hr)
  rw [renamed, renamed, hstr hr, hstr hr'] at h
  have hlast : digits r.natAbs = digits r'.natAbs := by
    have hno : ∀ n : ℕ, '_' ∉ digits n := fun n hmem => (digits_ascii hmem).2 rfl
    rcases List.append_eq_append_iff.1 h with ⟨u, -, hu⟩ | ⟨u, -, hu⟩
    · cases u with
      | nil => exact (List.cons.inj hu).2
      | cons c u =>
        refine absurd ?_ (hno r.natAbs)
        rw [(List.cons.inj hu).2]
        exact List.mem_append_right _ List.mem_cons_self
    · cases u with
      | nil => exact (List.cons.inj hu).2.symm
      | cons c u =>
        refine absurd ?_ (hno r'.natAbs)
        rw [(List.cons.inj hu).2]
        exact List.mem_append_right _ List.mem_cons_self
  have habs := congrArg digitsValue hlast
  rw [digitsValue_digits, digitsValue_digits] at habs
  omega

/-- The block patterns match a renamed token iff the id is nonnegative. -/
theorem matchesName_renamed {t : FileText} (ht : t ∈ CANONICAL_TOKENS) (r : ℤ) :
    matchesName (renamed r t) = true ↔ 0 ≤ r := by
  have hname : ∀ t ∈ CANONICAL_TOKENS, t.all nameChar = true := by decide
  have hdigits : (digits r.natAbs).all nameChar = true :=
    List.all_eq_true.2 fun c hc => (digits_ascii hc).1
  have hunder : nameChar '_' = true := rfl
  have hminus : nameChar '-' = false := rfl
  have hne : (renamed r t).isEmpty = false :=
    List.isEmpty_eq_false_iff.2 (List.append_ne_nil_of_right_ne_nil _ (List.cons_ne_nil _ _))
  rw [matchesName, hne, renamed, List.all_append, hname t ht, List.all_cons, hunder]
  unfold str
  split
  · next hneg =>
    rw [List.all_cons, hminus]
    exact ⟨fun h => Bool.noConfusion h, fun h => absurd hneg (Int.not_lt.2 h)⟩
  · next hneg =>
    rw [hdigits]
    exact ⟨fun _ => Int.not_lt.1 hneg, fun _ => rfl⟩

/-- The names of the template but those of groups are tokens. -/
theorem template_names : (∀ a ∈ template.agents, a.name ∈ CANONICAL_TOKENS) ∧
    (∀ w ∈ template.workspaces, w.name ∈ CANONICAL_TOKENS) ∧
    ∀ o ∈ template.organisations, o.name ∈ CANONICAL_TOKENS := by decide

/-- The declared agents, workspaces and organisations of a run are renamed tokens. -/
theorem names_ofRun {r : ℤ} {kind : NameKind} (hkind : kind ≠ .group) {n : FileText}
    (hn : n ∈ (ofRun wide r).names kind) : 0 ≤ r ∧ ∃ t, n = renamed r t := by
  have hname : ∀ {t : FileText}, t ∈ CANONICAL_TOKENS →
      matchesName (rewriteContent wide t r) = true → 0 ≤ r ∧ ∃ t', rewriteContent wide t r =
        renamed r t' := by
    intro t ht hmatch
    rw [rewriteContent_token ht] at hmatch ⊢
    exact ⟨(matchesName_renamed ht r).1 hmatch, t, rfl⟩
  rw [ofRun, rename_fill, fillRunId_eq] at hn
  cases kind with
  | agent =>
    obtain ⟨a, ha, rfl⟩ := List.mem_map.1 hn
    obtain ⟨a', ha', rfl⟩ := List.mem_map.1 ha
    obtain ⟨hmem, hmatch⟩ := List.mem_filter.1 ha'
    obtain ⟨b, hb, rfl⟩ := List.mem_map.1 hmem
    obtain ⟨b', hb', rfl⟩ := List.mem_map.1 hb
    simp only [Bool.and_eq_true] at hmatch
    exact hname (template_names.1 b' hb') hmatch.1.1
  | workspace =>
    obtain ⟨w, hw, rfl⟩ := List.mem_map.1 hn
    obtain ⟨hmem, hmatch⟩ := List.mem_filter.1 hw
    obtain ⟨b, hb, rfl⟩ := List.mem_map.1 hmem
    obtain ⟨b', hb', rfl⟩ := List.mem_map.1 hb
    rw [Bool.and_eq_true] at hmatch
    exact hname (template_names.2.1 b' hb') hmatch.1
  | organisation =>
    obtain ⟨o, ho, rfl⟩ := List.mem_map.1 hn
    obtain ⟨hmem, hmatch⟩ := List.mem_filter.1 ho
    obtain ⟨b, hb, rfl⟩ := List.mem_map.1 hmem
    rw [Bool.and_eq_true] at hmatch
    exact hname (template_names.2.2 b hb) hmatch.1
  | group => exact absurd rfl hkind

/-- **Two runs share no agent, workspace or organisation.** -/
theorem names_disjoint {r r' : ℤ} (hne : r ≠ r') {kind : NameKind} (hkind : kind ≠ .group)
    {n : FileText} (hn : n ∈ (ofRun wide r).names kind) : n ∉ (ofRun wide r').names kind := by
  intro hn'
  obtain ⟨hr, t, ht⟩ := names_ofRun hkind hn
  obtain ⟨hr', t', ht'⟩ := names_ofRun hkind hn'
  exact hne (runId_of_renamed hr hr' (ht.symm.trans ht'))

/-- A run with a negative id declares no group either. -/
theorem nonneg_of_group {r : ℤ} {n : FileText} (hn : n ∈ (ofRun wide r).names .group) :
    0 ≤ r := by
  obtain ⟨o, ho, -⟩ := List.mem_map.1 hn
  exact (names_ofRun (show NameKind.organisation ≠ .group by decide)
    (List.mem_map.2 ⟨o, ho, rfl⟩)).1

/-- The file of an organisation is matched. -/
theorem rewriteContent_prosa (r : ℤ) :
    rewriteContent wide "prosa_org.xml".toList r = "prosa_org.xml".toList := by
  have hprosa : IsPlain "prosa_org".toList := by decide
  have hxml : IsPlain "xml".toList := by decide
  have hdot : isWordChar wide '.' = false := rfl
  rw [show "prosa_org.xml".toList = "prosa_org".toList ++ '.' :: "xml".toList by decide,
    rewriteContent_append_cons hdot, rewriteContent_plain hprosa, rewriteContent_plain hxml]

/-- Every run with a nonnegative id declares the group `holonic_factory`. -/
theorem holonic_factory_mem {r : ℤ} (hr : 0 ≤ r) :
    "holonic_factory".toList ∈ (ofRun wide r).names .group := by
  have hgroup : IsPlain "holonic_factory".toList := by decide
  have htoken : "factory_prosa_org".toList ∈ CANONICAL_TOKENS := by decide
  have hfile : matchesFile ".xml".toList "prosa_org.xml".toList = true := by decide
  rw [ofRun, rename_fill, fillRunId_eq]
  refine List.mem_map.2 ⟨⟨rewriteContent wide "factory_prosa_org".toList r,
    rewriteContent wide "prosa_org.xml".toList r,
    rewriteContent wide "holonic_factory".toList r, rewriteContent wide "shop_floor".toList r,
    templatePlayers.map fun q => ⟨rewriteContent wide q.agent r, q.spaces, q.role⟩⟩, ?_,
    rewriteContent_plain hgroup r⟩
  refine List.mem_filter.2 ⟨List.mem_cons_self, ?_⟩
  show (matchesName (rewriteContent wide "factory_prosa_org".toList r) &&
    matchesFile ".xml".toList (rewriteContent wide "prosa_org.xml".toList r)) = true
  rw [rewriteContent_token htoken, (matchesName_renamed htoken r).2 hr, rewriteContent_prosa, hfile]
  rfl

/-! ## The merged project -/

/-- **The merged project** shares no name between two runs iff at most one of the ids is
nonnegative; the renaming itself is complete, exact and idempotent for every id. -/
theorem merged_iff (wide : Char → Bool) (ids : Finset ℤ) :
    (SharesNoName wide ids ∧ (∀ r ∈ ids, RenamesNames wide r) ∧ ∀ r ∈ ids, RenamesOnce wide r) ↔
      (ids.filter (0 ≤ ·)).card ≤ 1 := by
  rw [Finset.card_le_one]
  constructor
  · rintro ⟨hshares, -, -⟩ r hr r' hr'
    obtain ⟨hr, hpos⟩ := Finset.mem_filter.1 hr
    obtain ⟨hr', hpos'⟩ := Finset.mem_filter.1 hr'
    by_contra hne
    exact hshares r hr r' hr' hne .group _ (holonic_factory_mem hpos) (holonic_factory_mem hpos')
  · intro hone
    refine ⟨fun r hr r' hr' hne kind n hn hn' => ?_, fun r _ => renamesNames wide r,
      fun r _ => renamesOnce wide r⟩
    by_cases hkind : kind = .group
    · subst hkind
      exact hne (hone r (Finset.mem_filter.2 ⟨hr, nonneg_of_group hn⟩) r'
        (Finset.mem_filter.2 ⟨hr', nonneg_of_group hn'⟩))
    · exact names_disjoint hne hkind hn hn'

/-- The runs 0 and 1 share the group `holonic_factory`. -/
theorem not_sharesNoName : ¬ SharesNoName (fun _ => false) {0, 1} := by
  intro h
  exact h 0 (by decide) 1 (by decide) (by decide) .group "holonic_factory".toList
    (holonic_factory_mem (by decide)) (holonic_factory_mem (by decide))

end JcmProject

end MatrixFactory
