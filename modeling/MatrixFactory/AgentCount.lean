/-
# The agents that a simulator counts

`MainSimulator` keeps the number of matches in the project file, and 13, the agents of one run,
where there is none.

In the merged project the names end in the run, and the count is right for every run that has
agents there.  In the file of a single run the names are those of the template, some of which end
in a number of their own: the pattern takes `order_3` for an agent of the run 3.
-/
import MatrixFactory.AgentPattern
import Mathlib.Algebra.BigOperators.Group.List.Basic

namespace MatrixFactory

open Words LineScan Generator

namespace MainSimulator

/-- The count that the constructor sets. -/
def registeredAgentCount (runId : ℤ) (jcmContent : FileText) : ℕ :=
  if 0 < findCount runId jcmContent then findCount runId jcmContent else 13

end MainSimulator

/-! ## The files -/

namespace JcmProject

/-- What stands after each agent of the template. -/
def agentGaps : List FileText :=
  ("\n\n    // Five concurrent Order Holons for PROSA concurrency testing.
    // Each agent carries order_holon_id so the supervisor can address it by name.\n    ".toList) ::
  List.replicate 4 "\n    ".toList ++
  ("\n\n    // Resource Holons — additionally focus supervisor_artifact for " ++
    "registerLock/releaseLock\n    ").toList ::
  List.replicate 4 "\n    ".toList ++ ["\n\n    ".toList, "\n    ".toList, "\n\n    ".toList]

/-- Blocks, each with what stands after it. -/
def withGaps {α : Type} (text : α → FileText) (blocks : List α) (gaps : List FileText) : FileText :=
  (List.zipWith (fun block gap => text block ++ gap) blocks gaps).flatten

/-- The project file of a single run: the template with the run in place of its placeholder, which
stands in bodies only. -/
def singleRunFile (runId : ℤ) : FileText :=
  let p := template.fillRunId runId
  "mas factory_twin \x7b\n\n    ".toList ++ (withGaps agentText p.agents agentGaps ++
    (withGaps workspaceText p.workspaces ["\n\n    ".toList] ++
      withGaps organisationText p.organisations ["\n\n    ".toList, "\n\x7d\n".toList]))

/-- The blocks of one kind of all runs, with an empty line between them and after them. -/
def joined (blocks : List FileText) : FileText :=
  List.intercalate "\n\n".toList blocks ++ "\n\n".toList

/-- The merged project file of the runs. -/
def mergedFile (wide : Char → Bool) (ids : List ℤ) : FileText :=
  "mas factory_twin_phase4 \x7b\n\n".toList ++
    (joined (ids.flatMap fun r => (ofRun wide r).agents.map agentText) ++
      (joined (ids.flatMap fun r => (ofRun wide r).workspaces.map workspaceText) ++
        (joined (ids.flatMap fun r => (ofRun wide r).organisations.map organisationText) ++
          "\x7d\n".toList)))

/-- The ids of the runs of a merged project. -/
def runIds (runStartId : ℤ) (runCount : ℕ) : List ℤ :=
  (List.range runCount).map fun k : ℕ => runStartId + k

end JcmProject

/-! ## The scan of a file -/

namespace JcmProject

open MainSimulator

/-- A gap between two blocks ends with white space at the beginning of a line. -/
structure CleanGap (gap : FileText) : Prop where
  quiet : QuietText false gap
  last : ∀ c ∈ gap.getLast?, c ∉ keyword
  fresh : endFresh isSpace isLineEnd false gap = true

/-- **The blocks of one kind**, each with what stands after it. -/
theorem countFrom_withGaps (runId : ℤ) {α : Type} {text : α → FileText} {n : α → ℕ}
    {blocks : List α} {gaps : List FileText} (hlength : blocks.length ≤ gaps.length)
    (hblocks : ∀ block ∈ blocks, ∀ s,
      countFrom isSpace isLineEnd (afterAgent runId) 0 true (text block ++ s) =
        n block + countFrom isSpace isLineEnd (afterAgent runId) 0 false s)
    (hgaps : ∀ gap ∈ gaps, CleanGap gap) (s : FileText) :
    countFrom isSpace isLineEnd (afterAgent runId) 0 true (withGaps text blocks gaps ++ s) =
      (blocks.map n).sum + countFrom isSpace isLineEnd (afterAgent runId) 0 true s := by
  induction blocks generalizing gaps with
  | nil => rw [List.map_nil, List.sum_nil, Nat.zero_add, withGaps, List.zipWith_nil_left]; rfl
  | cons block blocks ih =>
    cases gaps with
    | nil => exact absurd hlength (Nat.not_succ_le_zero _)
    | cons gap gaps =>
      obtain ⟨hquiet, hlast, hfresh⟩ := hgaps gap List.mem_cons_self
      have hrest := ih (Nat.le_of_succ_le_succ hlength)
        (fun b hb => hblocks b (List.mem_cons_of_mem _ hb))
        (fun g hg => hgaps g (List.mem_cons_of_mem _ hg))
      have htext : withGaps text (block :: blocks) (gap :: gaps) ++ s =
          text block ++ (gap ++ (withGaps text blocks gaps ++ s)) := by
        simp only [withGaps, List.zipWith_cons_cons, List.flatten_cons, List.append_assoc]
      rw [htext, hblocks block List.mem_cons_self,
        countFrom_quiet (afterAgent_none runId) hquiet hlast, hfresh, hrest, List.map_cons,
        List.sum_cons, Nat.add_assoc]

instance (gap : FileText) : Decidable (CleanGap gap) :=
  decidable_of_iff (QuietText false gap ∧ (∀ c ∈ gap.getLast?, c ∉ keyword) ∧
    endFresh isSpace isLineEnd false gap = true)
    ⟨fun h => ⟨h.1, h.2.1, h.2.2⟩, fun h => ⟨h.quiet, h.last, h.fresh⟩⟩

theorem cleanGap_blank : CleanGap "\n\n".toList := by decide

/-- **The blocks of one kind** of all runs. -/
theorem countFrom_joined (runId : ℤ) {α : Type} {text : α → FileText} {n : α → ℕ}
    {blocks : List α} (hblocks : ∀ block ∈ blocks, ∀ s,
      countFrom isSpace isLineEnd (afterAgent runId) 0 true (text block ++ s) =
        n block + countFrom isSpace isLineEnd (afterAgent runId) 0 false s) (s : FileText) :
    countFrom isSpace isLineEnd (afterAgent runId) 0 true (joined (blocks.map text) ++ s) =
      (blocks.map n).sum + countFrom isSpace isLineEnd (afterAgent runId) 0 true s := by
  obtain ⟨hquiet, hlast, hfresh⟩ := cleanGap_blank
  induction blocks with
  | nil =>
    have hquiet : QuietText true "\n\n".toList := by decide
    have hfresh : endFresh isSpace isLineEnd true "\n\n".toList = true := by decide
    show countFrom _ _ _ 0 true ("\n\n".toList ++ s) = _
    rw [countFrom_quiet (afterAgent_none runId) hquiet hlast, hfresh, List.map_nil, List.sum_nil,
      Nat.zero_add]
  | cons block blocks ih =>
    have hblock := hblocks block List.mem_cons_self
    have hrest := ih fun b hb => hblocks b (List.mem_cons_of_mem _ hb)
    have hgap : ∀ t, countFrom isSpace isLineEnd (afterAgent runId) 0 false ("\n\n".toList ++ t) =
        countFrom isSpace isLineEnd (afterAgent runId) 0 true t := by
      intro t
      rw [countFrom_quiet (afterAgent_none runId) hquiet hlast, hfresh]
    rw [List.map_cons, List.map_cons, List.sum_cons, Nat.add_assoc]
    cases blocks with
    | nil =>
      show countFrom _ _ _ 0 true ((text block ++ []) ++ "\n\n".toList ++ s) = _
      rw [List.append_nil, List.append_assoc, hblock, hgap]
      simp
    | cons block' blocks =>
      have htext : joined (text block :: (block' :: blocks).map text) ++ s =
          text block ++ ("\n\n".toList ++ (joined ((block' :: blocks).map text) ++ s)) := by
        simp [joined, List.intercalate, List.append_assoc]
      rw [htext, hblock, hgap, hrest]

/-! ## The file of a single run -/

theorem CleanGap.of_literal {s : String} {l : FileText} (hs : String.ofList l = s)
    (h : CleanGap l) : CleanGap s.toList := by
  rw [toList_of_literal hs]
  exact h

theorem CleanGap.of_literals {s s' : String} {l l' : FileText} (hs : String.ofList l = s)
    (hs' : String.ofList l' = s') (h : CleanGap (l ++ l')) : CleanGap (s.toList ++ s'.toList) := by
  rw [toList_of_literal hs, toList_of_literal hs']
  exact h

set_option maxRecDepth 20000 in
theorem cleanGap_agents : ∀ gap ∈ agentGaps, CleanGap gap := by
  have hline : CleanGap "\n    ".toList := .of_literal rfl (by decide)
  have hempty : CleanGap "\n\n    ".toList := .of_literal rfl (by decide)
  have hrow : ∀ gap ∈ List.replicate 4 "\n    ".toList, CleanGap gap := by
    intro gap hgap
    rw [List.eq_of_mem_replicate hgap]
    exact hline
  unfold agentGaps
  simp only [List.forall_mem_cons, List.forall_mem_append, String.toList_append,
    -String.reduceToList]
  refine ⟨⟨⟨.of_literal rfl ?_, hrow⟩, ?_, hrow⟩, hempty, hline, hempty, nofun⟩
  · decide
  · exact .of_literals rfl rfl (by decide)

/-- The template's agents in the file of a single run. -/
theorem cleanAgent_single (runId : ℤ) : ∀ a ∈ (template.fillRunId runId).agents, CleanAgent a := by
  have hnames : ∀ a ∈ template.agents,
      matchesName a.name = true ∧ ∀ c ∈ a.file, isLineEnd c = false := by decide
  rw [fillRunId_eq]
  rintro a ha
  obtain ⟨b, hb, rfl⟩ := List.mem_map.mp ha
  exact ⟨(hnames b hb).1, (hnames b hb).2, ((plainBody_agents b hb).fill runId).1⟩

/-- A token at the beginning of a name. -/
theorem clean_token {t : FileText} (ht : t ∈ CANONICAL_TOKENS) {v : FileText}
    (hv : ∀ c ∈ v, isLineEnd c = false) : (∀ c ∈ t ++ v, isLineEnd c = false) ∧
      (∃ c s, t ++ v = c :: s ∧ isSpace c = false) ∧ keyword.length ≤ (t ++ v).length ∧
        ¬keyword <+: t ++ v := by
  have hname : ∀ t ∈ CANONICAL_TOKENS, t ≠ [] ∧ ∀ c ∈ t, nameChar c = true := by decide
  obtain ⟨hne, hplain⟩ := hname t ht
  obtain ⟨hlong, hnot⟩ := keyword_le_token t ht
  refine ⟨fun c hc => ?_, ?_, ?_, fun hpre => ?_⟩
  · rcases List.mem_append.mp hc with hc | hc
    · exact (plain_of_nameChar (hplain c hc)).2
    · exact hv c hc
  · obtain ⟨c, s, rfl⟩ := List.exists_cons_of_ne_nil hne
    exact ⟨c, s ++ v, rfl, (plain_of_nameChar (hplain c List.mem_cons_self)).1⟩
  · rw [List.length_append]
    exact Nat.le_add_right_of_le hlong
  · exact hnot (List.prefix_of_prefix_length_le hpre (List.prefix_append t v) hlong)

theorem tokens_players : ∀ o ∈ template.organisations, o.group.players ≠ [] ∧
    ∀ q ∈ o.group.players, q.agent ∈ CANONICAL_TOKENS := by decide

theorem inline_organisations : ∀ o ∈ template.organisations,
    (∀ s ∈ [o.name, o.file, o.group.name, o.group.type], ∀ c ∈ s, isLineEnd c = false) ∧
      ∀ q ∈ o.group.players, ∀ c ∈ q.role, isLineEnd c = false := by decide

theorem cleanOrganisation_template : ∀ o ∈ template.organisations, CleanOrganisation o := by
  intro o ho
  obtain ⟨hinline, hroles⟩ := inline_organisations o ho
  refine ⟨hinline, fun q hq => ?_⟩
  have hclean := clean_token (v := []) ((tokens_players o ho).2 q hq) nofun
  rw [List.append_nil] at hclean
  refine ⟨fun c hc => ?_, hclean.2⟩
  rcases List.mem_append.mp hc with hc | hc
  · exact hclean.1 c hc
  · exact hroles q hq c hc

/-- The workspaces of the template declare no agent. -/
theorem quiet_workspaces_single (runId : ℤ) :
    ∀ w ∈ (template.fillRunId runId).workspaces, QuietText true (workspaceText w) := by
  have hnames : ∀ w ∈ template.workspaces, ∀ c ∈ w.name, isLineEnd c = false := by decide
  rw [fillRunId_eq]
  rintro w hw
  obtain ⟨b, hb, rfl⟩ := List.mem_map.mp hw
  exact quiet_workspaceText (hnames b hb) ((plainBody_workspaces b hb).fill runId).1

/-- **The file of a single run**: the agents of the template that are matched. -/
theorem findCount_single (runId : ℤ) : findCount runId (singleRunFile runId) =
    (template.agents.map fun a => if OfRun runId a.name then 1 else 0).sum := by
  have hheader : ∀ s, countFrom isSpace isLineEnd (afterAgent runId) 0 true
      ("mas factory_twin \x7b\n\n    ".toList ++ s) =
        countFrom isSpace isLineEnd (afterAgent runId) 0 true s := by
    have hquiet : QuietText true "mas factory_twin \x7b\n\n    ".toList := by decide
    have hlast : ∀ c ∈ "mas factory_twin \x7b\n\n    ".toList.getLast?, c ∉ keyword := by decide
    have hend : endFresh isSpace isLineEnd true "mas factory_twin \x7b\n\n    ".toList = true := by
      decide
    intro s
    rw [countFrom_quiet (afterAgent_none runId) hquiet hlast, hend]
  have hnames :
      (template.fillRunId runId).agents.map (fun a => if OfRun runId a.name then 1 else 0) =
      template.agents.map fun a => if OfRun runId a.name then 1 else 0 := by
    rw [fillRunId_eq, List.map_map]
    rfl
  have horganisations : (template.fillRunId runId).organisations = template.organisations := by
    rw [fillRunId_eq]
  have hlength : (template.fillRunId runId).agents.length ≤ agentGaps.length := by
    rw [fillRunId_eq, List.length_map]
    decide
  have hworkspaces : (template.fillRunId runId).workspaces.length ≤ 1 := by
    rw [fillRunId_eq, List.length_map]
    decide
  have hlast : ∀ gap ∈ ["\n\n    ".toList, "\n\x7d\n".toList], CleanGap gap := by
    rw [List.forall_mem_cons, List.forall_mem_singleton]
    constructor <;> decide
  unfold findCount singleRunFile
  rw [hheader, horganisations, countFrom_withGaps runId hlength
      (fun a ha => countFrom_agentText runId (cleanAgent_single runId a ha)) cleanGap_agents,
    countFrom_withGaps (n := fun _ => 0) runId hworkspaces
      (fun w hw => countFrom_block runId (quiet_workspaces_single runId w hw)
        (workspaceText_closed w))
      (fun gap hgap => hlast gap (List.mem_cons.mpr (.inl (List.mem_singleton.mp hgap)))),
    ← List.append_nil (withGaps organisationText _ _),
    countFrom_withGaps (n := fun _ => 0) runId (by decide)
      (fun o ho => countFrom_block runId
        (quiet_organisationText (cleanOrganisation_template o ho) (tokens_players o ho).1)
        (organisationText_closed o)) hlast, hnames]
  simp [countFrom]

/-! ## The merged file -/

variable {wide : Char → Bool}

/-- The renaming adds the run. -/
theorem mem_rewriteContent {s : FileText} {runId : ℤ} {c : Char}
    (hc : c ∈ rewriteContent wide s runId) : c ∈ s ∨ c ∈ '_' :: str runId := by
  rw [rewriteContent_eq] at hc
  refine mem_mapWords (P := fun c => c ∈ '_' :: str runId) (fun w c hc => ?_) hc
  rw [renameWord] at hc
  split_ifs at hc
  · exact List.mem_append.mp hc
  · exact .inl hc

theorem inline_run {r : ℤ} : ∀ c ∈ '_' :: str r, isLineEnd c = false := by
  intro c hc
  rcases List.mem_cons.mp hc with rfl | hc
  · rfl
  · exact (plain_str hc).2.1

theorem inline_rewrite {s : FileText} (h : ∀ c ∈ s, isLineEnd c = false) (runId : ℤ) :
    ∀ c ∈ rewriteContent wide s runId, isLineEnd c = false := fun c hc =>
  (mem_rewriteContent hc).elim (h c) (inline_run c)

/-- The agents of a run in the merged file, with the names of the run. -/
theorem cleanAgent_ofRun {r : ℤ} : ∀ a ∈ (ofRun wide r).agents,
    CleanAgent a ∧ 0 ≤ r ∧ ∃ t ∈ CANONICAL_TOKENS, a.name = renamed r t := by
  have hdirectory : ∀ c ∈ "build/phase4_asl/run_".toList, isLineEnd c = false := by decide
  intro a ha
  rw [ofRun, rename_fill, fillRunId_eq] at ha
  obtain ⟨a', ha', rfl⟩ := List.mem_map.mp ha
  obtain ⟨hmem, hmatch⟩ := List.mem_filter.mp ha'
  obtain ⟨b, hb, rfl⟩ := List.mem_map.mp hmem
  obtain ⟨b', hb', rfl⟩ := List.mem_map.mp hb
  simp only [Bool.and_eq_true] at hmatch
  obtain ⟨⟨hname, hfile⟩, -⟩ := hmatch
  have ht := template_names.1 b' hb'
  have hrenamed : rewriteContent wide b'.name r = renamed r b'.name := rewriteContent_token ht r
  refine ⟨⟨hname, fun c hc => ?_, ((plainBody_agents b' hb').fill r).rewrite r⟩, ?_, b'.name, ht,
    hrenamed⟩
  · rcases List.mem_append.mp hc with hc | hc
    · rcases List.mem_append.mp hc with hc | hc
      · exact hdirectory c hc
      · exact (plain_str hc).2.1
    · rcases List.mem_cons.mp hc with rfl | hc
      · rfl
      · -- the characters that the pattern of a file name allows
        have hall := (Bool.and_eq_true_iff.mp hfile).2
        rcases Bool.or_eq_true_iff.mp (List.all_eq_true.mp hall c hc) with hc | hc
        · exact (plain_of_nameChar hc).2
        · rw [beq_iff_eq.mp hc]
          rfl
  · exact (matchesName_renamed ht r).mp (hrenamed ▸ hname)

theorem quiet_workspaces_ofRun {r : ℤ} :
    ∀ w ∈ (ofRun wide r).workspaces, QuietText true (workspaceText w) := by
  intro w hw
  rw [ofRun, rename_fill, fillRunId_eq] at hw
  obtain ⟨hmem, hmatch⟩ := List.mem_filter.mp hw
  obtain ⟨b, hb, rfl⟩ := List.mem_map.mp hmem
  obtain ⟨b', hb', rfl⟩ := List.mem_map.mp hb
  have hname := (Bool.and_eq_true_iff.mp (Bool.and_eq_true_iff.mp hmatch).1).2
  refine quiet_workspaceText (fun c hc => ?_) (((plainBody_workspaces b' hb').fill r).rewrite r)
  exact (plain_of_nameChar (List.all_eq_true.mp hname c hc)).2

theorem cleanOrganisation_ofRun {r : ℤ} : ∀ o ∈ (ofRun wide r).organisations,
    CleanOrganisation o ∧ o.group.players ≠ [] := by
  intro o ho
  rw [ofRun, rename_fill, fillRunId_eq] at ho
  obtain ⟨hmem, -⟩ := List.mem_filter.mp ho
  obtain ⟨b, hb, rfl⟩ := List.mem_map.mp hmem
  obtain ⟨hinline, hroles⟩ := inline_organisations b hb
  obtain ⟨hne, htokens⟩ := tokens_players b hb
  refine ⟨⟨?_, fun q hq => ?_⟩, List.map_eq_nil_iff.not.mpr hne⟩
  · simp only [List.forall_mem_cons] at hinline ⊢
    exact ⟨inline_rewrite hinline.1 r, inline_rewrite hinline.2.1 r,
      inline_rewrite hinline.2.2.1 r, inline_rewrite hinline.2.2.2.1 r,
      fun c hc => absurd hc List.not_mem_nil⟩
  · obtain ⟨q', hq', rfl⟩ := List.mem_map.mp hq
    have hclean := clean_token (htokens q' hq') (inline_run (r := r))
    have hagent : rewriteContent wide q'.agent r = q'.agent ++ '_' :: str r :=
      rewriteContent_token (htokens q' hq') r
    dsimp only
    rw [hagent]
    refine ⟨fun c hc => ?_, hclean.2⟩
    rcases List.mem_append.mp hc with hc | hc
    · exact hclean.1 c hc
    · exact hroles q' hq' c hc

/-- **The merged file**: the agents of all runs that are matched. -/
theorem findCount_merged (runId : ℤ) (ids : List ℤ) : findCount runId (mergedFile wide ids) =
    ((ids.flatMap fun r => (ofRun wide r).agents).map
      fun a => if OfRun runId a.name then 1 else 0).sum := by
  have hheader : ∀ s, countFrom isSpace isLineEnd (afterAgent runId) 0 true
      ("mas factory_twin_phase4 \x7b\n\n".toList ++ s) =
        countFrom isSpace isLineEnd (afterAgent runId) 0 true s := by
    have hquiet : QuietText true "mas factory_twin_phase4 \x7b\n\n".toList := by decide
    have hlast : ∀ c ∈ "mas factory_twin_phase4 \x7b\n\n".toList.getLast?, c ∉ keyword := by
      decide
    have hend : endFresh isSpace isLineEnd true "mas factory_twin_phase4 \x7b\n\n".toList =
        true := by decide
    intro s
    rw [countFrom_quiet (afterAgent_none runId) hquiet hlast, hend]
  have hfooter : countFrom isSpace isLineEnd (afterAgent runId) 0 true "\x7d\n".toList = 0 := by
    have hquiet : QuietText true "\x7d\n".toList := by decide
    rw [← List.append_nil "\x7d\n".toList,
      countFrom_quiet (afterAgent_none runId) hquiet (by decide)]
    rfl
  have hagents : ∀ a ∈ ids.flatMap (fun r => (ofRun wide r).agents), CleanAgent a := by
    intro a ha
    obtain ⟨r, -, ha⟩ := List.mem_flatMap.mp ha
    exact (cleanAgent_ofRun a ha).1
  have hworkspaces : ∀ w ∈ ids.flatMap (fun r => (ofRun wide r).workspaces),
      QuietText true (workspaceText w) := by
    intro w hw
    obtain ⟨r, -, hw⟩ := List.mem_flatMap.mp hw
    exact quiet_workspaces_ofRun w hw
  have horganisations : ∀ o ∈ ids.flatMap (fun r => (ofRun wide r).organisations),
      QuietText true (organisationText o) := by
    intro o ho
    obtain ⟨r, -, ho⟩ := List.mem_flatMap.mp ho
    exact quiet_organisationText (cleanOrganisation_ofRun o ho).1 (cleanOrganisation_ofRun o ho).2
  unfold findCount mergedFile
  rw [hheader, ← List.map_flatMap, ← List.map_flatMap, ← List.map_flatMap,
    countFrom_joined runId (fun a ha => countFrom_agentText runId (hagents a ha)),
    countFrom_joined (n := fun _ => 0) runId
      (fun w hw => countFrom_block runId (hworkspaces w hw) (workspaceText_closed w)),
    countFrom_joined (n := fun _ => 0) runId
      (fun o ho => countFrom_block runId (horganisations o ho) (organisationText_closed o)),
    hfooter]
  simp

/-! ## The names of a run -/

/-- A name that ends in a number is of the run of that number only. -/
theorem ofRun_renamed {runId r : ℤ} (hr : 0 ≤ r) {t : FileText} (ht : t ≠ []) (hminus : '-' ∉ t) :
    OfRun runId (renamed r t) ↔ runId = r := by
  have hdigits : str r = digits r.natAbs := if_neg (Int.not_lt.mpr hr)
  constructor
  · rintro ⟨⟨u, hu⟩, -⟩
    rcases Int.lt_or_le runId 0 with hneg | hpos
    · -- the sign of the run stands in the name
      have hmem : '-' ∈ renamed r t := by
        rw [← hu, str, if_pos hneg]
        exact List.mem_append_right _ (List.mem_cons_of_mem _ List.mem_cons_self)
      rcases List.mem_append.mp hmem with hmem | hmem
      · exact absurd hmem hminus
      · rw [hdigits] at hmem
        rcases List.mem_cons.mp hmem with hmem | hmem
        · exact absurd hmem (by decide)
        · exact absurd (digits_ascii hmem).1 (by decide)
    · exact runId_of_renamed hpos hr hu
  · rintro rfl
    refine ⟨⟨t, rfl⟩, ?_⟩
    rw [renamed, List.length_append, List.length_cons]
    exact Nat.lt_add_of_pos_left (List.length_pos_of_ne_nil ht)

/-- A name of the template is of none but the first five runs. -/
theorem mem_of_template {runId : ℤ} {a : JcmAgent} (ha : a ∈ template.agents)
    (h : OfRun runId a.name) : 1 ≤ runId ∧ runId ≤ 5 := by
  have hnames : ∀ a ∈ template.agents, a.name = "supervisor".toList ∨
      ∃ k ∈ ([1, 2, 3, 4, 5] : List ℤ), ∃ t ∈ ["order".toList, "station".toList, "amr".toList],
        a.name = renamed k t := by decide
  have hkinds : ∀ t ∈ ["order".toList, "station".toList, "amr".toList], t ≠ [] ∧ '-' ∉ t := by
    decide
  have hrange : ∀ k ∈ ([1, 2, 3, 4, 5] : List ℤ), 0 ≤ k ∧ 1 ≤ k ∧ k ≤ 5 := by decide
  rcases hnames a ha with hname | ⟨k, hk, t, ht, hname⟩
  · -- no underscore
    have hunder : '_' ∉ "supervisor".toList := by decide
    rw [hname] at h
    exact absurd (h.1.subset List.mem_cons_self) hunder
  · rw [hname, ofRun_renamed (hrange k hk).1 (hkinds t ht).1 (hkinds t ht).2] at h
    rw [h]
    exact (hrange k hk).2

/-- **The agents of a run** in the blocks of all runs. -/
theorem sum_ofRun (r : ℤ) {ids : List ℤ} (hids : ids.Nodup) :
    ((ids.flatMap fun r' => (ofRun wide r').agents).map
      fun a => if OfRun r a.name then 1 else 0).sum =
        if r ∈ ids then (ofRun wide r).agents.length else 0 := by
  have htoken : ∀ t ∈ CANONICAL_TOKENS, t ≠ [] ∧ '-' ∉ t := by decide
  have hone : ∀ r', ((ofRun wide r').agents.map fun a => if OfRun r a.name then 1 else 0).sum =
      if r = r' then (ofRun wide r').agents.length else 0 := by
    intro r'
    have hmap : ((ofRun wide r').agents.map fun a => if OfRun r a.name then 1 else 0) =
        (ofRun wide r').agents.map fun _ => if r = r' then 1 else 0 := by
      apply List.map_congr_left
      intro a ha
      obtain ⟨-, hr', t, ht, hname⟩ := cleanAgent_ofRun a ha
      rw [hname]
      exact if_congr (ofRun_renamed hr' (htoken t ht).1 (htoken t ht).2) rfl rfl
    rw [hmap, List.map_const', List.sum_replicate]
    split_ifs <;> simp
  induction ids with
  | nil => rfl
  | cons r' ids ih =>
    obtain ⟨hnot, hids⟩ := List.nodup_cons.mp hids
    rw [List.flatMap_cons, List.map_append, List.sum_append, hone, ih hids]
    by_cases h : r = r'
    · subst h
      rw [if_pos rfl, if_neg hnot, if_pos List.mem_cons_self, Nat.add_zero]
    · have hiff : r ∈ r' :: ids ↔ r ∈ ids := by rw [List.mem_cons, or_iff_right h]
      rw [if_neg h, Nat.zero_add]
      exact if_congr hiff.symm rfl rfl

set_option maxRecDepth 20000 in
/-- The block of the first station. -/
theorem exists_station : ∃ a ∈ template.agents, a.name = "station_1".toList ∧
    a.file = "resource_holon.asl".toList ∧
      ∃ u, a.body = '\n' :: u ∧ '\x7b' ∉ u ∧ '\x7d' ∉ u := by
  have hbody : ∀ {s : String} {l : FileText}, String.ofList l = s →
      (∃ u, l = '\n' :: u ∧ '\x7b' ∉ u ∧ '\x7d' ∉ u) →
        ∃ u, s.toList = '\n' :: u ∧ '\x7b' ∉ u ∧ '\x7d' ∉ u := by
    intro s l hs h
    rw [toList_of_literal hs]
    exact h
  refine ⟨_, List.mem_of_getElem? (i := 6) rfl, rfl, rfl, ?_⟩
  dsimp only [-String.reduceToList]
  exact hbody rfl ⟨_, rfl, by decide, by decide⟩

/-- The block is merged: no brace closes its body early. -/
theorem agents_ofRun_ne_nil {r : ℤ} (hr : 0 ≤ r) : (ofRun wide r).agents ≠ [] := by
  have htoken : "station_1".toList ∈ CANONICAL_TOKENS := by decide
  have hholon : IsPlain "resource_holon".toList := by decide
  have hasl : IsPlain "asl".toList := by decide
  have hdot : isWordChar wide '.' = false := rfl
  have hline : isWordChar wide '\n' = false := rfl
  have hfile : rewriteContent wide "resource_holon.asl".toList r = "resource_holon.asl".toList := by
    rw [show "resource_holon.asl".toList = "resource_holon".toList ++ '.' :: "asl".toList by decide,
      rewriteContent_append_cons hdot, rewriteContent_plain hholon, rewriteContent_plain hasl]
  have hmatch : matchesFile ".asl".toList "resource_holon.asl".toList = true := by decide
  obtain ⟨a, ha, hname, haslfile, u, hbody, hopen, hclose⟩ := exists_station
  have hbrace : '\x7d' ∉ rewriteContent wide u r := by
    intro hmem
    rcases mem_rewriteContent hmem with hmem | hmem
    · exact hclose hmem
    · rcases List.mem_cons.mp hmem with hmem | hmem
      · exact absurd hmem (by decide)
      · have h : '\x7d' ∉ "-0123456789".toList := by decide
        exact h (mem_str hmem)
  intro hnil
  rw [ofRun, rename_fill, fillRunId_eq] at hnil
  have hnone := List.filter_eq_nil_iff.mp (List.map_eq_nil_iff.mp hnil)
  have hmem := hnone _ (List.mem_map_of_mem (List.mem_map_of_mem ha))
  dsimp only at hmem
  have hsame : replace "\x7b\x7bRUN_ID\x7d\x7d".toList (str r) ('\n' :: u) = '\n' :: u := by
    have hplaceholder : '\x7b' ∉ '\n' :: u := by
      rw [List.mem_cons, not_or]
      exact ⟨by decide, hopen⟩
    exact replace_of_not_mem (str r) hplaceholder
  have hcontains : matchesBody ('\n' :: rewriteContent wide u r) = true := by
    have hmem : '\x7d' ∉ '\n' :: rewriteContent wide u r := by
      rw [List.mem_cons, not_or]
      exact ⟨by decide, hbrace⟩
    simpa [matchesBody] using hmem
  rw [hname, haslfile, hbody, hsame, rewriteContent_token htoken,
    (matchesName_renamed htoken r).mpr hr, hfile, hmatch, rewriteContent_cons hline,
    hcontains] at hmem
  exact hmem rfl

/-! ## The registered count -/

/-- **The registered count** is the number of the agents of the run in the file of a single run iff
no name of the template ends in the run, and in a merged file iff the run has agents there. -/
theorem registeredAgentCount_iff (wide : Char → Bool) (runId : ℤ) :
    (registeredAgentCount runId (singleRunFile runId) =
        (template.fillRunId runId).agents.length ↔ ¬(1 ≤ runId ∧ runId ≤ 5)) ∧
      ∀ runStartId runCount, runId ∈ runIds runStartId runCount →
        (registeredAgentCount runId (mergedFile wide (runIds runStartId runCount)) =
          (ofRun wide runId).agents.length ↔ 0 ≤ runId) := by
  have hlength : (template.fillRunId runId).agents.length = 13 := by
    rw [fillRunId_eq, List.length_map]
    rfl
  constructor
  · rw [hlength, registeredAgentCount, findCount_single]
    constructor
    · rintro hcount ⟨hlow, hhigh⟩
      revert hcount
      have hsmall : runId = 1 ∨ runId = 2 ∨ runId = 3 ∨ runId = 4 ∨ runId = 5 := by omega
      rcases hsmall with rfl | rfl | rfl | rfl | rfl <;> decide
    · intro hrange
      have hzero : (template.agents.map fun a => if OfRun runId a.name then 1 else 0).sum = 0 := by
        refine List.sum_eq_zero fun n hn => ?_
        obtain ⟨a, ha, rfl⟩ := List.mem_map.mp hn
        exact if_neg fun h => hrange (mem_of_template ha h)
      rw [hzero]
      rfl
  · intro runStartId runCount hmem
    have hnodup : (runIds runStartId runCount).Nodup := by
      refine List.nodup_range.map fun a b h => ?_
      exact Int.natCast_inj.mp (Int.add_left_cancel h)
    rw [registeredAgentCount, findCount_merged, sum_ofRun runId hnodup, if_pos hmem]
    constructor
    · intro hcount
      by_contra hneg
      have hnil : (ofRun wide runId).agents = [] := by
        refine List.eq_nil_iff_forall_not_mem.mpr fun a ha => ?_
        exact hneg (cleanAgent_ofRun a ha).2.1
      rw [hnil] at hcount
      exact absurd hcount (by decide)
    · intro hpos
      exact if_pos (List.length_pos_of_ne_nil (agents_ofRun_ne_nil hpos))

/-- The run 7 has a file of its own and is one of eight merged runs. -/
theorem registeredAgentCount_iff_seven :
    registeredAgentCount 7 (singleRunFile 7) = (template.fillRunId 7).agents.length ∧
      registeredAgentCount 7 (mergedFile (fun _ => false) (runIds 0 8)) =
        (ofRun (fun _ => false) 7).agents.length := by
  obtain ⟨hsingle, hmerged⟩ := registeredAgentCount_iff (fun _ => false) 7
  exact ⟨hsingle.mpr (by decide), (hmerged 0 8 (by decide)).mpr (by decide)⟩

/-- In the file of the run 1 the pattern takes `order_1`, `station_1` and `amr_1` only. -/
theorem not_registeredAgentCount :
    registeredAgentCount 1 (singleRunFile 1) ≠ (template.fillRunId 1).agents.length := by
  have hlength : (template.fillRunId 1).agents.length = 13 := by
    rw [fillRunId_eq, List.length_map]
    rfl
  rw [hlength, registeredAgentCount, findCount_single]
  decide

end JcmProject

end MatrixFactory
