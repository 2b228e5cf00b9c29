/-
# The agent declarations of a project file

`MainSimulator` looks for the pattern `^\s*agent\s+\w+_<run>\s*:` in the project file.  The name
of an agent is matched if it ends in the run; the bodies of agents and workspaces and the blocks of
organisations have no match, also after the renaming for a run.
-/
import MatrixFactory.Lib.LineScan
import MatrixFactory.MergedProject

namespace MatrixFactory

open Words LineScan Generator

/-! ## The pattern -/

namespace MainSimulator

/-- The characters of `\s`. -/
def isSpace (c : Char) : Bool := c ∈ [' ', '\t', '\n', '\x0b', '\x0c', '\r']

/-- The line terminators, after which `^` matches. -/
def isLineEnd (c : Char) : Bool := c ∈ ['\n', '\r', '\u0085', '\u2028', '\u2029']

def keyword : FileText := ['a', 'g', 'e', 'n', 't']

/-- `_<run>\s*:`; what follows. -/
def afterRun (runId : ℤ) (s : FileText) : Option FileText :=
  if '_' :: str runId <+: s then
    match (s.drop (str runId).length.succ).dropWhile isSpace with
    | ':' :: rest => some rest
    | _ => none
  else none

/-- `\w+_<run>\s*:`, with as many characters of `\w` as possible; what follows. -/
def afterName (runId : ℤ) : FileText → Option FileText
  | [] => none
  | c :: s => if JcmProject.nameChar c then (afterName runId s).or (afterRun runId s) else none

/-- `agent\s+\w+_<run>\s*:`; what follows.  No name begins with a space. -/
def afterAgent (runId : ℤ) (s : FileText) : Option FileText :=
  if keyword <+: s then
    match s.drop keyword.length with
    | c :: rest => if isSpace c then afterName runId (rest.dropWhile isSpace) else none
    | [] => none
  else none

/-- How often the pattern is found. -/
def findCount (runId : ℤ) (jcmContent : FileText) : ℕ :=
  countFrom isSpace isLineEnd (afterAgent runId) 0 true jcmContent

/-- The name is matched: it ends in the run, after something else. -/
def OfRun (runId : ℤ) (name : FileText) : Prop :=
  '_' :: str runId <:+ name ∧ (str runId).length.succ < name.length

instance (runId : ℤ) (name : FileText) : Decidable (OfRun runId name) :=
  inferInstanceAs (Decidable (_ ∧ _))

end MainSimulator

/-! ## A match -/

namespace MainSimulator

theorem plain_of_nameChar {c : Char} (h : JcmProject.nameChar c = true) :
    isSpace c = false ∧ isLineEnd c = false := by
  have hspace : ∀ d ∈ [' ', '\t', '\n', '\x0b', '\x0c', '\r'], JcmProject.nameChar d = false := by
    decide
  have hend : ∀ d ∈ ['\n', '\r', '\u0085', '\u2028', '\u2029'], JcmProject.nameChar d = false := by
    decide
  constructor
  · refine decide_eq_false fun hmem => ?_
    exact Bool.false_ne_true ((hspace c hmem).symm.trans h)
  · refine decide_eq_false fun hmem => ?_
    exact Bool.false_ne_true ((hend c hmem).symm.trans h)

/-- The characters of a run id. -/
theorem mem_str {runId : ℤ} {c : Char} (hc : c ∈ str runId) : c ∈ "-0123456789".toList := by
  have hsub : "-0123456789".toList = '-' :: "0123456789".toList := by decide
  rw [hsub]
  unfold str at hc
  split at hc
  · rcases List.mem_cons.mp hc with rfl | hc
    · exact List.mem_cons_self
    · exact List.mem_cons_of_mem _ (mem_digits hc)
  · exact List.mem_cons_of_mem _ (mem_digits hc)

theorem plain_str {runId : ℤ} {c : Char} (hc : c ∈ str runId) :
    isSpace c = false ∧ isLineEnd c = false ∧ c ∉ keyword ∧ c.toNat < 128 := by
  have h : ∀ c ∈ "-0123456789".toList,
      isSpace c = false ∧ isLineEnd c = false ∧ c ∉ keyword ∧ c.toNat < 128 := by decide
  exact h c (mem_str hc)

theorem str_ne_nil (runId : ℤ) : str runId ≠ [] := by
  unfold str
  split
  · exact List.cons_ne_nil _ _
  · exact digits_ne_nil _

/-- `_<run>\s*:` after the beginning of a name. -/
theorem afterRun_name (runId : ℤ) {name : FileText} (hname : ∀ c ∈ name, JcmProject.nameChar c)
    (s : FileText) : afterRun runId (name ++ ' ' :: ':' :: s) =
      if name = '_' :: str runId then some s else none := by
  have hlength : (str runId).length.succ = ('_' :: str runId).length := rfl
  unfold afterRun
  rw [hlength]
  by_cases heq : name = '_' :: str runId
  · have hdrop : List.dropWhile isSpace (' ' :: ':' :: s) = ':' :: s := rfl
    rw [if_pos heq, heq, if_pos (List.prefix_append _ _), List.drop_left, hdrop]
    rfl
  · rw [if_neg heq]
    split_ifs with hpre
    · rcases prefix_append_cases hpre with ⟨t, rfl⟩ | ⟨t, ht⟩
      · -- the name goes on after the run
        rw [List.append_assoc, List.drop_left]
        cases t with
        | nil => exact absurd (List.append_nil _) heq
        | cons c t =>
          have hc : JcmProject.nameChar c = true :=
            hname c (List.mem_append_right _ List.mem_cons_self)
          have hcolon : c ≠ ':' := by
            rintro rfl
            exact Bool.false_ne_true hc
          rw [List.cons_append, List.dropWhile_cons_of_neg (by simp [(plain_of_nameChar hc).1])]
          split
          next rest hrest => exact absurd (List.cons.inj hrest).1 hcolon
          next => rfl
      · -- the run has no space
        cases t with
        | nil => exact absurd ((List.append_nil _).symm.trans ht) heq
        | cons c t =>
          rw [← ht, List.prefix_append_right_inj] at hpre
          have hmem : ' ' ∈ '_' :: str runId := by
            rw [← ht, (List.cons_prefix_cons.mp hpre).1]
            exact List.mem_append_right _ List.mem_cons_self
          rcases List.mem_cons.mp hmem with hspace | hspace
          · exact absurd hspace (by decide)
          · exact absurd (plain_str hspace).1 (by decide)
    · rfl

/-- `\w+_<run>\s*:` on a name. -/
theorem afterName_name (runId : ℤ) {name : FileText} (hname : ∀ c ∈ name, JcmProject.nameChar c)
    (s : FileText) : afterName runId (name ++ ' ' :: ':' :: s) =
      if OfRun runId name then some s else none := by
  induction name with
  | nil =>
    have hspace : JcmProject.nameChar ' ' = false := rfl
    rw [List.nil_append, afterName, hspace, if_neg Bool.false_ne_true,
      if_neg fun h => Nat.not_lt_zero _ h.2]
  | cons c name ih =>
    have hrest : ∀ d ∈ name, JcmProject.nameChar d := fun d hd =>
      hname d (List.mem_cons_of_mem c hd)
    have hiff : OfRun runId (c :: name) ↔ OfRun runId name ∨ name = '_' :: str runId := by
      unfold OfRun
      rw [List.suffix_cons_iff, List.length_cons]
      constructor
      · rintro ⟨heq | hsuffix, hlt⟩
        · have hlength := congrArg List.length heq
          simp only [List.length_cons] at hlength
          omega
        · rcases Nat.lt_or_eq_of_le (Nat.le_of_lt_succ hlt) with hlt | hlength
          · exact .inl ⟨hsuffix, hlt⟩
          · exact .inr (hsuffix.eq_of_length hlength).symm
      · rintro (⟨hsuffix, hlt⟩ | rfl)
        · exact ⟨.inr hsuffix, Nat.lt_succ_of_lt hlt⟩
        · exact ⟨.inr List.suffix_rfl, Nat.lt_succ_self _⟩
    rw [List.cons_append, afterName, hname c List.mem_cons_self, if_pos rfl, ih hrest,
      afterRun_name runId hrest]
    by_cases h : OfRun runId name
    · rw [if_pos h, if_pos (hiff.mpr (.inl h))]
      rfl
    · rw [if_neg h, Option.none_or]
      exact if_congr ((or_iff_right h).symm.trans hiff.symm) rfl rfl

/-- **A declaration** is counted if its agent is of the run. -/
theorem countFrom_agent (runId : ℤ) {name : FileText}
    (hname : JcmProject.matchesName name = true) (s : FileText) :
    countFrom isSpace isLineEnd (afterAgent runId) 0 true
        (keyword ++ ' ' :: (name ++ ' ' :: ':' :: s)) =
      (if OfRun runId name then 1 else 0) +
        countFrom isSpace isLineEnd (afterAgent runId) 0 false s := by
  obtain ⟨hne, hall⟩ := Bool.and_eq_true_iff.mp hname
  have hall : ∀ c ∈ name, JcmProject.nameChar c := List.all_eq_true.mp hall
  have hafter : afterAgent runId (keyword ++ ' ' :: (name ++ ' ' :: ':' :: s)) =
      if OfRun runId name then some s else none := by
    obtain ⟨c, name', rfl⟩ := List.exists_cons_of_ne_nil (l := name) (by
      rintro rfl
      exact Bool.false_ne_true hne)
    have hc : isSpace c = false := (plain_of_nameChar (hall c List.mem_cons_self)).1
    have hspace : isSpace ' ' = true := rfl
    rw [afterAgent, if_pos (List.prefix_append _ _), List.drop_left]
    show (if isSpace ' ' then afterName runId (List.dropWhile isSpace _) else none) = _
    rw [if_pos hspace, List.cons_append, List.dropWhile_cons_of_neg (by simp [hc]),
      ← List.cons_append, afterName_name runId hall]
  have hline : ∀ c ∈ "gent ".toList ++ (name ++ " :".toList), isLineEnd c = false := by
    have hfirst : ∀ c ∈ "gent ".toList, isLineEnd c = false := by decide
    have hlast : ∀ c ∈ " :".toList, isLineEnd c = false := by decide
    intro c hc
    rcases List.mem_append.mp hc with hc | hc
    · exact hfirst c hc
    · rcases List.mem_append.mp hc with hc | hc
      · exact (plain_of_nameChar (hall c hc)).2
      · exact hlast c hc
  have htext : keyword ++ ' ' :: (name ++ ' ' :: ':' :: s) =
      'a' :: ("gent ".toList ++ (name ++ " :".toList)) ++ s := by
    rw [List.cons_append, List.append_assoc, List.append_assoc]
    rfl
  rw [htext] at hafter ⊢
  split_ifs at hafter ⊢ with h
  · exact countFrom_match (List.cons_ne_nil _ _) hafter
  · rw [List.cons_append] at hafter ⊢
    rw [countFrom_cons fun _ => hafter, Nat.zero_add]
    exact countFrom_inline hline s

theorem afterAgent_none (runId : ℤ) (s : FileText) (h : ¬keyword <+: s) :
    afterAgent runId s = none := if_neg h

end MainSimulator

/-! ## Quiet blocks -/

namespace JcmProject

open MainSimulator

/-- The last character is looked at, not every character there is. -/
instance (priority := 2000) decidableForallLast (last : Option Char) (p : Char → Prop)
    [DecidablePred p] : Decidable (∀ c ∈ last, p c) := last.decidableForallMem

/-- No declaration begins in the text. -/
abbrev QuietText (fresh : Bool) (s : FileText) : Prop := Quiet isSpace isLineEnd keyword fresh s

/-- A block ends with a brace, which is in the middle of a line. -/
theorem countFrom_closed (runId : ℤ) {fresh : Bool} {u : FileText} (hu : QuietText fresh u)
    (hbrace : ['\x7d'] <:+ u) (s : FileText) :
    countFrom isSpace isLineEnd (afterAgent runId) 0 fresh (u ++ s) =
      countFrom isSpace isLineEnd (afterAgent runId) 0 false s := by
  obtain ⟨v, rfl⟩ := hbrace
  have hlast : ∀ c ∈ (v ++ ['\x7d']).getLast?, c ∉ keyword := by
    intro c hc
    rw [List.getLast?_concat, Option.mem_some_iff] at hc
    rw [← hc]
    decide
  have hend : endFresh isSpace isLineEnd fresh (v ++ ['\x7d']) = false := by
    rw [endFresh_append]
    show nextFresh isSpace isLineEnd _ '\x7d' = false
    rw [nextFresh, show isSpace '\x7d' = false from rfl, Bool.and_false]
    rfl
  rw [countFrom_quiet (afterAgent_none runId) hu hlast, hend]

theorem quiet_closed {fresh : Bool} {s : FileText} (h : QuietText fresh s) :
    QuietText fresh (s ++ ['\x7d']) := quiet_concat h (by decide) (by decide)

/-- What an agent block must be for its declaration to be the only one. -/
structure CleanAgent (a : JcmAgent) : Prop where
  name : matchesName a.name = true
  file : ∀ c ∈ a.file, isLineEnd c = false
  body : QuietText false a.body

/-- **The block of an agent** is counted if the agent is of the run. -/
theorem countFrom_agentText (runId : ℤ) {a : JcmAgent} (ha : CleanAgent a) (s : FileText) :
    countFrom isSpace isLineEnd (afterAgent runId) 0 true (agentText a ++ s) =
      (if OfRun runId a.name then 1 else 0) +
        countFrom isSpace isLineEnd (afterAgent runId) 0 false s := by
  have htext : agentText a ++ s = keyword ++ ' ' :: (a.name ++ ' ' :: ':' ::
      ((" ".toList ++ (a.file ++ " \x7b".toList)) ++ (a.body ++ ['\x7d'] ++ s))) := by
    simp only [agentText, List.append_assoc, List.cons_append]
    rfl
  have hline : ∀ c ∈ " ".toList ++ (a.file ++ " \x7b".toList), isLineEnd c = false := by
    have hspace : ∀ c ∈ " ".toList, isLineEnd c = false := by decide
    have hbrace : ∀ c ∈ " \x7b".toList, isLineEnd c = false := by decide
    intro c hc
    rcases List.mem_append.mp hc with hc | hc
    · exact hspace c hc
    · rcases List.mem_append.mp hc with hc | hc
      · exact ha.file c hc
      · exact hbrace c hc
  rw [htext, countFrom_agent runId ha.name, countFrom_inline hline,
    countFrom_closed runId (quiet_closed ha.body) (List.suffix_append _ _)]

/-! ## The bodies of a run -/

/-- A text of the template: plain ASCII, without a declaration. -/
def PlainBody (s : FileText) : Prop := QuietText false s ∧ ∀ c ∈ s, c.toNat < 128

instance (s : FileText) : Decidable (PlainBody s) := inferInstanceAs (Decidable (_ ∧ _))

/-- A literal is the text of its characters. -/
theorem toList_of_literal {s : String} {l : FileText} (hs : String.ofList l = s) :
    s.toList = l := by
  rw [← hs, String.toList_ofList]

theorem PlainBody.of_literal {s : String} {l : FileText} (hs : String.ofList l = s)
    (h : PlainBody l) : PlainBody s.toList := by
  rw [toList_of_literal hs]
  exact h

theorem PlainBody.space {u s : FileText} (h : PlainBody (u ++ s)) : PlainBody (' ' :: u ++ s) := by
  refine ⟨⟨nofun, h.1⟩, fun c hc => ?_⟩
  rcases List.mem_cons.mp hc with rfl | hc
  · decide
  · exact h.2 c hc

/-- A text that ends in the middle of a line is continued. -/
theorem PlainBody.append {u s : FileText} (hu : PlainBody u) (hlast : ∀ c ∈ u.getLast?, c ∉ keyword)
    (hend : endFresh isSpace isLineEnd false u = false) (hs : PlainBody s) :
    PlainBody (u ++ s) := by
  constructor
  · apply quiet_append hu.1 hlast
    rw [hend]
    exact hs.1
  · intro c hc
    rcases List.mem_append.mp hc with hc | hc
    · exact hu.2 c hc
    · exact hs.2 c hc

set_option maxRecDepth 20000 in
/-- What the order agents have in common. -/
theorem PlainBody.orderFocus {s : FileText} (h : PlainBody s) :
    PlainBody (orderFocus.toList ++ s) := by
  have hfocus : PlainBody JcmProject.orderFocus.toList ∧
      (∀ c ∈ JcmProject.orderFocus.toList.getLast?, c ∉ keyword) ∧
      endFresh isSpace isLineEnd false JcmProject.orderFocus.toList = false := by
    rw [toList_of_literal (s := JcmProject.orderFocus) rfl]
    decide
  exact hfocus.1.append hfocus.2.1 hfocus.2.2 h

set_option maxRecDepth 20000 in
theorem plainBody_agents : ∀ a ∈ template.agents, PlainBody a.body := by
  refine List.forall_iff_forall_mem.mp ?_
  refine ⟨?_, ?_, ?_, ?_, ?_, ?_, ?_, ?_, ?_, ?_, ?_, ?_, ?_⟩
  all_goals dsimp only [List.Forall, -String.reduceToList]
  · refine .of_literal rfl ?_
    decide
  · refine .orderFocus (.of_literal rfl ?_)
    decide
  · refine .orderFocus (.of_literal rfl ?_)
    decide
  · refine .space (.orderFocus (.of_literal rfl ?_))
    decide
  · refine .space (.orderFocus (.of_literal rfl ?_))
    decide
  · refine .space (.orderFocus (.of_literal rfl ?_))
    decide
  all_goals
    refine .of_literal rfl ?_
    decide

set_option maxRecDepth 20000 in
theorem plainBody_workspaces : ∀ w ∈ template.workspaces, PlainBody w.body := by
  intro w hw
  obtain rfl := List.mem_singleton.mp hw
  dsimp only [-String.reduceToList]
  refine .of_literal rfl ?_
  decide

/-- The run in place of the placeholder. -/
theorem PlainBody.fill {s : FileText} (h : PlainBody s) (runId : ℤ) :
    PlainBody (replace "\x7b\x7bRUN_ID\x7d\x7d".toList (str runId) s) := by
  have hold : ∀ c ∈ "\x7b\x7bRUN_ID\x7d\x7d".toList, isSpace c = false ∧ isLineEnd c = false := by
    decide
  obtain ⟨d, new, hstr⟩ := List.exists_cons_of_ne_nil (str_ne_nil runId)
  have hplain : ∀ c ∈ d :: new,
      isSpace c = false ∧ isLineEnd c = false ∧ c ∉ keyword ∧ c.toNat < 128 :=
    fun c hc => plain_str (hstr ▸ hc)
  rw [hstr]
  constructor
  · exact quiet_replace (by decide) (hplain d List.mem_cons_self).2.2.1 hold
      (fun c hc => ⟨(hplain c hc).1, (hplain c hc).2.1⟩) h.1
  · intro c hc
    rcases mem_replace hc with hc | hc
    · exact h.2 c hc
    · exact (hplain c hc).2.2.2

/-- No token is shorter than the keyword. -/
theorem keyword_le_token : ∀ t ∈ CANONICAL_TOKENS,
    keyword.length ≤ t.length ∧ ¬keyword <+: t := by decide

/-- The renaming of a text. -/
theorem PlainBody.rewrite {wide : Char → Bool} {s : FileText} (h : PlainBody s) (runId : ℤ) :
    QuietText false (rewriteContent wide s runId) := by
  rw [rewriteContent_eq]
  have hkeyword : ∀ c ∈ keyword, isWordChar wide c = true := by
    intro c hc
    have h : ∀ c ∈ keyword, c.toNat < 128 ∧ (c.isAlphanum || c == '_') = true := by decide
    rw [isWordChar, if_pos (h c hc).1, (h c hc).2]
  refine quiet_mapWords (by decide) hkeyword (fun w => ?_) (fun c hc hword => ?_) h.1
  · by_cases hw : w ∈ CANONICAL_TOKENS
    · refine ⟨'_' :: str runId, if_pos hw, fun c hc => ?_, .inr (keyword_le_token w hw).1⟩
      rcases List.mem_cons.mp hc with rfl | hc
      · exact ⟨rfl, rfl⟩
      · exact ⟨(plain_str hc).1, (plain_str hc).2.1⟩
    · refine ⟨[], ?_, fun c hc => absurd hc List.not_mem_nil, .inl rfl⟩
      rw [List.append_nil]
      exact if_neg hw
  · rw [isWordChar, if_pos (h.2 c hc)] at hword
    exact plain_of_nameChar hword

/-! ## The organisations -/

/-- What an organisation must be for its block to declare no agent. -/
structure CleanOrganisation (o : JcmOrganisation) : Prop where
  inline : ∀ s ∈ [o.name, o.file, o.group.name, o.group.type], ∀ c ∈ s, isLineEnd c = false
  players : ∀ q ∈ o.group.players, (∀ c ∈ q.agent ++ q.role, isLineEnd c = false) ∧
    (∃ c s, q.agent = c :: s ∧ isSpace c = false) ∧
    keyword.length ≤ q.agent.length ∧ ¬keyword <+: q.agent

theorem quiet_spaces {fresh : Bool} (k : ℕ) {s : FileText} (h : QuietText fresh s) :
    QuietText fresh (List.replicate k ' ' ++ s) := by
  induction k with
  | zero => exact h
  | succ k ih =>
    have hspace : nextFresh isSpace isLineEnd fresh ' ' = fresh := Bool.and_true fresh
    rw [List.replicate_succ, List.cons_append]
    refine ⟨fun _ hpre => ?_, ?_⟩
    · exact absurd (List.cons_prefix_cons.mp hpre).1 (by decide)
    · rw [hspace]
      exact ih

/-- The players, each but the first on a line of its own. -/
theorem quiet_playersText {rest : FileText} (hrest : QuietText false rest) :
    ∀ (players : List JcmPlayer) (fresh : Bool), players ≠ [] →
      (∀ q ∈ players, (∀ c ∈ q.agent ++ q.role, isLineEnd c = false) ∧
        (∃ c s, q.agent = c :: s ∧ isSpace c = false) ∧
        keyword.length ≤ q.agent.length ∧ ¬keyword <+: q.agent) →
      QuietText fresh (playersText players ++ rest) := by
  -- a player and what follows on its line
  have hplayer : ∀ (q : JcmPlayer) (fresh : Bool), (∀ c ∈ q.agent ++ q.role, isLineEnd c = false) ∧
      (∃ c s, q.agent = c :: s ∧ isSpace c = false) ∧
      keyword.length ≤ q.agent.length ∧ ¬keyword <+: q.agent → ∀ t, QuietText false t →
      QuietText fresh (q.agent ++ ' ' :: (List.replicate (q.spaces - 1) ' ' ++ q.role ++ t)) := by
    rintro q fresh ⟨hinline, ⟨c, s, hagent, hc⟩, hlong, hnot⟩ t ht
    have hline : ∀ d ∈ c :: (s ++ ' ' :: (List.replicate (q.spaces - 1) ' ' ++ q.role)),
        isLineEnd d = false := by
      intro d hd
      rw [← List.cons_append, ← hagent, List.mem_append, List.mem_cons, List.mem_append] at hd
      rcases hd with hd | rfl | hd | hd
      · exact hinline d (List.mem_append_left _ hd)
      · rfl
      · rw [List.eq_of_mem_replicate hd]
        rfl
      · exact hinline d (List.mem_append_right _ hd)
    have htext : q.agent ++ ' ' :: (List.replicate (q.spaces - 1) ' ' ++ q.role ++ t) =
        c :: (s ++ ' ' :: (List.replicate (q.spaces - 1) ' ' ++ q.role)) ++ t := by
      simp only [hagent, List.cons_append, List.append_assoc]
    have hstart : ¬keyword <+:
        q.agent ++ ' ' :: (List.replicate (q.spaces - 1) ' ' ++ q.role ++ t) := fun hpre =>
      hnot (List.prefix_of_prefix_length_le hpre (List.prefix_append _ _) hlong)
    rw [htext] at hstart ⊢
    exact quiet_cons_inline hc hline (fun _ => hstart) ht
  intro players
  induction players with
  | nil => exact fun fresh hne => absurd rfl hne
  | cons q players ih =>
    intro fresh _ hall
    have hq := hall q List.mem_cons_self
    cases players with
    | nil =>
      have htext : playersText [q] ++ rest =
          q.agent ++ ' ' :: (List.replicate (q.spaces - 1) ' ' ++ q.role ++ rest) := by
        simp only [playersText, List.append_assoc, List.cons_append]
      rw [htext]
      exact hplayer q fresh hq rest hrest
    | cons q' players =>
      have htext : playersText (q :: q' :: players) ++ rest =
          q.agent ++ ' ' :: (List.replicate (q.spaces - 1) ' ' ++ q.role ++
            ',' :: '\n' :: (List.replicate 21 ' ' ++ (playersText (q' :: players) ++ rest))) := by
        simp only [playersText, List.append_assoc, List.cons_append]
      have hnext : QuietText true (playersText (q' :: players) ++ rest) :=
        ih true (List.cons_ne_nil _ _) fun p hp => hall p (List.mem_cons_of_mem _ hp)
      rw [htext]
      exact hplayer q fresh hq _ ⟨nofun, nofun, quiet_spaces 21 hnext⟩

/-- A line that begins neither with white space nor with the keyword. -/
theorem quiet_line (fresh : Bool) {c : Char} {u t : FileText} (hc : isSpace c = false ∧ c ≠ 'a')
    (hu : ∀ d ∈ c :: u, isLineEnd d = false) (ht : QuietText true t) :
    QuietText fresh (c :: u ++ '\n' :: t) := by
  refine quiet_cons_inline hc.1 hu (fun _ hpre => ?_) ⟨nofun, ht⟩
  exact hc.2 (List.cons_prefix_cons.mp hpre).1.symm

/-- **The block of an organisation** declares no agent. -/
theorem quiet_organisationText {o : JcmOrganisation} (ho : CleanOrganisation o)
    (hne : o.group.players ≠ []) :
    QuietText true (organisationText o) := by
  have horganisation : "organisation".toList = 'o' :: "rganisation".toList := by decide
  have hgroup : "group".toList = 'g' :: "roup".toList := by decide
  have hplayers : "players".toList = 'p' :: "layers".toList := by decide
  have hline : ∀ {a b : FileText} (c : Char) (u : FileText), (∀ d ∈ c :: u, isLineEnd d = false) →
      (∀ d ∈ a, isLineEnd d = false) → (∀ d ∈ b, isLineEnd d = false) →
      ∀ d ∈ c :: (u ++ ' ' :: (a ++ ' ' :: ':' :: ' ' :: (b ++ [' ', '\x7b']))),
        isLineEnd d = false := by
    intro a b c u hu ha hb
    have hopen : ∀ d ∈ [' ', '\x7b'], isLineEnd d = false := by decide
    have hcolon : ∀ d ∈ [' ', ':', ' '], isLineEnd d = false := by decide
    rw [List.forall_mem_cons] at hu
    simp only [List.forall_mem_cons, List.forall_mem_append] at hopen hcolon ⊢
    exact ⟨hu.1, hu.2, rfl, ha, hcolon.1, hcolon.2.1, hcolon.1, hb, hopen⟩
  have hname := ho.inline o.name List.mem_cons_self
  have hfile := ho.inline o.file (List.mem_cons_of_mem _ List.mem_cons_self)
  have hgname := ho.inline o.group.name
    (List.mem_cons_of_mem _ (List.mem_cons_of_mem _ List.mem_cons_self))
  have hgtype := ho.inline o.group.type (List.mem_cons_of_mem _ (List.mem_cons_of_mem _
    (List.mem_cons_of_mem _ List.mem_cons_self)))
  -- the lines, from the last one to the first
  have hrest : QuietText false ('\n' :: (List.replicate 8 ' ' ++ '\x7d' :: '\n' ::
      (List.replicate 4 ' ' ++ ['\x7d']))) := by decide
  have hthird : QuietText true (List.replicate 12 ' ' ++ ('p' :: ("layers".toList ++ [':', ' ']) ++
      (playersText o.group.players ++ '\n' :: (List.replicate 8 ' ' ++ '\x7d' :: '\n' ::
        (List.replicate 4 ' ' ++ ['\x7d']))))) := by
    apply quiet_spaces
    refine quiet_cons_inline rfl (by decide) (fun _ hpre => ?_)
      (quiet_playersText hrest o.group.players false hne ho.players)
    exact absurd (List.cons_prefix_cons.mp hpre).1 (by decide)
  have hsecond := quiet_line true (by decide)
    (hline 'g' "roup".toList (by decide) hgname hgtype) hthird
  have hfirst := quiet_line true (by decide)
    (hline 'o' "rganisation".toList (by decide) hname hfile) (quiet_spaces 8 hsecond)
  have htext : organisationText o = 'o' :: ("rganisation".toList ++ ' ' :: (o.name ++ ' ' :: ':' ::
      ' ' :: (o.file ++ [' ', '\x7b']))) ++ '\n' :: (List.replicate 8 ' ' ++
        ('g' :: ("roup".toList ++ ' ' :: (o.group.name ++ ' ' :: ':' :: ' ' ::
          (o.group.type ++ [' ', '\x7b']))) ++ '\n' :: (List.replicate 12 ' ' ++
            ('p' :: ("layers".toList ++ [':', ' ']) ++ (playersText o.group.players ++ '\n' ::
              (List.replicate 8 ' ' ++ '\x7d' :: '\n' ::
                (List.replicate 4 ' ' ++ ['\x7d']))))))) := by
    unfold organisationText
    rw [horganisation, hgroup, hplayers]
    simp only [List.append_assoc, List.cons_append, List.nil_append, -String.reduceToList]
  rw [htext]
  exact hfirst

theorem organisationText_closed (o : JcmOrganisation) : ['\x7d'] <:+ organisationText o := by
  have hcons : ∀ {u : FileText} (c : Char), ['\x7d'] <:+ u → ['\x7d'] <:+ c :: u :=
    fun c h => h.trans (List.suffix_cons c _)
  have happend : ∀ {u : FileText} (v : FileText), ['\x7d'] <:+ u → ['\x7d'] <:+ v ++ u :=
    fun v h => h.trans (List.suffix_append v _)
  unfold organisationText
  repeat first
    | apply happend
    | exact List.suffix_rfl
    | apply hcons

/-- The block of a workspace declares no agent. -/
theorem quiet_workspaceText {w : JcmWorkspace} (hname : ∀ c ∈ w.name, isLineEnd c = false)
    (hbody : QuietText false w.body) : QuietText true (workspaceText w) := by
  have hworkspace : "workspace".toList = 'w' :: "orkspace".toList := by decide
  have htext : workspaceText w = 'w' :: ("orkspace".toList ++ ' ' :: (w.name ++ [' ', '\x7b'])) ++
      (w.body ++ ['\x7d']) := by
    unfold workspaceText
    rw [hworkspace]
    simp only [List.append_assoc, List.cons_append, List.nil_append, -String.reduceToList]
  have hline : ∀ d ∈ 'w' :: ("orkspace".toList ++ ' ' :: (w.name ++ [' ', '\x7b'])),
      isLineEnd d = false := by
    have hword : ∀ d ∈ 'w' :: "orkspace".toList, isLineEnd d = false := by decide
    have hopen : ∀ d ∈ [' ', '\x7b'], isLineEnd d = false := by decide
    rw [List.forall_mem_cons] at hword
    simp only [List.forall_mem_cons, List.forall_mem_append] at hopen ⊢
    exact ⟨hword.1, hword.2, rfl, hname, hopen⟩
  rw [htext]
  refine quiet_cons_inline rfl hline (fun _ hpre => ?_) (quiet_closed hbody)
  exact absurd (List.cons_prefix_cons.mp hpre).1 (by decide)

theorem workspaceText_closed (w : JcmWorkspace) : ['\x7d'] <:+ workspaceText w := by
  have htext : workspaceText w =
      "workspace".toList ++ ' ' :: (w.name ++ ' ' :: '\x7b' :: w.body) ++ ['\x7d'] := by
    unfold workspaceText
    simp only [List.append_assoc, List.cons_append, -String.reduceToList]
  exact ⟨_, htext.symm⟩

/-- A block without a declaration. -/
theorem countFrom_block (runId : ℤ) {u : FileText} (hu : QuietText true u)
    (hbrace : ['\x7d'] <:+ u) (s : FileText) :
    countFrom isSpace isLineEnd (afterAgent runId) 0 true (u ++ s) =
      0 + countFrom isSpace isLineEnd (afterAgent runId) 0 false s := by
  rw [Nat.zero_add]
  exact countFrom_closed runId hu hbrace s

end JcmProject

end MatrixFactory
