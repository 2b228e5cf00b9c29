/-
# The control actions of the dashboard

`sendControlAction` of the dashboard fetches a control ticket for the run on show and posts a JSON
text with the ticket and the action.  `parseJsonSimple` of the endpoint is no JSON parser: it
deletes braces and quotation marks and cuts at commas and colons.  It reads the object that was
sent iff every text in it is legible; and then the server does what the buttons say, click after
click.
-/
import MatrixFactory.ControlEndpoint
import MatrixFactory.Lib.FlatJson
import Mathlib.Data.List.Nodup

namespace Text

/-! ## Legible texts -/

/-- The units that `parseJsonSimple` deletes or cuts at. -/
def marks : Text := [0x7B, 0x7D, 0x22, 0x2C, 0x3A]

/-- A text that is written as it is, without marks and without spaces at its ends. -/
structure Legible (s : Text) : Prop where
  plain : quoteBody s = s
  unmarked : ∀ c ∈ s, c ∉ marks
  trimmed : trim s = s
  ne_nil : s ≠ []

instance (s : Text) : Decidable (Legible s) :=
  decidable_of_iff (quoteBody s = s ∧ (∀ c ∈ s, c ∉ marks) ∧ trim s = s ∧ s ≠ [])
    ⟨fun h => ⟨h.1, h.2.1, h.2.2.1, h.2.2.2⟩, fun h => ⟨h.plain, h.unmarked, h.trimmed, h.ne_nil⟩⟩

/-- No space at either end. -/
def Tight (s : Text) : Prop := (∀ c ∈ s.head?, ¬ c ≤ 0x20) ∧ ∀ c ∈ s.getLast?, ¬ c ≤ 0x20

theorem trim_of_tight {s : Text} (h : Tight s) : trim s = s := by
  have hfirst : s.dropWhile (· ≤ 0x20) = s := by
    cases s with
    | nil => rfl
    | cons c s => rw [List.dropWhile_cons_of_neg (by simpa using h.1 c rfl)]
  rw [trim, hfirst, List.rdropWhile_eq_self_iff]
  intro hne
  simpa using h.2 _ (List.getLast?_eq_some_getLast hne)

theorem tight_trim (s : Text) : Tight (trim s) := by
  constructor
  · intro c hc
    have hfirst := List.head?_dropWhile_not (fun c : UInt16 => decide (c ≤ 0x20)) s
    obtain ⟨t, ht⟩ := List.rdropWhile_prefix (fun c : UInt16 => decide (c ≤ 0x20))
      (s.dropWhile (· ≤ 0x20))
    rw [← ht, show List.rdropWhile _ (s.dropWhile (· ≤ 0x20)) = trim s from rfl,
      List.head?_append, Option.mem_def.mp hc] at hfirst
    simpa using hfirst
  · intro c hc
    obtain ⟨hne, rfl⟩ := List.mem_getLast?_eq_getLast hc
    have hlast := List.rdropWhile_last_not (fun c : UInt16 => decide (c ≤ 0x20)) _ hne
    exact fun hle => hlast (decide_eq_true hle)

theorem tight_iff {s : Text} : Tight s ↔ trim s = s :=
  ⟨trim_of_tight, fun h => h ▸ tight_trim s⟩

/-- A string that is trimmed is written without spaces at the ends. -/
theorem trim_quoteBody {s : Text} (h : trim s = s) : trim (quoteBody s) = quoteBody s := by
  obtain ⟨hfirst, hlast⟩ := tight_iff.mpr h
  exact trim_of_tight ⟨fun c hc hle => hfirst c (head_quoteBody hle hc) hle,
    fun c hc hle => hlast c (getLast_quoteBody hle hc) hle⟩

theorem mem_of_mem_trim {s : Text} {u : UInt16} (h : u ∈ trim s) : u ∈ s :=
  (List.dropWhile_suffix _).subset ((List.rdropWhile_prefix _ _).subset h)

/-- Printable units that are neither marks nor a backslash. -/
def Safe (c : UInt16) : Prop := 0x20 < c ∧ c < 0x7F ∧ c ∉ 0x5C :: marks

instance (c : UInt16) : Decidable (Safe c) := inferInstanceAs (Decidable (_ ∧ _ ∧ _))

theorem not_isHigh_of_safe {c : UInt16} (h : Safe c) : isHigh c = false ∧ isLow c = false := by
  have hlt := UInt16.lt_iff_toNat_lt.mp h.2.1
  rw [← Bool.not_eq_true, ← Bool.not_eq_true, isHigh_iff, isLow_iff]
  constructor
  · intro hhigh
    exact absurd (hlt.trans_le' hhigh.1) (by decide)
  · intro hlow
    exact absurd (hlt.trans_le' hlow.1) (by decide)

theorem quoteUnit_of_safe {c : UInt16} (h : Safe c) : quoteUnit c = [c] := by
  have hspace := UInt16.not_lt.mpr (UInt16.le_of_lt h.1)
  have hcontrol : ∀ v : UInt16, v < 0x20 → c ≠ v := fun v hv hcv => hspace (hcv ▸ hv)
  obtain ⟨hslash, hmarks⟩ := not_or.mp (List.mem_cons.not.mp h.2.2)
  obtain ⟨hhigh, hlow⟩ := not_isHigh_of_safe h
  have hquote : c ≠ 0x22 := fun hc => hmarks (by rw [hc]; decide)
  unfold quoteUnit
  rw [if_neg (hcontrol _ (by decide)), if_neg (hcontrol _ (by decide)),
    if_neg (hcontrol _ (by decide)), if_neg (hcontrol _ (by decide)),
    if_neg (hcontrol _ (by decide)), if_neg (not_or.mpr ⟨hquote, hslash⟩), hhigh, hlow,
    if_neg (by simpa using hspace)]

theorem legible_of_safe {s : Text} (h : ∀ c ∈ s, Safe c) (hne : s ≠ []) : Legible s where
  plain := by
    induction s using quoteBody.induct with
    | case1 => rfl
    | case2 c => exact quoteUnit_of_safe (h c List.mem_cons_self)
    | case3 c d s hpair ih =>
      rw [(not_isHigh_of_safe (h c List.mem_cons_self)).1] at hpair
      exact absurd hpair Bool.false_ne_true
    | case4 c d s hpair ih =>
      rw [quoteBody, if_neg hpair, quoteUnit_of_safe (h c List.mem_cons_self),
        ih (fun u hu => h u (List.mem_cons_of_mem _ hu)) (List.cons_ne_nil _ _)]
      rfl
  unmarked c hc hmark := (h c hc).2.2 (List.mem_cons_of_mem _ hmark)
  trimmed := trim_of_tight ⟨fun c hc => UInt16.not_le.mpr (h c (List.mem_of_mem_head? hc)).1,
    fun c hc => UInt16.not_le.mpr (h c (List.mem_of_mem_getLast? hc)).1⟩
  ne_nil := hne

/-- The units of a Base64 text. -/
theorem mem_encode64 {bs : List UInt8} {u : UInt16} (h : u ∈ encode64 bs) :
    ∃ i < 64, u = sextet i := by
  induction bs using encode64.induct with
  | case1 => exact absurd h List.not_mem_nil
  | case2 a =>
    have ha := a.toNat_lt
    simp only [encode64, List.mem_cons, List.not_mem_nil, or_false] at h
    rcases h with rfl | rfl
    · exact ⟨_, by omega, rfl⟩
    · exact ⟨_, by omega, rfl⟩
  | case3 a b =>
    have ha := a.toNat_lt
    have hb := b.toNat_lt
    simp only [encode64, List.mem_cons, List.not_mem_nil, or_false] at h
    rcases h with rfl | rfl | rfl
    · exact ⟨_, by omega, rfl⟩
    · exact ⟨_, by omega, rfl⟩
    · exact ⟨_, by omega, rfl⟩
  | case4 a b c bs ih =>
    have ha := a.toNat_lt
    have hb := b.toNat_lt
    have hc := c.toNat_lt
    simp only [encode64, List.mem_cons] at h
    rcases h with rfl | rfl | rfl | rfl | h
    · exact ⟨_, by omega, rfl⟩
    · exact ⟨_, by omega, rfl⟩
    · exact ⟨_, by omega, rfl⟩
    · exact ⟨_, by omega, rfl⟩
    · exact ih h

theorem safe_sextet {i : ℕ} (h : i < 64) : Safe (sextet i) := by
  interval_cases i <;> decide

theorem NumberText.legible (n : NumberText) : Legible n.text := by
  have hsafe : ∀ c ∈ lit "0123456789+-.e", Safe c := by decide
  exact legible_of_safe (fun c hc => hsafe c (n.digits c hc)) n.ne_nil

/-- A value whose text is legible is written as that text. -/
theorem JsonValue.body_eq {v : JsonValue} (h : Legible v.text) : v.body = v.text := by
  cases v with
  | string s => exact h.plain
  | number n => rfl
  | null => rfl

end Text

namespace MatrixFactory

open Text TicketIssuer TicketHttpServer Runs

namespace TicketHttpServer

/-! ## The object that is read -/

/-- What is left of a text when braces and quotation marks are deleted. -/
def strip (s : Text) : Text := s.filter fun c => c != 0x7B && c != 0x7D && c != 0x22

/-- The entry of a piece. -/
def pairOf (pair : Text) : Option (Text × Text) :=
  match split 0x3A pair with
  | key :: value :: _ => some (trim key, trim value)
  | _ => none

theorem parseJsonSimple_eq {json : Text} (h : 0x7B ∈ json) :
    parseJsonSimple json = ((split 0x2C (strip (trim json))).filterMap pairOf).reverse := by
  rw [parseJsonSimple, if_neg (not_not.2 h)]
  rfl

theorem mem_strip {s : Text} {u : UInt16} (h : u ∈ strip s) :
    u ∈ s ∧ u ≠ 0x7B ∧ u ≠ 0x7D ∧ u ≠ 0x22 := by
  simpa [strip, and_assoc] using h

theorem strip_eq_self {s : Text} (h : ∀ c ∈ s, c ∉ marks) : strip s = s := by
  refine List.filter_eq_self.mpr fun c hc => ?_
  have hmarks := h c hc
  simp only [marks, List.mem_cons, not_or] at hmarks
  simp [hmarks]

theorem strip_append (s t : Text) : strip (s ++ t) = strip s ++ strip t := List.filter_append ..

theorem strip_intercalate (ls : List Text) :
    strip ([0x2C].intercalate ls) = [0x2C].intercalate (ls.map strip) := by
  induction ls with
  | nil => rfl
  | cons s ls ih =>
    cases ls with
    | nil => simp [List.intercalate_singleton]
    | cons t ls =>
      rw [List.intercalate_cons_cons, strip_append, strip_append, ih, List.map_cons, List.map_cons,
        List.map_cons, List.intercalate_cons_cons]
      rfl

/-- No value that is read has a mark in it. -/
theorem mem_parseJsonSimple {json : Text} {p : Text × Text} (h : p ∈ parseJsonSimple json) :
    ∀ c ∈ p.2, c ∉ marks := by
  intro c hc
  by_cases hbrace : 0x7B ∈ json
  · rw [parseJsonSimple_eq hbrace, List.mem_reverse, List.mem_filterMap] at h
    obtain ⟨pair, hpair, hp⟩ := h
    have hpiece : c ≠ 0x3A ∧ c ∈ pair := by
      unfold pairOf at hp
      split at hp
      · next key value rest heq =>
        cases hp
        exact mem_of_mem_split (heq ▸ by simp) (mem_of_mem_trim hc)
      · cases hp
    obtain ⟨hcomma, hstrip⟩ := mem_of_mem_split hpair hpiece.2
    obtain ⟨-, hopen, hclose, hquote⟩ := mem_strip hstrip
    simp [marks, hpiece.1, hcomma, hopen, hclose, hquote]
  · rw [parseJsonSimple, if_pos hbrace] at h
    exact absurd h List.not_mem_nil

/-- No escape has a mark in it. -/
theorem unmarked_quoteBody {s : Text} (h : ∀ c ∈ s, c ∉ marks) : ∀ c ∈ quoteBody s, c ∉ marks := by
  have hescape : ∀ c ∈ marks, c ∉ 0x5C :: escapeUnits := by decide
  exact fun c hc hmark => h c (mem_of_mem_quoteBody (hescape c hmark) hc) hmark

theorem unmarked_body {v : JsonValue} (h : ∀ c ∈ v.text, c ∉ marks) : ∀ c ∈ v.body, c ∉ marks := by
  cases v with
  | string s => exact unmarked_quoteBody h
  | number n => exact h
  | null => exact h

/-- What is left of a value whose text has no marks. -/
theorem strip_toJson {v : JsonValue} (h : ∀ c ∈ v.text, c ∉ marks) : strip v.toJson = v.body := by
  cases v with
  | string s =>
    show strip ([0x22] ++ (quoteBody s ++ [0x22])) = quoteBody s
    have hbody : strip (quoteBody s) = quoteBody s := strip_eq_self (unmarked_quoteBody h)
    rw [strip_append, strip_append, hbody]
    exact List.append_nil _
  | number n => exact strip_eq_self h
  | null => exact strip_eq_self h

/-- A member of an object as it is left. -/
theorem strip_member {p : Text × JsonValue} (hkey : Legible p.1) (h : ∀ c ∈ p.2.text, c ∉ marks) :
    strip (member p) = p.1 ++ 0x3A :: p.2.body := by
  show strip ([0x22] ++ (quoteBody p.1 ++ ([0x22, 0x3A] ++ p.2.toJson))) = _
  rw [strip_append, strip_append, strip_append, hkey.plain, strip_eq_self hkey.unmarked,
    strip_toJson h]
  rfl

theorem pairOf_member {key value : Text} (hkey : Legible key) (h : ∀ c ∈ value, c ∉ marks) :
    pairOf (key ++ 0x3A :: value) = if value = [] then none else some (key, trim value) := by
  have hcolon : (0x3A : UInt16) ∈ marks := by decide
  have hpieces : (key ++ 0x3A :: value).splitOn 0x3A = [key, value] := by
    rw [List.splitOn_append_cons_self_of_not_mem fun hk => hkey.unmarked _ hk hcolon,
      List.splitOn_eq_singleton fun hv => h _ hv hcolon]
  have hsplit : split 0x3A (key ++ 0x3A :: value) = dropEmpties [key, value] := by
    rw [split, if_pos (List.mem_append_right _ List.mem_cons_self), hpieces]
  unfold pairOf
  rw [hsplit]
  by_cases hvalue : value = []
  · rw [if_pos hvalue, hvalue, show dropEmpties [key, []] = [key] from
      dropEmpties_append_cons hkey.ne_nil [] [[]]]
  · rw [if_neg hvalue, show dropEmpties [key, value] = [key, value] from
      dropEmpties_append_cons hvalue [key] []]
    show some (trim key, trim value) = _
    rw [hkey.trimmed]

/-- **What is read of an object**: the members whose value is not empty. -/
theorem parseJsonSimple_stringify {l : List (Text × JsonValue)} (hkeys : ∀ p ∈ l, Legible p.1)
    (hvalues : ∀ p ∈ l, ∀ c ∈ p.2.text, c ∉ marks) :
    parseJsonSimple (stringify l) = (l.filterMap fun p =>
      if p.2.body = [] then none else some (p.1, trim p.2.body)).reverse := by
  have htight : Tight (stringify l) :=
    ⟨fun c hc => Option.mem_some_iff.mp hc ▸ by decide, fun c hc => by
      rw [stringify, List.getLast?_cons_of_ne_nil (by simp), List.getLast?_concat] at hc
      exact Option.mem_some_iff.mp hc ▸ by decide⟩
  have hstrip : strip (stringify l) =
      [0x2C].intercalate (l.map fun p => p.1 ++ 0x3A :: p.2.body) := by
    show strip ([0x7B] ++ ([0x2C].intercalate (l.map member) ++ [0x7D])) = _
    have hmembers : (l.map member).map strip = l.map fun p => p.1 ++ 0x3A :: p.2.body := by
      rw [List.map_map]
      exact List.map_congr_left fun p hp => strip_member (hkeys p hp) (hvalues p hp)
    rw [strip_append, strip_append, strip_intercalate, hmembers]
    exact List.append_nil _
  have hbrace : 0x7B ∈ stringify l := List.mem_cons_self
  rw [parseJsonSimple_eq hbrace, trim_of_tight htight, hstrip]
  congr 1
  by_cases hl : l = []
  · subst hl
    rfl
  · rw [split_intercalate, List.filterMap_map]
    · exact List.filterMap_congr fun p hp =>
        pairOf_member (hkeys p hp) (unmarked_body (hvalues p hp))
    · intro piece hpiece hcomma
      obtain ⟨p, hp, rfl⟩ := List.mem_map.mp hpiece
      rcases List.mem_append.mp hcomma with hk | hv
      · exact (hkeys p hp).unmarked _ hk (by decide)
      · exact unmarked_body (hvalues p hp) _ ((List.mem_cons.mp hv).resolve_left (by decide))
          (by decide)
    · intro piece hpiece
      obtain ⟨p, hp, rfl⟩ := List.mem_map.mp hpiece
      exact List.append_ne_nil_of_right_ne_nil _ (List.cons_ne_nil _ _)
    · exact fun h => hl (List.map_eq_nil_iff.mp h)

/-- The newest entry of a name, where no name has two. -/
theorem lookup_reverse {q : Query} (h : (q.map Prod.fst).Nodup) (k : Text) :
    q.reverse.lookup k = q.lookup k := by
  induction q with
  | nil => rfl
  | cons e q ih =>
    obtain ⟨key, value⟩ := e
    rw [List.map_cons, List.nodup_cons] at h
    rw [List.reverse_cons, List.lookup_append, ih h.2, List.lookup_singleton, List.lookup_cons]
    by_cases hk : k = key
    · subst hk
      have hnone : q.lookup k = none := by
        rw [List.lookup_eq_none_iff]
        intro e he
        have hne : k ≠ e.1 := fun hke => h.1 (List.mem_map.mpr ⟨e, he, hke.symm⟩)
        simpa using hne
      rw [hnone]
      simp
    · rw [beq_false_of_ne hk]
      simp

/-- **The object as it is read**, if every text in it is legible. -/
theorem lookup_stringify {l : List (Text × JsonValue)} (hnodup : (l.map Prod.fst).Nodup)
    (h : ∀ p ∈ l, Legible p.1 ∧ Legible p.2.text) (k : Text) :
    (parseJsonSimple (stringify l)).lookup k = (l.lookup k).map JsonValue.text := by
  have hentries : (l.filterMap fun p => if p.2.body = [] then none else some (p.1, trim p.2.body))
      = l.map fun p => (p.1, p.2.text) := by
    rw [← List.filterMap_eq_map]
    refine List.filterMap_congr fun p hp => ?_
    have hvalue := (h p hp).2
    rw [JsonValue.body_eq hvalue, if_neg hvalue.ne_nil, hvalue.trimmed]
    rfl
  rw [parseJsonSimple_stringify (fun p hp => (h p hp).1) fun p hp => (h p hp).2.unmarked, hentries,
    lookup_reverse (by rwa [List.map_map])]
  clear hentries hnodup h
  induction l with
  | nil => rfl
  | cons p l ih =>
    rw [List.map_cons, List.lookup_cons, List.lookup_cons, ih]
    cases k == p.1 <;> rfl

theorem mem_of_lookup {β : Type} {q : List (Text × β)} {k : Text} {v : β}
    (h : q.lookup k = some v) : (k, v) ∈ q := by
  obtain ⟨before, after, rfl, -⟩ := List.lookup_eq_some_iff.mp h
  exact List.mem_append_right _ List.mem_cons_self

theorem lookup_of_mem {β : Type} {q : List (Text × β)} (h : (q.map Prod.fst).Nodup)
    {p : Text × β} (hp : p ∈ q) : q.lookup p.1 = some p.2 := by
  obtain ⟨v, hv⟩ : ∃ v, q.lookup p.1 = some v := by
    rw [← Option.isSome_iff_exists, List.lookup_isSome_iff]
    exact ⟨p, hp, beq_self_eq_true _⟩
  have heq : (p.1, v) = p := List.inj_on_of_nodup_map h (mem_of_lookup hv) hp rfl
  rw [hv, ← heq]

/-- **The round trip of an object** whose names are distinct and legible: every text in it is read
as it was sent iff every text in it is legible. -/
theorem object_reads_back {l : List (Text × JsonValue)} (hnodup : (l.map Prod.fst).Nodup)
    (hkeys : ∀ p ∈ l, Legible p.1) :
    (∀ p ∈ l, (parseJsonSimple (stringify l)).lookup p.1 = some p.2.text) ↔
      ∀ p ∈ l, Legible p.2.text := by
  constructor
  · intro h p hp
    have hvalues : ∀ p ∈ l, ∀ c ∈ p.2.text, c ∉ marks := fun p hp =>
      mem_parseJsonSimple (mem_of_lookup (h p hp))
    have hmem := mem_of_lookup (h p hp)
    rw [parseJsonSimple_stringify hkeys hvalues, List.mem_reverse, List.mem_filterMap] at hmem
    obtain ⟨p', hp', hentry⟩ := hmem
    split_ifs at hentry with hempty
    obtain ⟨hkey, htext⟩ := Prod.mk.inj (Option.some.inj hentry)
    obtain rfl : p' = p := List.inj_on_of_nodup_map hnodup hp' hp hkey
    obtain ⟨key, v⟩ := p'
    cases v with
    | string s =>
      have htight := tight_trim (quoteBody s)
      rw [show trim (quoteBody s) = s from htext] at htight
      have htrimmed : trim s = s := tight_iff.mp htight
      have hplain : quoteBody s = s := (trim_quoteBody htrimmed).symm.trans htext
      exact ⟨hplain, hvalues _ hp', htrimmed, fun hs => hempty (hplain.trans hs)⟩
    | number n => exact n.legible
    | null => exact (by decide : Legible (lit "null"))
  · intro h p hp
    rw [lookup_stringify hnodup fun p hp => ⟨hkeys p hp, h p hp⟩, lookup_of_mem hnodup hp]
    rfl

theorem object_reads_back_setpoint :
    (parseJsonSimple (stringify [(lit "param", .string (lit "t_press_k"))])).lookup (lit "param") =
      some (lit "t_press_k") :=
  (object_reads_back (l := [(lit "param", .string (lit "t_press_k"))]) (by decide)
    (by decide)).mpr (by decide) _ List.mem_cons_self

end TicketHttpServer

/-! ## The buttons -/

/-- What the two buttons of the control panel send; a value that is not finite is no number in
JSON. -/
inductive DashboardAction where
  | stationSetpoint (stationId param : Text) (value : Option NumberText)
  | amrBreakdown (amrId : Text)

namespace DashboardAction

/-- The `downtimeSeconds` of a breakdown, `60.0`. -/
def sixtySeconds : NumberText := ⟨lit "60", by decide, by decide⟩

/-- The number of an action. -/
def number : DashboardAction → JsonValue
  | stationSetpoint _ _ (some value) => .number value
  | stationSetpoint _ _ none => .null
  | amrBreakdown _ => .number sixtySeconds

/-- The texts of an action. -/
def texts : DashboardAction → List Text
  | stationSetpoint stationId param _ => [stationId, param]
  | amrBreakdown amrId => [amrId]

/-- The members of `actionData`. -/
def members : DashboardAction → List (Text × JsonValue)
  | stationSetpoint stationId param value =>
    [(lit "type", .string (lit "station_setpoint")), (lit "stationId", .string stationId),
      (lit "param", .string param), (lit "value", (stationSetpoint stationId param value).number)]
  | amrBreakdown amrId =>
    [(lit "type", .string (lit "amr_breakdown")), (lit "amrId", .string amrId),
      (lit "downtimeSeconds", (amrBreakdown amrId).number)]

variable {V : Type}

/-- What an action asks of a run, `v` being its number; `none` where there is nothing to act on. -/
def perform (tables : CaseTables) (v : V) (sim : ControlledRun V) :
    DashboardAction → Option (ControlledRun V)
  | stationSetpoint stationId param _ =>
    (ControlledRun.adjustStation tables stationId param v sim.stationArtifacts).map fun artifacts =>
      { sim with stationArtifacts := artifacts }
  | amrBreakdown amrId =>
    sim.fleet.map fun fleet =>
      { sim with fleet := some (ControlledRun.triggerBreakdown amrId v fleet) }

/-- The variables that the handler reads. -/
def request (env : ControlEnv V) (ticket : Text) (runId : Int32) (v : V) :
    DashboardAction → ControlRequest V
  | stationSetpoint stationId param _ =>
    ⟨some ticket, some (lit "station_setpoint"), some stationId, none, some param, v, env.sixty,
      runId⟩
  | amrBreakdown amrId =>
    ⟨some ticket, some (lit "amr_breakdown"), none, some amrId, none, env.zero, v, runId⟩

end DashboardAction

/-- The text of a run id. -/
def runText (runId : Int32) : NumberText where
  text := decimal runId.toInt
  digits c hc := by
    have hcode := mem_decimal hc
    have hofNat : UInt16.ofNat c.toNat = c := UInt16.ofNat_toNat
    rw [← hofNat]
    generalize c.toNat = n at hcode
    rcases hcode with rfl | ⟨hlow, hhigh⟩
    · decide
    · interval_cases n <;> decide
  ne_nil := by
    unfold decimal
    split
    · exact List.cons_ne_nil _ _
    · exact decimalNat_ne_nil _

/-- The object of `sendControlAction`. -/
def controlBody (ticket : Text) (currentRunId : Int32) (a : DashboardAction) :
    List (Text × JsonValue) :=
  (lit "ticket", .string ticket) :: (lit "runId", .number (runText currentRunId)) :: a.members

/-- `sendControlAction`, with the ticket that it was given. -/
def sendControlAction (ticket : Text) (currentRunId : Int32) (a : DashboardAction) : HttpRequest :=
  ⟨lit "POST", none, stringify (controlBody ticket currentRunId a)⟩

variable {V : Type} {env : ControlEnv V}

/-- The names of the members are distinct and legible. -/
theorem names_controlBody (ticket : Text) (runId : Int32) (a : DashboardAction) :
    ((controlBody ticket runId a).map Prod.fst).Nodup ∧
      ∀ k ∈ (controlBody ticket runId a).map Prod.fst, Legible k := by
  cases a with
  | stationSetpoint stationId param value =>
    show [lit "ticket", lit "runId", lit "type", lit "stationId", lit "param", lit "value"].Nodup ∧
      ∀ k ∈ [lit "ticket", lit "runId", lit "type", lit "stationId", lit "param", lit "value"],
        Legible k
    decide
  | amrBreakdown amrId =>
    show [lit "ticket", lit "runId", lit "type", lit "amrId", lit "downtimeSeconds"].Nodup ∧
      ∀ k ∈ [lit "ticket", lit "runId", lit "type", lit "amrId", lit "downtimeSeconds"], Legible k
    decide

theorem legible_number (a : DashboardAction) : Legible a.number.text := by
  have hnull : Legible (lit "null") := by decide
  match a with
  | .stationSetpoint _ _ (some value) => exact value.legible
  | .stationSetpoint _ _ none => exact hnull
  | .amrBreakdown _ => exact DashboardAction.sixtySeconds.legible

theorem legible_controlBody {ticket : Text} (hticket : Legible ticket) (runId : Int32)
    {a : DashboardAction} (ha : ∀ s ∈ a.texts, Legible s) :
    ∀ p ∈ controlBody ticket runId a, Legible p.2.text := by
  have hsetpoint : Legible (lit "station_setpoint") := by decide
  have hbreakdown : Legible (lit "amr_breakdown") := by decide
  cases a with
  | stationSetpoint stationId param value =>
    rw [DashboardAction.texts, List.forall_mem_cons, List.forall_mem_singleton] at ha
    simp only [controlBody, DashboardAction.members, List.forall_mem_cons]
    exact ⟨hticket, NumberText.legible _, hsetpoint, ha.1, ha.2, legible_number _,
      fun p hp => absurd hp List.not_mem_nil⟩
  | amrBreakdown amrId =>
    rw [DashboardAction.texts, List.forall_mem_singleton] at ha
    simp only [controlBody, DashboardAction.members, List.forall_mem_cons]
    exact ⟨hticket, NumberText.legible _, hbreakdown, ha, legible_number _,
      fun p hp => absurd hp List.not_mem_nil⟩

theorem equalsIgnoreCase_self (tables : CaseTables) (s : Text) :
    equalsIgnoreCase tables s s = true := by
  rw [equalsIgnoreCase, beq_self_eq_true, Bool.true_and, List.all_eq_true]
  intro p hp
  obtain ⟨i, hi, rfl⟩ := List.mem_iff_getElem.mp hp
  rw [List.getElem_zip, beq_self_eq_true, Bool.true_or, Bool.true_or]

/-- **The request as it is read.** -/
theorem controlRequest_sendControlAction {ticket : Text} (hticket : Legible ticket) (runId : Int32)
    {a : DashboardAction} (ha : ∀ s ∈ a.texts, Legible s) :
    controlRequest env (sendControlAction ticket runId a) =
      (env.parseDouble a.number.text).map fun v => a.request env ticket runId v := by
  obtain ⟨hnodup, hnames⟩ := names_controlBody ticket runId a
  have hlookup := lookup_stringify hnodup fun p hp =>
    ⟨hnames p.1 (List.mem_map_of_mem hp), legible_controlBody hticket runId ha p hp⟩
  have hpost : equalsIgnoreCase env.tables (lit "POST") (sendControlAction ticket runId a).method =
      true := equalsIgnoreCase_self _ _
  rw [controlRequest, show (sendControlAction ticket runId a).query = none from rfl]
  simp only [Option.bind_eq_bind, Option.bind_some]
  rw [if_pos ⟨rfl, hpost⟩, show (sendControlAction ticket runId a).body =
    stringify (controlBody ticket runId a) from rfl]
  have hrun : (runText runId).text = decimal runId.toInt := rfl
  simp only [readParameters, parsed, hlookup]
  cases a with
  | stationSetpoint stationId param value =>
    show ((env.parseDouble _).bind fun v => (some env.sixty).bind fun downtimeSeconds =>
      (parseInt (runText runId).text).bind fun run => some _) = _
    rw [hrun, parseInt_decimal]
    cases env.parseDouble (DashboardAction.stationSetpoint stationId param value).number.text <;>
      rfl
  | amrBreakdown amrId =>
    show ((some env.zero).bind fun v => (env.parseDouble _).bind fun downtimeSeconds =>
      (parseInt (runText runId).text).bind fun run => some _) = _
    rw [hrun, parseInt_decimal]
    cases env.parseDouble (DashboardAction.amrBreakdown amrId).number.text <;> rfl

/-! ## The tickets -/

/-- A ticket is legible, so that it can be sent. -/
theorem legible_issue (mac : List UInt8 → List UInt8) (clientToken : Text) (runId : Int32)
    (scope : Text) (now : Int64) (jti : UUID) :
    Legible (issue mac clientToken runId scope now jti) := by
  refine legible_of_safe (fun c hc => ?_) (List.append_ne_nil_of_right_ne_nil _
    (List.cons_ne_nil _ _))
  rcases List.mem_append.mp hc with hc | hc
  · obtain ⟨i, hi, rfl⟩ := mem_encode64 hc
    exact safe_sextet hi
  · rcases List.mem_cons.mp hc with rfl | hc
    · decide
    · obtain ⟨i, hi, rfl⟩ := mem_encode64 hc
      exact safe_sextet hi

/-- The query that the dashboard fetches a ticket with. -/
def ticketQuery (currentRunId : Int32) : Text := lit "run_id=" ++ decimal currentRunId.toInt

/-- The ticket of the dashboard is for the run on show and for a client of its own. -/
theorem controlTicket_ticketQuery (mac : List UInt8 → List UInt8) (currentRunId : Int32)
    (now : Int64) (dflt jti : UUID) :
    controlTicket mac (some (ticketQuery currentRunId)) now dflt jti =
      some (issue mac dflt.toText currentRunId (lit "control") now jti) := by
  have hplain : ∀ u : UInt16, u ∈ lit "run_id" ∨ u ∈ decimal currentRunId.toInt →
      u ≠ 0x26 ∧ u ≠ 0x3D := by
    rintro u (hu | hu)
    · revert u
      decide
    · have hcode := mem_decimal hu
      constructor
      · rintro rfl
        revert hcode
        decide
      · rintro rfl
        revert hcode
        decide
  have hparam : split 0x26 (ticketQuery currentRunId) = [ticketQuery currentRunId] := by
    refine if_neg fun hmem => ?_
    rcases List.mem_append.mp hmem with h | h
    · revert h
      decide
    · exact (hplain _ (Or.inr h)).1 rfl
  have hpieces : split 0x3D (ticketQuery currentRunId) =
      [lit "run_id", decimal currentRunId.toInt] := by
    have hjoin : ticketQuery currentRunId =
        [0x3D].intercalate [lit "run_id", decimal currentRunId.toInt] := by
      rw [List.intercalate_cons_cons, List.intercalate_singleton]
      rfl
    rw [hjoin]
    refine split_intercalate ?_ ?_ (List.cons_ne_nil _ _)
    · intro p hp heq
      simp only [List.mem_cons, List.not_mem_nil, or_false] at hp
      rcases hp with rfl | rfl
      · exact (hplain _ (Or.inl heq)).2 rfl
      · exact (hplain _ (Or.inr heq)).2 rfl
    · intro p hp
      simp only [List.mem_cons, List.not_mem_nil, or_false] at hp
      rcases hp with rfl | rfl
      · decide
      · exact (runText currentRunId).ne_nil
  have hquery : parseQuery (some (ticketQuery currentRunId)) =
      [(lit "run_id", decimal currentRunId.toInt)] := by
    rw [parseQuery, hparam, List.filterMap_cons, entryOf, hpieces]
    rfl
  have hrun : TicketHttpServer.runId [(lit "run_id", decimal currentRunId.toInt)] =
      some currentRunId := parseInt_decimal currentRunId
  rw [controlTicket, ticketEndpoint, hquery, hrun]
  rfl

/-- The claims of the ticket of the dashboard. -/
theorem verifyAndParse_dashboard (mac : List UInt8 → List UInt8) (currentRunId : Int32)
    (now : Int64) (dflt jti : UUID) :
    ∃ claims, verifyAndParse mac (some (issue mac dflt.toText currentRunId (lit "control") now jti))
        = some claims ∧ claims.runId = currentRunId ∧ claims.scope = lit "control" ∧
      claims.exp = now + TICKET_TTL_MS := by
  have hplain : Plain dflt.toText :=
    ⟨fun h => (UUID.toText_plain h).2 rfl, scrub_eq_self fun c hc => (UUID.toText_plain hc).1⟩
  obtain ⟨claims, hv, -, hrun, hscope, hexp⟩ :=
    (roundTrips_iff mac dflt.toText currentRunId (lit "control") now jti).mpr
      ⟨hplain, by decide, by decide⟩
  exact ⟨claims, hv, hrun, hscope, hexp⟩

/-! ## What a click does -/

/-- A click: the run on show, the action, when its ticket is issued and when it arrives, and the
random ids of the client and of the ticket. -/
structure Click where
  currentRunId : Int32
  action : DashboardAction
  issued : Int64
  arrival : Int64
  client : UUID
  jti : UUID

namespace Click

/-- The ticket of a click. -/
def ticket (mac : List UInt8 → List UInt8) (c : Click) : Option Text :=
  controlTicket mac (some (ticketQuery c.currentRunId)) c.issued c.client c.jti

/-- The answer to a click, and the server after it; without a ticket nothing is posted. -/
def handle (env : ControlEnv V) (c : Click) (s : ControlServer V) :
    Option ControlResponse × ControlServer V :=
  match c.ticket env.mac with
  | none => (none, s)
  | some ticket =>
    let answer := s.handle env c.arrival (sendControlAction ticket c.currentRunId c.action)
    (some answer.1, answer.2)

/-- The texts of a click can be read. -/
def Legible (c : Click) : Prop := ∀ s ∈ c.action.texts, Text.Legible s

instance (c : Click) : Decidable c.Legible := inferInstanceAs (Decidable (∀ s ∈ _, _))

/-- What a click asks for: its action, if it arrives in time and its number is one. -/
def perform (env : ControlEnv V) (c : Click) (simulators : Int32 → Option (ControlledRun V)) :
    Option (Int32 → Option (ControlledRun V)) := do
  let v ← env.parseDouble c.action.number.text
  if c.issued + TICKET_TTL_MS < c.arrival then none
  else
    let sim ← simulators c.currentRunId
    let sim' ← c.action.perform env.tables v sim
    return Function.update simulators c.currentRunId (some sim')

/-- The simulators after a click. -/
def exec (env : ControlEnv V) (c : Click) (simulators : Int32 → Option (ControlledRun V)) :
    Int32 → Option (ControlledRun V) :=
  (c.perform env simulators).getD simulators

theorem execute_request (ticket : Text) (runId : Int32) (v : V) (sim : ControlledRun V)
    (a : DashboardAction) : execute env (a.request env ticket runId v) sim =
      a.perform env.tables v sim := by
  cases a with
  | stationSetpoint stationId param value =>
    have htype : equalsIgnoreCase env.tables (lit "station_setpoint") (lit "station_setpoint") =
        true := equalsIgnoreCase_self _ _
    simp only [execute, DashboardAction.request, htype]
    rfl
  | amrBreakdown amrId =>
    have hother : equalsIgnoreCase env.tables (lit "station_setpoint") (lit "amr_breakdown") =
        false := rfl
    have htype : equalsIgnoreCase env.tables (lit "amr_breakdown") (lit "amr_breakdown") = true :=
      equalsIgnoreCase_self _ _
    simp only [execute, DashboardAction.request, hother, htype, DashboardAction.perform]
    cases sim.fleet <;> rfl

theorem request_fields (env : ControlEnv V) (ticket : Text) (runId : Int32) (v : V)
    (a : DashboardAction) :
    (a.request env ticket runId v).ticket = some ticket ∧
      (a.request env ticket runId v).runId = runId := by
  cases a <;> exact ⟨rfl, rfl⟩

/-- The server's part of a click, `ticket` being its ticket. -/
theorem handle_sendControlAction {c : Click} (hc : c.Legible) {ticket : Text}
    (hticket : ticket = issue env.mac c.client.toText c.currentRunId (lit "control") c.issued c.jti)
    (s : ControlServer V) :
    s.handle env c.arrival (sendControlAction ticket c.currentRunId c.action) =
      match env.parseDouble c.action.number.text with
      | none => (.aborted, s)
      | some v =>
        if c.issued + TICKET_TTL_MS < c.arrival then (.forbidden, s)
        else
          match s.simulators c.currentRunId with
          | none => (.aborted, s)
          | some sim =>
            match c.action.perform env.tables v sim with
            | none => (.badRequest, s)
            | some sim' =>
              (.ok, ⟨Function.update s.simulators c.currentRunId (some sim'),
                (ticket, c.currentRunId) :: s.applied⟩) := by
  have hlegible : Text.Legible ticket := hticket ▸ legible_issue ..
  have hmethod : equalsIgnoreCase env.tables (lit "OPTIONS")
      (sendControlAction ticket c.currentRunId c.action).method = false := rfl
  obtain ⟨claims, hv, hrun, hscope, hexp⟩ :=
    verifyAndParse_dashboard env.mac c.currentRunId c.issued c.client c.jti
  rw [← hticket] at hv
  rw [ControlServer.handle, hmethod, if_neg Bool.false_ne_true,
    controlRequest_sendControlAction hlegible c.currentRunId hc]
  cases env.parseDouble c.action.number.text with
  | none => rfl
  | some v =>
    obtain ⟨hfield, hrunId⟩ := request_fields env ticket c.currentRunId v c.action
    have htarget : targetRun claims (c.action.request env ticket c.currentRunId v) =
        c.currentRunId :=
      (ControlServer.targetRun_eq (Or.inr (hrunId.trans hrun.symm))).trans hrun
    simp only [Option.map_some]
    rw [hfield, hv]
    simp only [hscope, bne_self_eq_false, Bool.or_false, Claims.isExpired, hexp, decide_eq_true_eq]
    split_ifs with hlate
    · rfl
    · rw [ControlServer.act, htarget]
      cases hsim : s.simulators c.currentRunId with
      | none => rfl
      | some sim =>
        cases hperform : c.action.perform env.tables v sim <;>
          simp only [execute_request, hperform]

/-- **One click**: it does what it asks for, and is answered with success iff that is something. -/
theorem handle_spec {c : Click} (hc : c.Legible) (s : ControlServer V) :
    (c.handle env s).2.simulators = c.exec env s.simulators ∧
      ((c.handle env s).1 = some .ok ↔ (c.perform env s.simulators).isSome) := by
  have hissued := controlTicket_ticketQuery env.mac c.currentRunId c.issued c.client c.jti
  rw [handle, ticket, hissued]
  simp only [handle_sendControlAction hc rfl, exec, perform, Option.bind_eq_bind]
  cases env.parseDouble c.action.number.text with
  | none => exact ⟨rfl, by simp⟩
  | some v =>
    simp only [Option.bind_some]
    split_ifs with hlate
    · exact ⟨rfl, by simp⟩
    · cases s.simulators c.currentRunId with
      | none => exact ⟨rfl, by simp⟩
      | some sim =>
        simp only [Option.bind_some]
        cases c.action.perform env.tables v sim with
        | none => exact ⟨rfl, by simp⟩
        | some sim' => exact ⟨rfl, by simp⟩

end Click

/-- **The buttons work.**  Click after click, on whichever runs, the simulators of the server are
those that the clicks ask for, and each click is answered with success iff it asks for something
that can be done: if the texts of the clicks are legible. -/
theorem dashboard_run (env : ControlEnv V) {clicks : List Click} (h : ∀ c ∈ clicks, c.Legible)
    (s : ControlServer V) :
    (run (fun c s => (Click.handle env c s).2) clicks s).simulators =
        run (Click.exec env) clicks s.simulators ∧
      ∀ before c after, clicks = before ++ c :: after →
        ((c.handle env (run (fun c s => (Click.handle env c s).2) before s)).1 = some .ok ↔
          (c.perform env (run (Click.exec env) before s.simulators)).isSome) := by
  have hrun : ∀ clicks : List Click, (∀ c ∈ clicks, c.Legible) → ∀ s : ControlServer V,
      (run (fun c s => (Click.handle env c s).2) clicks s).simulators =
        run (Click.exec env) clicks s.simulators := by
    intro clicks
    induction clicks with
    | nil => intro _ s; rfl
    | cons c clicks ih =>
      intro h s
      rw [run_cons, run_cons, ih (fun c hc => h c (List.mem_cons_of_mem _ hc)),
        (Click.handle_spec (h c List.mem_cons_self) s).1]
  refine ⟨hrun clicks h s, ?_⟩
  rintro before c after rfl
  have hbefore := hrun before (fun c hc => h c (List.mem_append_left _ hc)) s
  rw [← hbefore]
  exact (Click.handle_spec (h c (by simp)) _).2

/-- A setpoint of the station `S1` and a breakdown, where there is no fleet. -/
def twoClicks : List Click :=
  [⟨1, .stationSetpoint (lit "S1") (lit "t_press_k") (some DashboardAction.sixtySeconds), 0, 10,
      ⟨0, 0⟩, ⟨0, 1⟩⟩,
    ⟨1, .amrBreakdown (lit "AMR-1"), 20, 30, ⟨0, 2⟩, ⟨0, 3⟩⟩]

theorem dashboard_run_two :
    (run (fun c s => (Click.handle ControlServer.textEnv c s).2) twoClicks
        ⟨ControlServer.oneRun, []⟩).simulators =
      run (Click.exec ControlServer.textEnv) twoClicks ControlServer.oneRun :=
  (dashboard_run ControlServer.textEnv (by decide) ⟨ControlServer.oneRun, []⟩).1

end MatrixFactory
