/-
# Telemetry and control tickets

The signed tickets of `TicketIssuer` (`issue`, `verifyAndParse`) and the endpoints of
`TicketHttpServer` that hand them out and accept them.  The signed payload is a string
joined with `|` and split again by position: `ticket_iff` says for which client
parameters and scopes the fields come back as they went in, and which client
parameters turn a telemetry ticket into one the control endpoint accepts.
-/
import MatrixFactory.Lib.Text
import Mathlib.Data.List.GetD

namespace MatrixFactory

/-- `java.util.UUID`. -/
structure UUID where
  mostSigBits : UInt64
  leastSigBits : UInt64
  deriving DecidableEq, Repr

/-- The record `TicketIssuer.Claims`. -/
structure Claims where
  sub : Text
  runId : Int32
  iat : Int64
  exp : Int64
  jti : Text
  scope : Text
  deriving DecidableEq, Repr

/-- `Claims.isExpired`, at the time `currentTimeMillis`. -/
def Claims.isExpired (c : Claims) (currentTimeMillis : Int64) : Bool := c.exp < currentTimeMillis

namespace UUID

/-- A hexadecimal digit. -/
def hexDigit (d : ℕ) : UInt16 :=
  if d < 10 then UInt16.ofNat (0x30 + d) else UInt16.ofNat (0x61 + (d - 10))

/-- The lower `k` hexadecimal digits of a number. -/
def digits (v k : ℕ) : Text := (List.range k).reverse.map fun i => hexDigit (v / 16 ^ i % 16)

/-- `UUID.toString`. -/
def toText (u : UUID) : Text :=
  digits (u.mostSigBits.toNat / 2 ^ 32) 8 ++ 0x2D :: digits (u.mostSigBits.toNat / 2 ^ 16) 4 ++
    0x2D :: digits u.mostSigBits.toNat 4 ++ 0x2D :: digits (u.leastSigBits.toNat / 2 ^ 48) 4 ++
    0x2D :: digits u.leastSigBits.toNat 12

end UUID

namespace TicketIssuer

open Text

/-- Ten seconds. -/
def TICKET_TTL_MS : Int64 := 10000

/-- The separator `|` of the payload. -/
def bar : UInt16 := 0x7C

/-- `Integer.parseInt`. -/
def parseInt (s : Text) : Option Int32 :=
  (parse s).bind fun n =>
    if -2 ^ 31 ≤ n ∧ n < 2 ^ 31 then some (Int32.ofInt n) else none

/-- `Long.parseLong`. -/
def parseLong (s : Text) : Option Int64 :=
  (parse s).bind fun n =>
    if -2 ^ 63 ≤ n ∧ n < 2 ^ 63 then some (Int64.ofInt n) else none

/-- `sign`; `mac` is HMAC-SHA256 under the key of the process. -/
def sign (mac : List UInt8 → List UInt8) (data : Text) : Text := encode64 (mac (bytes data))

/-- The string that `issue` signs. -/
def payload (clientToken : Text) (runId : Int32) (scope : Text) (now : Int64) (jti : UUID) : Text :=
  clientToken ++ bar :: (decimal runId.toInt ++ bar :: (decimal now.toInt ++
    bar :: (decimal (now + TICKET_TTL_MS).toInt ++ bar :: (jti.toText ++ bar :: scope))))

/-- `issue`, at the time `now` and with the random `jti`. -/
def issue (mac : List UInt8 → List UInt8) (clientToken : Text) (runId : Int32) (scope : Text)
    (now : Int64) (jti : UUID) : Text :=
  let encodedPayload := encode64 (bytes (payload clientToken runId scope now jti))
  encodedPayload ++ 0x2E :: sign mac encodedPayload

/-- `constantTimeEquals`. -/
def constantTimeEquals (a b : Text) : Bool :=
  if a.length ≠ b.length then false
  else (a.zip b).foldl (fun result p => result ||| (p.1 ^^^ p.2)) 0 == 0

/-- The claims in the parts of a payload. -/
def claimsOf : List Text → Option Claims
  | sub :: runId :: iat :: exp :: jti :: rest => do
    let runId ← parseInt runId
    let iat ← parseLong iat
    let exp ← parseLong exp
    return ⟨sub, runId, iat, exp, jti, rest.headD (lit "telemetry")⟩
  | _ => none

/-- `verifyAndParse`. -/
def verifyAndParse (mac : List UInt8 → List UInt8) : Option Text → Option Claims
  | none => none
  | some ticket =>
    if 0x2E ∉ ticket then none
    else
      let dot := ticket.idxOf 0x2E
      let encodedPayload := ticket.take dot
      let providedSignature := ticket.drop (dot + 1)
      if constantTimeEquals (sign mac encodedPayload) providedSignature then do
        let bs ← decode64 encodedPayload
        claimsOf (split bar (ofBytes bs))
      else none

end TicketIssuer

namespace TicketHttpServer

open Text

/-- A map from names to values; the newest entry of a name is the one that counts. -/
abbrev Query := List (Text × Text)

/-- `getOrDefault`. -/
def getOrDefault (q : Query) (key dflt : Text) : Text := (q.lookup key).getD dflt

/-- The entry of one parameter of a query, `none` for an empty array of pieces. -/
def entryOf (param : Text) : Option (Text × Text) :=
  match split 0x3D param with
  | [] => none
  | [name] => some (name, [])
  | name :: value :: _ => some (name, value)

/-- `parseQuery`. -/
def parseQuery : Option Text → Query
  | none => []
  | some query => ((split 0x26 query).filterMap entryOf).reverse

/-- The client of a request; `dflt` is the `UUID` of a request without one. -/
def clientToken (q : Query) (dflt : UUID) : Text :=
  getOrDefault q (lit "client") (getOrDefault q (lit "clientToken") dflt.toText)

/-- The run of a request, `none` where `parseInt` throws. -/
def runId (q : Query) : Option Int32 :=
  TicketIssuer.parseInt (getOrDefault q (lit "run_id") (getOrDefault q (lit "runId") (lit "0")))

/-- The handlers of `/telemetry/ticket` and `/control/ticket`, which differ in the scope;
`none` where `parseInt` throws. -/
def ticketEndpoint (scope : Text) (mac : List UInt8 → List UInt8) (query : Option Text)
    (now : Int64) (dflt jti : UUID) : Option Text :=
  (runId (parseQuery query)).map fun runId =>
    TicketIssuer.issue mac (clientToken (parseQuery query) dflt) runId scope now jti

/-- `/telemetry/ticket`. -/
def telemetryTicket := ticketEndpoint (lit "telemetry")

/-- `/control/ticket`. -/
def controlTicket := ticketEndpoint (lit "control")

/-- The check of `/control/action`: the request is not answered with 403. -/
def controlAction (mac : List UInt8 → List UInt8) (ticket : Option Text)
    (currentTimeMillis : Int64) : Bool :=
  match TicketIssuer.verifyAndParse mac ticket with
  | none => false
  | some claims => !(claims.isExpired currentTimeMillis || claims.scope != lit "control")

end TicketHttpServer

/-! ## The round trip of one payload -/

namespace TicketIssuer

open Text

theorem parseInt_decimal (n : Int32) : parseInt (decimal n.toInt) = some n := by
  have h1 := n.le_toInt
  have h2 := n.toInt_lt
  rw [parseInt, parse_decimal, Option.bind_some, if_pos ⟨h1, h2⟩, Int32.ofInt_toInt]

theorem parseLong_decimal (n : Int64) : parseLong (decimal n.toInt) = some n := by
  have h1 := n.le_toInt
  have h2 := n.toInt_lt
  rw [parseLong, parse_decimal, Option.bind_some, if_pos ⟨h1, h2⟩, Int64.ofInt_toInt]

theorem foldl_or_xor (l : List (UInt16 × UInt16)) :
    ∀ r, l.foldl (fun result p => result ||| (p.1 ^^^ p.2)) r = 0 ↔
      r = 0 ∧ ∀ p ∈ l, p.1 = p.2 := by
  induction l with
  | nil => intro r; simp
  | cons p l ih =>
    intro r
    rw [List.foldl_cons, ih, UInt16.or_eq_zero_iff, UInt16.xor_eq_zero_iff, List.forall_mem_cons,
      and_assoc]

/-- The comparison that looks at every character compares. -/
theorem constantTimeEquals_iff {a b : Text} : constantTimeEquals a b = true ↔ a = b := by
  unfold constantTimeEquals
  by_cases h : a.length = b.length
  · rw [if_neg (not_not.2 h), beq_iff_eq, foldl_or_xor]
    constructor
    · rintro ⟨-, heq⟩
      apply List.ext_getElem h
      intro i hi hi'
      exact heq (a[i], b[i]) (List.mem_iff_getElem.2
        ⟨i, by rw [List.length_zip]; omega, List.getElem_zip⟩)
    · rintro rfl
      refine ⟨rfl, fun p hp => ?_⟩
      obtain ⟨i, hi, rfl⟩ := List.mem_iff_getElem.1 hp
      rw [List.getElem_zip]
  · rw [if_pos h]
    refine ⟨fun h' => absurd h' Bool.false_ne_true, ?_⟩
    rintro rfl
    exact absurd rfl h

/-- A ticket is cut at its first dot, and the signature made for it holds. -/
theorem verifyAndParse_signed (mac : List UInt8 → List UInt8) {E : Text} (hdot : 0x2E ∉ E) :
    verifyAndParse mac (some (E ++ 0x2E :: sign mac E))
      = (decode64 E).bind fun bs => claimsOf (split bar (ofBytes bs)) := by
  have hmem : (0x2E : UInt16) ∈ E ++ 0x2E :: sign mac E := by simp
  have hidx : (E ++ 0x2E :: sign mac E).idxOf 0x2E = E.length := by
    rw [List.idxOf_append_of_notMem hdot, List.idxOf_cons_self, Nat.add_zero]
  have hdrop : (E ++ 0x2E :: sign mac E).drop (E.length + 1) = sign mac E := by
    rw [← List.drop_drop, List.drop_left, List.drop_one, List.tail_cons]
  simp only [verifyAndParse]
  rw [if_neg (not_not.2 hmem), hidx, List.take_left, hdrop, if_pos (constantTimeEquals_iff.2 rfl)]
  rfl

/-- The parts of an issued ticket are those of its payload. -/
theorem verifyAndParse_issue (mac : List UInt8 → List UInt8) (client : Text) (runId : Int32)
    (scope : Text) (now : Int64) (jti : UUID) :
    verifyAndParse mac (some (issue mac client runId scope now jti))
      = claimsOf (split bar (scrub (payload client runId scope now jti))) := by
  rw [issue, verifyAndParse_signed mac (dot_notMem_encode64 _), decode64_encode64,
    Option.bind_some, ofBytes_bytes]

theorem decimal_plain {n : ℤ} {u : UInt16} (h : u ∈ decimal n) :
    (isHigh u || isLow u) = false ∧ u ≠ bar := by
  have hm := mem_decimal h
  rw [Bool.or_eq_false_iff, ← Bool.not_eq_true, ← Bool.not_eq_true, isHigh_iff, isLow_iff]
  refine ⟨by omega, ?_⟩
  rintro rfl
  revert hm
  decide

end TicketIssuer

namespace UUID

open Text TicketIssuer

theorem hexDigit_plain {d : ℕ} (h : d < 16) :
    (isHigh (hexDigit d) || isLow (hexDigit d)) = false ∧ hexDigit d ≠ bar := by
  interval_cases d <;> decide

theorem digits_plain {v k : ℕ} {u : UInt16} (h : u ∈ digits v k) :
    (isHigh u || isLow u) = false ∧ u ≠ bar := by
  obtain ⟨i, -, rfl⟩ := List.mem_map.1 h
  exact hexDigit_plain (Nat.mod_lt _ (by decide))

/-- The text of a `UUID` consists of hexadecimal digits and hyphens. -/
theorem toText_plain {j : UUID} {u : UInt16} (h : u ∈ j.toText) :
    (isHigh u || isLow u) = false ∧ u ≠ bar := by
  simp only [toText, List.mem_append, List.mem_cons] at h
  have hminus : ∀ w : UInt16, w = 0x2D → (isHigh w || isLow w) = false ∧ w ≠ bar := by
    rintro w rfl
    decide
  rcases h with (((h | h | h) | h | h) | h | h) | h | h
  all_goals first | exact digits_plain h | exact hminus u h

@[simp] theorem toText_length (j : UUID) : j.toText.length = 36 := by
  simp [toText, digits]

end UUID

namespace TicketIssuer

open Text

/-- The parts that `issue` puts between the client and the scope. -/
def middle (runId : Int32) (now : Int64) (jti : UUID) : List Text :=
  [decimal runId.toInt, decimal now.toInt, decimal (now + TICKET_TTL_MS).toInt, jti.toText]

theorem splitOn_field {s : Text} (hs : ∀ u ∈ s, (isHigh u || isLow u) = false ∧ u ≠ bar)
    (t : Text) : (scrub (s ++ bar :: t)).splitOn bar = s :: (scrub t).splitOn bar := by
  rw [scrub_append_cons (by decide), scrub_eq_self fun u hu => (hs u hu).1,
    List.splitOn_append_cons_self_of_not_mem fun hb => (hs bar hb).2 rfl]

/-- **The parts of a payload**: the pieces of the client, the four of `issue`, and those
of the scope up to the last one that is not empty. -/
theorem split_payload (client : Text) (runId : Int32) (scope : Text) (now : Int64) (jti : UUID) :
    split bar (scrub (payload client runId scope now jti))
      = (scrub client).splitOn bar ++
          (middle runId now jti ++ dropEmpties ((scrub scope).splitOn bar)) := by
  have hjti : jti.toText ≠ [] := by
    intro h
    have := jti.toText_length
    rw [h] at this
    exact absurd this (by decide)
  have hpieces : (scrub (payload client runId scope now jti)).splitOn bar
      = (scrub client).splitOn bar ++ (middle runId now jti ++ (scrub scope).splitOn bar) := by
    rw [payload, scrub_append_cons (by decide), List.splitOn_append_cons_self,
      splitOn_field fun u hu => decimal_plain hu, splitOn_field fun u hu => decimal_plain hu,
      splitOn_field fun u hu => decimal_plain hu, splitOn_field fun u hu => UUID.toText_plain hu]
    rfl
  have hmem : bar ∈ scrub (payload client runId scope now jti) := by
    rw [payload, scrub_append_cons (by decide)]
    simp
  rw [split, if_pos hmem, hpieces]
  -- the `jti` is not empty, so only pieces of the scope are dropped
  have hdrop := dropEmpties_append_cons hjti ((scrub client).splitOn bar ++
    [decimal runId.toInt, decimal now.toInt, decimal (now + TICKET_TTL_MS).toInt])
    ((scrub scope).splitOn bar)
  simpa [middle] using hdrop

/-! ## Which tickets come back as issued -/

/-- No separator and no unpaired surrogate. -/
def Plain (s : Text) : Prop := bar ∉ s ∧ s.WellFormed

instance (s : Text) : Decidable (Plain s) := inferInstanceAs (Decidable (_ ∧ _))

/-- The ticket is read back with the fields it was issued with. -/
def RoundTrips (mac : List UInt8 → List UInt8) (client : Text) (runId : Int32) (scope : Text)
    (now : Int64) (jti : UUID) : Prop :=
  ∃ c, verifyAndParse mac (some (issue mac client runId scope now jti)) = some c ∧
    c.sub = client ∧ c.runId = runId ∧ c.scope = scope ∧ c.exp = now + TICKET_TTL_MS

theorem splitOn_scrub {s : Text} (h : bar ∉ s) : (scrub s).splitOn bar = [scrub s] :=
  List.splitOn_eq_singleton fun hb => h ((mem_scrub (by decide) (by decide) s).1 hb)

/-- A string is the first piece of its replacement iff it is plain. -/
theorem head_eq_iff_plain (s : Text) :
    ((scrub s).splitOn bar).head (List.splitOn_ne_nil _ _) = s ↔ Plain s := by
  constructor
  · intro h
    have hbar : bar ∉ s := by
      rw [← h]
      exact notMem_of_mem_splitOn (List.head_mem _)
    refine ⟨hbar, ?_⟩
    show scrub s = s
    simpa only [splitOn_scrub hbar, List.head_cons] using h
  · rintro ⟨hbar, hwf⟩
    simpa only [splitOn_scrub hbar, List.head_cons] using show scrub s = s from hwf

/-- The scope read back is the one put in iff that is plain and not empty. -/
theorem scope_eq_iff (s : Text) :
    (dropEmpties ((scrub s).splitOn bar)).headD (lit "telemetry") = s ↔ Plain s ∧ s ≠ [] := by
  have hsingle : ∀ {t : Text}, t ≠ [] → dropEmpties [t] = [t] := fun ht =>
    dropEmpties_append_cons ht [] []
  constructor
  · intro h
    cases hd : dropEmpties ((scrub s).splitOn bar) with
    | nil =>
      -- the default would have come back as itself
      rw [hd, List.headD_nil] at h
      rw [← h] at hd
      exact absurd hd (by decide)
    | cons q l =>
      rw [hd, List.headD_cons] at h
      subst h
      have hhead : ((scrub q).splitOn bar).head (List.splitOn_ne_nil _ _) = q := by
        obtain ⟨m, hm⟩ := List.rdropWhile_prefix (fun t : Text => decide (t = []))
          ((scrub q).splitOn bar)
        rw [show List.rdropWhile _ ((scrub q).splitOn bar) = q :: l from hd] at hm
        simp only [← hm, List.cons_append, List.head_cons]
      have hplain := (head_eq_iff_plain q).1 hhead
      refine ⟨hplain, ?_⟩
      rintro rfl
      rw [show dropEmpties ((scrub []).splitOn bar) = [] by decide] at hd
      exact absurd hd (List.cons_ne_nil _ _).symm
  · rintro ⟨⟨hbar, hwf⟩, hne⟩
    rw [splitOn_scrub hbar, hwf, hsingle hne, List.headD_cons]

theorem claimsOf_sub {p : Text} {l : List Text} {c : Claims} (h : claimsOf (p :: l) = some c) :
    c.sub = p := by
  match l with
  | runId :: iat :: exp :: jti :: rest =>
    simp only [claimsOf, Option.bind_eq_bind, Option.bind_eq_some_iff, Option.pure_def,
      Option.some.injEq] at h
    obtain ⟨_, _, _, _, _, _, rfl⟩ := h
    rfl
  | [] | [_] | [_, _] | [_, _, _] => exact absurd h (by simp [claimsOf])

/-- With a client without separators the parts are where `verifyAndParse` expects them. -/
theorem claimsOf_plain (sub : Text) (runId : Int32) (now : Int64) (jti : UUID) (l : List Text) :
    claimsOf (sub :: (middle runId now jti ++ l)) = some
      ⟨sub, runId, now, now + TICKET_TTL_MS, jti.toText, l.headD (lit "telemetry")⟩ := by
  simp only [middle, List.cons_append, List.nil_append, claimsOf, parseInt_decimal,
    parseLong_decimal, Option.bind_eq_bind, Option.bind_some, Option.pure_def]

theorem roundTrips_iff (mac : List UInt8 → List UInt8) (client : Text) (runId : Int32)
    (scope : Text) (now : Int64) (jti : UUID) :
    RoundTrips mac client runId scope now jti ↔ Plain client ∧ Plain scope ∧ scope ≠ [] := by
  unfold RoundTrips
  rw [verifyAndParse_issue, split_payload]
  constructor
  · rintro ⟨c, hc, hsub, -, hscope, -⟩
    have hplain : Plain client := by
      rw [← head_eq_iff_plain]
      obtain ⟨p, l, hp⟩ := List.exists_cons_of_ne_nil
        (List.splitOn_ne_nil bar (scrub client))
      rw [hp, List.cons_append] at hc
      simp only [hp, List.head_cons]
      rw [← hsub, claimsOf_sub hc]
    rw [splitOn_scrub hplain.1, List.singleton_append, claimsOf_plain, Option.some.injEq] at hc
    rw [← hc] at hscope
    exact ⟨hplain, (scope_eq_iff scope).1 hscope⟩
  · rintro ⟨⟨hbar, hwf⟩, hscope⟩
    rw [splitOn_scrub hbar, List.singleton_append, claimsOf_plain, (scope_eq_iff scope).2 hscope]
    exact ⟨_, rfl, hwf, rfl, rfl, rfl⟩

/-! ## Which telemetry tickets the control endpoint accepts -/

/-- Parts from which `verifyAndParse` reads claims with the scope `control` that have not
expired at the time `t`. -/
def GrantsControl (t : Int64) : List Text → Prop
  | _ :: runId :: iat :: exp :: _ :: scope :: _ =>
    (parseInt runId).isSome ∧ (parseLong iat).isSome ∧ (parseLong exp).any (t ≤ ·) ∧
      scope = lit "control"
  | _ => False

/-- The client's own pieces grant control. -/
def Forges (client : Text) (t : Int64) : Prop := GrantsControl t ((scrub client).splitOn bar)

theorem controlAction_iff {mac : List UInt8 → List UInt8} {ticket : Text} {parts : List Text}
    (h : verifyAndParse mac (some ticket) = claimsOf parts) (t : Int64) :
    TicketHttpServer.controlAction mac (some ticket) t = true ↔ GrantsControl t parts := by
  have hdefault : lit "telemetry" ≠ lit "control" := by decide
  rw [TicketHttpServer.controlAction, h]
  match parts with
  | [] | [_] | [_, _] | [_, _, _] | [_, _, _, _] => simp [claimsOf, GrantsControl]
  | [sub, runId, iat, exp, jti] =>
    simp only [claimsOf, GrantsControl, List.headD_nil]
    cases parseInt runId <;> cases parseLong iat <;> cases parseLong exp <;> simp [hdefault]
  | sub :: runId :: iat :: exp :: jti :: scope :: rest =>
    simp only [claimsOf, GrantsControl, List.headD_cons]
    cases parseInt runId <;> cases parseLong iat <;> cases parseLong exp <;>
      simp [Claims.isExpired]

theorem middle_ne_control {runId : Int32} {now : Int64} {jti : UUID} {s : Text}
    (h : s ∈ middle runId now jti) : s ≠ lit "control" := by
  have hlit : lit "control" = [0x63, 0x6F, 0x6E, 0x74, 0x72, 0x6F, 0x6C] := by decide
  have hdec : ∀ n : ℤ, decimal n ≠ lit "control" := by
    intro n hn
    have hmem : (0x63 : UInt16) ∈ decimal n := by
      rw [hn, hlit]
      exact List.mem_cons_self
    have hbound := mem_decimal hmem
    revert hbound
    decide
  simp only [middle, List.mem_cons, List.not_mem_nil, or_false] at h
  rcases h with h | h | h | h <;> rw [h]
  · exact hdec _
  · exact hdec _
  · exact hdec _
  · intro hj
    have hlen := jti.toText_length
    rw [hj, hlit] at hlen
    simp at hlen

/-- The parts `issue` adds to those of the client grant nothing. -/
theorem grantsControl_append {t : Int64} {runId : Int32} {now : Int64} {jti : UUID}
    (P : List Text) :
    GrantsControl t (P ++ (middle runId now jti ++ [lit "telemetry"])) ↔ GrantsControl t P := by
  have htele : lit "telemetry" ≠ lit "control" := by decide
  have hmid : ∀ s ∈ middle runId now jti, s ≠ lit "control" := fun s hs => middle_ne_control hs
  simp only [middle, List.mem_cons, List.not_mem_nil, or_false, forall_eq_or_imp, forall_eq] at hmid
  obtain ⟨h1, h2, h3, h4⟩ := hmid
  match P with
  | [] | [_] | [_, _] | [_, _, _] | [_, _, _, _] | [_, _, _, _, _] =>
    simp only [middle, GrantsControl, List.cons_append, List.nil_append, h1, h2, h3, h4, htele,
      and_false]
  | _ :: _ :: _ :: _ :: _ :: _ :: _ => exact Iff.rfl

theorem controlAction_issue_iff (mac : List UInt8 → List UInt8) (client : Text) (runId : Int32)
    (now : Int64) (jti : UUID) (t : Int64) :
    TicketHttpServer.controlAction mac
        (some (issue mac client runId (lit "telemetry") now jti)) t = true ↔ Forges client t := by
  have hscope : dropEmpties ((scrub (lit "telemetry")).splitOn bar) = [lit "telemetry"] := by decide
  have hparts := verifyAndParse_issue mac client runId (lit "telemetry") now jti
  rw [split_payload, hscope] at hparts
  rw [controlAction_iff hparts, grantsControl_append, Forges]

end TicketIssuer

namespace TicketHttpServer

open Text TicketIssuer

/-- **Which tickets mean what was asked for.**  A ticket is read back with the client,
run, scope and expiry it was issued with iff client and scope are plain and the scope is
not empty; and the control endpoint accepts at the time `t` the ticket that the telemetry
endpoint hands out for a query iff the query names a run and the pieces of its client
parameter themselves spell out the fields of an unexpired control ticket. -/
theorem ticket_iff (mac : List UInt8 → List UInt8) (client scope : Text) (run : Int32)
    (now : Int64) (jti : UUID) (query : Option Text) (dflt : UUID) (t : Int64) :
    (RoundTrips mac client run scope now jti ↔ Plain client ∧ Plain scope ∧ scope ≠ []) ∧
      ((telemetryTicket mac query now dflt jti).any
          (fun ticket => controlAction mac (some ticket) t) = true ↔
        (runId (parseQuery query)).isSome ∧ Forges (clientToken (parseQuery query) dflt) t) := by
  refine ⟨roundTrips_iff mac client run scope now jti, ?_⟩
  rw [telemetryTicket, ticketEndpoint]
  cases hrun : runId (parseQuery query) with
  | none => simp
  | some r => simp [controlAction_issue_iff]

/-- Whatever the key, the client `x|0|0|99999999999999|j|control` asks for a telemetry
ticket of run 0 and gets one that is read back as a control ticket of `x`. -/
theorem not_ticket : ¬ ∃ mac : List UInt8 → List UInt8,
    RoundTrips mac (lit "x|0|0|99999999999999|j|control") 0 (lit "telemetry") 0 ⟨0, 0⟩ ∨
      ¬ (telemetryTicket mac (some (lit "client=x|0|0|99999999999999|j|control")) 0 ⟨0, 0⟩
        ⟨0, 0⟩).any (fun ticket => controlAction mac (some ticket) 0) = true := by
  rintro ⟨mac, h⟩
  revert h
  rw [imp_false, not_or, not_not]
  have hquery :
      runId (parseQuery (some (lit "client=x|0|0|99999999999999|j|control"))) = some 0 := by
    decide
  have hclient : clientToken (parseQuery (some (lit "client=x|0|0|99999999999999|j|control")))
      ⟨0, 0⟩ = lit "x|0|0|99999999999999|j|control" := by decide
  have hpieces : (scrub (lit "x|0|0|99999999999999|j|control")).splitOn bar
      = [lit "x", lit "0", lit "0", lit "99999999999999", lit "j", lit "control"] := by decide
  constructor
  · rw [roundTrips_iff]
    decide
  · rw [telemetryTicket, ticketEndpoint, hquery, hclient, Option.map_some, Option.any_some,
      controlAction_issue_iff, Forges, hpieces]
    exact ⟨by decide, by decide, by decide, rfl⟩

end TicketHttpServer

end MatrixFactory
