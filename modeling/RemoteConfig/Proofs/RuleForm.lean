import Mathlib
import RemoteConfig.Proofs.Range
import RemoteConfig.Proofs.Records
import RemoteConfig.Proofs.Reread
import RemoteConfig.Rule.Wire
/-! # The JSON form of rules

An expression or rule is read back from its JSON text as the same tree: every scalar keeps its kind,
every string its characters.  This needs words of 64 bits at the integers, floating numbers that are
read back from their digits, and room for all that is nested.  A tree that was read from some text
has the first and the last of these, and its floating numbers are finite, so writing it again and
reading that changes nothing. -/

namespace RemoteConfig

open Json

/-- A number that is read back from its text. -/
def Binary64.ReadsBack (x : Binary64) : Prop := Json.parse (Json.print (.float x)) = some (.float x)

namespace Scalar

/-- A scalar that is one of its kind: an integer of 64 bits, a finite number. -/
def Proper : Scalar → Prop
  | int n => Decimal.fitsInt64 n = true
  | float x => x.isFinite = true
  | _ => True

/-- A scalar whose text denotes it. -/
structure Portable (v : Scalar) : Prop where
  ofJson?_toJson : ofJson? v.toJson = some v
  faithful : v.toJson.Faithful

theorem fits_toJson (v : Scalar) (room : Nat) : v.toJson.fits room = true := by
  cases v <;> rfl

/-- Printing a number and reading it is assumed to be exact for the finite numbers among the given
scalars. -/
def FloatsReadBack (vs : List Scalar) : Prop :=
  ∀ x, float x ∈ vs → x.isFinite = true → x.ReadsBack

theorem Proper.portable {v : Scalar} (h : v.Proper)
    (hfloat : ∀ x, v = float x → x.isFinite = true → x.ReadsBack) : v.Portable := by
  cases v with
  | bool b => exact ⟨rfl, faithful_bool b⟩
  | string s => exact ⟨rfl, faithful_string s⟩
  | float x => exact ⟨rfl, (faithful_iff _).mpr (hfloat x rfl h)⟩
  | int n =>
      have hfits : -0x8000000000000000 ≤ n ∧ n < 0x8000000000000000 := by
        simpa [Proper, Decimal.fitsInt64] using h
      refine ⟨?_, faithful_integer hfits.1 (by omega)⟩
      have hword : Decimal.fitsInt64 n = true := h
      rw [toJson, ofJson?, if_pos hword]

theorem portable_of_proper {vs : List Scalar} (hproper : ∀ v ∈ vs, v.Proper)
    (hfloats : FloatsReadBack vs) : ∀ v ∈ vs, v.Portable := fun v hv =>
  (hproper v hv).portable fun x hx => hfloats x (hx ▸ hv)

/-- The scalars of a text are proper. -/
theorem proper_of_ofJson? {j : Json} {v : Scalar} (h : ofJson? j = some v)
    (hrange : j.inRange = true) : v.Proper := by
  cases j with
  | bool b =>
      cases h
      trivial
  | string s =>
      cases h
      trivial
  | float x =>
      cases h
      exact hrange
  | integer n =>
      rw [ofJson?] at h
      by_cases hfits : Decimal.fitsInt64 n = true
      · rw [if_pos hfits] at h
        cases h
        exact hfits
      · rw [if_neg hfits] at h
        cases h
        have hword : -0x8000000000000000 ≤ n ∧ n < 0x10000000000000000 := by
          simpa [inRange] using hrange
        exact Magnitude.isFinite_ofNat (by omega)
  | null => cases h
  | array items => cases h
  | object fields => cases h
  | unreadable => cases h

end Scalar

namespace Expr

mutual
/-- The literals of an expression. -/
def literals : Expr → List Scalar
  | literal value => [value]
  | symbol _ => []
  | call _ args => literalsAll args

def literalsAll : List Expr → List Scalar
  | [] => []
  | e :: rest => e.literals ++ literalsAll rest
end

/-! ## Reading what was written -/

theorem ofJson?_literal {v : Scalar} (h : Scalar.ofJson? v.toJson = some v) :
    ofJson? v.toJson = some (literal v) := by
  have hplain : ofJson? v.toJson = (Scalar.ofJson? v.toJson).map literal := by
    cases v <;> rw [Scalar.toJson, ofJson?] <;> nofun
  rw [hplain, h, Option.map_some]

mutual
theorem ofJson?_toJson : ∀ e : Expr, (∀ v ∈ e.literals, v.Portable) → ofJson? e.toJson = some e
  | literal v, h => by
      rw [toJson]
      exact ofJson?_literal (h v (by simp [literals])).ofJson?_toJson
  | symbol name, _ => by
      rw [toJson, ofJson?]
      simp [textField?, fieldOnce?, valuesOf, string?]
  | call operator args, h => by
      have hargs := ofJsonAll?_toJsonAll args (fun v hv => h v (by rwa [literals]))
      rw [toJson, ofJson?]
      simp [textField?, fieldOnce?, valuesOf, string?, argumentsOf, hargs]

theorem ofJsonAll?_toJsonAll : ∀ args : List Expr, (∀ v ∈ literalsAll args, v.Portable) →
    ofJsonAll? (toJsonAll args) = some args
  | [], _ => rfl
  | e :: rest, h => by
      rw [literalsAll] at h
      obtain ⟨he, hrest⟩ := List.forall_mem_append.mp h
      rw [toJsonAll, ofJsonAll?, ofJson?_toJson e he, ofJsonAll?_toJsonAll rest hrest]
end

mutual
theorem faithful_toJson : ∀ e : Expr, (∀ v ∈ e.literals, v.Portable) → e.toJson.Faithful
  | literal v, h => by
      rw [toJson]
      exact (h v (by simp [literals])).faithful
  | symbol name, _ => by
      rw [toJson]
      exact faithful_object (by simp)
  | call operator args, h => by
      have hargs := faithful_toJsonAll args (fun v hv => h v (by rwa [literals]))
      rw [toJson]
      exact faithful_object (by simpa using faithful_array hargs)

theorem faithful_toJsonAll : ∀ args : List Expr, (∀ v ∈ literalsAll args, v.Portable) →
    ∀ j ∈ toJsonAll args, j.Faithful
  | [], _ => by simp [toJsonAll]
  | e :: rest, h => by
      rw [literalsAll] at h
      obtain ⟨he, hrest⟩ := List.forall_mem_append.mp h
      rw [toJsonAll]
      exact List.forall_mem_cons.mpr ⟨faithful_toJson e he, faithful_toJsonAll rest hrest⟩
end

/-! ## Writing what was read -/

/-- Arguments that were found stand in a field of that name. -/
theorem mem_of_mem_argumentsOf {fields : List (String × Json)} {args : List Expr}
    (h : some args ∈ argumentsOf fields) :
    ∃ items, ("arguments", array items) ∈ fields ∧ ofJsonAll? items = some args := by
  induction fields with
  | nil => simp [argumentsOf] at h
  | cons field fields ih =>
      have hrest : some args ∈ argumentsOf fields → ∃ items,
          ("arguments", array items) ∈ field :: fields ∧ ofJsonAll? items = some args := fun h => by
        obtain ⟨items, hmem, hitems⟩ := ih h
        exact ⟨items, List.mem_cons_of_mem field hmem, hitems⟩
      obtain ⟨name, j⟩ := field
      unfold argumentsOf at h
      split at h
      · cases ‹_ = _›
      · rename_i items _ heq
        cases heq
        split at h
        · rename_i hname
          subst hname
          rcases List.mem_cons.mp h with h | h
          · exact ⟨items, List.mem_cons_self .., h.symm⟩
          · exact hrest h
        · exact hrest h
      · rename_i heq
        cases heq
        split at h
        · rcases List.mem_cons.mp h with h | h
          · cases h
          · exact hrest h
        · exact hrest h

/-- What a value denotes: a literal, or if it is an object a symbol, or a call with the arguments
that one of its fields lists. -/
theorem ofJson?_cases {j : Json} {e : Expr} (h : ofJson? j = some e) :
    (∃ v, e = literal v ∧ Scalar.ofJson? j = some v) ∨
      ∃ fields, j = object fields ∧ ((∃ name, e = symbol name) ∨
        ∃ operator args items, e = call operator args ∧ ("arguments", array items) ∈ fields ∧
          ofJsonAll? items = some args) := by
  unfold ofJson? at h
  split at h
  · rename_i fields
    refine .inr ⟨fields, rfl, ?_⟩
    split at h
    · cases h
      exact .inl ⟨_, rfl⟩
    · split at h
      · rename_i operator args _ hargs
        cases h
        obtain ⟨items, hmem, hitems⟩ := mem_of_mem_argumentsOf (hargs ▸ List.mem_singleton.mpr rfl)
        exact .inr ⟨operator, args, items, rfl, hmem, hitems⟩
      · cases h
  · obtain ⟨v, hv, rfl⟩ := Option.map_eq_some_iff.mp h
    exact .inl ⟨v, rfl, hv⟩

/-- An expression that was read from a text with some room: it takes no more room when it is
written, and its literals are proper. -/
structure Settled (room : Nat) (e : Expr) : Prop where
  fits : e.toJson.fits room = true
  proper : ∀ v ∈ e.literals, v.Proper

mutual
theorem settled_of_ofJson? : ∀ (e : Expr) {j : Json} {room : Nat}, ofJson? j = some e →
    j.fits room = true → j.inRange = true → Settled room e
  | literal v, j, room, h, _, hrange => by
      obtain ⟨w, hw, hread⟩ | ⟨fields, -, ⟨name, hname⟩ | ⟨operator, args, items, hcall, -⟩⟩ :=
        ofJson?_cases h
      · cases hw
        refine ⟨by rw [toJson]; exact v.fits_toJson room, fun w hw => ?_⟩
        rw [literals, List.mem_singleton] at hw
        exact hw ▸ Scalar.proper_of_ofJson? hread hrange
      · cases hname
      · cases hcall
  | symbol name, j, room, h, hfits, _ => by
      obtain ⟨w, hw, -⟩ | ⟨fields, rfl, -⟩ := ofJson?_cases h
      · cases hw
      · refine ⟨?_, by simp [literals]⟩
        rw [toJson, fits_object]
        exact ⟨(fits_object.mp hfits).1, by simp⟩
  | call operator args, j, room, h, hfits, hrange => by
      obtain ⟨w, hw, -⟩ | ⟨fields, rfl, ⟨name, hname⟩ | ⟨_, _, items, hcall, hmem, hitems⟩⟩ :=
        ofJson?_cases h
      · cases hw
      · cases hname
      · cases hcall
        obtain ⟨hroom, hfields⟩ := fits_object.mp hfits
        obtain ⟨hinner, hall⟩ := fits_array.mp (hfields _ hmem)
        have hsettled := settled_of_ofJsonAll? args hitems hall
          (inRange_array.mp (inRange_object.mp hrange _ hmem))
        refine ⟨?_, by rw [literals]; exact hsettled.2⟩
        rw [toJson, fits_object]
        refine ⟨hroom, ?_⟩
        simpa using fits_array.mpr ⟨hinner, hsettled.1⟩

theorem settled_of_ofJsonAll? : ∀ (args : List Expr) {items : List Json} {room : Nat},
    ofJsonAll? items = some args → (∀ j ∈ items, j.fits room = true) →
    (∀ j ∈ items, j.inRange = true) →
    (∀ j ∈ toJsonAll args, j.fits room = true) ∧ ∀ v ∈ literalsAll args, v.Proper
  | [], _, _, _, _, _ => by simp [toJsonAll, literalsAll]
  | e :: rest, items, room, h, hfits, hrange => by
      cases items with
      | nil => cases h
      | cons j items =>
          rw [ofJsonAll?] at h
          split at h
          · rename_i he hrest
            cases h
            obtain ⟨hj, hitems⟩ := List.forall_mem_cons.mp hfits
            obtain ⟨hjrange, hitemsrange⟩ := List.forall_mem_cons.mp hrange
            have hhead := settled_of_ofJson? e he hj hjrange
            have htail := settled_of_ofJsonAll? rest hrest hitems hitemsrange
            rw [toJsonAll, literalsAll]
            exact ⟨List.forall_mem_cons.mpr ⟨hhead.fits, htail.1⟩,
              List.forall_mem_append.mpr ⟨hhead.proper, htail.2⟩⟩
          · cases h
end

theorem read?_toJson {e : Expr} {place : Place} (hliterals : ∀ v ∈ e.literals, v.Portable)
    (hfits : e.toJson.fits place.room = true) : read? place e.toJson = some e := by
  rw [read?, if_pos hfits]
  exact ofJson?_toJson e hliterals

theorem settled_of_read? {e : Expr} {place : Place} {j : Json} (h : read? place j = some e)
    (hrange : j.inRange = true) : Settled place.room e := by
  unfold read? at h
  split at h
  · rename_i hfits
    exact settled_of_ofJson? e h hfits hrange
  · cases h

end Expr

namespace Case

/-- The literals of a case. -/
def literals (c : Case) : List Scalar := c.condition.literals ++ [c.value]

theorem read?_toJson {c : Case} {place : Place} (hliterals : ∀ v ∈ c.literals, v.Portable)
    (hfits : c.toJson.fits place.room = true) : read? place c.toJson = some c := by
  obtain ⟨hcondition, hvalue⟩ := List.forall_mem_append.mp hliterals
  obtain ⟨hroom, hfields⟩ := fits_object.mp hfits
  have hexpr : Expr.read? place.inner c.condition.toJson = some c.condition :=
    Expr.read?_toJson hcondition (hfields _ (List.mem_cons_self ..))
  have hscalar : Scalar.ofJson? c.value.toJson = some c.value :=
    (hvalue _ (List.mem_singleton.mpr rfl)).ofJson?_toJson
  have hrecord : record? ["condition", "value"] place c.toJson =
      some [some c.condition.toJson, some c.value.toJson] :=
    record?_object rfl (by decide) hroom
  rw [read?, hrecord]
  simp only [hexpr, hscalar]
  rfl

theorem faithful_toJson {c : Case} (hliterals : ∀ v ∈ c.literals, v.Portable) :
    c.toJson.Faithful := by
  obtain ⟨hcondition, hvalue⟩ := List.forall_mem_append.mp hliterals
  refine faithful_object (List.forall_mem_cons.mpr ⟨Expr.faithful_toJson _ hcondition, ?_⟩)
  simpa using (hvalue _ (List.mem_singleton.mpr rfl)).faithful

/-- A case that was read from a text with some room takes no more room, and its literals are
proper. -/
structure Settled (room : Nat) (c : Case) : Prop where
  fits : c.toJson.fits room = true
  proper : ∀ v ∈ c.literals, v.Proper

theorem settled_of_read? {c : Case} {place : Place} {j : Json} (h : read? place j = some c)
    (hrange : j.inRange = true) : Settled place.room c := by
  unfold read? at h
  split at h
  · rename_i condition value hrecord
    obtain ⟨e, he, h⟩ := Option.bind_eq_some_iff.mp h
    obtain ⟨v, hv, h⟩ := Option.bind_eq_some_iff.mp h
    cases h
    obtain ⟨hroom, hcondition⟩ := mem_parts_of_record? hrecord (List.mem_cons_self ..)
    obtain ⟨-, hvalue⟩ := mem_parts_of_record? hrecord (k := value) (by simp)
    have hexpr := Expr.settled_of_read? he (inRange_of_mem_parts hrange hcondition)
    have hscalar := Scalar.proper_of_ofJson? hv (inRange_of_mem_parts hrange hvalue)
    constructor
    · rw [toJson, fits_object]
      refine ⟨hroom, List.forall_mem_cons.mpr ⟨hexpr.fits, ?_⟩⟩
      simpa using v.fits_toJson (place.room - 1)
    · exact List.forall_mem_append.mpr ⟨hexpr.proper, by simpa using hscalar⟩
  · cases h

end Case

namespace Rule

/-- The literals of a rule. -/
def literals (r : Rule) : List Scalar := r.cases.flatMap Case.literals ++ [r.fallback]

theorem read?_toJson {r : Rule} {place : Place} (hliterals : ∀ v ∈ r.literals, v.Portable)
    (hfits : r.toJson.fits place.room = true) : read? place r.toJson = some r := by
  obtain ⟨hcases, hfallback⟩ := List.forall_mem_append.mp hliterals
  obtain ⟨hroom, hfields⟩ := fits_object.mp hfits
  obtain ⟨hinner, hitems⟩ := fits_array.mp (hfields _ (List.mem_cons_self ..))
  have hlist : list? Case.read? place.inner (.array (r.cases.map Case.toJson)) = some r.cases := by
    refine list?_map hinner fun c hc => Case.read?_toJson (fun v hv => ?_) ?_
    · exact hcases v (List.mem_flatMap.mpr ⟨c, hc, hv⟩)
    · exact hitems _ (List.mem_map_of_mem hc)
  have hscalar : Scalar.ofJson? r.fallback.toJson = some r.fallback :=
    (hfallback _ (List.mem_singleton.mpr rfl)).ofJson?_toJson
  have hrecord : record? ["cond-values", "default-value"] place r.toJson =
      some [some (.array (r.cases.map Case.toJson)), some r.fallback.toJson] :=
    record?_object rfl (by decide) hroom
  rw [read?, hrecord]
  simp only [hlist, hscalar]
  rfl

theorem faithful_toJson {r : Rule} (hliterals : ∀ v ∈ r.literals, v.Portable) :
    r.toJson.Faithful := by
  obtain ⟨hcases, hfallback⟩ := List.forall_mem_append.mp hliterals
  have hitems : Faithful (.array (r.cases.map Case.toJson)) := by
    refine faithful_array fun j hj => ?_
    obtain ⟨c, hc, rfl⟩ := List.mem_map.mp hj
    exact Case.faithful_toJson fun v hv => hcases v (List.mem_flatMap.mpr ⟨c, hc, hv⟩)
  refine faithful_object (List.forall_mem_cons.mpr ⟨hitems, ?_⟩)
  simpa using (hfallback _ (List.mem_singleton.mpr rfl)).faithful

/-- A rule that was read from a text with some room takes no more room, and its literals are
proper. -/
structure Settled (room : Nat) (r : Rule) : Prop where
  fits : r.toJson.fits room = true
  proper : ∀ v ∈ r.literals, v.Proper

theorem settled_of_read? {r : Rule} {place : Place} {j : Json} (h : read? place j = some r)
    (hrange : j.inRange = true) : Settled place.room r := by
  unfold read? at h
  split at h
  · rename_i cases fallback hrecord
    obtain ⟨cs, hcs, h⟩ := Option.bind_eq_some_iff.mp h
    obtain ⟨v, hv, h⟩ := Option.bind_eq_some_iff.mp h
    cases h
    obtain ⟨hroom, hcases⟩ := mem_parts_of_record? hrecord (List.mem_cons_self ..)
    obtain ⟨-, hfallback⟩ := mem_parts_of_record? hrecord (k := fallback) (by simp)
    obtain ⟨hinner, items, rfl, hitems⟩ := list?_eq_some hcs
    have hsettled : ∀ c ∈ cs, Case.Settled place.inner.inner.room c := by
      intro c hc
      obtain ⟨item, hitem, hread⟩ := exists_of_mem_mapM hitems hc
      exact Case.settled_of_read? hread
        (inRange_array.mp (inRange_of_mem_parts hrange hcases) item hitem)
    have hscalar := Scalar.proper_of_ofJson? hv (inRange_of_mem_parts hrange hfallback)
    constructor
    · have hlist : (Json.array (cs.map Case.toJson)).fits (place.room - 1) = true := by
        refine fits_array.mpr ⟨hinner, fun j hj => ?_⟩
        obtain ⟨c, hc, rfl⟩ := List.mem_map.mp hj
        exact (hsettled c hc).fits
      rw [toJson, fits_object]
      refine ⟨hroom, List.forall_mem_cons.mpr ⟨hlist, ?_⟩⟩
      simpa using v.fits_toJson (place.room - 1)
    · refine List.forall_mem_append.mpr ⟨fun w hw => ?_, by simpa using hscalar⟩
      obtain ⟨c, hc, hw⟩ := List.mem_flatMap.mp hw
      exact (hsettled c hc).proper w hw
  · cases h

end Rule

/-! ## Round trips -/

theorem Expr.parseJson_printJson {e : Expr} (hproper : ∀ v ∈ e.literals, v.Proper)
    (hfloats : Scalar.FloatsReadBack e.literals) (hfits : e.toJson.fits nestingLimit = true) :
    parseJson e.printJson = some e := by
  have hportable := Scalar.portable_of_proper hproper hfloats
  rw [parseJson, printJson, (faithful_toJson e hportable).parse_print, Option.bind_some]
  exact read?_toJson hportable hfits

theorem Rule.parseJson_printJson {r : Rule} (hproper : ∀ v ∈ r.literals, v.Proper)
    (hfloats : Scalar.FloatsReadBack r.literals) (hfits : r.toJson.fits nestingLimit = true) :
    parseJson r.printJson = some r := by
  have hportable := Scalar.portable_of_proper hproper hfloats
  rw [parseJson, printJson, (faithful_toJson hportable).parse_print, Option.bind_some]
  exact read?_toJson hportable hfits

/-- The literals of a rule that was read from a text are proper. -/
theorem Rule.proper_of_parseJson {s : String} {r : Rule} (h : parseJson s = some r) :
    ∀ v ∈ r.literals, v.Proper := by
  obtain ⟨j, hj, hread⟩ := Option.bind_eq_some_iff.mp h
  exact (settled_of_read? hread (inRange_of_parse hj)).proper

/-- An expression or rule with proper literals that nests no more than a text may is read back from
its text as it is.  So is whatever was read from any text. -/
theorem rule_form_lossless :
    (∀ e : Expr, (∀ v ∈ e.literals, v.Proper) → Scalar.FloatsReadBack e.literals →
      e.toJson.fits nestingLimit = true → Expr.parseJson e.printJson = some e) ∧
    (∀ r : Rule, (∀ v ∈ r.literals, v.Proper) → Scalar.FloatsReadBack r.literals →
      r.toJson.fits nestingLimit = true → Rule.parseJson r.printJson = some r) ∧
    (∀ (s : String) (e : Expr), Expr.parseJson s = some e → Scalar.FloatsReadBack e.literals →
      Expr.parseJson e.printJson = some e) ∧
    (∀ (s : String) (r : Rule), Rule.parseJson s = some r → Scalar.FloatsReadBack r.literals →
      Rule.parseJson r.printJson = some r) := by
  refine ⟨fun e => Expr.parseJson_printJson, fun r => Rule.parseJson_printJson,
    fun s e h hfloats => ?_, fun s r h hfloats => ?_⟩
  · obtain ⟨j, hj, hread⟩ := Option.bind_eq_some_iff.mp h
    have hsettled := Expr.settled_of_read? hread (inRange_of_parse hj)
    exact Expr.parseJson_printJson hsettled.proper hfloats hsettled.fits
  · obtain ⟨j, hj, hread⟩ := Option.bind_eq_some_iff.mp h
    have hsettled := Rule.settled_of_read? hread (inRange_of_parse hj)
    exact Rule.parseJson_printJson hsettled.proper hfloats hsettled.fits

/-- One half. -/
def Binary64.half : Binary64 := .signed false (.ofRank 0x3fe0000000000000)

theorem Binary64.readsBack_half : half.ReadsBack := by
  have hliteral : Literal.ofMagnitude false (.ofRank 0x3fe0000000000000) =
      ⟨false, ['0'], some ['5'], none⟩ := by decide +kernel
  have hscaled : scaleByTen (.ofNat 5) (-1) = some (.ofRank 0x3fe0000000000000) := by
    rw [scaleByTen, if_pos (by decide)]
    exact congrArg some (by decide +kernel)
  have hmagnitude : Literal.magnitude ⟨false, ['0'], some ['5'], none⟩ =
      some (.ofRank 0x3fe0000000000000) := hscaled
  refine Faithful.parse_print ?_
  rw [Faithful, reread, half, rereadFloat, if_pos (by decide), hliteral, Literal.value]
  simp only [hmagnitude]
  rfl

/-- A call that compares a symbol, whose name has to be escaped, with one half, and a rule that a
text gives in the positional form. -/
theorem rule_form_lossless_nested :
    let e : Expr := .call "and" [.call "<" [.symbol "a\"\\b", .literal (.float .half)],
      .literal (.int (-9223372036854775808)), .literal (.string "1")]
    let s := " [[[\x7b\"symbol\":\"x\", \"y\":[1]\x7d, true]], \"a\\u00e9\"]"
    let r : Rule := ⟨[⟨.symbol "x", .bool true⟩], .string "aé"⟩
    (∀ v ∈ e.literals, v.Proper) ∧ Scalar.FloatsReadBack e.literals ∧
      e.toJson.fits nestingLimit = true ∧ Expr.parseJson e.printJson = some e ∧
      Rule.parseJson s = some r ∧ Rule.parseJson r.printJson = some r := by
  intro e s r
  obtain ⟨hexpr, -, -, hrule⟩ := rule_form_lossless
  have hliterals : e.literals =
      [.float .half, .int (-9223372036854775808), .string "1"] := rfl
  have hproper : ∀ v ∈ e.literals, v.Proper := by
    rw [hliterals]
    simp only [List.forall_mem_cons]
    exact ⟨rfl, rfl, trivial, nofun⟩
  have hfloats : Scalar.FloatsReadBack e.literals := by
    intro x hx _
    simp only [hliterals, List.mem_cons, Scalar.float.injEq, reduceCtorEq, List.not_mem_nil,
      or_false] at hx
    exact hx ▸ Binary64.readsBack_half
  have hfits : e.toJson.fits nestingLimit = true := by decide
  have hread : Rule.parseJson s = some r := by cbv
  refine ⟨hproper, hfloats, hfits, hexpr e hproper hfloats hfits, hread, hrule s r hread ?_⟩
  intro x hx
  simp [Rule.literals, Case.literals, Expr.literals, r] at hx

end RemoteConfig
