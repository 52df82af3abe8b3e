import Mathlib.Data.String.Basic
import RemoteConfig.Proofs.Operators
import RemoteConfig.Proofs.RuleForm
import RemoteConfig.Proofs.Wire
/-! # Answers to clients

What a client gets is fields in the order of their names, nested no deeper than templates may be.
From the text of the answer it reads the same response, as long as each floating number in the
fields is read back from its digits; a number that is not finite makes the whole answer unreadable.
Errors are always read back, with their codes and messages. -/

namespace RemoteConfig

open Json

namespace Resolved

/-- Integers are words, fields are in the order of their names, and at most `levels` levels of
fields are nested. -/
def WellFormed : Nat → Resolved → Prop
  | _, scalar v => ∀ n, v = .int n → Decimal.fitsInt64 n = true
  | 0, nested _ => False
  | levels + 1, nested fields =>
    fields.Pairwise (fun a b => a.1 < b.1) ∧ ∀ field ∈ fields, WellFormed levels field.2

mutual
/-- The floating numbers in a value. -/
def floats : Resolved → List Binary64
  | scalar (.float x) => [x]
  | scalar _ => []
  | nested fields => fieldsFloats fields

def fieldsFloats : Fields → List Binary64
  | [] => []
  | (_, value) :: rest => value.floats ++ fieldsFloats rest
end

theorem mem_fieldsFloats {fields : Fields} {x : Binary64} :
    x ∈ fieldsFloats fields ↔ ∃ field ∈ fields, x ∈ field.2.floats := by
  induction fields with
  | nil => simp [fieldsFloats]
  | cons field fields ih => simp [fieldsFloats, ih]

theorem fieldsJson_eq_map (fields : Fields) :
    fieldsJson fields = fields.map fun field => (field.1, field.2.toJson) := by
  induction fields with
  | nil => rfl
  | cons field fields ih => rw [fieldsJson, ih, List.map_cons]

/-! ## Reading fields -/

theorem insert_of_forall_lt {name : String} (value : Resolved) {fields : Fields}
    (h : ∀ field ∈ fields, name < field.1) :
    Fields.insert name value fields = (name, value) :: fields := by
  cases fields with
  | nil => rfl
  | cons field fields => rw [Fields.insert, if_pos (h field (List.mem_cons_self ..))]

/-- Fields whose names ascend are read one by one. -/
theorem ofFields?_eq_mapM {pairs : List (String × Json)} (h : pairs.Pairwise fun a b => a.1 < b.1) :
    ofFields? pairs = pairs.mapM fun pair => (ofJson? pair.2).map (pair.1, ·) := by
  induction pairs with
  | nil => rfl
  | cons pair pairs ih =>
      obtain ⟨hfirst, hrest⟩ := List.pairwise_cons.mp h
      rw [ofFields?, ih hrest, List.mapM_cons]
      cases ofJson? pair.2 with
      | none => rfl
      | some value =>
          cases hread : pairs.mapM fun pair => (ofJson? pair.2).map (pair.1, ·) with
          | none => rfl
          | some fields =>
              have hbehind : ∀ field ∈ fields, pair.1 < field.1 := by
                intro field hfield
                obtain ⟨other, hother, hmap⟩ := exists_of_mem_mapM hread hfield
                obtain ⟨_, -, rfl⟩ := Option.map_eq_some_iff.mp hmap
                exact hfirst other hother
              have hnew : fields.any (·.1 = pair.1) = false := by
                rw [List.any_eq_false]
                intro field hfield heq
                exact (hbehind field hfield).ne (of_decide_eq_true heq).symm
              simp only [hnew, Bool.false_eq_true, if_false, insert_of_forall_lt value hbehind]
              rfl

/-- The text of a floating number never denotes an integer. -/
theorem rereadFloat_cases (x : Binary64) :
    rereadFloat x = .null ∨ rereadFloat x = .unreadable ∨ ∃ y, rereadFloat x = .float y := by
  cases x with
  | nan => exact .inl rfl
  | signed negative x =>
      rw [rereadFloat]
      split
      · exact .inr (Literal.value_of_isFractional (Literal.isFractional_ofMagnitude negative x))
      · exact .inl rfl

theorem readsBack_iff (x : Binary64) : x.ReadsBack ↔ rereadFloat x = .float x := by
  rw [Binary64.ReadsBack, parse_print, Option.some_inj, reread]

theorem ofJson?_reread_float (x : Binary64) :
    ofJson? (rereadFloat x) = some (scalar (.float x)) ↔ x.ReadsBack := by
  rw [readsBack_iff]
  rcases rereadFloat_cases x with h | h | ⟨y, h⟩ <;> rw [h]
  · exact ⟨nofun, nofun⟩
  · exact ⟨nofun, nofun⟩
  · simp [ofJson?, Scalar.ofJson?]

theorem ofJson?_reread_scalar {v : Scalar} (hword : ∀ n, v = .int n → Decimal.fitsInt64 n = true) :
    ofJson? v.toJson.reread = some (scalar v) ↔ ∀ x ∈ (scalar v).floats, x.ReadsBack := by
  cases v with
  | bool b => simp [floats, Scalar.toJson, reread, ofJson?, Scalar.ofJson?]
  | string s => simp [floats, Scalar.toJson, reread, ofJson?, Scalar.ofJson?]
  | float x => simp [floats, Scalar.toJson, reread, ofJson?_reread_float]
  | int n =>
      have hn := hword n rfl
      have hfaithful : reread (.integer n) = .integer n := (sound_int64 hn 0).faithful
      simp [floats, Scalar.toJson, hfaithful, ofJson?, Scalar.ofJson?, hn]

theorem pairwise_names {fields : Fields} (h : fields.Pairwise fun a b => a.1 < b.1)
    (encode : Resolved → Json) :
    (fields.map fun field => (field.1, encode field.2)).Pairwise fun a b => a.1 < b.1 :=
  List.pairwise_map.mpr h

/-- Fields in order are read from the texts of their values exactly if all of these are. -/
theorem ofFields?_map_iff {fields : Fields} (h : fields.Pairwise fun a b => a.1 < b.1)
    (encode : Resolved → Json) :
    ofFields? (fields.map fun field => (field.1, encode field.2)) = some fields ↔
      ∀ field ∈ fields, ofJson? (encode field.2) = some field.2 := by
  rw [ofFields?_eq_mapM (pairwise_names h encode), mapM_map_eq_some_iff]
  refine forall₂_congr fun field _ => ?_
  rw [Option.map_eq_some_iff]
  constructor
  · rintro ⟨value, hvalue, hfield⟩
    rw [show field.2 = value from congrArg Prod.snd hfield.symm] at hvalue ⊢
    exact hvalue
  · exact fun hvalue => ⟨field.2, hvalue, rfl⟩

theorem rereadFields_fieldsJson (fields : Fields) :
    rereadFields (fieldsJson fields) =
      fields.map fun field => (field.1, field.2.toJson.reread) := by
  rw [rereadFields_eq_map, fieldsJson_eq_map, List.map_map]
  rfl

/-- A value is read back as itself exactly if its floating numbers are. -/
theorem ofJson?_reread_iff : ∀ (levels : Nat) {r : Resolved}, r.WellFormed levels →
    (ofJson? r.toJson.reread = some r ↔ ∀ x ∈ r.floats, x.ReadsBack)
  | levels, scalar v, h => by
      rw [toJson]
      exact ofJson?_reread_scalar (by cases levels <;> exact h)
  | 0, nested fields, h => h.elim
  | levels + 1, nested fields, ⟨hnames, hfields⟩ => by
      have hread : ofJson? (toJson (nested fields)).reread =
          (ofFields? (rereadFields (fieldsJson fields))).map nested := by
        rw [toJson, reread, ofJson?]
      have hnested : ofJson? (toJson (nested fields)).reread = some (nested fields) ↔
          ofFields? (rereadFields (fieldsJson fields)) = some fields := by
        rw [hread, Option.map_eq_some_iff]
        simp
      rw [hnested, rereadFields_fieldsJson,
        ofFields?_map_iff hnames fun value => value.toJson.reread, floats]
      constructor
      · intro h x hx
        obtain ⟨field, hfield, hx⟩ := mem_fieldsFloats.mp hx
        exact (ofJson?_reread_iff levels (hfields field hfield)).mp (h field hfield) x hx
      · intro h field hfield
        exact (ofJson?_reread_iff levels (hfields field hfield)).mpr fun x hx =>
          h x (mem_fieldsFloats.mpr ⟨field, hfield, hx⟩)

theorem ofFields?_reread_iff {levels : Nat} {fields : Fields}
    (h : WellFormed (levels + 1) (nested fields)) :
    ofFields? (rereadFields (fieldsJson fields)) = some fields ↔
      ∀ x ∈ fieldsFloats fields, x.ReadsBack := by
  have hiff := ofJson?_reread_iff (levels + 1) h
  rw [toJson, reread, ofJson?, floats, Option.map_eq_some_iff] at hiff
  simpa using hiff

/-- A value whose floating numbers are read back opens no more objects than it has levels. -/
theorem sound_toJson : ∀ (levels : Nat) {r : Resolved}, r.WellFormed levels →
    (∀ x ∈ r.floats, x.ReadsBack) → Sound levels r.toJson
  | levels, scalar v, h, hfloats => by
      have hword : ∀ n, v = .int n → Decimal.fitsInt64 n = true := by cases levels <;> exact h
      rw [toJson]
      cases v with
      | bool b => exact sound_bool b levels
      | string s => exact sound_string s levels
      | int n => exact sound_int64 (hword n rfl) levels
      | float x =>
          exact ⟨(faithful_iff _).mpr (hfloats x (by simp [floats])), fun _ _ => rfl⟩
  | 0, nested fields, h, _ => h.elim
  | levels + 1, nested fields, ⟨_, hfields⟩, hfloats => by
      rw [toJson, fieldsJson_eq_map]
      refine sound_object fun pair hpair => ?_
      obtain ⟨field, hfield, rfl⟩ := List.mem_map.mp hpair
      exact sound_toJson levels (hfields field hfield) fun x hx =>
        hfloats x (by rw [floats]; exact mem_fieldsFloats.mpr ⟨field, hfield, hx⟩)

mutual
/-- Nothing is read where a number was written that is not finite. -/
theorem ofJson?_reread_eq_none : ∀ {r : Resolved} {x : Binary64}, x ∈ r.floats →
    x.isFinite = false → ofJson? r.toJson.reread = none
  | scalar v, x, hx, hfinite => by
      cases v with
      | float y =>
          rw [floats, List.mem_singleton] at hx
          subst hx
          have hnull : rereadFloat x = .null := by
            cases x with
            | nan => rfl
            | signed negative x => exact if_neg (by simpa [Binary64.isFinite] using hfinite)
          rw [toJson, Scalar.toJson, reread, hnull]
          rfl
      | _ => simp [floats] at hx
  | nested fields, x, hx, hfinite => by
      rw [toJson, reread, ofJson?, ofFields?_reread_eq_none (by rwa [floats] at hx) hfinite]
      rfl

theorem ofFields?_reread_eq_none : ∀ {fields : Fields} {x : Binary64}, x ∈ fieldsFloats fields →
    x.isFinite = false → ofFields? (rereadFields (fieldsJson fields)) = none
  | [], x, hx, _ => by simp [fieldsFloats] at hx
  | (name, value) :: rest, x, hx, hfinite => by
      rw [fieldsFloats] at hx
      rw [fieldsJson, rereadFields, ofFields?]
      rcases List.mem_append.mp hx with hx | hx
      · rw [ofJson?_reread_eq_none hx hfinite]
      · rw [ofFields?_reread_eq_none hx hfinite]
        split
        · rename_i h
          cases h
        · rfl
end

end Resolved

/-! ## Values of configs -/

/-- A value whose integers are words, and whose rule has proper literals. -/
def ConfigValue.Proper : ConfigValue → Prop
  | int n => Decimal.fitsInt64 n = true
  | code r => ∀ v ∈ r.literals, v.Proper
  | _ => True

/-- What is compiled is proper. -/
theorem ConfigValue.proper_of_compile {type : ValueType} {raw : String} {value : ConfigValue}
    (h : compile type raw = .ok value) : value.Proper := by
  cases type with
  | string =>
      cases h
      trivial
  | int =>
      simp only [compile] at h
      split at h
      · rename_i hn
        cases h
        exact Decimal.fitsInt64_of_readInteger hn
      · cases h
  | float =>
      simp only [compile] at h
      split at h
      · cases h
        trivial
      · cases h
  | code =>
      simp only [compile] at h
      split at h
      · cases h
      · rename_i hr
        split at h
        · cases h
          exact Rule.proper_of_parseJson hr
        · cases h
  | template =>
      simp only [compile] at h
      split at h
      · cases h
      · cases h
        trivial

theorem Snapshot.Coherent.proper_activeValues {s : Snapshot} (hs : s.Coherent) (appKey : String) :
    ∀ field ∈ s.activeValues appKey, field.2.Proper := by
  intro field hfield
  obtain ⟨c, hc, hvalue⟩ := List.mem_filterMap.mp hfield
  obtain ⟨key, -, hstored⟩ := List.mem_filterMap.mp hc
  split at hvalue
  · obtain ⟨value, hok, rfl⟩ := Option.map_eq_some_iff.mp hvalue
    rw [hs.compiled key c hstored, Config.compile] at hok
    cases hcompile : ConfigValue.compile c.entry.valueType c.entry.rawValue with
    | error e =>
        rw [hcompile] at hok
        cases hok
    | ok value =>
        rw [hcompile] at hok
        cases hok
        exact ConfigValue.proper_of_compile hcompile
  · cases hvalue

/-- A rule selects one of its literals. -/
theorem Evaluator.select_mem_literals (ev : Evaluator) (ctx : Context) (r : Rule) :
    (ev.select ctx r).1 ∈ r.literals := by
  have hfrom : ∀ (cases : List Case) (ev : Evaluator),
      (ev.selectFrom ctx r.fallback cases).1 ∈ cases.flatMap Case.literals ++ [r.fallback] := by
    intro cases
    induction cases with
    | nil => exact fun ev => List.mem_singleton.mpr rfl
    | cons c rest ih =>
        intro ev
        rw [selectFrom]
        simp only
        split
        · simp [Case.literals]
        · rw [List.flatMap_cons, List.append_assoc]
          exact List.mem_append_right _ (ih _)
  exact hfrom r.cases ev

/-! ## Resolved fields -/

namespace Resolved

variable {levels : Nat} {fields : Fields}

theorem mem_insert {name : String} {value : Resolved} {field : String × Resolved}
    (h : field ∈ fields.insert name value) : field = (name, value) ∨ field ∈ fields := by
  induction fields with
  | nil => exact .inl (List.mem_singleton.mp h)
  | cons first rest ih =>
      rw [Fields.insert] at h
      split at h
      · exact List.mem_cons.mp h
      · split at h
        · rcases List.mem_cons.mp h with h | h
          · exact .inl h
          · exact .inr (List.mem_cons_of_mem _ h)
        · rcases List.mem_cons.mp h with h | h
          · exact .inr (h ▸ List.mem_cons_self ..)
          · exact (ih h).imp_right (List.mem_cons_of_mem _)

theorem pairwise_insert (h : fields.Pairwise fun a b => a.1 < b.1) (name : String)
    (value : Resolved) : (fields.insert name value).Pairwise fun a b => a.1 < b.1 := by
  induction fields with
  | nil => exact List.pairwise_singleton ..
  | cons first rest ih =>
      obtain ⟨hfirst, hrest⟩ := List.pairwise_cons.mp h
      rw [Fields.insert]
      split
      · rename_i hlt
        refine List.pairwise_cons.mpr ⟨List.forall_mem_cons.mpr ⟨hlt, fun field hfield => ?_⟩, h⟩
        exact hlt.trans (hfirst field hfield)
      · rename_i hnlt
        split
        · rename_i heq
          exact List.pairwise_cons.mpr ⟨heq ▸ hfirst, hrest⟩
        · rename_i hne
          refine List.pairwise_cons.mpr ⟨fun field hfield => ?_, ih hrest⟩
          rcases mem_insert hfield with rfl | hfield
          · exact lt_of_le_of_ne (not_lt.mp hnlt) (Ne.symm hne)
          · exact hfirst field hfield

/-- Entering a value keeps fields well-formed. -/
theorem WellFormed.insert (h : WellFormed (levels + 1) (nested fields)) {value : Resolved}
    (hvalue : value.WellFormed levels) (name : String) :
    WellFormed (levels + 1) (nested (fields.insert name value)) := by
  refine ⟨pairwise_insert h.1 name value, fun field hfield => ?_⟩
  rcases mem_insert hfield with rfl | hfield
  · exact hvalue
  · exact h.2 field hfield

theorem wellFormed_nil (levels : Nat) : WellFormed (levels + 1) (nested []) :=
  ⟨.nil, nofun⟩

theorem wellFormed_of_proper {v : Scalar} (h : v.Proper) (levels : Nat) :
    WellFormed levels (scalar v) := by
  have hword : ∀ n, v = .int n → Decimal.fitsInt64 n = true := fun n hn => by
    subst hn
    exact h
  cases levels <;> exact hword

theorem wellFormed_string (s : String) (levels : Nat) : WellFormed levels (scalar (.string s)) := by
  cases levels <;> exact nofun

end Resolved

namespace Snapshot

open Resolved

variable {inline : Inliner} {ctx : Context} {levels : Nat}

/-- A config gives a well-formed value if the templates that it may inline do. -/
theorem wellFormed_resolveValue (hinline : ∀ ev key fields, (inline ev key).1 = some fields →
      WellFormed levels (nested fields)) {value : ConfigValue} (hvalue : value.Proper)
    {ev : Evaluator} {resolved : Resolved}
    (h : (resolveValue inline ctx ev value).1 = some resolved) : resolved.WellFormed levels := by
  cases value with
  | string s =>
      cases h
      exact wellFormed_string s levels
  | int n =>
      cases h
      exact wellFormed_of_proper (v := .int n) hvalue levels
  | float x =>
      cases h
      cases levels <;> exact nofun
  | code r =>
      cases h
      exact wellFormed_of_proper (hvalue _ (ev.select_mem_literals ctx r)) levels
  | template key =>
      obtain ⟨fields, hfields, rfl⟩ := Option.map_eq_some_iff.mp h
      exact hinline ev key fields hfields

theorem wellFormed_resolveValues (hinline : ∀ ev key fields, (inline ev key).1 = some fields →
      WellFormed levels (nested fields)) :
    ∀ (values : List (String × ConfigValue)) {fields : Fields} (ev : Evaluator),
      (∀ field ∈ values, field.2.Proper) → WellFormed (levels + 1) (nested fields) →
        WellFormed (levels + 1) (nested (resolveValues inline ctx fields ev values).1)
  | [], fields, ev, _, h => h
  | (name, value) :: rest, fields, ev, hvalues, h => by
      obtain ⟨hvalue, hrest⟩ := List.forall_mem_cons.mp hvalues
      rw [resolveValues]
      split
      · rename_i hresolved
        have hfirst := wellFormed_resolveValue hinline hvalue (congrArg Prod.fst hresolved)
        exact wellFormed_resolveValues hinline rest _ hrest (h.insert hfirst name)
      · exact wellFormed_resolveValues hinline rest _ hrest h

/-- The fields of an app are well-formed, one level above those of the templates it inlines. -/
theorem Coherent.wellFormed_resolve {s : Snapshot} (hs : s.Coherent) (ctx : Context) :
    ∀ (levels : Nat) (ev : Evaluator) (appKey : String),
      WellFormed (levels + 1) (nested (s.resolve ctx levels ev appKey).1)
  | 0, ev, appKey =>
      wellFormed_resolveValues (fun _ _ _ h => by cases h) _ ev
        (hs.proper_activeValues appKey) (wellFormed_nil 0)
  | levels + 1, ev, appKey => by
      refine wellFormed_resolveValues (fun ev key fields h => ?_) _ ev
        (hs.proper_activeValues appKey) (wellFormed_nil (levels + 1))
      simp only at h
      split at h
      · cases h
      · cases h
        exact hs.wellFormed_resolve ctx levels ev _

end Snapshot

/-! ## Responses -/

namespace Response

/-- The floating numbers in a response. -/
def floats (r : Response) : List Binary64 := r.fields.elim [] Resolved.fieldsFloats

/-- What stands for the fields in the text of a response, as it is read. -/
def fieldsReread (r : Response) : Json := (r.fields.elim .null Fields.toJson).reread

theorem reread_toJson (r : Response) :
    r.toJson.reread = .object [("configs", r.fieldsReread), ("data_sign", .string r.dataSign),
      ("nodes", .array (r.nodes.map .string))] := by
  have hnodes : rereadAll (r.nodes.map .string) = r.nodes.map .string := by
    rw [rereadAll_eq_map, List.map_map]
    exact List.map_congr_left fun url _ => by rw [Function.comp_apply, reread]
  simp only [toJson, reread, rereadFields, hnodes, fieldsReread]

/-- A response is read as its fields are. -/
theorem read?_reread (r : Response) {place : Place} (hroom : 2 ≤ place.room) :
    read? place r.toJson.reread =
      (readFields? place.inner r.fieldsReread).map (⟨·, r.dataSign, r.nodes⟩) := by
  have hrecord : record? ["configs", "data_sign", "nodes"] place r.toJson.reread =
      some [some r.fieldsReread, some (.string r.dataSign),
        some (.array (r.nodes.map .string))] := by
    rw [reread_toJson]
    exact record?_object rfl (by decide) (by omega)
  have hnodes : list? (fun _ => string?) place.inner (.array (r.nodes.map .string)) =
      some r.nodes :=
    list?_map (show 0 < place.room - 1 by omega) fun _ _ => rfl
  rw [read?, hrecord]
  simp only [hnodes, string?_string, Option.map_some, Option.getD_some]
  cases readFields? place.inner r.fieldsReread <;> rfl

theorem fits_reread (r : Response) {room : Nat} (hroom : 2 ≤ room) :
    r.toJson.reread.fits room = r.fieldsReread.fits (room - 1) := by
  have hnodes : (Json.array (r.nodes.map .string)).fits (room - 1) = true := by
    refine fits_array.mpr ⟨by omega, fun j hj => ?_⟩
    obtain ⟨url, -, rfl⟩ := List.mem_map.mp hj
    rfl
  rw [reread_toJson, Bool.eq_iff_iff, fits_object]
  simp only [List.forall_mem_cons, hnodes, fits_string]
  constructor
  · exact fun h => h.2.1
  · exact fun h => ⟨by omega, h, trivial, trivial, nofun⟩

/-- What a client reads from the text of a response. -/
theorem received_toJson (r : Response) :
    Envelope.received read? ((Envelope.ok r).toJson toJson).print =
      if r.fieldsReread.fits 125 then
        (readFields? ⟨125, false⟩ r.fieldsReread).map fun fields =>
          .ok ⟨fields, r.dataSign, r.nodes⟩
      else none := by
  have hreread : ((Envelope.ok r).toJson toJson).reread =
      .object [("status", .bool true), ("data", r.toJson.reread)] := by
    simp only [Envelope.toJson, Envelope.ok, reread, rereadFields]
  have hrecord : record? ["status", "data"] .top ((Envelope.ok r).toJson toJson).reread =
      some [some (.bool true), some r.toJson.reread] := by
    rw [hreread]
    exact record?_object rfl (by decide) (by decide)
  -- no field of a response has the name of a part of an error
  have herror : Envelope.errorBody? r.toJson.reread = none := by
    rw [reread_toJson]
    simp [Envelope.errorBody?]
  have hfits : r.toJson.reread.fits Place.top.inner.room = r.fieldsReread.fits 125 :=
    r.fits_reread (by decide)
  have hread := @read?_reread r Place.top.inner (by decide)
  rw [Envelope.received, decode, parse_print, Option.bind_some, Envelope.read?, hrecord]
  simp only [bool?, hfits, herror, hread]
  cases r.fieldsReread.fits 125 with
  | false => rfl
  | true =>
      show _ = (readFields? Place.top.inner.inner r.fieldsReread).map _
      cases readFields? Place.top.inner.inner r.fieldsReread <;> rfl

theorem received_fields (fields : Fields) (sign : String) (nodes : List String) :
    Envelope.received read? ((Envelope.ok ⟨some fields, sign, nodes⟩).toJson toJson).print =
      if (Resolved.nested fields).toJson.reread.fits 125 then
        (Resolved.ofFields? (rereadFields (Resolved.fieldsJson fields))).map fun fields =>
          .ok ⟨some fields, sign, nodes⟩
      else none := by
  have hvalue :
      fieldsReread ⟨some fields, sign, nodes⟩ = (Resolved.nested fields).toJson.reread := by
    rw [fieldsReread, Option.elim_some, Fields.toJson, Resolved.toJson]
  rw [received_toJson, hvalue, Resolved.toJson, reread]
  split
  · rename_i hfits
    rw [readFields?, Fields.read?]
    · simp only [if_pos hfits, Option.map_map]
      rfl
    · nofun
  · rfl

/-- A response is read back exactly if its floating numbers are. -/
theorem received_iff {r : Response} {levels : Nat} (hlevels : levels ≤ 124)
    (hfields : ∀ fields, r.fields = some fields →
      Resolved.WellFormed (levels + 1) (.nested fields)) :
    Envelope.received read? ((Envelope.ok r).toJson toJson).print = some (.ok r) ↔
      ∀ x ∈ r.floats, x.ReadsBack := by
  obtain ⟨_ | fields, sign, nodes⟩ := r
  · rw [received_toJson]
    simp [fieldsReread, reread, readFields?, floats]
  · have hwell := hfields fields rfl
    have hiff := Resolved.ofFields?_reread_iff hwell
    have hfloats : floats ⟨some fields, sign, nodes⟩ = (Resolved.nested fields).floats := by
      rw [floats, Option.elim_some, Resolved.floats]
    rw [received_fields, hfloats]
    constructor
    · intro h
      split at h
      · obtain ⟨found, hfound, heq⟩ := Option.map_eq_some_iff.mp h
        cases heq
        rw [Resolved.floats]
        exact hiff.mp hfound
      · cases h
    · intro h
      have hsound := Resolved.sound_toJson (levels + 1) hwell h
      have hfits : (Resolved.nested fields).toJson.reread.fits 125 = true := by
        rw [show (Resolved.nested fields).toJson.reread = _ from hsound.faithful]
        exact hsound.fits 125 (by omega)
      rw [Resolved.floats] at h
      rw [if_pos hfits, hiff.mpr h, Option.map_some]

/-- A response with a number that is not finite is not read at all. -/
theorem received_eq_none {r : Response} {x : Binary64} (hx : x ∈ r.floats)
    (hfinite : x.isFinite = false) :
    Envelope.received read? ((Envelope.ok r).toJson toJson).print = none := by
  obtain ⟨_ | fields, sign, nodes⟩ := r
  · cases hx
  · rw [received_fields, Resolved.ofFields?_reread_eq_none hx hfinite]
    split <;> rfl

end Response

/-! ## Answers of a service -/

namespace Service

/-- The fields of an answer, if there are any, are those of an app. -/
theorem fields_of_get {sv : Service} {s : Storage} {now : Timestamp} {ctx : Context} {r : Response}
    (h : (sv.get s now ctx).1 = .ok r) {fields : Fields} (hfields : r.fields = some fields) :
    ∃ ev appKey, fields = (sv.snapshot.resolve ctx sv.limits.templateLevels ev appKey).1 := by
  unfold get at h
  split at h
  · cases h
  · unfold answer at h
    simp only at h
    split at h
    · cases h
    · rename_i a _
      cases h
      unfold fieldsFor at hfields
      split at hfields
      · cases hfields
      · cases hfields
        exact ⟨_, a.key, rfl⟩

/-- What a node answers to a client with some query parameters. -/
def respond (sv : Service) (s : Storage) (now : Timestamp) (params : List (String × String)) :
    Except Error Response :=
  (sv.get s now (.ofParameters params)).1

end Service

/-- What a client reads from the text of an answer. -/
def Response.heard (result : Except Error Response) : Option (Except Error Response) :=
  Envelope.received read? ((Envelope.ofResult result).toJson toJson).print

namespace Host

/-- In every state of a host, an error that a client gets is read as a remote error with its code
and message.  A response is read as it was exactly if its floating numbers are, as long as the
templates that are inlined nest within what a text may; and not at all if one of the numbers is not
finite. -/
theorem client_response_survives {actions : List Action} {sv : Service}
    (hsv : (run actions).running = some sv) (now : Timestamp) (params : List (String × String)) :
    (∀ e, sv.respond (run actions).storage now params = .error e →
      Response.heard (.error e) = some (.error (.remote e.code e.message))) ∧
    ∀ r, sv.respond (run actions).storage now params = .ok r →
      (sv.limits.templateLevels ≤ 124 →
        (Response.heard (.ok r) = some (.ok r) ↔ ∀ x ∈ r.floats, x.ReadsBack)) ∧
      ((∃ x ∈ r.floats, x.isFinite = false) → Response.heard (.ok r) = none) := by
  refine ⟨fun e _ => Envelope.received_error e, fun r hr => ⟨fun hlevels => ?_, ?_⟩⟩
  · have hcoherent := ((synced_run actions).mirrors sv hsv).coherent
    refine Response.received_iff hlevels fun fields hfields => ?_
    obtain ⟨ev, appKey, rfl⟩ := Service.fields_of_get hr hfields
    exact hcoherent.wellFormed_resolve _ _ ev appKey
  · rintro ⟨x, hx, hfinite⟩
    exact Response.received_eq_none hx hfinite

/-- An app that inlines a template with a number, beside a config of its own. -/
def ratioRun (raw : String) : List Action :=
  [.start ⟨"http://m", .master, none, false⟩ ⟨300, 0, 8⟩ ⟨.epoch, "v0", "t0"⟩,
    .request (.write ⟨.epoch, "v1", "t1"⟩ none (.putApp "T" "tmpl" .template)),
    .request (.write ⟨.epoch, "v2", "t2"⟩ none
      (.putConfig ⟨"c", "T", "ratio", raw, .float, .active⟩)),
    .request (.write ⟨.epoch, "v3", "t3"⟩ none (.putApp "A" "app" .real)),
    .request (.write ⟨.epoch, "v4", "t4"⟩ none
      (.putConfig ⟨"d", "A", "nested", "T", .template, .active⟩)),
    .request (.write ⟨.epoch, "v5", "t5"⟩ none
      (.putConfig ⟨"e", "A", "limit", " -7 ", .int, .active⟩))]

/-- The floating numbers in an answer, if it is no error. -/
def floatsOf (result : Except Error Response) : Option (List Binary64) :=
  result.toOption.map Response.floats

theorem exists_of_floatsOf {result : Except Error Response} {xs : List Binary64}
    (h : floatsOf result = some xs) : ∃ r, result = .ok r ∧ r.floats = xs := by
  cases result with
  | error e => cases h
  | ok r => exact ⟨r, rfl, Option.some.inj h⟩

/-- The code and the message of an answer, if it is an error. -/
def wordsOf : Except Error Response → Option (String × String)
  | .ok _ => none
  | .error e => some (e.code, e.message)

theorem exists_of_wordsOf {result : Except Error Response} {code message : String}
    (h : wordsOf result = some (code, message)) :
    ∃ e, result = .error e ∧ e.code = code ∧ e.message = message := by
  cases result with
  | ok r => cases h
  | error e =>
      cases h
      exact ⟨e, rfl, rfl, rfl⟩

/-- One half is read back, and so is what the client of an unknown app is told. -/
theorem client_response_survives_half : ∃ sv r, (run (ratioRun "0.5")).running = some sv ∧
    sv.respond (run (ratioRun "0.5")).storage .epoch [("app_key", "A")] = .ok r ∧
    r.floats = [.half] ∧ Response.heard (.ok r) = some (.ok r) ∧
    ∃ e, sv.respond (run (ratioRun "0.5")).storage .epoch [("app_key", "B")] = .error e ∧
      Response.heard (.error e) = some (.error (.remote "NOT_FOUND" "app not found: B")) := by
  let sv := (run (ratioRun "0.5")).running.get (by decide +kernel)
  have hsv : (run (ratioRun "0.5")).running = some sv := (Option.some_get _).symm
  obtain ⟨r, hr, hfloats⟩ := exists_of_floatsOf
    (show floatsOf (sv.respond (run (ratioRun "0.5")).storage .epoch [("app_key", "A")]) =
      some [.half] by decide +kernel)
  have hsurvives := ((client_response_survives hsv .epoch _).2 r hr).1 (by decide +kernel)
  have hback : ∀ x ∈ r.floats, x.ReadsBack := by
    rw [hfloats]
    intro x hx
    rw [List.mem_singleton.mp hx]
    exact Binary64.readsBack_half
  obtain ⟨e, he, hcode, hmessage⟩ := exists_of_wordsOf
    (show wordsOf (sv.respond (run (ratioRun "0.5")).storage .epoch [("app_key", "B")]) =
      some ("NOT_FOUND", "app not found: B") by decide +kernel)
  have hheard := (client_response_survives hsv .epoch _).1 e he
  rw [hcode, hmessage] at hheard
  exact ⟨sv, r, hsv, hr, hfloats, hsurvives.mpr hback, e, he, hheard⟩

/-- A config may hold a number that is not finite.  The clients of its app, and of all apps that
inline it, are answered with a text that they cannot read. -/
theorem not_client_response_survives :
    ¬ ∀ actions, (∀ a ∈ actions, a.StartsAs .master ∧ a.ByOperators) →
      ∀ sv, (run actions).running = some sv → sv.limits.templateLevels ≤ 124 →
        ∀ now params r, sv.respond (run actions).storage now params = .ok r →
          Response.heard (.ok r) = some (.ok r) := by
  intro h
  have hactions : ∀ a ∈ ratioRun "inf", a.StartsAs .master ∧ a.ByOperators := by
    simp [ratioRun, Action.StartsAs, Action.ByOperators]
  let sv := (run (ratioRun "inf")).running.get (by decide +kernel)
  have hsv : (run (ratioRun "inf")).running = some sv := (Option.some_get _).symm
  obtain ⟨r, hr, hfloats⟩ := exists_of_floatsOf
    (show floatsOf (sv.respond (run (ratioRun "inf")).storage .epoch [("app_key", "A")]) =
      some [.signed false .infinity] by decide +kernel)
  have hlost : Response.heard (.ok r) = none :=
    Response.received_eq_none (hfloats ▸ List.mem_singleton.mpr rfl) rfl
  rw [h _ hactions sv hsv (by decide +kernel) .epoch _ r hr] at hlost
  cases hlost

end Host

end RemoteConfig
