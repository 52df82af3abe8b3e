import Mathlib.Data.List.Nodup
import RemoteConfig.Proofs.Fingerprint
import RemoteConfig.Proofs.Recording
/-! # What is known of the clients

A recorder that begins with nothing, and whose commits are never told to fail, knows in the end what
it was shown, with one exception.  The key of a row is made of three texts with separators between
them, and two values may have the same one.  Then the one that was shown first is stored and known,
and the other one is taken for it by the storage and forgotten.

No two values have the same key if no app has a separator in its own. -/

namespace RemoteConfig

open Table

/-! ## Keys of attribute values -/

theorem Attribute.symbol_injective {a b : Attribute} (h : a.symbol = b.symbol) : a = b := by
  have hread : ∀ c : Attribute, ofSymbol? c.symbol = some c := by
    intro c
    cases c <;> decide +kernel
  exact Option.some.inj ((hread a).symm.trans ((congrArg ofSymbol? h).trans (hread b)))

theorem Attribute.separator_not_mem_symbol (a : Attribute) : '\x1f' ∉ a.symbol.toList := by
  cases a <;> decide +kernel

namespace ClientAttribute

/-- A key can be taken apart if its first two parts have no separators. -/
theorem eq_of_rowKey {a b : ClientAttribute} (ha : '\x1f' ∉ a.appKey.toList)
    (hb : '\x1f' ∉ b.appKey.toList) (hna : '\x1f' ∉ a.name.toList) (hnb : '\x1f' ∉ b.name.toList)
    (h : a.rowKey = b.rowKey) : a = b := by
  have hsep : "\x1f".toList = ['\x1f'] := rfl
  have hchars := congrArg (fun key : RecordKey => key.key.toList) h
  simp only [rowKey, Record.uniqueKey, String.toList_append, hsep, List.append_assoc,
    List.singleton_append] at hchars
  obtain ⟨hkey, hrest⟩ := Snapshot.append_cons_inj ha hb hchars
  obtain ⟨hname, hvalue⟩ := Snapshot.append_cons_inj hna hnb hrest
  obtain ⟨appKey, name, value⟩ := a
  obtain ⟨appKey', name', value'⟩ := b
  rw [mk.injEq]
  exact ⟨String.toList_inj.mp hkey, String.toList_inj.mp hname, String.toList_inj.mp hvalue⟩

/-- The first value of a list that has the given row. -/
def first? (as : List ClientAttribute) (key : RecordKey) : Option ClientAttribute :=
  as.find? (·.rowKey = key)

theorem of_first?_eq_some {as : List ClientAttribute} {a : ClientAttribute} {key : RecordKey}
    (h : first? as key = some a) : a ∈ as ∧ a.rowKey = key :=
  ⟨List.mem_of_find?_eq_some h, by simpa using List.find?_some h⟩

theorem first?_append_singleton (as : List ClientAttribute) (a : ClientAttribute)
    (key : RecordKey) :
    first? (as ++ [a]) key = (first? as key).or (if a.rowKey = key then some a else none) := by
  rw [first?, List.find?_append, first?]
  by_cases h : a.rowKey = key <;> simp [h]

end ClientAttribute

open ClientAttribute

/-! ## Known values -/

namespace Telemetry

variable {t : Telemetry} {appKey : String} {attr : Attribute}

theorem mem_knownValues {value : String} :
    value ∈ t.knownValues appKey attr ↔ ⟨appKey, attr.symbol, value⟩ ∈ t.known := by
  simp only [knownValues, List.mem_mergeSort, List.mem_map, List.mem_filter, decide_eq_true_eq]
  constructor
  · rintro ⟨⟨_, _, _⟩, ⟨ha, rfl, rfl⟩, rfl⟩
    exact ha
  · exact fun h => ⟨_, ⟨h, rfl, rfl⟩, rfl⟩

/-- Known values are listed in order, and each once. -/
theorem pairwise_knownValues (h : t.known.Nodup) :
    (t.knownValues appKey attr).Pairwise (· < ·) := by
  have hordered : (t.knownValues appKey attr).Pairwise fun x y => (!decide (y < x)) = true := by
    refine List.pairwise_mergeSort ?_ ?_ _
    · intro x y z hxy hyz
      simp only [Bool.not_eq_true', decide_eq_false_iff_not, not_lt] at hxy hyz ⊢
      exact le_trans hxy hyz
    · intro x y
      simp only [Bool.or_eq_true, Bool.not_eq_true', decide_eq_false_iff_not, not_lt]
      exact le_total x y
  have hnodup : (t.knownValues appKey attr).Nodup := by
    refine (List.mergeSort_perm _ _).nodup_iff.mpr ?_
    refine List.Nodup.map_on ?_ (h.filter _)
    rintro ⟨appKey₁, name₁, value₁⟩ h₁ ⟨appKey₂, name₂, value₂⟩ h₂ hvalue
    simp only [List.mem_filter, decide_eq_true_eq] at h₁ h₂
    obtain ⟨-, rfl, rfl⟩ := h₁
    obtain ⟨-, rfl, rfl⟩ := h₂
    rw [show value₁ = value₂ from hvalue]
  refine hordered.imp₂ ?_ hnodup
  intro x y hle hne
  simp only [Bool.not_eq_true', decide_eq_false_iff_not, not_lt] at hle
  exact lt_of_le_of_ne hle hne

end Telemetry

/-! ## First observations -/

/-- The value that has to be stored next. -/
def Recorder.waiting (r : Recorder) : List ClientAttribute :=
  match r.task with
  | some (.store a) => [a]
  | _ => []

namespace Recording

/-- What an event shows to the recorder. -/
def Event.observations : Event → List ClientAttribute
  | record appKey ctx => Telemetry.observed appKey ctx
  | restart | consume | failNextCommit | replicate _ => []

/-- All that was shown, in order. -/
def observations (events : List Event) : List ClientAttribute := events.flatMap Event.observations

theorem mem_observations {events : List Event} {a : ClientAttribute} :
    a ∈ observations events ↔ Observed events a := by
  simp only [observations, List.mem_flatMap, Observed]
  constructor
  · rintro ⟨e, he, ha⟩
    cases e with
    | record appKey ctx => exact ⟨appKey, ctx, he, ha⟩
    | _ => cases ha
  · rintro ⟨appKey, ctx, he, ha⟩
    exact ⟨_, he, ha⟩

/-- Whether an event neither ends the recorder nor makes a commit fail. -/
def Event.calm : Event → Bool
  | restart | failNextCommit => false
  | record _ _ | consume | replicate _ => true

/-- No other value with the same row was observed before. -/
def First (events : List Event) (a : ClientAttribute) : Prop :=
  first? (observations events) a.rowKey = some a

instance (events : List Event) (a : ClientAttribute) : Decidable (First events a) :=
  inferInstanceAs (Decidable (_ = _))

/-- What was seen is settled, has to be stored, or is queued.  Of what is settled the storage has
the first value of every row. -/
structure Keeps (seen : List ClientAttribute) (s : Storage) (r : Recorder) : Prop where
  calm : s.failsNext = false
  nodup : r.telemetry.known.Nodup
  rows : ∃ settled, seen = settled ++ (r.waiting ++ r.queue) ∧
    ∀ key : RecordKey, key.kind = .clientAttribute →
      s.rows[key]? = (first? settled key).map .clientAttribute

namespace Keeps

variable {seen : List ClientAttribute} {s s' : Storage} {r : Recorder}

theorem begin : Keeps [] .empty (.start .empty) where
  calm := rfl
  nodup := List.nodup_nil
  rows := ⟨[], rfl, fun key _ => by simp [first?, Storage.empty]⟩

theorem record (h : Keeps seen s r) (appKey : String) (ctx : Context) :
    Keeps (seen ++ Telemetry.observed appKey ctx) s (r.record appKey ctx) := by
  obtain ⟨settled, hseen, hrows⟩ := h.rows
  refine ⟨h.calm, h.nodup, settled, ?_, hrows⟩
  rw [hseen, List.append_assoc, List.append_assoc]
  rfl

theorem spares (h : Keeps seen s r) (hs : s.SparesAttributes s') : Keeps seen s' r := by
  obtain ⟨settled, hseen, hrows⟩ := h.rows
  exact ⟨hs.calm h.calm, h.nodup, settled, hseen,
    fun key hkey => (hs.attributes key hkey).trans (hrows key hkey)⟩

/-- A value whose row is there already is settled without a trace. -/
theorem first?_append_of_mem {settled : List ClientAttribute} {a : ClientAttribute}
    (hrows : ∀ key : RecordKey, key.kind = .clientAttribute →
      s.rows[key]? = (first? settled key).map .clientAttribute) (hmem : a.rowKey ∈ s.rows)
    (key : RecordKey) : first? (settled ++ [a]) key = first? settled key := by
  rw [first?_append_singleton]
  by_cases hkey : a.rowKey = key
  · subst hkey
    rw [Std.ExtTreeMap.mem_iff_isSome_getElem?, hrows _ rfl, Option.isSome_map] at hmem
    obtain ⟨b, hb⟩ := Option.isSome_iff_exists.mp hmem
    rw [hb, Option.some_or]
  · rw [if_neg hkey, Option.or_none]

/-- The step lemma of consumers that are not disturbed. -/
theorem consume {past : ClientAttribute → Prop} (h : Keeps seen s r) (hagrees : Agrees past s r) :
    Keeps seen (r.consume s).2 (r.consume s).1 := by
  obtain ⟨settled, hseen, hrows⟩ := h.rows
  have hconsumed := r.consume_consumed s
  generalize r.consume s = out at *
  cases hconsumed with
  | idle _ => exact h
  | @skipped a rest htask hqueue hknown =>
      -- what is known at rest is stored, so the row is there
      have hholds : s.Holds a := by
        have hheld := (hagrees.known a).mp hknown
        simpa [Recorder.begun, htask] using hheld
      have hmem : a.rowKey ∈ s.rows := by
        rw [Std.ExtTreeMap.mem_iff_isSome_getElem?]
        exact Option.isSome_of_eq_some hholds
      refine ⟨h.calm, h.nodup, settled ++ [a], ?_, fun key hkey => ?_⟩
      · simpa [Recorder.waiting, htask, hqueue] using hseen
      · rw [first?_append_of_mem hrows hmem]
        exact hrows key hkey
  | @taken a rest htask hqueue hknown =>
      refine ⟨h.calm, List.nodup_cons.mpr ⟨hknown, h.nodup⟩, settled, ?_, hrows⟩
      simpa [Recorder.waiting, htask, hqueue] using hseen
  | @stored a htask hcalm hnew =>
      refine ⟨hcalm, h.nodup, settled ++ [a], ?_, fun key hkey => ?_⟩
      · simpa [Recorder.waiting, htask] using hseen
      · rw [getElem?_insert_ite, first?_append_singleton, hrows key hkey]
        by_cases hsame : key = a.rowKey
        · subst hsame
          have hnone : first? settled a.rowKey = none := by
            rw [← Option.map_eq_none_iff, ← hrows _ rfl]
            exact Std.ExtTreeMap.getElem?_eq_none hnew
          rw [if_pos rfl, if_pos rfl, hnone, Option.none_or, Option.map_some]
        · rw [if_neg hsame, if_neg (Ne.symm hsame), Option.or_none]
  | @failed a htask hfault =>
      have hmem : a.rowKey ∈ s.rows := hfault.resolve_left (by simp [h.calm])
      refine ⟨rfl, h.nodup, settled ++ [a], ?_, fun key hkey => ?_⟩
      · simpa [Recorder.waiting, htask] using hseen
      · rw [first?_append_of_mem hrows hmem]
        exact hrows key hkey
  | @forgotten a htask =>
      refine ⟨h.calm, h.nodup.filter _, settled, ?_, hrows⟩
      simpa [Recorder.waiting, htask] using hseen

/-- The step lemma of recordings that are not disturbed. -/
theorem step {past : List Event} {st : Recording}
    (h : Keeps (observations past) st.storage st.recorder)
    (hagrees : Agrees (Observed past) st.storage st.recorder) {e : Event} (he : e.calm = true) :
    Keeps (observations (past ++ [e])) (st.step e).storage (st.step e).recorder := by
  have hseen : observations (past ++ [e]) = observations past ++ e.observations := by
    simp [observations]
  rw [hseen]
  cases e with
  | restart => cases he
  | failNextCommit => cases he
  | record appKey ctx => exact h.record appKey ctx
  | consume =>
      rw [Event.observations, List.append_nil]
      exact h.consume hagrees
  | replicate op =>
      rw [Event.observations, List.append_nil]
      exact h.spares (op.sparesAttributes_run st.replica st.storage)

end Keeps

theorem keeps_run {events : List Event} (hcalm : ∀ e ∈ events, e.calm = true) :
    Keeps (observations events) (run events).storage (run events).recorder := by
  induction events using List.reverseRecOn with
  | nil => exact .begin
  | append_singleton past e ih =>
      rw [run_append]
      exact (ih fun e' he' => hcalm e' (List.mem_append_left _ he')).step (agrees_run past)
        (hcalm e (List.mem_append_right _ List.mem_cons_self))

section Drained

variable {events : List Event} (hcalm : ∀ e ∈ events, e.calm = true)
  (hdrained : (run events).recorder.Drained)
include hcalm hdrained

/-- In the end every row has the first of the values that could have been there. -/
theorem getElem?_of_drained {key : RecordKey} (hkey : key.kind = .clientAttribute) :
    (run events).storage.rows[key]? = (first? (observations events) key).map .clientAttribute := by
  obtain ⟨settled, hseen, hrows⟩ := (keeps_run hcalm).rows
  have hall : observations events = settled := by
    simpa [Recorder.waiting, hdrained.1, hdrained.2] using hseen
  rw [hall]
  exact hrows key hkey

theorem holds_iff_first {a : ClientAttribute} : (run events).storage.Holds a ↔ First events a := by
  have hrow := getElem?_of_drained hcalm hdrained (show a.rowKey.kind = .clientAttribute from rfl)
  rw [Storage.Holds, First, hrow]
  cases first? (observations events) a.rowKey <;> simp

theorem mem_known_iff_first {a : ClientAttribute} :
    a ∈ (run events).recorder.telemetry.known ↔ First events a := by
  rw [(agrees_run events).known, Recorder.begun, hdrained.2, ← holds_iff_first hcalm hdrained]
  simp

end Drained

/-- What is observed is the first of its row, if no app has a separator in its key. -/
theorem first_iff_observed {events : List Event}
    (hkeys : ∀ appKey ctx, .record appKey ctx ∈ events → '\x1f' ∉ appKey.toList)
    {a : ClientAttribute} : First events a ↔ Observed events a := by
  rw [← mem_observations]
  refine ⟨fun h => (of_first?_eq_some h).1, fun h => ?_⟩
  obtain ⟨b, hb⟩ : ∃ b, first? (observations events) a.rowKey = some b :=
    Option.isSome_iff_exists.mp (List.find?_isSome.mpr ⟨a, h, decide_eq_true rfl⟩)
  have hplain : ∀ c ∈ observations events, '\x1f' ∉ c.appKey.toList ∧ '\x1f' ∉ c.name.toList := by
    intro c hc
    obtain ⟨appKey, ctx, hevent, hmem⟩ := mem_observations.mp hc
    obtain ⟨-, attr, -, -, rfl⟩ := Telemetry.mem_observed.mp hmem
    exact ⟨hkeys appKey ctx hevent, attr.separator_not_mem_symbol⟩
  obtain ⟨hmem, hrow⟩ := of_first?_eq_some hb
  obtain rfl := eq_of_rowKey (hplain b hmem).1 (hplain a h).1 (hplain b hmem).2 (hplain a h).2 hrow
  exact hb

/-- The value of a recorded attribute was seen at some client of the app. -/
theorem observed_iff {events : List Event} {appKey : String} {attr : Attribute} {value : String} :
    Observed events ⟨appKey, attr.symbol, value⟩ ↔ appKey ≠ "" ∧ attr ∈ Telemetry.recorded ∧
      value ≠ "" ∧ ∃ ctx, .record appKey ctx ∈ events ∧ ctx.get attr = value := by
  constructor
  · rintro ⟨appKey', ctx, hevent, hmem⟩
    obtain ⟨hkey, attr', hattr, hvalue, heq⟩ := Telemetry.mem_observed.mp hmem
    obtain ⟨rfl, hsymbol, rfl⟩ := ClientAttribute.mk.inj heq
    obtain rfl := Attribute.symbol_injective hsymbol
    exact ⟨hkey, hattr, hvalue, ctx, hevent, rfl⟩
  · rintro ⟨hkey, hattr, hvalue, ctx, hevent, rfl⟩
    exact ⟨appKey, ctx, hevent, Telemetry.mem_observed.mpr ⟨hkey, attr, hattr, hvalue, rfl⟩⟩

/-- When the queue of an undisturbed recorder is drained, the known values of an attribute are in
order, and they are those that were observed first for their rows.  Each of them has one row, and
there are no others.  If no app has a separator in its key, these are all the values observed. -/
theorem first_observations_known {events : List Event} (hcalm : ∀ e ∈ events, e.calm = true)
    (hdrained : (run events).recorder.Drained) :
    let st := run events
    (∀ appKey attr, (st.recorder.telemetry.knownValues appKey attr).Pairwise (· < ·)) ∧
    (∀ appKey attr value, value ∈ st.recorder.telemetry.knownValues appKey attr ↔
      First events ⟨appKey, attr.symbol, value⟩) ∧
    (∀ a, (st.storage.findAll .clientAttribute).count (.clientAttribute a) =
      if First events a then 1 else 0) ∧
    ((∀ appKey ctx, .record appKey ctx ∈ events → '\x1f' ∉ appKey.toList) →
      ∀ appKey attr value, First events ⟨appKey, attr.symbol, value⟩ ↔
        appKey ≠ "" ∧ attr ∈ Telemetry.recorded ∧ value ≠ "" ∧
          ∃ ctx, .record appKey ctx ∈ events ∧ ctx.get attr = value) := by
  intro st
  refine ⟨?_, ?_, ?_, ?_⟩
  · exact fun appKey attr => Telemetry.pairwise_knownValues (keeps_run hcalm).nodup
  · exact fun appKey attr value =>
      Telemetry.mem_knownValues.trans (mem_known_iff_first hcalm hdrained)
  · intro a
    have hkeyed := (agrees_run events).keyed
    have hnodup : (st.storage.findAll .clientAttribute).Nodup :=
      (Storage.pairwise_findAll hkeyed _).imp fun hlt heq => absurd (heq ▸ hlt) (lt_irrefl _)
    rw [hnodup.count]
    refine if_congr ?_ rfl rfl
    rw [Storage.mem_findAll_clientAttribute hkeyed, ← holds_iff_first hcalm hdrained]
    simp
  · exact fun hkeys appKey attr value => (first_iff_observed hkeys).trans observed_iff

/-- Two apps, and two values with the same row: the second app has in its key what stands in the
value of the first one. -/
def shadowing : List Event :=
  [.record "a" (Context.empty.set (.client .lang) "b\x1fOS_TYPE\x1fc"),
    .record "a\x1fLANG\x1fb" (Context.empty.set (.client .osType) "c")] ++ List.replicate 5 .consume

theorem observed_shadowing :
    Observed shadowing ⟨"a\x1fLANG\x1fb", Attribute.osType.symbol, "c"⟩ := by
  let ctx := Context.empty.set (.client .osType) "c"
  have hevent : .record "a\x1fLANG\x1fb" ctx ∈ shadowing :=
    List.mem_append_left _ (List.mem_cons_of_mem _ List.mem_cons_self)
  exact observed_iff.mpr ⟨by decide, by decide, by decide, ctx, hevent, rfl⟩

theorem calm_shadowing : ∀ e ∈ shadowing, e.calm = true := by
  simp [shadowing, Event.calm]

theorem drained_shadowing : (run shadowing).recorder.Drained := by
  constructor <;> decide +kernel

/-- Only the value that came first is known, and it has the only row. -/
theorem first_observations_known_shadowing :
    let st := run shadowing
    st.recorder.telemetry.knownValues "a" .lang = ["b\x1fOS_TYPE\x1fc"] ∧
    (st.recorder.telemetry.knownValues "a" .lang).Pairwise (· < ·) ∧
    st.recorder.telemetry.knownValues "a\x1fLANG\x1fb" .osType = [] ∧
    Observed shadowing ⟨"a\x1fLANG\x1fb", Attribute.osType.symbol, "c"⟩ ∧
    ¬ First shadowing ⟨"a\x1fLANG\x1fb", Attribute.osType.symbol, "c"⟩ ∧
    (st.storage.findAll .clientAttribute).count
      (.clientAttribute ⟨"a", Attribute.lang.symbol, "b\x1fOS_TYPE\x1fc"⟩) = 1 ∧
    (st.storage.findAll .clientAttribute).count
      (.clientAttribute ⟨"a\x1fLANG\x1fb", Attribute.osType.symbol, "c"⟩) = 0 := by
  obtain ⟨hordered, -, hcount, -⟩ := first_observations_known calm_shadowing drained_shadowing
  have hfirst : First shadowing ⟨"a", Attribute.lang.symbol, "b\x1fOS_TYPE\x1fc"⟩ := by
    decide +kernel
  have hnot : ¬ First shadowing ⟨"a\x1fLANG\x1fb", Attribute.osType.symbol, "c"⟩ := by
    decide +kernel
  refine ⟨by decide +kernel, hordered _ _, by decide +kernel, observed_shadowing, hnot, ?_, ?_⟩
  · rw [hcount, if_pos hfirst]
  · rw [hcount, if_neg hnot]

/-- Values are forgotten although no commit was told to fail. -/
theorem not_all_observations_known :
    ¬ ∀ events, (∀ e ∈ events, e.calm = true) → (run events).recorder.Drained →
      ∀ appKey attr value, value ∈ (run events).recorder.telemetry.knownValues appKey attr ↔
        appKey ≠ "" ∧ attr ∈ Telemetry.recorded ∧ value ≠ "" ∧
          ∃ ctx, .record appKey ctx ∈ events ∧ ctx.get attr = value := by
  intro h
  have hnone : "c" ∉ (run shadowing).recorder.telemetry.knownValues "a\x1fLANG\x1fb" .osType := by
    decide +kernel
  have hobserved := observed_iff.mp observed_shadowing
  exact hnone ((h shadowing calm_shadowing drained_shadowing _ _ _).mpr hobserved)

end Recording

end RemoteConfig
