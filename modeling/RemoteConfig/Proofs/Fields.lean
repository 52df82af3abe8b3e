import RemoteConfig.Proofs.Answers
import RemoteConfig.Proofs.Resolution
/-! # Fields of an app

Resolution hands one evaluator from config to config, and enters the fields one by one.  Neither
shows in what comes out.  On a sound evaluator each active value gives what it gives on a fresh one,
and fields of different names leave each other alone.  So if the active values of an app have
different names, its fields are those that its active values give, each on its own. -/

namespace RemoteConfig

open Evaluator

namespace Fields

variable {fields : Fields} {name : String} {value : Resolved} {field : String × Resolved}

theorem mem_insert_self (fields : Fields) (name : String) (value : Resolved) :
    (name, value) ∈ fields.insert name value := by
  induction fields with
  | nil => exact List.mem_singleton_self _
  | cons first rest ih =>
      rw [insert]
      split
      · exact List.mem_cons_self ..
      · split
        · exact List.mem_cons_self ..
        · exact List.mem_cons_of_mem _ ih

/-- Entering a field leaves fields of other names alone. -/
theorem mem_insert_of_ne (h : field ∈ fields) (hne : field.1 ≠ name) :
    field ∈ fields.insert name value := by
  induction fields with
  | nil => cases h
  | cons first rest ih =>
      rw [insert]
      split
      · exact List.mem_cons_of_mem _ h
      · rcases List.mem_cons.mp h with rfl | hrest
        · rw [if_neg (Ne.symm hne)]
          exact List.mem_cons_self ..
        · split
          · exact List.mem_cons_of_mem _ hrest
          · exact List.mem_cons_of_mem _ (ih hrest)

/-- A field of a new name is added to the others. -/
theorem mem_insert_iff (hnew : ∀ other ∈ fields, other.1 ≠ name) :
    field ∈ fields.insert name value ↔ field = (name, value) ∨ field ∈ fields := by
  constructor
  · exact Resolved.mem_insert
  · rintro (rfl | h)
    · exact mem_insert_self fields name value
    · exact mem_insert_of_ne h (hnew field h)

/-- Enters fields one by one. -/
def insertAll (fields : Fields) (rows : List (String × Resolved)) : Fields :=
  rows.foldl (fun fields row => fields.insert row.1 row.2) fields

theorem insertAll_cons (fields : Fields) (row : String × Resolved)
    (rows : List (String × Resolved)) :
    fields.insertAll (row :: rows) = (fields.insert row.1 row.2).insertAll rows := rfl

/-- Fields of different new names are all added. -/
theorem mem_insertAll_iff {rows : List (String × Resolved)}
    (hrows : rows.Pairwise fun a b => a.1 ≠ b.1)
    (hnew : ∀ other ∈ fields, ∀ row ∈ rows, other.1 ≠ row.1) :
    field ∈ fields.insertAll rows ↔ field ∈ fields ∨ field ∈ rows := by
  induction rows generalizing fields with
  | nil => simp [insertAll]
  | cons row rows ih =>
      obtain ⟨hrow, hrest⟩ := List.pairwise_cons.mp hrows
      have hfirst : ∀ other ∈ fields, other.1 ≠ row.1 := fun other hother =>
        hnew other hother row (List.mem_cons_self ..)
      have hnext : ∀ other ∈ fields.insert row.1 row.2, ∀ row' ∈ rows, other.1 ≠ row'.1 := by
        intro other hother row' hrow'
        rcases Resolved.mem_insert hother with rfl | hother
        · exact hrow row' hrow'
        · exact hnew other hother row' (List.mem_cons_of_mem _ hrow')
      rw [insertAll_cons, ih hrest hnext, mem_insert_iff hfirst, List.mem_cons]
      tauto

/-- Fields that are entered one by one are in the order of their names. -/
theorem pairwise_insertAll (h : fields.Pairwise fun a b => a.1 < b.1)
    (rows : List (String × Resolved)) :
    (fields.insertAll rows).Pairwise fun a b => a.1 < b.1 := by
  induction rows generalizing fields with
  | nil => exact h
  | cons row rows ih => exact ih (Resolved.pairwise_insert h row.1 row.2)

end Fields

namespace Snapshot

variable {s : Snapshot} {ctx : Context}

/-! ## Without evaluators -/

/-- How templates are turned into fields where a given number of levels is left. -/
def inliner (s : Snapshot) (ctx : Context) : Nat → Inliner
  | 0 => fun ev _ => (none, ev)
  | levels + 1 => fun ev key =>
    match s.findApp? key with
    | none => (none, ev)
    | some template =>
      let (fields, ev) := s.resolve ctx levels ev template.key
      (some fields, ev)

theorem resolve_eq_resolveValues (levels : Nat) (ev : Evaluator) (appKey : String) :
    s.resolve ctx levels ev appKey =
      resolveValues (s.inliner ctx levels) ctx [] ev (s.activeValues appKey) := by
  cases levels <;> rfl

theorem agree_inliner (s : Snapshot) (ctx : Context) (levels : Nat) (key : String) :
    Agree (fun ev => s.inliner ctx levels ev key) fun ev => s.inliner ctx levels ev key := by
  cases levels with
  | zero => exact agree_pure none
  | succ levels =>
      simp only [inliner]
      cases s.findApp? key with
      | none => exact agree_pure none
      | some a =>
          have htree : SameTree s s levels a.key :=
            sameTree_of_eq (fun _ => rfl) (fun _ => rfl) levels a.key
          exact agree_map (agree_resolve (.refl ctx) levels a.key htree) some

/-- What an active value gives for a client; nothing if it is a template that is left out. -/
def valueFor (s : Snapshot) (ctx : Context) (levels : Nat) (value : ConfigValue) :
    Option Resolved := (resolveValue (s.inliner ctx levels) ctx .fresh value).1

/-- What the active values of an app give for a client, with their names. -/
def rowsFor (s : Snapshot) (ctx : Context) (levels : Nat) (values : List (String × ConfigValue)) :
    List (String × Resolved) :=
  values.filterMap fun row => (s.valueFor ctx levels row.2).map (row.1, ·)

/-- Values are entered as they come out one by one. -/
theorem fst_resolveValues {levels : Nat} (values : List (String × ConfigValue)) (fields : Fields)
    {ev : Evaluator} (hev : ev.Sound) :
    (resolveValues (s.inliner ctx levels) ctx fields ev values).1 =
      fields.insertAll (s.rowsFor ctx levels values) := by
  induction values generalizing fields ev with
  | nil => rfl
  | cons row values ih =>
      obtain ⟨name, value⟩ := row
      -- the evaluator is another one after each value, but it stays sound, and that is all that
      -- the next value asks of it
      obtain ⟨heq, hsound, -⟩ := agree_resolveValue (.refl ctx) value
        (fun key _ => s.agree_inliner ctx levels key) ev .fresh hev sound_fresh
      dsimp only at heq hsound
      rw [rowsFor, List.filterMap_cons, valueFor, ← heq, resolveValues]
      generalize resolveValue (s.inliner ctx levels) ctx ev value = out at hsound ⊢
      obtain ⟨resolved, ev'⟩ := out
      cases resolved with
      | none => exact ih fields hsound
      | some resolved => exact ih (fields.insert name resolved) hsound

/-- The fields of an app are entered from what its active values give. -/
theorem fst_resolve {ev : Evaluator} (hev : ev.Sound) (levels : Nat) (appKey : String) :
    (s.resolve ctx levels ev appKey).1 =
      Fields.insertAll [] (s.rowsFor ctx levels (s.activeValues appKey)) := by
  rw [resolve_eq_resolveValues, fst_resolveValues _ _ hev]

theorem pairwise_resolve {ev : Evaluator} (hev : ev.Sound) (levels : Nat) (appKey : String) :
    (s.resolve ctx levels ev appKey).1.Pairwise fun a b => a.1 < b.1 := by
  rw [fst_resolve hev]
  exact Fields.pairwise_insertAll .nil _

/-- If the active values of an app have different names, its fields are what they give. -/
theorem mem_resolve_iff {ev : Evaluator} (hev : ev.Sound) {levels : Nat} {appKey name : String}
    {resolved : Resolved} (hnames : (s.activeValues appKey).Pairwise fun a b => a.1 ≠ b.1) :
    (name, resolved) ∈ (s.resolve ctx levels ev appKey).1 ↔
      ∃ value, (name, value) ∈ s.activeValues appKey ∧
        s.valueFor ctx levels value = some resolved := by
  have hrows : (s.rowsFor ctx levels (s.activeValues appKey)).Pairwise fun a b => a.1 ≠ b.1 := by
    refine hnames.filterMap _ ?_
    rintro row row' hne out hout out' hout'
    obtain ⟨_, -, rfl⟩ := Option.map_eq_some_iff.mp hout
    obtain ⟨_, -, rfl⟩ := Option.map_eq_some_iff.mp hout'
    exact hne
  rw [fst_resolve hev, Fields.mem_insertAll_iff hrows (List.forall_mem_nil _)]
  simp only [List.not_mem_nil, false_or, rowsFor, List.mem_filterMap, Option.map_eq_some_iff]
  constructor
  · rintro ⟨⟨name', value⟩, hmem, resolved', hvalue, heq⟩
    cases heq
    exact ⟨value, hmem, hvalue⟩
  · rintro ⟨value, hmem, hvalue⟩
    exact ⟨(name, value), hmem, resolved, hvalue, rfl⟩

/-- Only templates may be left out. -/
theorem isSome_valueFor {levels : Nat} {value : ConfigValue} (h : ∀ key, value ≠ .template key) :
    (s.valueFor ctx levels value).isSome := by
  cases value with
  | template key => exact absurd rfl (h key)
  | string s => rfl
  | int n => rfl
  | float x => rfl
  | code r => rfl

theorem valueFor_template_succ (levels : Nat) (key : String) :
    s.valueFor ctx (levels + 1) (.template key) = (s.findApp? key).map fun a =>
      .nested (s.resolve ctx levels .fresh a.key).1 := by
  simp only [valueFor, resolveValue, inliner]
  cases s.findApp? key <;> rfl

end Snapshot

end RemoteConfig
