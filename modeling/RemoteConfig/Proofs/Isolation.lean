import Mathlib
import RemoteConfig.Proofs.Resolution
/-! # Isolation of evaluations

Evaluators serve one client after another, alone or from pools, and what they keep from one
evaluation to the next is their cache of patterns.  Whatever an evaluator was used for before, an
evaluation gives what a new evaluator would give, and it depends only on the attributes that occur
in the rule.  The cache stays within its limit at every moment, in the middle of an evaluation too,
and it is at most half full while the evaluator is idle. -/

namespace RemoteConfig

/-- Contexts in which the attributes that occur agree give the same text to all symbols. -/
theorem Context.agreeOn_of_get {symbols : List String} {ctx ctx' : Context}
    (h : ∀ a : Attribute, a.symbol ∈ symbols → ctx.get a = ctx'.get a) :
    AgreeOn symbols ctx ctx' := by
  intro name hname
  unfold lookup
  cases ha : Attribute.ofSymbol? name with
  | none => rfl
  | some a =>
      have hsymbol : a.symbol = name := by simpa using List.find?_some ha
      exact h a (hsymbol ▸ hname)

namespace Evaluator

theorem agree_value {ctx ctx' : Context} (e : Expr) (h : Context.AgreeOn e.symbols ctx ctx') :
    Agree (fun ev => ev.value ctx e) fun ev => ev.value ctx' e := by
  cases e with
  | literal value => exact agree_pure value
  | symbol name =>
      simp only [value, h name (by simp [Expr.symbols])]
      exact agree_pure _
  | call name args => exact agree_map (agree_holds (.call name args) h) Scalar.bool

/-! ## Look-ups -/

/-- The evaluator that is left behind when a pattern was looked up. -/
def lookUp (ev : Evaluator) (pattern : String) : Evaluator := (ev.compiled pattern).2

/-- A property that every look-up keeps. -/
def Stable (P : Evaluator → Prop) : Prop := ∀ ev pattern, P ev → P (ev.lookUp pattern)

/-- An evaluation that keeps a property of the evaluator. -/
def Keeps {α : Type} (P : Evaluator → Prop) (f : Evaluator → α × Evaluator) : Prop :=
  ∀ ev, P ev → P (f ev).2

section Keeping

variable {P : Evaluator → Prop}

theorem keeps_pure {α : Type} (a : α) : Keeps P fun ev => (a, ev) := fun _ h => h

theorem keeps_ite {α : Type} {f : Evaluator → Bool × Evaluator} {g k : Evaluator → α × Evaluator}
    (hf : Keeps P f) (hg : Keeps P g) (hk : Keeps P k) :
    Keeps P fun ev => if (f ev).1 then g (f ev).2 else k (f ev).2 := by
  intro ev h
  dsimp only
  split
  · exact hg _ (hf ev h)
  · exact hk _ (hf ev h)

theorem Stable.keeps_textTest (hP : Stable P) (test : TextTest) (subject pattern : String) :
    Keeps P fun ev => ev.textTest test subject pattern := by
  cases test with
  | equal => exact keeps_pure _
  | contains => exact keeps_pure _
  | wildcard => exact fun ev h => hP ev pattern h

variable (ctx : Context)

theorem Stable.keeps_applyToOperands (hP : Stable P) (op : Operator) (args : List Expr) :
    Keeps P fun ev => ev.applyToOperands ctx op args := by
  unfold applyToOperands
  split
  · exact keeps_pure _
  · exact keeps_pure _
  · exact keeps_pure _
  · split
    · exact keeps_pure _
    · exact fun ev h => hP.keeps_textTest _ _ _ ev h
  · exact keeps_pure _

mutual
/-- What every look-up keeps, an evaluation keeps. -/
theorem Stable.keeps_holds (hP : Stable P) : ∀ e : Expr, Keeps P fun ev => ev.holds ctx e
  | .literal value => by
      cases value <;> simp only [holds] <;> exact keeps_pure _
  | .symbol name => by
      simp only [holds]
      exact keeps_pure false
  | .call name args => by
      simp only [holds]
      cases Operator.ofName? name with
      | none => exact keeps_pure false
      | some op => exact hP.keeps_apply op args

theorem Stable.keeps_apply (hP : Stable P) : ∀ (op : Operator) (args : List Expr),
    Keeps P fun ev => ev.apply ctx op args
  | .and, [] => by
      simp only [apply]
      exact keeps_pure _
  | .and, e :: rest => by
      simp only [apply]
      exact hP.keeps_allHold (e :: rest)
  | .or, args => by
      simp only [apply]
      exact hP.keeps_anyHolds args
  | .not, [e] => by
      simp only [apply]
      exact hP.keeps_holds e
  | .not, [] => by
      simp only [apply]
      exact hP.keeps_applyToOperands ctx _ _
  | .not, e :: e' :: rest => by
      simp only [apply]
      exact hP.keeps_applyToOperands ctx _ _
  | .compare c, args => by
      simp only [apply]
      exact hP.keeps_applyToOperands ctx _ _
  | .version c, args => by
      simp only [apply]
      exact hP.keeps_applyToOperands ctx _ _
  | .empty negated, args => by
      simp only [apply]
      exact hP.keeps_applyToOperands ctx _ _
  | .text test negated, args => by
      simp only [apply]
      exact hP.keeps_applyToOperands ctx _ _

theorem Stable.keeps_allHold (hP : Stable P) : ∀ args : List Expr,
    Keeps P fun ev => ev.allHold ctx args
  | [] => by
      simp only [allHold]
      exact keeps_pure true
  | e :: rest => by
      simp only [allHold]
      exact keeps_ite (hP.keeps_holds e) (hP.keeps_allHold rest) (keeps_pure false)

theorem Stable.keeps_anyHolds (hP : Stable P) : ∀ args : List Expr,
    Keeps P fun ev => ev.anyHolds ctx args
  | [] => by
      simp only [anyHolds]
      exact keeps_pure false
  | e :: rest => by
      simp only [anyHolds]
      exact keeps_ite (hP.keeps_holds e) (keeps_pure true) (hP.keeps_anyHolds rest)
end

theorem Stable.keeps_selectFrom (hP : Stable P) (fallback : Scalar) (cases : List Case) :
    Keeps P fun ev => ev.selectFrom ctx fallback cases := by
  induction cases with
  | nil => exact keeps_pure fallback
  | cons c rest ih =>
      simp only [selectFrom]
      exact keeps_ite (hP.keeps_holds ctx c.condition) (keeps_pure c.value) ih

end Keeping

/-! ## Evaluations -/

/-- What an evaluator can be asked. -/
inductive Question where
  /-- The value that a rule selects. -/
  | select (ctx : Context) (r : Rule)
  /-- The value of an expression. -/
  | value (ctx : Context) (e : Expr)
  /-- Whether an expression holds as a condition. -/
  | holds (ctx : Context) (e : Expr)

/-- The evaluator that is left behind when a question was answered. -/
def answered (ev : Evaluator) : Question → Evaluator
  | .select ctx r => (ev.select ctx r).2
  | .value ctx e => (ev.value ctx e).2
  | .holds ctx e => (ev.holds ctx e).2

/-- What every look-up keeps, an answer keeps. -/
theorem Stable.answered {P : Evaluator → Prop} (hP : Stable P) {ev : Evaluator} (h : P ev)
    (q : Question) : P (ev.answered q) := by
  cases q with
  | select ctx r => exact hP.keeps_selectFrom ctx r.fallback r.cases ev h
  | holds ctx e => exact hP.keeps_holds ctx e ev h
  | value ctx e =>
      cases e with
      | literal value => exact h
      | symbol name => exact h
      | call name args => exact hP.keeps_holds ctx (.call name args) ev h

/-- An evaluation is a row of look-ups. -/
theorem exists_lookUps (ev : Evaluator) (q : Question) :
    ∃ patterns : List String, ev.answered q = patterns.foldl lookUp ev := by
  have hstable : Stable fun ev' => ∃ patterns : List String, ev' = patterns.foldl lookUp ev := by
    rintro _ pattern ⟨patterns, rfl⟩
    exact ⟨patterns ++ [pattern], by rw [List.foldl_append, List.foldl_cons, List.foldl_nil]⟩
  exact hstable.answered ⟨[], rfl⟩ q

/-! ## Bounded caches -/

/-- An evaluator with a sound cache of at most so many patterns. -/
structure Within (limit : Nat) (ev : Evaluator) : Prop where
  sound : ev.Sound
  size_le : ev.patterns.size ≤ limit

theorem within_fresh (limit : Nat) : fresh.Within limit := ⟨sound_fresh, Nat.zero_le _⟩

namespace Within

variable {ev : Evaluator} {limit : Nat}

theorem mono (h : ev.Within limit) {more : Nat} (hle : limit ≤ more) : ev.Within more :=
  ⟨h.sound, Nat.le_trans h.size_le hle⟩

/-- A full cache is emptied before it takes in another pattern. -/
theorem lookUp (h : ev.Within cacheLimit) (pattern : String) :
    (ev.lookUp pattern).Within cacheLimit := by
  refine ⟨h.sound.compiled pattern, ?_⟩
  unfold Evaluator.lookUp compiled
  split
  · exact h.size_le
  · refine Nat.le_trans Std.ExtTreeMap.size_insert_le ?_
    split
    · decide
    · exact Nat.lt_of_not_le ‹_›

theorem lookUps (h : ev.Within cacheLimit) (patterns : List String) :
    (patterns.foldl Evaluator.lookUp ev).Within cacheLimit := by
  induction patterns generalizing ev with
  | nil => exact h
  | cons pattern rest ih => exact ih (h.lookUp pattern)

theorem answered (h : ev.Within cacheLimit) (q : Question) : (ev.answered q).Within cacheLimit :=
  Stable.answered (fun _ pattern h => h.lookUp pattern) h q

theorem reset (h : ev.Sound) : ev.reset.Within (cacheLimit / 2) := by
  refine ⟨h.reset, ?_⟩
  unfold Evaluator.reset
  split
  · exact Nat.zero_le _
  · exact Nat.le_of_not_lt ‹_›

end Within

end Evaluator

/-! ## Histories -/

/-- All pools, and all evaluators in use: those that were lent, and those that were made apart. -/
structure Lending where
  pools : List (Pool Evaluator)
  inUse : List Evaluator

namespace Lending

/-- What can happen to evaluators.  Pools and evaluators in use go by their places; what names no
place has no effect. -/
inductive Event where
  | establish (capacity : Nat)
  | create
  | acquire (pool : Nat)
  | release (pool slot : Nat)
  | ask (slot : Nat) (q : Evaluator.Question)
  | reset (slot : Nat)

def empty : Lending := ⟨[], []⟩

def step (l : Lending) : Event → Lending
  | .establish capacity => { l with pools := l.pools ++ [.filled capacity] }
  | .create => { l with inUse := l.inUse ++ [.fresh] }
  | .acquire pool =>
    match l.pools[pool]? with
    | some p => ⟨l.pools.set pool p.acquire.2, l.inUse ++ [p.acquire.1]⟩
    | none => l
  | .release pool slot =>
    match l.pools[pool]?, l.inUse[slot]? with
    | some p, some ev => ⟨l.pools.set pool (p.release ev), l.inUse.eraseIdx slot⟩
    | _, _ => l
  | .ask slot q => { l with inUse := l.inUse.modify slot (·.answered q) }
  | .reset slot => { l with inUse := l.inUse.modify slot .reset }

def run (history : List Event) : Lending := history.foldl step empty

/-- Idle evaluators are at most half full, and those in use are full at most. -/
structure Bounded (l : Lending) : Prop where
  idle : ∀ p ∈ l.pools, ∀ ev ∈ p.idle, ev.Within (Evaluator.cacheLimit / 2)
  inUse : ∀ ev ∈ l.inUse, ev.Within Evaluator.cacheLimit

namespace Bounded

variable {l : Lending}

theorem put (h : l.Bounded) {p : Pool Evaluator}
    (hp : ∀ ev ∈ p.idle, ev.Within (Evaluator.cacheLimit / 2)) {inUse : List Evaluator}
    (hinUse : ∀ ev ∈ inUse, ev.Within Evaluator.cacheLimit) (pool : Nat) :
    Bounded ⟨l.pools.set pool p, inUse⟩ := by
  refine ⟨fun q hq => ?_, hinUse⟩
  rcases List.mem_or_eq_of_mem_set hq with hq | rfl
  · exact h.idle q hq
  · exact hp

theorem enlist (h : l.Bounded) {ev : Evaluator} (hev : ev.Within Evaluator.cacheLimit) :
    ∀ ev' ∈ l.inUse ++ [ev], ev'.Within Evaluator.cacheLimit :=
  List.forall_mem_append.mpr ⟨h.inUse, List.forall_mem_singleton.mpr hev⟩

theorem modify (h : l.Bounded) {f : Evaluator → Evaluator}
    (hf : ∀ ev, ev.Within Evaluator.cacheLimit → (f ev).Within Evaluator.cacheLimit) (slot : Nat) :
    Bounded { l with inUse := l.inUse.modify slot f } := by
  refine ⟨h.idle, fun ev hev => ?_⟩
  obtain ⟨i, hi, rfl⟩ := List.getElem_of_mem hev
  rw [List.length_modify] at hi
  have hold := h.inUse _ (List.getElem_mem hi)
  rw [List.getElem_modify]
  split
  · exact hf _ hold
  · exact hold

/-- The step lemma of histories. -/
theorem step (h : l.Bounded) (e : Event) : (l.step e).Bounded := by
  cases e with
  | establish capacity =>
      refine ⟨List.forall_mem_append.mpr ⟨h.idle, List.forall_mem_singleton.mpr ?_⟩, h.inUse⟩
      intro ev hev
      rw [(List.mem_replicate.mp hev).2]
      exact Evaluator.within_fresh _
  | create => exact ⟨h.idle, h.enlist (Evaluator.within_fresh _)⟩
  | acquire pool =>
      simp only [Lending.step]
      split
      · rename_i p hp
        obtain ⟨hev, hidle⟩ := Pool.acquire_of_idle (Q := Evaluator.Within _)
          (Evaluator.within_fresh _) (h.idle p (List.mem_of_getElem? hp))
        exact h.put hidle (h.enlist (hev.mono (by decide))) pool
      · exact h
  | release pool slot =>
      simp only [Lending.step]
      split
      · rename_i p ev hp hev
        have hreset := Evaluator.Within.reset (h.inUse ev (List.mem_of_getElem? hev)).sound
        refine h.put (Pool.release_of_idle (h.idle p (List.mem_of_getElem? hp)) hreset) ?_ pool
        exact fun ev' hev' => h.inUse ev' (List.mem_of_mem_eraseIdx hev')
      · exact h
  | ask slot q => exact h.modify (fun ev hev => hev.answered q) slot
  | reset slot =>
      exact h.modify (fun ev hev => (Evaluator.Within.reset hev.sound).mono (by decide)) slot

theorem foldl (history : List Event) : ∀ {l : Lending}, l.Bounded →
    (history.foldl Lending.step l).Bounded := by
  induction history with
  | nil => exact id
  | cons e rest ih => exact fun h => ih (h.step e)

end Bounded

theorem bounded_run (history : List Event) : (run history).Bounded :=
  Bounded.foldl history ⟨nofun, nofun⟩

/-- After any history, evaluations do not show what went before.  On an evaluator in use they give
what a new evaluator gives to any client with the same attributes, as far as these occur.  While
they look up patterns, the cache never holds more than 256 of them, and no more than 128 after the
evaluator was returned to a pool. -/
theorem evaluations_isolated (history : List Event) :
    (∀ ev ∈ (run history).inUse,
      (∀ (r : Rule) (ctx ctx' : Context),
        (∀ a : Attribute, a.symbol ∈ r.symbols → ctx.get a = ctx'.get a) →
          (ev.select ctx r).1 = (Evaluator.fresh.select ctx' r).1) ∧
      (∀ (e : Expr) (ctx ctx' : Context),
        (∀ a : Attribute, a.symbol ∈ e.symbols → ctx.get a = ctx'.get a) →
          (ev.value ctx e).1 = (Evaluator.fresh.value ctx' e).1 ∧
          (ev.holds ctx e).1 = (Evaluator.fresh.holds ctx' e).1) ∧
      ∀ q : Evaluator.Question, ∃ patterns : List String,
        ev.answered q = patterns.foldl Evaluator.lookUp ev ∧
        ∀ done, done <+: patterns → (done.foldl Evaluator.lookUp ev).patterns.size ≤ 256) ∧
    ∀ p ∈ (run history).pools, ∀ ev ∈ p.idle, ev.patterns.size ≤ 128 := by
  have hbounded := bounded_run history
  refine ⟨fun ev hev => ?_, fun p hp ev hev => (hbounded.idle p hp ev hev).size_le⟩
  have hwithin := hbounded.inUse ev hev
  refine ⟨?_, ?_, ?_⟩
  · intro r ctx ctx' hctx
    have hagree := Evaluator.agree_select r (Context.agreeOn_of_get hctx)
    exact (hagree ev .fresh hwithin.sound Evaluator.sound_fresh).1
  · intro e ctx ctx' hctx
    have hagree := Context.agreeOn_of_get hctx
    exact ⟨(Evaluator.agree_value e hagree ev .fresh hwithin.sound Evaluator.sound_fresh).1,
      (Evaluator.agree_holds e hagree ev .fresh hwithin.sound Evaluator.sound_fresh).1⟩
  · intro q
    obtain ⟨patterns, hpatterns⟩ := ev.exists_lookUps q
    exact ⟨patterns, hpatterns, fun done _ => (hwithin.lookUps done).size_le⟩

/-- A rule that offers a greeting to the languages that a pattern covers. -/
def greeting : Rule :=
  ⟨[⟨.call "str-wcmatch?" [.symbol "LANG", .literal (.string "en*")], .string "hello"⟩],
    .string "-"⟩

/-- The same evaluator is borrowed twice; in between the pool keeps it with what it has cached. -/
def relending : List Event :=
  [.establish 1, .acquire 0, .ask 0 (.select .empty greeting), .release 0 0, .acquire 0]

/-- The second borrower has another address than the client of a new evaluator, which the rule does
not mention, and gets the same. -/
theorem evaluations_isolated_relending : ∃ ev ∈ (run relending).inUse, ev.patterns.size = 1 ∧
    let ctx := (Context.empty.set (.client .lang) "en-GB").set (.client .ip) "10.0.0.1"
    let ctx' := Context.empty.set (.client .lang) "en-GB"
    (ev.select ctx greeting).1 = (Evaluator.fresh.select ctx' greeting).1 ∧
      (Evaluator.fresh.select ctx' greeting).1 = .string "hello" := by
  have hsizes : (run relending).inUse.map (·.patterns.size) = [1] := by cbv
  obtain ⟨ev, hinUse, hsize⟩ := List.map_eq_singleton_iff.mp hsizes
  have hev : ev ∈ (run relending).inUse := hinUse ▸ List.mem_singleton_self ev
  refine ⟨ev, hev, hsize, ?_, by cbv⟩
  refine ((evaluations_isolated relending).1 ev hev).1 greeting _ _ fun a ha => ?_
  have hsymbols : greeting.symbols = ["LANG"] := rfl
  cases a with
  | lang => rfl
  | _ => simp [hsymbols, Attribute.symbol] at ha

end Lending

end RemoteConfig
