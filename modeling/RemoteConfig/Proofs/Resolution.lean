import RemoteConfig.Proofs.Cache
/-! # Resolution

What an app resolves to is determined by a tree: the active values of the app, and below each
template among them the tree of the app that it names, down to the depth limit.  Two snapshots with
the same tree give the same fields, on whatever evaluators. -/

namespace RemoteConfig

open Evaluator

namespace Snapshot

/-- Two snapshots in which an app has the same active values, and so have the apps that it inlines,
down to the given level. -/
def SameTree (s t : Snapshot) : (levels : Nat) → String → Prop
  | 0, key => s.activeValues key = t.activeValues key
  | levels + 1, key =>
    s.activeValues key = t.activeValues key ∧
      ∀ field template, (field, ConfigValue.template template) ∈ s.activeValues key →
        (s.findApp? template).map (·.key) = (t.findApp? template).map (·.key) ∧
          ∀ a, s.findApp? template = some a → SameTree s t levels a.key

section Values

variable {ctx ctx' : Context} {inline inline' : Inliner}

theorem agree_resolveValue (h : ctx.SameAttributes ctx') (value : ConfigValue)
    (hinline : ∀ key, value = .template key →
      Agree (fun ev => inline ev key) fun ev => inline' ev key) :
    Agree (fun ev => resolveValue inline ctx ev value)
      fun ev => resolveValue inline' ctx' ev value := by
  cases value with
  | string s => exact agree_pure _
  | int n => exact agree_pure _
  | float x => exact agree_pure _
  | code r => exact agree_map (agree_select r (h.agreeOn _)) fun value => some (Resolved.scalar value)
  | template key => exact agree_map (hinline key rfl) fun fields => fields.map Resolved.nested

theorem agree_resolveValues (h : ctx.SameAttributes ctx') :
    ∀ (values : List (String × ConfigValue)) (fields : Fields),
      (∀ field key, (field, ConfigValue.template key) ∈ values →
        Agree (fun ev => inline ev key) fun ev => inline' ev key) →
      Agree (fun ev => resolveValues inline ctx fields ev values)
        fun ev => resolveValues inline' ctx' fields ev values
  | [], fields, _ => agree_pure fields
  | (name, value) :: rest, fields, hinline => by
      have hrest := fun fields => agree_resolveValues h rest fields fun field key hmem =>
        hinline field key (List.mem_cons_of_mem _ hmem)
      have hvalue := agree_resolveValue h value fun key hkey =>
        hinline name key (hkey ▸ List.mem_cons_self)
      -- each value leaves an evaluator for the next, and both of them are sound again
      intro ev ev' hev hev'
      have hagree := hvalue ev ev' hev hev'
      simp only [resolveValues] at hagree ⊢
      generalize resolveValue inline ctx ev value = out at *
      generalize resolveValue inline' ctx' ev' value = out' at *
      obtain ⟨heq, hs, hs'⟩ := hagree
      obtain ⟨resolved, ev₁⟩ := out
      obtain ⟨resolved', ev₁'⟩ := out'
      obtain rfl : resolved = resolved' := heq
      cases resolved with
      | none => exact hrest fields ev₁ ev₁' hs hs'
      | some r => exact hrest (fields.insert name r) ev₁ ev₁' hs hs'

end Values

/-- The fields of an app are determined by its tree. -/
theorem agree_resolve {s t : Snapshot} {ctx ctx' : Context} (h : ctx.SameAttributes ctx') :
    ∀ (levels : Nat) (key : String), SameTree s t levels key →
      Agree (fun ev => s.resolve ctx levels ev key) fun ev => t.resolve ctx' levels ev key
  | 0, key, htree => by
      have hvalues : s.activeValues key = t.activeValues key := htree
      simp only [resolve, hvalues]
      exact agree_resolveValues h _ _ fun _ _ _ => agree_pure none
  | levels + 1, key, htree => by
      obtain ⟨hvalues, hbelow⟩ := htree
      simp only [resolve]
      rw [← hvalues]
      refine agree_resolveValues h _ _ ?_
      intro field template hmem
      obtain ⟨hkey, hsub⟩ := hbelow field template hmem
      cases hs : s.findApp? template with
      | none =>
          have ht : t.findApp? template = none := by simpa [hs] using hkey.symm
          simp only [ht]
          exact agree_pure none
      | some a =>
          obtain ⟨b, ht, hb⟩ : ∃ b, t.findApp? template = some b ∧ b.key = a.key := by
            simpa [hs] using hkey.symm
          simp only [ht, hb]
          exact agree_map (agree_resolve h levels a.key (hsub a hs)) some

/-- Snapshots that find the same apps with the same active values have the same trees. -/
theorem sameTree_of_eq {s t : Snapshot} (hfind : ∀ name, s.findApp? name = t.findApp? name)
    (hvalues : ∀ key, s.activeValues key = t.activeValues key) :
    ∀ (levels : Nat) (key : String), SameTree s t levels key
  | 0, key => hvalues key
  | levels + 1, key => by
      refine ⟨hvalues key, fun field template _ => ⟨by rw [hfind], fun a _ => ?_⟩⟩
      exact sameTree_of_eq hfind hvalues levels a.key

theorem templateSigns_eq {s t : Snapshot} (hfind : ∀ name, s.findApp? name = t.findApp? name)
    (hvalues : ∀ key, s.activeValues key = t.activeValues key) :
    ∀ (levels : Nat) (key : String), s.templateSigns levels key = t.templateSigns levels key
  | 0, key => rfl
  | levels + 1, key => by
      simp only [templateSigns, hvalues, hfind, templateSigns_eq hfind hvalues levels]

theorem fingerprint_eq {s t : Snapshot} (hfind : ∀ name, s.findApp? name = t.findApp? name)
    (hvalues : ∀ key, s.activeValues key = t.activeValues key) (a : App) (levels : Nat) :
    s.fingerprint a levels = t.fingerprint a levels := by
  rw [fingerprint, fingerprint, templateSigns_eq hfind hvalues]

end Snapshot

/-! ## Pools -/

namespace Pool

section Idle

variable {α : Type} [Poolable α] {Q : α → Prop} {p : Pool α}

/-- What is taken from a pool is as good as all that is idle there, and as what is made new. -/
theorem acquire_of_idle (hfresh : Q Poolable.fresh) (h : ∀ x ∈ p.idle, Q x) :
    Q p.acquire.1 ∧ ∀ x ∈ p.acquire.2.idle, Q x := by
  unfold acquire
  split
  · rename_i x rest hidle
    refine ⟨h x (hidle ▸ List.mem_cons_self), fun y hy => h y ?_⟩
    rw [hidle]
    exact List.mem_cons_of_mem _ hy
  · exact ⟨hfresh, h⟩

/-- What is returned to a pool is reset. -/
theorem release_of_idle (h : ∀ x ∈ p.idle, Q x) {x : α} (hx : Q (Poolable.reset x)) :
    ∀ y ∈ (p.release x).idle, Q y := by
  unfold release
  split
  · exact List.forall_mem_cons.mpr ⟨hx, h⟩
  · exact h

end Idle

/-- All idle evaluators are sound. -/
def Sound (p : Pool Evaluator) : Prop := ∀ ev ∈ p.idle, ev.Sound

theorem sound_filled (capacity : Nat) : (filled capacity : Pool Evaluator).Sound := by
  intro ev hev
  rw [(List.mem_replicate.mp hev).2]
  exact sound_fresh

theorem Sound.acquire {p : Pool Evaluator} (h : p.Sound) :
    p.acquire.1.Sound ∧ p.acquire.2.Sound := acquire_of_idle sound_fresh h

theorem Sound.release {p : Pool Evaluator} (h : p.Sound) {ev : Evaluator} (hev : ev.Sound) :
    (p.release ev).Sound := release_of_idle h hev.reset

/-- Whatever a pool lends serves as well as what any other pool lends. -/
theorem use_agree {α : Type} {f g : Evaluator → α × Evaluator} (hfg : Agree f g)
    {p q : Pool Evaluator} (hp : p.Sound) (hq : q.Sound) :
    (p.use f).1 = (q.use g).1 ∧ (p.use f).2.Sound := by
  obtain ⟨hev, hp'⟩ := hp.acquire
  obtain ⟨hev', hq'⟩ := hq.acquire
  obtain ⟨heq, hs, -⟩ := hfg _ _ hev hev'
  exact ⟨heq, hp'.release hs⟩

end Pool

namespace Service

variable {sv sv' : Service} {ctx ctx' : Context}

/-- Services resolve alike where their snapshots have the same tree. -/
theorem resolve_eq (hp : sv.pool.Sound) (hp' : sv'.pool.Sound) (h : ctx.SameAttributes ctx')
    {levels : Nat} {key : String} (htree : sv.snapshot.SameTree sv'.snapshot levels key) :
    (sv.resolve ctx levels key).1 = (sv'.resolve ctx' levels key).1 :=
  (Pool.use_agree (Snapshot.agree_resolve h levels key htree) hp hp').1

/-- What is resolved on a pooled evaluator is what a fresh one gives. -/
theorem fst_resolve (hp : sv.pool.Sound) (ctx : Context) (levels : Nat) (key : String) :
    (sv.resolve ctx levels key).1 = (sv.snapshot.resolve ctx levels .fresh key).1 :=
  (Snapshot.agree_resolve (.refl ctx) levels key
    (Snapshot.sameTree_of_eq (fun _ => rfl) (fun _ => rfl) levels key) _ _ hp.acquire.1
    sound_fresh).1

theorem sound_resolve (hp : sv.pool.Sound) (ctx : Context) (levels : Nat) (key : String) :
    (sv.resolve ctx levels key).2.Sound :=
  (Pool.use_agree (Snapshot.agree_resolve (.refl ctx) levels key
    (Snapshot.sameTree_of_eq (fun _ => rfl) (fun _ => rfl) levels key)) hp hp).2

/-- What a client gets depends on no more than the apps that are found, their active values, and the
nodes. -/
theorem answer_eq (hp : sv.pool.Sound) (hp' : sv'.pool.Sound)
    (hfind : ∀ name, sv.snapshot.findApp? name = sv'.snapshot.findApp? name)
    (hvalues : ∀ key, sv.snapshot.activeValues key = sv'.snapshot.activeValues key)
    (hnodes : sv.snapshot.nodes.keys = sv'.snapshot.nodes.keys)
    (hlevels : sv.limits.templateLevels = sv'.limits.templateLevels) (s s' : Storage)
    (ctx : Context) : (sv.answer s ctx).1 = (sv'.answer s' ctx).1 := by
  unfold answer
  dsimp only
  rw [hfind]
  cases sv'.snapshot.findApp? (ctx.get .appKey) with
  | none => rfl
  | some a =>
      have hsign : sv.snapshot.fingerprint a sv.limits.templateLevels =
          sv'.snapshot.fingerprint a sv'.limits.templateLevels := by
        rw [hlevels]
        exact Snapshot.fingerprint_eq hfind hvalues a _
      have hfields : ∀ sign, (sv.fieldsFor a sign ctx).1 = (sv'.fieldsFor a sign ctx).1 := by
        intro sign
        unfold fieldsFor
        split
        · rfl
        · rw [hlevels]
          exact congrArg some (resolve_eq hp hp' (.refl ctx)
            (Snapshot.sameTree_of_eq hfind hvalues _ _))
      dsimp only
      rw [hsign, hfields, hnodes]

theorem sound_answer (hp : sv.pool.Sound) (s : Storage) (ctx : Context) :
    (sv.answer s ctx).2.1.pool.Sound := by
  unfold answer
  dsimp only
  cases sv.snapshot.findApp? (ctx.get .appKey) with
  | none => exact hp
  | some a =>
      dsimp only
      unfold fieldsFor
      split
      · exact hp
      · exact sound_resolve hp ctx _ _

end Service

end RemoteConfig
