import RemoteConfig.Proofs.Restart
/-! # Addressing apps

A client asks for an app by its key or by its name, and the two share one space of words.  Keys come
first: a word that is a key leads to the app of that key, whatever other app has it as its name.
So the key of an app always leads to it, and its name does unless it is the key of another app. -/

namespace RemoteConfig

open Table

namespace Snapshot

variable {s : Snapshot} {key : String} {a : App}

/-- The app to which the name of an app leads: the one of which the name is the key, if there is
one, and otherwise the app itself. -/
def named (s : Snapshot) (a : App) : App := (s.app? a.name).getD a

/-- A name is mistaken exactly if it is the key of another app. -/
theorem named_eq_self_iff : s.named a = a ↔ ∀ b, s.app? a.name = some b → b = a := by
  unfold named
  cases s.app? a.name with
  | none => simp
  | some b => simp

theorem Coherent.findApp?_key (hs : s.Coherent) (ha : s.apps[key]? = some a) :
    s.findApp? a.key = some a := by
  have hkey : s.app? a.key = some a := by rw [app?, hs.app_key ha, ha]
  rw [findApp?, hkey, Option.some_or]

theorem Exact.findApp?_name (he : s.Exact) (ha : s.apps[key]? = some a) :
    s.findApp? a.name = some (s.named a) := by
  unfold findApp? named
  cases s.app? a.name with
  | none => rw [Option.none_or, he.appByName?_eq_some ha, Option.getD_none]
  | some b => rw [Option.some_or, Option.getD_some]

/-- What a client that asks for an app gets: the fields of that app, unless it has them already. -/
def responseFor (s : Snapshot) (a : App) (levels : Nat) (ctx : Context) : Response :=
  let sign := s.fingerprint a levels
  let held := ctx.dataSign ≠ "" ∧ ctx.dataSign = sign
  ⟨if held then none else some (s.resolve ctx levels .fresh a.key).1, sign, s.nodes.keys⟩

end Snapshot

/-- A node that is no slave gives a client what belongs to the app that it finds. -/
theorem Service.get_of_findApp? {sv : Service} (hrole : sv.role ≠ .slave) (hp : sv.pool.Sound)
    {ctx : Context} {a : App} (hfind : sv.snapshot.findApp? (ctx.get .appKey) = some a)
    (s : Storage) (now : Timestamp) :
    (sv.get s now ctx).1 = .ok (sv.snapshot.responseFor a sv.limits.templateLevels ctx) := by
  have hfresh : sv.checkFresh now = .ok () := by rw [checkFresh, if_pos hrole]
  rw [get, hfresh]
  simp only [answer, hfind, Snapshot.responseFor, Except.ok.injEq, Response.mk.injEq, and_true]
  unfold fieldsFor
  split
  · rfl
  · exact congrArg some (fst_resolve hp ctx _ _)

namespace Host

/-- In every state of a master that is written by operators, an app is found by its key.  By its
name it is found unless the name is the key of another app, which is then found instead.  Clients
are served accordingly. -/
theorem apps_addressable {actions : List Action}
    (hactions : ∀ a ∈ actions, a.StartsAs .master ∧ a.ByOperators) {sv : Service}
    (hsv : (run actions).running = some sv) {key : String} {a : App}
    (ha : sv.snapshot.apps[key]? = some a) :
    sv.snapshot.findApp? a.key = some a ∧
    sv.snapshot.appByName? a.name = some a ∧
    sv.snapshot.findApp? a.name = some (sv.snapshot.named a) ∧
    (sv.snapshot.named a = a ↔ ∀ b, sv.snapshot.app? a.name = some b → b = a) ∧
    ∀ (s : Storage) (now : Timestamp) (ctx : Context),
      (ctx.get .appKey = a.key → (sv.get s now ctx).1 =
        .ok (sv.snapshot.responseFor a sv.limits.templateLevels ctx)) ∧
      (ctx.get .appKey = a.name → (sv.get s now ctx).1 =
        .ok (sv.snapshot.responseFor (sv.snapshot.named a) sv.limits.templateLevels ctx)) := by
  obtain ⟨-, ho⟩ := invariant_singleMaster.run hactions fun _ _ _ _ => trivial
  have hexact := ho.exact _ (Or.inr ⟨sv, hsv, rfl⟩)
  have hbykey := (ho.synced.mirrors sv hsv).coherent.findApp?_key ha
  have hbyname := hexact.findApp?_name ha
  have hrole : sv.role ≠ .slave := by
    have hmaster : sv.role = .master := ho.role sv hsv
    rw [hmaster]
    nofun
  have hpool := poolSound_run actions sv hsv
  refine ⟨hbykey, hexact.appByName?_eq_some ha, hbyname, Snapshot.named_eq_self_iff, ?_⟩
  intro s now ctx
  constructor
  · intro hctx
    exact Service.get_of_findApp? hrole hpool (hctx ▸ hbykey) s now
  · intro hctx
    exact Service.get_of_findApp? hrole hpool (hctx ▸ hbyname) s now

/-- An app is called by what becomes the key of another one. -/
def collidingRun : List Action :=
  [.start ⟨"http://m", .master, none, false⟩ ⟨300, 0, 2⟩ ⟨.epoch, "v0", "t0"⟩,
    .request (.write ⟨.epoch, "v1", "t1"⟩ none (.putApp "k1" "shop" .real)),
    .request (.write ⟨.epoch, "v2", "t2"⟩ none
      (.putConfig ⟨"c", "k1", "f", "x", .string, .active⟩)),
    .request (.write ⟨.epoch, "v3", "t3"⟩ none (.putApp "shop" "store" .real))]

/-- The colliding apps as they are stored. -/
def collidingApps : App × App :=
  (⟨"k1", "shop", .real, "t2", 1, 1⟩, ⟨"shop", "store", .real, "t3", 0, 0⟩)

theorem byOperators_collidingRun : ∀ a ∈ collidingRun, a.StartsAs .master ∧ a.ByOperators := by
  simp [collidingRun, Action.StartsAs, Action.ByOperators]

/-- The name of the first app leads to the second one, whose key it is; each key and the other name
lead to their own apps. -/
theorem apps_addressable_collidingRun : ∃ sv, (run collidingRun).running = some sv ∧
    sv.snapshot.apps["k1"]? = some collidingApps.1 ∧
    sv.snapshot.apps["shop"]? = some collidingApps.2 ∧
    sv.snapshot.findApp? "k1" = some collidingApps.1 ∧
    sv.snapshot.findApp? "shop" = some collidingApps.2 ∧
    sv.snapshot.findApp? "store" = some collidingApps.2 ∧
    ∀ s now ctx, ctx.get .appKey = "k1" → (sv.get s now ctx).1 =
      .ok (sv.snapshot.responseFor collidingApps.1 2 ctx) := by
  let sv := (run collidingRun).running.get (by decide +kernel)
  have hsv : (run collidingRun).running = some sv := (Option.some_get _).symm
  have hfirst : sv.snapshot.apps["k1"]? = some collidingApps.1 := by decide +kernel
  have hsecond : sv.snapshot.apps["shop"]? = some collidingApps.2 := by decide +kernel
  obtain ⟨hkey, -, -, -, hserved⟩ := apps_addressable byOperators_collidingRun hsv hfirst
  obtain ⟨hkey', -, hname', -, -⟩ := apps_addressable byOperators_collidingRun hsv hsecond
  have hlevels : sv.limits.templateLevels = 2 := by decide +kernel
  have hnamed : sv.snapshot.named collidingApps.2 = collidingApps.2 := by decide +kernel
  exact ⟨sv, hsv, hfirst, hsecond, hkey, hkey', hnamed ▸ hname',
    fun s now ctx hctx => hlevels ▸ (hserved s now ctx).1 hctx⟩

/-- Not every app is found by its name. -/
theorem not_found_by_name :
    ¬ ∀ actions, (∀ a ∈ actions, a.StartsAs .master ∧ a.ByOperators) →
      ∀ sv, (run actions).running = some sv → ∀ (key : String) a, sv.snapshot.apps[key]? = some a →
        sv.snapshot.findApp? a.key = some a ∧ sv.snapshot.findApp? a.name = some a := by
  intro h
  let sv := (run collidingRun).running.get (by decide +kernel)
  have hsv : (run collidingRun).running = some sv := (Option.some_get _).symm
  have hfirst : sv.snapshot.apps["k1"]? = some collidingApps.1 := by decide +kernel
  have hfound : sv.snapshot.findApp? "shop" = some collidingApps.2 := by decide +kernel
  have hname := (h collidingRun byOperators_collidingRun sv hsv "k1" _ hfirst).2
  have hdiffer : collidingApps.1 ≠ collidingApps.2 := by decide
  exact hdiffer (Option.some.inj (hname.symm.trans hfound))

end Host

end RemoteConfig
