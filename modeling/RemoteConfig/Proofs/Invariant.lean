import RemoteConfig.Proofs.Operators
/-! # Invariants of masters

A master that is written by operators moves on in three ways: it initialises an empty storage, it
claims its place when it starts on what is stored, and it carries out a request that it accepts.
What all three keep is an *invariant*.  It holds in every state of the master, whatever was refused,
whichever commits failed, and however often the master was restarted. -/

namespace RemoteConfig

open Table

/-! ## Snapshots that agree -/

namespace Snapshot

/-- Two snapshots of nodes that hold the same, apart from the progress that nodes note. -/
structure Agrees (s t : Snapshot) : Prop where
  left : s.Coherent
  right : t.Coherent
  holdings : s.entity?.withoutProgress = t.entity?.withoutProgress

namespace Agrees

variable {s t : Snapshot}

theorem symm (h : s.Agrees t) : t.Agrees s := ⟨h.right, h.left, h.holdings.symm⟩

theorem apps_eq (h : s.Agrees t) : s.apps = t.apps := (h.left.tables_eq h.right h.holdings).1

theorem configs_eq (h : s.Agrees t) : s.configs = t.configs :=
  (h.left.tables_eq h.right h.holdings).2

theorem webhooks_eq (h : s.Agrees t) : s.webhooks = t.webhooks :=
  Snapshot.webhooks_eq fun _ => entity?_eq_of_withoutProgress h.holdings nofun

end Agrees

/-- The snapshot to which a mutation leads when the node at an address commits it. -/
def committed (s : Snapshot) (url : String) (m : Moment) (d : Delta) : Snapshot :=
  let next := s.dataVersion.next m.sign m.now
  s.advance (Replica.touchOwn url s d next) next

/-- A commit adds nothing to the changes but progress. -/
theorem Coherent.agrees_committed {s : Snapshot} (hs : s.Coherent) (url : String) (m : Moment)
    (d : Delta) : (s.applyAll d.changes).Agrees (s.committed url m d) := by
  refine ⟨hs.applyAll d.changes, hs.advance _ _, ?_⟩
  rw [committed, entity?_advance, Replica.withoutProgress_touchOwn hs, entity?_applyAll]

end Snapshot

namespace Host

variable {h : Host} {a : Action} {settings : Settings}

/-! ## How a master moves on -/

/-- How an action leads a master that is written by operators to another snapshot. -/
inductive Advances (h : Host) (settings : Settings) : Action → Snapshot → Prop
  | initialised {limits : Limits} {m : Moment} :
      Advances h settings (.start settings limits m) (.initial settings (.initial m.spare m.now))
  | claimed {limits : Limits} {m : Moment} {d : Delta} (hv : h.storage.dataVersion?.isSome)
      (hd : Replica.Claimed settings m.now h.storage.load d) :
      Advances h settings (.start settings limits m) (h.storage.load.committed settings.url m d)
  | written {m : Moment} {expected : Option Int} {w : Write} {sv : Service} {d : Delta}
      (hsv : h.running = some sv) (hsettings : settings = sv.replica.settings)
      (hcheck : w.check settings = .ok ()) (hd : Write.Accepted m.spare sv.snapshot w d.changes) :
      Advances h settings (.request (.write m expected w)) (sv.snapshot.committed settings.url m d)

theorem Moves.advances {pushes : List (String × Payload)} {snap : Snapshot}
    (hm : h.Moves settings a pushes snap) (hrole : settings.role = .master) (ha : a.ByOperators) :
    h.Advances settings a snap := by
  cases hm with
  | initialised hempty => exact .initialised
  | claimed hv hc =>
      obtain ⟨d, hd, -, rfl, -⟩ := hc
      exact .claimed hv (Replica.claimed_of_claim hd)
  | served sv hsv hsettings hq =>
      subst hsettings
      cases hq with
      | mutate hc => exact absurd ha id
      | write hw hc =>
          obtain ⟨d, hd, -, rfl, -⟩ := hc
          exact .written hsv rfl hw (Write.accepted_delta hd)
      | receive hp => exact absurd hrole hp.1
      | resync hd => exact absurd hrole hd.1
      | sync hd => exact absurd hrole hd.1

/-- What is held after a step was held before, or it is what the step has led to. -/
theorem Held.of_step (hs : h.Synced) {s : Snapshot} (hheld : (h.step a).2.Held s) :
    h.Held s ∨ ∃ sv pushes, (h.step a).2.running = some sv ∧
      h.Moves sv.replica.settings a pushes sv.snapshot ∧
      (h.step a).2.storage.Mirrors sv.snapshot ∧
      (s = sv.snapshot ∨ s = (h.step a).2.storage.load) := by
  have hstep := step_stepped hs a
  generalize h.step a = out at *
  cases hstep with
  | kept result h' hdata hkeyed hrunning =>
      left
      rcases hheld with ⟨hv, rfl⟩ | ⟨sv, hsv, rfl⟩
      · exact Or.inl ⟨hdata.dataVersion?_eq ▸ hv, hdata.load_eq⟩
      · exact (hrunning sv hsv).held
  | moved pushes sv s' hmirrors hmoves =>
      refine Or.inr ⟨sv, pushes, rfl, hmoves, hmirrors, ?_⟩
      rcases hheld with ⟨-, rfl⟩ | ⟨sv', hsv', rfl⟩
      · exact Or.inr rfl
      · exact Or.inl (congrArg Service.snapshot (Option.some.inj hsv').symm)

/-- A host of a master whose indexes are exact. -/
structure Orderly (h : Host) : Prop where
  synced : h.Synced
  role : h.RunsAs .master
  exact : ∀ s, h.Held s → s.Exact

theorem not_held_empty {s : Snapshot} : ¬ empty.Held s := by
  rintro (⟨hv, -⟩ | ⟨sv, hsv, -⟩)
  · rw [show empty.storage.dataVersion? = none from
      Storage.dataVersion?_of_sameData_empty (.refl _)] at hv
    cases hv
  · cases hsv

theorem orderly_empty : empty.Orderly :=
  ⟨synced_empty, not_running, fun _ hheld => absurd hheld not_held_empty⟩

/-- Operators keep the indexes exact. -/
theorem Orderly.step (ho : h.Orderly) (ha : a.StartsAs .master) (hop : a.ByOperators) :
    (h.step a).2.Orderly where
  synced := ho.synced.step a
  role := ho.role.step ho.synced ha
  exact s hheld := by
    rcases hheld.of_step ho.synced with hheld | ⟨sv, pushes, hsv, hmoves, hmirrors, hs⟩
    · exact ho.exact s hheld
    have hexact : sv.snapshot.Exact := by
      rcases hmoves.edits ho.synced (hmoves.role ho.role ha) hop with ⟨m, -, -, hsnap⟩ | hedits
      · rw [hsnap]
        exact Snapshot.exact_initial _ _
      · exact hedits.exact ho.synced ho.exact
    rcases hs with rfl | rfl
    · exact hexact
    · exact hmirrors.exact_load hexact.namesUnique

end Host

/-! ## Invariants -/

/-- What a master keeps: something about its data, and something that they say about the service
itself while it runs.  It may rest on a bound that the data never exceed. -/
structure Invariant (bounded data : Snapshot → Prop) (own : Settings → Snapshot → Prop) : Prop where
  bounded_congr {s t : Snapshot} : s.Agrees t → bounded s → bounded t
  data_congr {s t : Snapshot} : s.Agrees t → data s → data t
  own_congr {settings : Settings} {s t : Snapshot} : s.Agrees t → own settings s → own settings t
  initial {settings : Settings} (v : DataVersion) : settings.role = .master →
    data (.initial settings v) ∧ own settings (.initial settings v)
  /-- A master that has nothing to claim has its place. -/
  loaded {settings : Settings} {now : Timestamp} {s : Snapshot} : settings.role = .master →
    data s → Replica.Unclaiming settings s now → own settings s
  claimed {settings : Settings} {now : Timestamp} {s : Snapshot} {d : Delta} :
    s.Coherent → s.Exact → data s → Replica.Claimed settings now s d →
      bounded (s.applyAll d.changes) →
        data (s.applyAll d.changes) ∧ own settings (s.applyAll d.changes)
  written {settings : Settings} {sign : String} {s : Snapshot} {w : Write} {changes : List Change} :
    s.Coherent → s.Exact → data s → own settings s → w.check settings = .ok () →
      w.Accepted sign s changes → bounded (s.applyAll changes) →
        data (s.applyAll changes) ∧ own settings (s.applyAll changes)

namespace Host

/-- An invariant holds of all that a host holds. -/
structure Upholds (data : Snapshot → Prop) (own : Settings → Snapshot → Prop) (h : Host) :
    Prop where
  held : ∀ s, h.Held s → data s
  running : ∀ sv, h.running = some sv → own sv.replica.settings sv.snapshot

end Host

namespace Invariant

variable {bounded data : Snapshot → Prop} {own : Settings → Snapshot → Prop}
  {h : Host} {a : Action} {settings : Settings}

theorem of_committed (hi : Invariant bounded data own) {s : Snapshot} (hs : s.Coherent)
    {url : String} {m : Moment} {d : Delta} (hb : bounded (s.committed url m d))
    (hkept : bounded (s.applyAll d.changes) →
      data (s.applyAll d.changes) ∧ own settings (s.applyAll d.changes)) :
    data (s.committed url m d) ∧ own settings (s.committed url m d) := by
  have hagrees := hs.agrees_committed url m d
  obtain ⟨hdata, hown⟩ := hkept (hi.bounded_congr hagrees.symm hb)
  exact ⟨hi.data_congr hagrees hdata, hi.own_congr hagrees hown⟩

/-- What a master moves on to upholds the invariant. -/
theorem of_advances (hi : Invariant bounded data own) (hu : h.Upholds data own) (ho : h.Orderly)
    (hrole : settings.role = .master) {snap : Snapshot} (hadvances : h.Advances settings a snap)
    (hb : bounded snap) : data snap ∧ own settings snap := by
  cases hadvances with
  | initialised => exact hi.initial _ hrole
  | claimed hv hd =>
      have hheld : h.Held h.storage.load := Or.inl ⟨hv, rfl⟩
      exact hi.of_committed (Storage.coherent_load _) hb
        (hi.claimed (Storage.coherent_load _) (ho.exact _ hheld) (hu.held _ hheld) hd)
  | @written m expected w sv d hsv hsettings hcheck hd =>
      have hheld : h.Held sv.snapshot := Or.inr ⟨sv, hsv, rfl⟩
      have hcoherent := (ho.synced.mirrors sv hsv).coherent
      have hown : own settings sv.snapshot := hsettings ▸ hu.running sv hsv
      exact hi.of_committed hcoherent hb
        (hi.written hcoherent (ho.exact _ hheld) (hu.held _ hheld) hown hcheck hd)

/-- The step lemma of invariants. -/
theorem step (hi : Invariant bounded data own) (hu : h.Upholds data own) (ho : h.Orderly)
    (ha : a.StartsAs .master) (hop : a.ByOperators)
    (hb : ∀ sv, (h.step a).2.running = some sv → bounded sv.snapshot) :
    (h.step a).2.Upholds data own := by
  have hnew : ∀ sv pushes, (h.step a).2.running = some sv →
      h.Moves sv.replica.settings a pushes sv.snapshot →
        data sv.snapshot ∧ own sv.replica.settings sv.snapshot := by
    intro sv pushes hsv hmoves
    have hrole := hmoves.role ho.role ha
    exact hi.of_advances hu ho hrole (hmoves.advances hrole hop) (hb sv hsv)
  constructor
  · intro s hheld
    rcases hheld.of_step ho.synced with hheld | ⟨sv, pushes, hsv, hmoves, hmirrors, hs⟩
    · exact hu.held s hheld
    have hdata := (hnew sv pushes hsv hmoves).1
    rcases hs with rfl | rfl
    · exact hdata
    · -- what would be loaded holds what the service holds
      refine hi.data_congr ⟨hmirrors.coherent, Storage.coherent_load _, ?_⟩ hdata
      rw [hmirrors.entity?_load]
  · intro sv hsv
    have hstep := Host.step_stepped ho.synced a
    generalize h.step a = out at *
    cases hstep with
    | kept result h' hdata hkeyed hrunning =>
        cases hrunning sv hsv with
        | loaded hv hsnapshot hclaim =>
            have hheld : h.Held sv.snapshot := Or.inl ⟨hv, hsnapshot⟩
            exact hi.loaded ha (hu.held _ hheld) (hsnapshot ▸ hclaim)
        | running hsv₀ hsettings hsnapshot =>
            rw [hsettings, hsnapshot]
            exact hu.running _ hsv₀
    | moved pushes sv' s' hmirrors hmoves =>
        obtain rfl := Option.some.inj hsv
        exact (hnew _ pushes rfl hmoves).2

theorem runFrom (hi : Invariant bounded data own) : ∀ {actions : List Action} {h : Host},
    h.Upholds data own → h.Orderly → (∀ a ∈ actions, a.StartsAs .master ∧ a.ByOperators) →
      (∀ before, before <+: actions → ∀ sv, (h.runFrom before).running = some sv →
        bounded sv.snapshot) →
        (h.runFrom actions).Upholds data own ∧ (h.runFrom actions).Orderly
  | [], h, hu, ho, _, _ => ⟨hu, ho⟩
  | a :: rest, h, hu, ho, hactions, hb => by
      obtain ⟨ha, hop⟩ := hactions a List.mem_cons_self
      have hfirst : ∀ sv, (h.step a).2.running = some sv → bounded sv.snapshot :=
        hb [a] (List.prefix_append [a] rest)
      show ((h.step a).2.runFrom rest).Upholds data own ∧ ((h.step a).2.runFrom rest).Orderly
      refine hi.runFrom (hi.step hu ho ha hop hfirst) (ho.step ha hop)
        (fun b hmem => hactions b (List.mem_cons_of_mem _ hmem)) ?_
      intro before hbefore
      exact hb (a :: before) (List.cons_prefix_cons.mpr ⟨rfl, hbefore⟩)

/-- An invariant holds of a master in every state that it reaches from an empty storage. -/
theorem run (hi : Invariant bounded data own) {actions : List Action}
    (hactions : ∀ a ∈ actions, a.StartsAs .master ∧ a.ByOperators)
    (hb : ∀ before, before <+: actions → ∀ sv, (Host.run before).running = some sv →
      bounded sv.snapshot) :
    (Host.run actions).Upholds data own ∧ (Host.run actions).Orderly := by
  have hempty : Host.empty.Upholds data own :=
    ⟨fun _ hheld => absurd hheld Host.not_held_empty, Host.not_running⟩
  exact hi.runFrom hempty Host.orderly_empty hactions hb

end Invariant

end RemoteConfig
