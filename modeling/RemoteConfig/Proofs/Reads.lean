import RemoteConfig.Proofs.Fleet
import RemoteConfig.Proofs.Operators
/-! # Reads

A slave's snapshot comes about in another way than the master's: from dumps, from pushes, or from
the rows of a storage.  In a fleet whose master is written by operators this does not show.  At
equal versions a client gets the same from either. -/

namespace RemoteConfig

/-- What holds of a slave beside agreement: its indexes are exact and its evaluators sound. -/
structure Host.Legible (h : Host) : Prop where
  exact : ∀ sv, h.running = some sv → sv.snapshot.Exact
  pools : h.PoolSound

namespace Lineage

variable {l : Lineage} {tokens : List String} {began : Moment → Prop} {h : Host} {a : Action}

/-- No two stored apps of a slave have the same name. -/
theorem Leads.namesUnique (hl : l.Leads tokens began h) (ht : l.Tidy) {snap : Snapshot}
    (hsnap : h.storage.Mirrors snap) : snap.entity?.NamesUnique := by
  rcases hl.state snap hsnap with ⟨P, hP, -, hagree⟩ | ⟨m, -, -, hprec⟩
  · exact (ht.exact P hP).namesUnique.congr hagree
  · rw [hprec.holdings]
    exact nofun

/-- A push that continues the chain is admitted on the slave as it was on the master. -/
theorem exact_of_received (hl : l.Leads tokens began h) (ho : l.Ordered tokens) (ht : l.Tidy)
    {r : Replica} (hr : h.storage.Mirrors r.snapshot) (he : r.snapshot.Exact) {p : Payload}
    (hp : p ∈ l.sent) {snap : Snapshot} (hreceived : r.Received p snap) : snap.Exact := by
  obtain ⟨-, hnext, rfl⟩ := hreceived
  obtain ⟨P, hP, hlink, hadmits⟩ := ht.admitted p hp
  have hsign : P.snapshot.dataVersion.sign = r.snapshot.dataVersion.sign := by
    simp only [DataVersion.isFollowedBy, Bool.and_eq_true, decide_eq_true_eq] at hnext hlink
    rw [← hlink.2, hnext.2]
  have hagree := hl.agrees_of_sign ho hr hP hsign
  exact he.advance (Replica.admitsAll_touchOwn (hadmits.congr hagree rfl) _ _ _) p.dataVersion

theorem Leads.legible_step (hl : l.Leads tokens began h) (ho : l.Ordered tokens) (ht : l.Tidy)
    (hh : h.Legible) (ha : a.StartsAs .slave) (hoffers : l.Offers a) : (h.step a).2.Legible where
  pools := hh.pools.step a
  exact sv hsv := by
    have hstep := Host.step_stepped hl.synced a
    generalize h.step a = out at *
    cases hstep with
    | kept result h' hdata hkeyed hrunning =>
        cases hrunning sv hsv with
        | loaded hv hsnapshot =>
            obtain ⟨v, hv⟩ := Option.isSome_iff_exists.mp hv
            have hmirrors := Storage.mirrors_load hl.synced.sound hv
            rw [hsnapshot]
            exact hmirrors.exact_load (hl.namesUnique ht hmirrors)
        | running hsv₀ hsettings hsnapshot =>
            rw [hsnapshot]
            exact hh.exact _ hsv₀
    | moved pushes sv' s' hmirrors hmoves =>
        obtain rfl := Option.some.inj hsv
        have hadopts := hmoves.of_slave (hmoves.role hl.role ha)
        generalize sv'.snapshot = snap at *
        cases hadopts with
        | initialised hempty => exact Snapshot.exact_initial _ _
        | received sv₀ hsv₀ hp =>
            have hr := hl.synced.mirrors sv₀ hsv₀
            exact exact_of_received hl ho ht hr (hh.exact sv₀ hsv₀) hoffers hp
        | resynced sv₀ now d hsv₀ hd hq =>
            obtain ⟨-, -, rfl⟩ := hd
            obtain ⟨P, hP, rfl⟩ : ∃ P ∈ l.past, d = P.snapshot.dump := by
              rcases hq with rfl | ⟨version, rfl⟩
              · exact hoffers
              · exact hoffers.2 d rfl
            exact (ht.exact P hP).ofDump_adoptOwn (ho.coherent P hP) _ _

end Lineage

namespace Fleet

variable {ι : Type}

/-- Fleets whose master is written by operators. -/
def ByOperators (events : List (Event ι)) : Prop := ∀ a, Event.master a ∈ events → a.ByOperators

structure Tidy (f : Fleet ι) : Prop where
  master : f.master.Tidy
  slaves : ∀ i, (f.slaves i).Legible

theorem tidy_empty : (empty : Fleet ι).Tidy where
  master := Lineage.tidy_empty
  slaves _ := ⟨Host.not_running, Host.not_running⟩

variable [DecidableEq ι]

theorem tidy_run {f : Fleet ι} {events : List (Event ι)} (hrun : Run empty events f)
    (hfresh : (Event.tokens events).Nodup) (hop : ByOperators events) : f.Tidy := by
  induction hrun with
  | refl => exact tidy_empty
  | @step events f e hrun he ih =>
      have hfresh' : (Event.tokens events).Nodup := by
        rw [tokens_snoc, List.nodup_append] at hfresh
        exact hfresh.1
      have hagreed := agreed_run hrun hfresh'
      have htidy := ih hfresh' fun a ha => hop a (List.mem_append_left _ ha)
      cases e with
      | master a =>
          exact ⟨htidy.master.step hagreed.master he (hop a (by simp)), htidy.slaves⟩
      | slave j a =>
          refine ⟨htidy.master, ?_⟩
          intro i
          by_cases hij : i = j
          · subst hij
            simp only [Fleet.step, Function.update_self]
            exact (hagreed.slaves i).legible_step hagreed.master htidy.master (htidy.slaves i)
              he.1 he.2
          · simp only [Fleet.step, Function.update_of_ne hij]
            exact htidy.slaves i

/-- Equal versions give equal reads: whenever a slave is at a version that the master had, every
client gets from it what it would have got from the master. -/
theorem equal_reads {f : Fleet ι} {events : List (Event ι)} (hrun : Run empty events f)
    (hfresh : (Event.tokens events).Nodup) (hop : ByOperators events) (i : ι) {sv P : Service}
    (hsv : (f.slaves i).running = some sv) (hP : P ∈ f.master.past)
    (hversion : sv.snapshot.dataVersion = P.snapshot.dataVersion)
    (hlevels : sv.limits.templateLevels = P.limits.templateLevels) (ctx : Context)
    (s s' : Storage) : (sv.answer s ctx).1 = (P.answer s' ctx).1 := by
  have hagreed := agreed_run hrun hfresh
  have htidy := tidy_run hrun hfresh hop
  have hmirrors := (hagreed.slaves i).synced.mirrors sv hsv
  have hagree := (hagreed.slaves i).agrees_of_sign hagreed.master hmirrors hP (by rw [hversion])
  have hcoherent := hagreed.master.coherent P hP
  have hexact := (htidy.slaves i).exact sv hsv
  obtain ⟨happs, hconfigs⟩ := hmirrors.coherent.tables_eq hcoherent hagree.symm
  refine Service.answer_eq ((htidy.slaves i).pools sv hsv) (htidy.master.pools P hP)
    (hexact.findApp?_eq (htidy.master.exact P hP) happs)
    (hexact.activeValues_eq (htidy.master.exact P hP) hconfigs) ?_ hlevels s s' ctx
  exact Table.keys_congr (Snapshot.nodes_eq_of_withoutProgress hagree.symm)

/-- A slave that took in a push answers as the master that sent it. -/
theorem equal_reads_follow :
    ∃ sv, ((follow.foldl step (catchUp.foldl step empty)).slaves ()).running = some sv ∧
      sv.snapshot.dataVersion.version = 3 ∧
      ∃ P ∈ (follow.foldl step (catchUp.foldl step empty)).master.past,
        ∀ ctx s s', (sv.answer s ctx).1 = (P.answer s' ctx).1 := by
  let f := follow.foldl step (catchUp.foldl step empty)
  let sv := (f.slaves ()).running.get (by decide +kernel)
  let P := f.master.past.get ⟨3, by decide +kernel⟩
  have hsv : (f.slaves ()).running = some sv := (Option.some_get _).symm
  have hop : ByOperators (catchUp ++ follow) := by
    simp [ByOperators, catchUp, follow, Action.ByOperators]
  refine ⟨sv, hsv, by decide +kernel, P, List.get_mem _ _, ?_⟩
  exact equal_reads (run_catchUp.trans run_follow) (by decide +kernel) hop () hsv (List.get_mem _ _)
    (by decide +kernel) (by decide +kernel)

end Fleet

end RemoteConfig
