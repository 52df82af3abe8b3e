import RemoteConfig.Proofs.Edit
import RemoteConfig.Proofs.Lineage
import RemoteConfig.Proofs.Resolution
/-! # Operators

A master that is written by the requests of its operators only, and not by raw mutations, makes
edits only.  Its indexes are exact in every state of its lineage, and what it tells its slaves is
admitted where it belongs. -/

namespace RemoteConfig

open Table

/-! ## Exact indexes from the start -/

namespace Snapshot

theorem exact_initial (settings : Settings) (v : DataVersion) : (initial settings v).Exact := by
  unfold initial
  split
  · exact (exact_empty.apply (c := .upsert (.node _)) trivial).setVersion v
  · exact exact_empty.setVersion v

/-- A replica that takes over the dump of an exact snapshot has exact indexes. -/
theorem Exact.ofDump_adoptOwn {s : Snapshot} (he : s.Exact) (hs : s.Coherent) (url : String)
    (now : Timestamp) : (ofDump (Replica.adoptOwn url now s.dump)).Exact := by
  refine exact_ofEntities (m := (ofDump (Replica.adoptOwn url now s.dump)).entity?) ?_ ?_
  · exact he.namesUnique.congr (withoutProgress_ofDump_adoptOwn hs url now).symm
  · intro e hmem
    rw [entity?_ofDump_adoptOwn hs]
    exact (mem_entities_adoptOwn hs url now).mp hmem

end Snapshot

/-- What is loaded has exact indexes if no two of the stored apps have the same name. -/
theorem Storage.Mirrors.exact_load {s : Storage} {snap : Snapshot} (h : s.Mirrors snap)
    (hnames : snap.entity?.NamesUnique) : s.load.Exact := by
  refine Snapshot.exact_ofEntities (m := snap.entity?) hnames ?_
  intro e he
  rw [← h.holdings]
  exact (mem_entities h.keyed).mp he

/-! ## Edits on a host -/

/-- An action that is no raw mutation. -/
def Action.ByOperators : Action → Prop
  | request (.mutate ..) => False
  | _ => True

namespace Host

variable {h : Host} {a : Action} {settings : Settings}

/-- A snapshot that the running service has, or that would be loaded. -/
def Held (h : Host) (s : Snapshot) : Prop :=
  (h.storage.dataVersion?.isSome ∧ s = h.storage.load) ∨ ∃ sv, h.running = some sv ∧ s = sv.snapshot

theorem Held.mirrors {s : Snapshot} (hheld : h.Held s) (hs : h.Synced) : h.storage.Mirrors s := by
  rcases hheld with ⟨hv, rfl⟩ | ⟨sv, hsv, rfl⟩
  · obtain ⟨v, hv⟩ := Option.isSome_iff_exists.mp hv
    exact Storage.mirrors_load hs.sound hv
  · exact hs.mirrors sv hsv

theorem Continues.held {sv' : Service} (hc : h.Continues a sv') : h.Held sv'.snapshot := by
  cases hc with
  | loaded hv hsnapshot => exact Or.inl ⟨hv, hsnapshot⟩
  | running hsv hsettings hsnapshot => exact Or.inr ⟨_, hsv, hsnapshot⟩

/-- How an edit of a held snapshot moves the data of a host, and what the slaves are told. -/
inductive Edits (h : Host) (url : String) : Action → List (String × Payload) → Snapshot → Prop
  | mk {a : Action} {m : Moment} {s : Snapshot} {d : Delta} (hm : a.moment? = some m)
      (hheld : h.Held s) (hd : Edit m.spare s d.changes) (next : DataVersion)
      (hnext : next = s.dataVersion.next m.sign m.now) (snap : Snapshot)
      (hsnap : snap = s.advance (Replica.touchOwn url s d next) next) :
      Edits h url a (Replica.pushesFor url snap ⟨Replica.touchOwn url s d next, next⟩) snap

/-- A master that is written by operators moves on by edits only. -/
theorem Moves.edits {pushes : List (String × Payload)} {snap : Snapshot}
    (hm : h.Moves settings a pushes snap) (hs : h.Synced) (hrole : settings.role = .master)
    (ha : a.ByOperators) :
    (∃ m, a.moment? = some m ∧ pushes = [] ∧ snap = .initial settings (.initial m.spare m.now)) ∨
      h.Edits settings.url a pushes snap := by
  cases hm with
  | @initialised limits m hempty => exact Or.inl ⟨m, rfl, rfl, rfl⟩
  | claimed hv hc =>
      obtain ⟨d, hd, -, hsnap, rfl⟩ := hc
      exact Or.inr (.mk rfl (Or.inl ⟨hv, rfl⟩) (Replica.edit_claim hd _) _ rfl snap hsnap)
  | served sv hsv hsettings hq =>
      subst hsettings
      cases hq with
      | mutate hc => exact absurd ha id
      | write hw hc =>
          obtain ⟨d, hd, -, hsnap, rfl⟩ := hc
          have hedit := Write.edit_delta (hs.mirrors sv hsv).coherent hd
          exact Or.inr (.mk rfl (Or.inr ⟨sv, hsv, rfl⟩) hedit _ rfl snap hsnap)
      | receive hp => exact absurd hrole hp.1
      | resync hd => exact absurd hrole hd.1
      | sync hd => exact absurd hrole hd.1

/-- An edit of a host whose snapshots are exact leads to an exact one. -/
theorem Edits.exact {url : String} {pushes : List (String × Payload)} {snap : Snapshot}
    (hedits : h.Edits url a pushes snap) (hs : h.Synced) (he : ∀ s, h.Held s → s.Exact) :
    snap.Exact := by
  obtain ⟨hm, hheld, hd, next, hnext, _, rfl⟩ := hedits
  have hadmits := hd.admitsAll (hheld.mirrors hs).coherent (he _ hheld)
  exact (he _ hheld).advance (Replica.admitsAll_touchOwn hadmits _ _ _) next

/-! ## Pools -/

/-- The evaluators of a running service are sound. -/
def PoolSound (h : Host) : Prop := ∀ sv, h.running = some sv → sv.pool.Sound

end Host

theorem Service.pool_write (sv : Service) (s : Storage) (m : Moment) (expected : Option Int)
    (w : Write) : (sv.write s m expected w).2.1.pool = sv.pool := by
  unfold write
  cases Write.check sv.replica.settings w <;> rfl

theorem Service.sound_serve {sv : Service} (hp : sv.pool.Sound) (s : Storage) (q : Request) :
    (sv.serve s q).2.1.pool.Sound := by
  cases q with
  | mutate m expected d => exact hp
  | write m expected w =>
      show (sv.write s m expected w).2.1.pool.Sound
      rw [pool_write]
      exact hp
  | receive now p => exact hp
  | resync now d => exact hp
  | sync now version dump => exact hp
  | get now ctx =>
      show (sv.get s now ctx).2.1.pool.Sound
      unfold get
      cases sv.checkFresh now with
      | error e => exact hp
      | ok _ => exact sound_answer hp s ctx
  | observe a => exact hp

/-- Evaluators stay sound, whatever happens. -/
theorem Host.PoolSound.step {h : Host} (hp : h.PoolSound) (a : Action) :
    (h.step a).2.PoolSound := by
  intro sv' hsv'
  cases a with
  | start settings limits m =>
      unfold Host.step Service.start at hsv'
      dsimp only at hsv'
      generalize Replica.start settings h.storage m = out at hsv'
      obtain ⟨_ | ⟨r, pushes⟩, s⟩ := out
      · cases hsv'
      · cases hsv'
        exact Pool.sound_filled _
  | stop => cases hsv'
  | failNextCommit => exact hp sv' hsv'
  | request q =>
      unfold Host.step at hsv'
      cases hsv : h.running with
      | none => simp only [hsv] at hsv'; cases hsv'
      | some sv =>
          simp only [hsv] at hsv'
          cases hsv'
          exact Service.sound_serve (hp sv hsv) h.storage q

/-! ## Lineages of operators -/

namespace Lineage

/-- What holds of a lineage whose master is written by operators only. -/
structure Tidy (l : Lineage) : Prop where
  current : ∀ sv, l.host.running = some sv → sv ∈ l.past
  exact : ∀ P ∈ l.past, P.snapshot.Exact
  pools : ∀ P ∈ l.past, P.pool.Sound
  /-- What was sent is admitted where it belongs. -/
  admitted : ∀ p ∈ l.sent, ∃ P ∈ l.past, P.snapshot.dataVersion.isFollowedBy p.dataVersion = true ∧
    P.snapshot.entity?.AdmitsAll p.delta.changes

theorem tidy_empty : empty.Tidy where
  current := Host.not_running
  exact _ hP := absurd hP List.not_mem_nil
  pools _ hP := absurd hP List.not_mem_nil
  admitted _ hp := absurd hp List.not_mem_nil

variable {l : Lineage} {tokens : List String} {a : Action}

theorem Tidy.exact_of_held (ht : l.Tidy) (ho : l.Ordered tokens) {s : Snapshot}
    (hheld : l.host.Held s) : s.Exact := by
  have hmirrors := hheld.mirrors ho.synced
  rcases hheld with ⟨hv, rfl⟩ | ⟨sv, hsv, rfl⟩
  · obtain ⟨P, hP, halike⟩ := ho.stored _ hmirrors
    exact hmirrors.exact_load (halike.2 ▸ (ht.exact P hP).namesUnique)
  · exact ht.exact sv (ht.current sv hsv)

theorem exact_of_edits (ht : l.Tidy) (ho : l.Ordered tokens) {url : String}
    {pushes : List (String × Payload)} {snap : Snapshot} (h : l.host.Edits url a pushes snap) :
    snap.Exact := h.exact ho.synced fun _ => ht.exact_of_held ho

theorem admitted_step (ht : l.Tidy) (ho : l.Ordered tokens) (ha : a.StartsAs .master)
    (hop : a.ByOperators) {p : Payload} (hp : p ∈ payloads (l.host.step a).1) :
    ∃ P ∈ l.past, P.snapshot.dataVersion.isFollowedBy p.dataVersion = true ∧
      P.snapshot.entity?.AdmitsAll p.delta.changes := by
  have hstep := Host.step_stepped ho.synced a
  generalize l.host.step a = out at *
  cases hstep with
  | kept result h' hdata hkeyed hrunning hpushes => exact absurd hp (not_mem_payloads hpushes)
  | moved pushes sv' s' hmirrors hmoves =>
      rcases hmoves.edits ho.synced (hmoves.role ho.role ha) hop with ⟨m, -, rfl, -⟩ | hedits
      · exact absurd hp List.not_mem_nil
      · obtain ⟨hm, hheld, hd, next, hnext, _, _⟩ := hedits
        obtain rfl := eq_of_mem_payloads hp
        -- the edit was made of what is stored, and that is as some state of the past
        have hmirrors := hheld.mirrors ho.synced
        obtain ⟨P, hP, halike⟩ := ho.stored _ hmirrors
        refine ⟨P, hP, ?_, ?_⟩
        · rw [halike.1, hnext]
          exact DataVersion.isFollowedBy_next _ _ _
        · rw [halike.2]
          exact Replica.admitsAll_touchOwn
            (hd.admitsAll hmirrors.coherent (ht.exact_of_held ho hheld)) _ _ _

theorem Tidy.step (ht : l.Tidy) (ho : l.Ordered tokens) (ha : a.StartsAs .master)
    (hop : a.ByOperators) : (l.step a).Tidy where
  current sv hsv := mem_past_step.mpr (Or.inr hsv)
  exact P hP := by
    rcases mem_past_step.mp hP with hP | hP
    · exact ht.exact P hP
    have hstep := Host.step_stepped ho.synced a
    generalize l.host.step a = out at *
    cases hstep with
    | kept result h' hdata hkeyed hrunning => exact ht.exact_of_held ho (hrunning P hP).held
    | moved pushes sv' s' hmirrors hmoves =>
        obtain rfl := Option.some.inj hP
        rcases hmoves.edits ho.synced (hmoves.role ho.role ha) hop with ⟨m, -, -, hsnap⟩ | hedits
        · rw [hsnap]
          exact Snapshot.exact_initial _ _
        · exact exact_of_edits ht ho hedits
  pools P hP := by
    rcases mem_past_step.mp hP with hP | hP
    · exact ht.pools P hP
    · have hpool : l.host.PoolSound := fun sv hsv => ht.pools sv (ht.current sv hsv)
      exact hpool.step a P hP
  admitted p hp := by
    rcases List.mem_append.mp hp with hp | hp
    · obtain ⟨P, hP, hadmits⟩ := ht.admitted p hp
      exact ⟨P, mem_past_step_of_mem hP, hadmits⟩
    · obtain ⟨P, hP, hadmits⟩ := admitted_step ht ho ha hop hp
      exact ⟨P, mem_past_step_of_mem hP, hadmits⟩

end Lineage

end RemoteConfig
