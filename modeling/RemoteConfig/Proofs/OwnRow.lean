import Mathlib.Data.List.Induction
import RemoteConfig.Proofs.Lineage
/-! # The own row

A node that is registered notes its progress in its own row of the registry, and in every state the
row shows the version that the node is at.  Mutations may enter the row as often as they like,
remove it and bring it back; dumps may list it several times.  All that they say about the version
there is overruled.  Nothing else is: every other entity is what the last change of it made it. -/

namespace RemoteConfig

/-! ## What changes leave -/

namespace Holdings

/-- What the last change of each key has left, and where nothing was changed, what was there. -/
def given (m : Holdings) (changes : List Change) : Holdings := fun k =>
  match changes.reverse.find? (·.key = k) with
  | some c => c.outcome
  | none => m k

theorem given_append_singleton (m : Holdings) (changes : List Change) (c : Change) :
    m.given (changes ++ [c]) = (m.given changes).apply c := by
  funext k
  by_cases hk : c.key = k
  · subst hk
    simp [given, apply]
  · simp [given, apply, hk, Function.update_of_ne (Ne.symm hk)]

theorem applyAll_eq_given (m : Holdings) (changes : List Change) :
    m.applyAll changes = m.given changes := by
  induction changes using List.reverseRecOn with
  | nil => rfl
  | append_singleton changes c ih =>
      rw [given_append_singleton, ← ih, applyAll_append]
      rfl

/-- Holdings that differ at most in what the node at an address notes about its own progress. -/
structure AgreeBeside (url : String) (m m' : Holdings) : Prop where
  others : ∀ k, k ≠ ⟨.node, url⟩ → m k = m' k
  own : (m ⟨.node, url⟩).map Entity.withoutProgress = (m' ⟨.node, url⟩).map Entity.withoutProgress

theorem AgreeBeside.refl (url : String) (m : Holdings) : AgreeBeside url m m :=
  ⟨fun _ _ => rfl, rfl⟩

/-- The row of the node at an address, if there is one, shows the given version. -/
def Shows (url : String) (version : Int) (m : Holdings) : Prop :=
  ∀ n, m ⟨.node, url⟩ = some (.node n) → n.dataVersion = version

/-- If a row is changed at all, only the changes have to show the version. -/
theorem shows_applyAll {url : String} {version : Int} {m : Holdings} {changes : List Change}
    (hm : m.Shows url version ∨ ∃ c ∈ changes, c.key = ⟨.node, url⟩)
    (hchanges : ∀ n, Change.upsert (.node n) ∈ changes → n.url = url → n.dataVersion = version) :
    (m.applyAll changes).Shows url version := by
  intro n hn
  rw [applyAll_eq_given, given] at hn
  cases hlast : changes.reverse.find? (·.key = ⟨.node, url⟩) with
  | some c =>
      have hmem : c ∈ changes := List.mem_reverse.mp (List.mem_of_find?_eq_some hlast)
      have hkey : c.key = ⟨.node, url⟩ := by simpa using List.find?_some hlast
      rw [hlast] at hn
      cases c with
      | delete k => cases hn
      | upsert e =>
          obtain rfl := Option.some.inj hn
          exact hchanges n hmem (congrArg EntityKey.key hkey)
  | none =>
      rw [hlast] at hn
      refine hm.elim (fun hm => hm n hn) ?_
      rintro ⟨c, hc, hkey⟩
      exact absurd (decide_eq_true hkey)
        (List.find?_eq_none.mp hlast c (List.mem_reverse.mpr hc))

end Holdings

/-! ## Stamping -/

namespace Replica

variable {url : String} {version : Int}

@[simp]
theorem key_stampOwn (c : Change) : (stampOwn url version c).key = c.key := by
  rcases c with e | k
  · cases e with
    | node n => by_cases h : n.url = url <;> simp [stampOwn, Change.key, Entity.key, h]
    | _ => rfl
  · rfl

theorem stampOwn_of_key_ne {c : Change} (h : c.key ≠ ⟨.node, url⟩) :
    stampOwn url version c = c := by
  rcases c with e | k
  · cases e with
    | node n =>
        have hurl : n.url ≠ url := fun heq => h (heq ▸ rfl)
        simp [stampOwn, hurl]
    | _ => rfl
  · rfl

theorem dataVersion_of_stampOwn {c : Change} {n : Node}
    (h : stampOwn url version c = .upsert (.node n)) (hurl : n.url = url) :
    n.dataVersion = version := by
  rcases c with e | k
  · cases e with
    | node n' =>
        obtain rfl := Entity.node.inj (Change.upsert.inj h)
        by_cases hn' : n'.url = url
        · rw [if_pos hn']
        · rw [if_neg hn'] at hurl
          exact absurd hurl hn'
    | _ => cases h
  · cases h

/-- What is added for the own row stands in the way of no other entity. -/
theorem given_stampOwn (m : Holdings) (changes : List Change) {k : EntityKey}
    (hk : k ≠ ⟨.node, url⟩) :
    m.given (changes.map (stampOwn url version)) k = m.given changes k := by
  unfold Holdings.given
  have hfind : (changes.map (stampOwn url version)).reverse.find? (·.key = k) =
      (changes.reverse.find? (·.key = k)).map (stampOwn url version) := by
    rw [← List.map_reverse, List.find?_map]
    simp only [Function.comp_def, key_stampOwn]
  rw [hfind]
  cases hlast : changes.reverse.find? (·.key = k) with
  | none => rfl
  | some c =>
      have hkey : c.key = k := by simpa using List.find?_some hlast
      have hsame : stampOwn url version c = c := stampOwn_of_key_ne (hkey ▸ hk)
      rw [Option.map_some, hsame]

end Replica

namespace Snapshot

open Replica

variable {s : Snapshot} {url : String}

theorem entity?_node (s : Snapshot) (url : String) :
    s.entity? ⟨.node, url⟩ = (s.node? url).map .node := rfl

/-- The row of the node at an address, if there is one, shows the version of the snapshot. -/
def Tracks (url : String) (s : Snapshot) : Prop := s.entity?.Shows url s.dataVersion.version

theorem tracks_iff :
    s.Tracks url ↔ ∀ n, s.node? url = some n → n.dataVersion = s.dataVersion.version := by
  refine forall_congr' fun n => imp_congr_left ?_
  rw [entity?_node, Option.map_eq_some_iff]
  constructor
  · rintro ⟨n', hn, heq⟩
    exact Entity.node.inj heq ▸ hn
  · exact fun hn => ⟨n, hn, rfl⟩

/-- A mutation takes effect as it is, beside the own row. -/
theorem Coherent.agreeBeside_touchOwn (hs : s.Coherent) (url : String) (d : Delta)
    (next : DataVersion) : Holdings.AgreeBeside url
      (s.advance (touchOwn url s d next) next).entity? (s.entity?.given d.changes) := by
  rw [entity?_advance]
  constructor
  · intro k hk
    unfold touchOwn
    split
    · rw [Holdings.applyAll_eq_given, given_stampOwn _ _ hk]
    · split
      · rename_i n hn
        have hother : k ≠ ⟨.node, n.url⟩ := hs.node_url hn ▸ hk
        rw [← Holdings.applyAll_eq_given, Delta.upsert, Holdings.applyAll_append]
        exact Function.update_of_ne hother _ _
      · rw [Holdings.applyAll_eq_given]
  · rw [← Holdings.applyAll_eq_given]
    exact congrFun (withoutProgress_touchOwn hs url d next) ⟨.node, url⟩

theorem Coherent.tracks_touchOwn (hs : s.Coherent) (url : String) (d : Delta) (next : DataVersion) :
    (s.advance (touchOwn url s d next) next).Tracks url := by
  unfold Tracks
  rw [entity?_advance, dataVersion_advance]
  unfold touchOwn
  split
  · rename_i htouched
    obtain ⟨c, hc, hown⟩ := List.any_eq_true.mp htouched
    refine Holdings.shows_applyAll (Or.inr ⟨_, List.mem_map_of_mem hc, ?_⟩) ?_
    · rw [key_stampOwn]
      exact of_decide_eq_true hown
    · intro n hn hurl
      obtain ⟨c', -, hstamped⟩ := List.mem_map.mp hn
      exact dataVersion_of_stampOwn hstamped hurl
  · rename_i huntouched
    have hleft : ∀ n, Change.upsert (.node n) ∈ d.changes → n.url ≠ url := fun n hn hurl =>
      huntouched (List.any_eq_true.mpr ⟨_, hn, decide_eq_true (hurl ▸ rfl)⟩)
    split
    · rename_i n hn
      have hurl : n.url = url := hs.node_url hn
      let own : Node := { n with dataVersion := next.version, lastCheck := some next.updatedAt }
      have hadded : Change.upsert (.node own) ∈ (d.upsert (.node own)).changes :=
        List.mem_append_right _ (List.mem_singleton_self _)
      have hkey : (Change.upsert (.node own)).key = ⟨.node, url⟩ :=
        congrArg (EntityKey.mk .node) hurl
      refine Holdings.shows_applyAll (Or.inr ⟨_, hadded, hkey⟩) ?_
      intro n' hn' hurl'
      rcases List.mem_append.mp hn' with hn' | hn'
      · exact absurd hurl' (hleft n' hn')
      · obtain rfl := Entity.node.inj (Change.upsert.inj (List.mem_singleton.mp hn'))
        rfl
    · -- without a row, and without a change of it, there is none afterwards
      rename_i hnone
      refine Holdings.shows_applyAll (Or.inl ?_) fun n hn hurl => absurd hurl (hleft n hn)
      intro n hn
      rw [entity?_node, hnone] at hn
      cases hn

theorem tracks_ofDump_adoptOwn (url : String) (now : Timestamp) (d : Dump) :
    (ofDump (adoptOwn url now d)).Tracks url := by
  unfold Tracks
  rw [dataVersion_ofDump, ofDump, entity?_ofEntities]
  refine Holdings.shows_applyAll (Or.inl fun _ => nofun) ?_
  intro n hn hurl
  obtain ⟨e, he, heq⟩ := List.mem_map.mp hn
  obtain rfl := Change.upsert.inj heq
  have hnode : n ∈ (adoptOwn url now d).nodes := by simpa [Dump.entities] using he
  obtain ⟨n', -, rfl⟩ := List.mem_map.mp hnode
  by_cases hn' : n'.url = url
  · rw [if_pos hn']
    rfl
  · rw [if_neg hn'] at hurl
    exact absurd hurl hn'

theorem tracks_initial (settings : Settings) (v : DataVersion) :
    (initial settings v).Tracks settings.url := by
  rw [tracks_iff, dataVersion_initial]
  intro n hn
  by_cases hrole : settings.role = .master
  · rw [initial, if_pos hrole] at hn
    have hown : node? (empty.upsert (.node ⟨settings.url, .master, some v.updatedAt, v.version⟩))
      settings.url = some n := hn
    simp only [node?, upsert, Std.ExtTreeMap.getElem?_insert_self] at hown
    cases hown
    rfl
  · rw [initial, if_neg hrole] at hn
    simp [node?, empty] at hn

end Snapshot

/-! ## Hosts -/

/-- In the rows, a row of the node at an address shows the version that is stored. -/
def Storage.Tracks (url : String) (s : Storage) : Prop :=
  ∀ r, s.rows[RecordKey.ofEntity ⟨.node, url⟩]? = some r → ∃ n v, r = .entity (.node n) ∧
    s.rows[RecordKey.dataVersion]? = some (.dataVersion v) ∧ n.dataVersion = v.version

/-- A node starts at the given address, if it is started. -/
def Action.StartsAt (url : String) : Action → Prop
  | start settings _ _ => settings.url = url
  | _ => True

/-- Changes have taken effect, and nothing else has, beside what the node at an address notes about
its own progress; the rows hold the same. -/
structure TookEffect (url : String) (before : Holdings) (changes : List Change) (snap : Snapshot)
    (s : Storage) : Prop where
  held : Holdings.AgreeBeside url snap.entity? (before.given changes)
  stored : s.rows.entity? = snap.entity?

namespace Host

variable {h : Host} {a : Action} {settings : Settings} {url : String}

/-- Whatever runs on the host has the given address. -/
def RunsAt (url : String) (h : Host) : Prop :=
  ∀ sv, h.running = some sv → sv.replica.settings.url = url

theorem Moves.address {pushes : List (String × Payload)} {snap : Snapshot}
    (hm : h.Moves settings a pushes snap) (hr : h.RunsAt url) (ha : a.StartsAt url) :
    settings.url = url := by
  refine hm.settings_of_start (p := (·.url = url)) ?_ hr
  rintro settings limits m rfl
  exact ha

theorem RunsAt.step (hr : h.RunsAt url) (hs : h.Synced) (ha : a.StartsAt url) :
    (h.step a).2.RunsAt url := by
  refine running_step (p := (·.url = url)) ?_ hr hs
  rintro settings limits m rfl
  exact ha

/-- Every way to move on brings the own row along. -/
theorem Moves.tracks {pushes : List (String × Payload)} {snap : Snapshot}
    (hm : h.Moves settings a pushes snap) (hs : h.Synced) : snap.Tracks settings.url := by
  cases hm with
  | initialised => exact Snapshot.tracks_initial _ _
  | claimed hv hc =>
      obtain ⟨d, -, -, rfl, -⟩ := hc
      exact (Storage.coherent_load h.storage).tracks_touchOwn _ _ _
  | served sv hsv hsettings hq =>
      have hcoherent : sv.replica.snapshot.Coherent := (hs.mirrors sv hsv).coherent
      subst hsettings
      cases hq with
      | mutate hc =>
          obtain ⟨d, -, -, rfl, -⟩ := hc
          exact hcoherent.tracks_touchOwn _ _ _
      | write hw hc =>
          obtain ⟨d, -, -, rfl, -⟩ := hc
          exact hcoherent.tracks_touchOwn _ _ _
      | receive hp =>
          obtain ⟨-, -, rfl⟩ := hp
          exact hcoherent.tracks_touchOwn _ _ _
      | resync hd =>
          obtain ⟨-, -, rfl⟩ := hd
          exact Snapshot.tracks_ofDump_adoptOwn _ _ _
      | sync hd =>
          obtain ⟨-, -, rfl⟩ := hd
          exact Snapshot.tracks_ofDump_adoptOwn _ _ _

/-- A host of a node that always starts at the same address, with its own row at the version. -/
structure TracksOwn (url : String) (h : Host) : Prop where
  synced : h.Synced
  address : h.RunsAt url
  row : ∀ snap, h.storage.Mirrors snap → snap.Tracks url

theorem tracksOwn_empty (url : String) : empty.TracksOwn url where
  synced := synced_empty
  address := not_running
  row snap h := by
    have hv : empty.storage.dataVersion? = none :=
      Storage.dataVersion?_of_sameData_empty (.refl _)
    exact nomatch hv.symm.trans h.dataVersion?_eq

namespace TracksOwn

/-- One step keeps the own row at the version, whatever the step is. -/
theorem step (ht : h.TracksOwn url) (ha : a.StartsAt url) : (h.step a).2.TracksOwn url where
  synced := ht.synced.step a
  address := ht.address.step ht.synced ha
  row snap hsnap := by
    have hstep := step_stepped ht.synced a
    generalize h.step a = out at *
    cases hstep with
    | kept result h' hdata hkeyed hrunning =>
        exact ht.row snap (hsnap.sameData ht.synced.sound.keyed hdata.symm)
    | moved pushes sv s' hmirrors hmoves =>
        have hurl : sv.replica.settings.url = url := hmoves.address ht.address ha
        have hmoved : sv.snapshot.Tracks url := hurl ▸ hmoves.tracks ht.synced
        -- whatever else the storage mirrors is the same state
        obtain ⟨hversion, hentity⟩ := hmirrors.alike hsnap
        rwa [Snapshot.Tracks, ← hversion, ← hentity]

theorem runFrom : ∀ {actions : List Action} {h : Host}, h.TracksOwn url →
    (∀ a ∈ actions, a.StartsAt url) → (h.runFrom actions).TracksOwn url
  | [], _, ht, _ => ht
  | a :: rest, h, ht, hactions => by
      obtain ⟨ha, hrest⟩ := List.forall_mem_cons.mp hactions
      show ((h.step a).2.runFrom rest).TracksOwn url
      exact (ht.step ha).runFrom hrest

theorem run {actions : List Action} (hactions : ∀ a ∈ actions, a.StartsAt url) :
    (run actions).TracksOwn url := runFrom (tracksOwn_empty url) hactions

/-- Also in the rows the own row is at the version, and a storage without a version has none. -/
theorem storage (ht : h.TracksOwn url) : h.storage.Tracks url := by
  intro r hr
  have hrow := Rows.getElem?_ofEntity ht.synced.sound.keyed ⟨.node, url⟩
  obtain ⟨e, he, rfl⟩ := Option.map_eq_some_iff.mp (hrow.symm.trans hr)
  rcases ht.synced.sound.initialised with hempty | hversion
  · rw [Storage.entity?_of_sameData_empty hempty] at he
    cases he
  · obtain ⟨v, hv⟩ := Option.isSome_iff_exists.mp hversion
    have hmirrors := Storage.mirrors_load ht.synced.sound hv
    have hkey : e.key = ⟨.node, url⟩ := Rows.keyed ht.synced.sound.keyed _ _ he
    cases e with
    | node n =>
        refine ⟨n, h.storage.load.dataVersion, rfl, hmirrors.version, ?_⟩
        exact ht.row _ hmirrors n (hmirrors.holdings ▸ he)
    | _ => cases congrArg EntityKey.kind hkey

end TracksOwn

end Host

/-! ## Effects -/

namespace Replica

variable {r : Replica} {s : Storage}

/-- A mutation that was committed took effect; one without changes has none. -/
theorem tookEffect_mutate (h : s.Mirrors r.snapshot) {m : Moment} {expected : Option Int}
    {build : Snapshot → Except Error Delta} {c : Committed} {r' : Replica} {s' : Storage}
    (hmutate : r.mutate s m expected build = (.ok c, r', s')) :
    ∃ d, build r.snapshot = .ok d ∧
      TookEffect r.settings.url r.snapshot.entity? d.changes r'.snapshot s' := by
  have hcases := mutate_cases h m expected build
  rw [hmutate] at hcases
  cases hcases with
  | @idle d hd hempty =>
      refine ⟨d, hd, ?_, h.holdings⟩
      rw [List.isEmpty_iff.mp hempty]
      exact .refl _ _
  | committed c r' s' _ _ _ _ hmirrors hc =>
      obtain ⟨d, hd, -, hsnap, -⟩ := hc
      refine ⟨d, hd, ?_, hmirrors.holdings⟩
      rw [hsnap]
      exact h.coherent.agreeBeside_touchOwn _ _ _

/-- A push that was taken in took effect, unless it had been taken in before. -/
theorem tookEffect_receive (h : s.Mirrors r.snapshot) {now : Timestamp} {p : Payload}
    {r' : Replica} {s' : Storage} (hreceive : r.receive s now p = (.ok (), r', s'))
    (hnew : p.dataVersion ≠ r.snapshot.dataVersion) :
    TookEffect r.settings.url r.snapshot.entity? p.delta.changes r'.snapshot s' := by
  unfold receive at hreceive
  dsimp only at hreceive
  split at hreceive
  · cases hreceive
  rw [if_neg (Ne.symm hnew)] at hreceive
  split at hreceive
  · cases hreceive
  rcases persist_cases h (touchOwn r.settings.url r.snapshot p.delta p.dataVersion)
    p.dataVersion with ⟨-, hp⟩ | ⟨s'', hp, hm⟩
  · rw [hp] at hreceive
    cases hreceive
  · rw [hp] at hreceive
    cases hreceive
    exact ⟨h.coherent.agreeBeside_touchOwn _ _ _, hm.holdings⟩

/-- A replica that starts on stored data has its place claimed by then, if it is a master. -/
theorem tookEffect_start (hs : s.Sound) (hv : s.dataVersion?.isSome) {settings : Settings}
    {m : Moment} {r : Replica} {pushes : List (String × Payload)} {s' : Storage}
    (hstart : start settings s m = (.ok (r, pushes), s')) :
    ∃ d, (if settings.role = .master then claim settings m.now s.load else .ok .empty) = .ok d ∧
      TookEffect settings.url s.rows.entity? d.changes r.snapshot s' := by
  obtain ⟨v, hversion⟩ := Option.isSome_iff_exists.mp hv
  have hmirrors : s.Mirrors s.load := Storage.mirrors_load hs hversion
  have hcases := start_cases hs settings m
  rw [hstart] at hcases
  cases hcases with
  | fresh r s' hempty =>
      rw [Storage.dataVersion?_of_sameData_empty hempty] at hv
      cases hv
  | loaded r _ hsettings hsnapshot hclaim =>
      have hnothing : ∃ d : Delta, d.changes = [] ∧
          (if settings.role = .master then claim settings m.now s.load else .ok .empty) =
            .ok d := by
        by_cases hrole : settings.role = .master
        · obtain ⟨d, hd, hempty⟩ := hclaim hrole
          exact ⟨d, List.isEmpty_iff.mp hempty, by rw [if_pos hrole, hd]⟩
        · exact ⟨.empty, rfl, if_neg hrole⟩
      obtain ⟨d, hempty, hd⟩ := hnothing
      refine ⟨d, hd, ?_, by rw [hsnapshot, hmirrors.holdings]⟩
      rw [hempty, hsnapshot, hmirrors.holdings]
      exact .refl _ _
  | claimed r s' c _ hsettings hmirrors' hd hfull hc =>
      obtain ⟨d, hd, hrole, hsnap, -⟩ := hc
      refine ⟨d, (if_pos hrole).trans hd, ?_, hmirrors'.holdings⟩
      rw [hsnap, hmirrors.holdings]
      exact hmirrors.coherent.agreeBeside_touchOwn _ _ _

end Replica

/-! ## All histories -/

namespace Host

/-- A node's own row tracks its version.  Whatever happens to a node that always starts at the same
address, be it a master or a slave, a row for that address shows the version that the node is at, in
memory and in the storage.  Apart from what that row notes, mutations, pushes and the claim of a
starting master change exactly the entities that they are about, to what they say. -/
theorem own_row_tracks_version {url : String} {actions : List Action}
    (hactions : ∀ a ∈ actions, a.StartsAt url) :
    (run actions).storage.Tracks url ∧
    (∀ sv, (run actions).running = some sv →
      (∀ n, sv.snapshot.node? url = some n → n.dataVersion = sv.snapshot.dataVersion.version) ∧
      (run actions).storage.rows[RecordKey.dataVersion]? =
        some (.dataVersion sv.snapshot.dataVersion) ∧
      (∀ m expected build c r s,
        sv.replica.mutate (run actions).storage m expected build = (.ok c, r, s) →
          ∃ d, build sv.snapshot = .ok d ∧
            TookEffect url sv.snapshot.entity? d.changes r.snapshot s) ∧
      ∀ now p r s, sv.replica.receive (run actions).storage now p = (.ok (), r, s) →
        p.dataVersion ≠ sv.snapshot.dataVersion →
          TookEffect url sv.snapshot.entity? p.delta.changes r.snapshot s) ∧
    ∀ settings m r pushes s, settings.url = url → (run actions).storage.dataVersion?.isSome →
      Replica.start settings (run actions).storage m = (.ok (r, pushes), s) →
        ∃ d, (if settings.role = .master
            then Replica.claim settings m.now (run actions).storage.load else .ok .empty) = .ok d ∧
          TookEffect url (run actions).storage.rows.entity? d.changes r.snapshot s := by
  have ht := TracksOwn.run hactions
  refine ⟨ht.storage, fun sv hsv => ?_, ?_⟩
  · have hmirrors : (run actions).storage.Mirrors sv.replica.snapshot := ht.synced.mirrors sv hsv
    have hurl : sv.replica.settings.url = url := ht.address sv hsv
    refine ⟨Snapshot.tracks_iff.mp (ht.row _ hmirrors), hmirrors.version, ?_, ?_⟩
    · intro m expected build c r s hmutate
      exact hurl ▸ Replica.tookEffect_mutate hmirrors hmutate
    · intro now p r s hreceive hnew
      exact hurl ▸ Replica.tookEffect_receive hmirrors hreceive hnew
  · rintro settings m r pushes s rfl hv hstart
    exact Replica.tookEffect_start ht.synced.sound hv hstart

/-- A node at an address, as somebody else lists it. -/
def listed (url : String) (version : Int) : Node := ⟨url, .slave, none, version⟩

/-- A master that enters its own row with wrong versions, removes it and enters it again, fails to
commit once, and comes back as a slave, which takes over a dump that lists it twice. -/
def wanderingRun : List Action :=
  [.start ⟨"http://a", .master, none, false⟩ .standard ⟨.epoch, "v0", "t0"⟩,
    .request (.mutate ⟨.epoch, "v1", "t1"⟩ none ⟨[.upsert (.node (listed "http://a" 77)),
      .delete ⟨.node, "http://a"⟩, .upsert (.node (listed "http://a" 78)),
      .upsert (.user ⟨"u", "p", .normal⟩)]⟩),
    .failNextCommit,
    .request (.mutate ⟨.epoch, "v2", "t2"⟩ none ⟨[.delete ⟨.node, "http://a"⟩]⟩),
    .stop,
    .start ⟨"http://a", .slave, some "http://m", false⟩ .standard ⟨.epoch, "v3", "t3"⟩,
    .request (.resync .epoch ⟨⟨5, "v5", "v4", .epoch⟩, [⟨"u", "p", .normal⟩], [], [], [],
      [listed "http://a" 79, listed "http://m" 80, listed "http://a" 81]⟩)]

/-- A push that removes the row of the node and brings it back, and removes an account. -/
def readmission : Payload :=
  ⟨⟨[.delete ⟨.node, "http://a"⟩, .delete ⟨.user, "u"⟩, .upsert (.node (listed "http://a" 82))]⟩,
    ⟨6, "v6", "v5", .epoch⟩⟩

/-- The row shows the version of the dump, and after the push it shows that of the push. -/
theorem own_row_tracks_version_wanderingRun : ∃ sv n, (run wanderingRun).running = some sv ∧
    sv.snapshot.node? "http://a" = some n ∧ n.dataVersion = 5 ∧
    (run wanderingRun).storage.Tracks "http://a" ∧
    ∃ r s, sv.replica.receive (run wanderingRun).storage .epoch readmission = (.ok (), r, s) ∧
      TookEffect "http://a" sv.snapshot.entity? readmission.delta.changes r.snapshot s ∧
      r.snapshot.node? "http://a" = some ⟨"http://a", .slave, none, 6⟩ := by
  let sv := (run wanderingRun).running.get (by decide +kernel)
  have hsv : (run wanderingRun).running = some sv := (Option.some_get _).symm
  let n := (sv.snapshot.node? "http://a").get (by decide +kernel)
  have hn : sv.snapshot.node? "http://a" = some n := (Option.some_get _).symm
  have hactions : ∀ a ∈ wanderingRun, a.StartsAt "http://a" := by
    simp [wanderingRun, Action.StartsAt]
  obtain ⟨hstorage, hrunning, -⟩ := own_row_tracks_version hactions
  obtain ⟨hrow, -, -, hpush⟩ := hrunning sv hsv
  let out := sv.replica.receive (run wanderingRun).storage .epoch readmission
  have hok : out.1.toOption = some () := by decide +kernel
  have hout : out = (.ok (), out.2.1, out.2.2) := by
    cases h : out.1 with
    | ok _ => exact Prod.ext h rfl
    | error e =>
        rw [h] at hok
        cases hok
  have hversion : sv.snapshot.dataVersion = ⟨5, "v5", "v4", .epoch⟩ := by decide +kernel
  refine ⟨sv, n, hsv, hn, by rw [hrow n hn, hversion], hstorage, out.2.1, out.2.2, hout, ?_,
    by decide +kernel⟩
  exact hpush _ _ _ _ hout (by rw [hversion]; decide)

end Host

end RemoteConfig
