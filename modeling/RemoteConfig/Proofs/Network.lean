import RemoteConfig.Proofs.Host
import RemoteConfig.Proofs.Peers
/-! # Networks

Any number of nodes, masters and slaves, are started, stopped and started anew on the same storages,
are written by operators and applications, push to each other, and catch up from each other, with
commits that fail, addresses out of reach, and pushes that come late or again.  As long as no sign
comes again there is a ledger of all their states: whatever a node holds or has stored is as the
ledger has it, and whatever was pushed leads from one entry to another. -/

namespace RemoteConfig

open Table

/-- A request of an operator is refused, or it is a mutation. -/
theorem Service.write_effect {sv : Service} {s : Storage} (h : s.Mirrors sv.snapshot) (m : Moment)
    (expected : Option Int) (w : Write) :
    Replica.Effect sv.replica s (fun e => w.delta m.spare sv.snapshot = .error e) (·.pushes = [])
      (sv.replica.Mutated m (w.delta m.spare))
      ((sv.write s m expected w).1, (sv.write s m expected w).2.1.replica,
        (sv.write s m expected w).2.2) := by
  unfold write
  cases hcheck : Write.check sv.replica.settings w with
  | error e =>
      refine .refused e ?_
      rintro fault rfl
      exact absurd hcheck (Write.unfailing_check _ w fault)
  | ok _ => exact Replica.mutate_effect h m expected (w.delta m.spare)

namespace Cluster

/-! ## Runs -/

/-- What can happen in a cluster. -/
inductive Event where
  | start (m : Moment) (name storage : String) (settings : Settings) (program : Program)
  | stop (name : String)
  | failNextCommit (storage : String)
  | cutOff (url : String)
  | reconnect (url : String)
  | failFetches (n : Nat)
  | mutate (id : Nat) (m : Moment) (expected : Option Int) (d : Delta)
  | write (id : Nat) (m : Moment) (expected : Option Int) (w : Write)
  | get (id : Nat) (now : Timestamp) (ctx : Context)
  | sync (id : Nat) (now : Timestamp)
  /-- A push arrives once more, or late. -/
  | deliver (id : Nat) (now : Timestamp) (payload : Payload)
  /-- A dump that was asked for earlier is taken over. -/
  | resync (id : Nat) (now : Timestamp) (d : Dump)

/-- What happens on a node, if there is one of the given number. -/
def onPeer (c : Cluster) (id : Nat) (f : Peer → Cluster) : Cluster := c.peers[id]?.elim c f

/-- What happens on a service, if one runs on the node. -/
def onService (c : Cluster) (p : Peer) (f : Service → Cluster) : Cluster :=
  match p.member with
  | .service sv => f sv
  | .replica _ => c

def step (c : Cluster) : Event → Cluster
  | .start m name storage settings program => (c.start m name storage settings program).2
  | .stop name => (c.find? name).elim c fun found => c.stop name found.2
  | .failNextCommit storage => c.failNextCommit storage
  | .cutOff url => (c.cutOff url).2
  | .reconnect url => (c.reconnect url).2
  | .failFetches n => { c with failingFetches := n }
  | .mutate id m expected d => c.onPeer id fun p => (c.mutate m id p expected d).2
  | .write id m expected w =>
    c.onPeer id fun p => c.onService p fun sv => (c.write m id p sv expected w).2
  | .get id now ctx => c.onPeer id fun p => c.onService p fun sv => (c.get now id p sv ctx).2
  | .sync id now => c.onPeer id fun p => (c.sync now id p).2
  | .deliver id now payload => c.onPeer id fun p => (c.deliver now id p payload).2
  | .resync id now d => c.onPeer id fun p => (c.resync now id p d).2

/-- The signs that are handed out for an event. -/
def Event.tokens : Event → List String
  | .start m _ _ _ _ | .mutate _ m _ _ | .write _ m _ _ => [m.sign, m.spare]
  | _ => []

/-- What can happen after some clusters: a node is started on a storage that is not in use, and
nodes hear only what other nodes have said. -/
def Admits (c : Cluster) (past : List Cluster) : Event → Prop
  | .start _ _ storage _ _ => c.Idle storage
  | .mutate id .. | .write id .. | .get id .. | .sync id _ => c.Live id
  | .deliver id _ payload => c.Live id ∧ ∃ push ∈ c.pushes, push.payload = payload
  | .resync id _ d => c.Live id ∧
    ∃ c' ∈ past, ∃ (id' : Nat) (p : Peer), c'.peers[id']? = some p ∧ d = p.member.snapshot.dump
  | _ => True

/-- The events that can lead to a cluster, with all clusters on the way. -/
inductive Run : List Event → List Cluster → Cluster → Prop
  | empty : Run [] [empty] empty
  | step {events : List Event} {past : List Cluster} {c : Cluster} (e : Event)
      (hrun : Run events past c) (he : c.Admits past e) :
      Run (events ++ [e]) (past ++ [c.step e]) (c.step e)

variable {c : Cluster} {id : Nat} {p : Peer}

/-! ## Mutations -/

namespace Consistent

variable {L : Ledger} {m : Moment} {build : Snapshot → Except Error Delta}
  {heard : Error → Prop} {out : Except Error Committed × Replica × Storage}

/-- A mutation under a new sign leads to a state that the ledger has once it is entered, and all
that has to be pushed leads there. -/
theorem commit (hc : c.Consistent L) (hlive : c.Live id) (hp : c.peers[id]? = some p)
    (heffect : Replica.Effect p.member.toReplica (c.storage p.storage) heard (·.pushes = [])
      (p.member.toReplica.Mutated m build) out)
    (hfresh : L m.sign = none) (member : Member) (hmember : member.toReplica = out.2.1) :
    ∃ L', L.Grows [m.sign, m.spare] L' ∧
      (c.put id { p with member := member } out.2.2).Consistent L' ∧
      ∀ committed, out.1 = .ok committed → ∀ push ∈ committed.pushes, L'.Links push.2 := by
  have hmirrors := hc.mirrors id p hlive hp
  obtain ⟨-, hrecords⟩ := hc.held id p hp
  have hput : ∀ {L' : Ledger}, c.Consistent L' → out.2.1.settings = p.member.settings →
      out.2.2.Mirrors out.2.1.snapshot → L'.Records out.2.1.snapshot →
        (c.put id { p with member := member } out.2.2).Consistent L' := by
    intro L' hc' hsettings hmirrors' hrecords'
    rw [← hmember] at hsettings hmirrors' hrecords'
    exact hc'.put hlive hp { p with member := member } rfl hsettings hmirrors' hrecords'
  obtain ⟨hsettings, hmirrors', hsnapshot⟩ := heffect.outcome hmirrors
  cases heffect with
  | refused e he =>
      exact ⟨L, .refl L _, hput hc hsettings hmirrors' hrecords, nofun⟩
  | failed hfail =>
      exact ⟨L, .refl L _, hput hc hsettings hmirrors' hrecords, nofun⟩
  | kept committed r' hset hsnap hpushes =>
      refine ⟨L, .refl L _, hput hc hsettings hmirrors' ?_, ?_⟩
      · exact hsnap ▸ hrecords
      · rintro _ hcommitted push hpush
        rw [← Except.ok.inj hcommitted, hpushes] at hpush
        exact absurd hpush List.not_mem_nil
  | moved committed r' s' hset hmir hmutated =>
      obtain ⟨hsign, hlinks⟩ := Ledger.links_of_mutated hrecords hmutated hfresh
      have hgrows : L.Grows [m.sign, m.spare] (L.enter r'.snapshot) :=
        Ledger.grows_enter (hsign ▸ hfresh) (hsign ▸ List.mem_cons_self)
      refine ⟨L.enter r'.snapshot, hgrows, ?_, ?_⟩
      · exact hput (hc.mono hgrows.kept) hsettings hmirrors' (L.records_enter _)
      · rintro _ hcommitted
        obtain rfl := Except.ok.inj hcommitted
        exact hlinks

theorem announce (hc : c.Consistent L) (now : Timestamp) (link : Link)
    {result : Except Error Committed}
    (hlinks : ∀ committed, result = .ok committed → ∀ push ∈ committed.pushes, L.Links push.2) :
    (c.announce now link result).2.Consistent L := by
  cases result with
  | error e => exact hc
  | ok committed => exact (hc.pushAll (hlinks committed rfl)).1

theorem mutate (hc : c.Consistent L) (hlive : c.Live id) (hp : c.peers[id]? = some p)
    (expected : Option Int) (d : Delta) (hfresh : L m.sign = none) :
    ∃ L', L.Grows [m.sign, m.spare] L' ∧ (c.mutate m id p expected d).2.Consistent L' := by
  have heffect := Replica.mutate_effect (hc.mirrors id p hlive hp) m expected fun _ => .ok d
  obtain ⟨L', hgrows, hput, hlinks⟩ := hc.commit hlive hp heffect hfresh
    (p.member.withReplica _) (Member.toReplica_withReplica _ _)
  exact ⟨L', hgrows, hput.announce m.now p.link hlinks⟩

theorem write (hc : c.Consistent L) (hlive : c.Live id) (hp : c.peers[id]? = some p) {sv : Service}
    (hsv : p.member = .service sv) (expected : Option Int) (w : Write)
    (hfresh : L m.sign = none) :
    ∃ L', L.Grows [m.sign, m.spare] L' ∧ (c.write m id p sv expected w).2.Consistent L' := by
  obtain ⟨member, storage, link⟩ := p
  obtain rfl : member = .service sv := hsv
  have heffect := Service.write_effect (hc.mirrors id _ hlive hp) m expected w
  obtain ⟨L', hgrows, hput, hlinks⟩ := hc.commit hlive hp heffect hfresh (.service _) rfl
  exact ⟨L', hgrows, hput.announce m.now link hlinks⟩

end Consistent

/-! ## Synchronisation -/

/-- Whoever is asked answers with what the node at the address holds. -/
theorem fetch_eq_ok {link : Link} {url path : String} {s : Snapshot}
    (h : (c.fetch link url path).1 = .ok s) :
    ∃ (id : Nat) (p : Peer), c.answering url = .ok (id, p) ∧ s = p.member.snapshot := by
  unfold fetch at h
  cases link with
  | http => cases h
  | direct =>
      dsimp only at h
      split at h
      · cases h
      · cases hanswer : c.answering url with
        | error e =>
            rw [hanswer] at h
            cases h
        | ok found =>
            rw [hanswer] at h
            exact ⟨found.1, found.2, rfl, (Except.ok.inj h).symm⟩

theorem consult_eq_ok {link : Link} {url : String} {held : DataVersion} {d : Dump}
    (h : (c.consult link url held).2.1 = .ok d) :
    ∃ (id : Nat) (p : Peer), c.answering url = .ok (id, p) ∧ d = p.member.snapshot.dump := by
  obtain ⟨n, hsnd⟩ := c.fetch_snd link url "/api/sync/version"
  unfold consult at h
  cases hfirst : c.fetch link url "/api/sync/version" with
  | mk answer c' =>
      rw [hfirst] at h hsnd
      obtain rfl : c' = { c with failingFetches := n } := hsnd
      cases answer with
      | error e => cases h
      | ok master =>
          dsimp only at h
          split at h
          · obtain ⟨id, p, hp, hmaster⟩ := fetch_eq_ok (congrArg Prod.fst hfirst)
            exact ⟨id, p, hp, by rw [← Except.ok.inj h, hmaster]⟩
          · cases hsecond : (fetch { c with failingFetches := n } link url "/api/sync/dump").1 with
            | error e =>
                simp only [hsecond] at h
                cases h
            | ok s =>
                simp only [hsecond] at h
                obtain ⟨id, p, hp, hs⟩ := fetch_eq_ok hsecond
                exact ⟨id, p, hp, by rw [← Except.ok.inj h, hs]⟩

namespace Consistent

variable {L : Ledger}

/-- A dump of what the ledger has leads a node to a state that the ledger has. -/
theorem resync (hc : c.Consistent L) (hlive : c.Live id) (hp : c.peers[id]? = some p)
    (now : Timestamp) {s : Snapshot} (hs : s.Coherent) (hrecords : L.Records s) :
    (c.resync now id p s.dump).2.Consistent L := by
  have hmirrors := hc.mirrors id p hlive hp
  obtain ⟨hsettings, hmirrors', hsnapshot⟩ :=
    (Replica.resync_effect hmirrors now s.dump).outcome hmirrors
  refine hc.putReplica hlive hp hsettings hmirrors' ?_
  rcases hsnapshot with hsame | ⟨-, -, hresynced⟩
  · exact hsame ▸ (hc.held id p hp).2
  · exact hrecords.of_resynced hs hresynced

theorem sync (hc : c.Consistent L) (hlive : c.Live id) (hp : c.peers[id]? = some p)
    (now : Timestamp) : (c.sync now id p).2.Consistent L := by
  unfold Cluster.sync
  cases p.member.settings.masterUrl with
  | none => exact hc
  | some url =>
      dsimp only
      obtain ⟨n, hconsult⟩ := c.consult_snd p.link url p.member.snapshot.dataVersion
      have hdump : ∀ d, (c.consult p.link url p.member.snapshot.dataVersion).2.1 = .ok d →
          ∃ (id' : Nat) (p' : Peer), c.answering url = .ok (id', p') ∧
            d = p'.member.snapshot.dump := fun d => consult_eq_ok
      generalize c.consult p.link url p.member.snapshot.dataVersion = out at *
      obtain ⟨version, dump, c'⟩ := out
      obtain rfl : c' = { c with failingFetches := n } := hconsult
      have hmirrors := hc.mirrors id p hlive hp
      obtain ⟨hsettings, hmirrors', hsnapshot⟩ :=
        (Replica.sync_effect hmirrors now version dump).outcome hmirrors
      have hc' := hc.setSwitches c.unreachable n
      refine hc'.putReplica hlive hp hsettings hmirrors' ?_
      rcases hsnapshot with hsame | ⟨-, -, d, hd, hresynced⟩
      · exact hsame ▸ (hc.held id p hp).2
      · obtain ⟨id', p', hanswer, rfl⟩ := hdump d hd
        obtain ⟨hcoherent, hrecords⟩ := hc.held id' p' (answering_eq_ok.mp hanswer).2.2
        exact hrecords.of_resynced hcoherent hresynced

/-- Clients change no data. -/
theorem get (hc : c.Consistent L) (hlive : c.Live id) (hp : c.peers[id]? = some p) {sv : Service}
    (hsv : p.member = .service sv) (now : Timestamp) (ctx : Context) :
    (c.get now id p sv ctx).2.Consistent L := by
  obtain ⟨member, storage, link⟩ := p
  obtain rfl : member = .service sv := hsv
  have hmirrors := hc.mirrors id _ hlive hp
  obtain ⟨hreplica, hdata, hkeyed, -⟩ := sv.get_kept hmirrors.keyed now ctx
  have hsnapshot : (sv.get (c.storage storage) now ctx).2.1.snapshot = sv.snapshot :=
    congrArg Replica.snapshot hreplica
  refine hc.put hlive hp ⟨.service (sv.get (c.storage storage) now ctx).2.1, storage, link⟩ rfl
    (congrArg Replica.settings hreplica) ?_ ?_
  · show Storage.Mirrors _ (sv.get (c.storage storage) now ctx).2.1.snapshot
    rw [hsnapshot]
    exact hmirrors.sameData hkeyed hdata
  · show L.Records (sv.get (c.storage storage) now ctx).2.1.snapshot
    rw [hsnapshot]
    exact (hc.held id _ hp).2

end Consistent

/-! ## Starting and stopping -/

/-- A node starts as its replica does. -/
theorem Program.start_eq (program : Program) (settings : Settings) (s : Storage) (m : Moment) :
    ∃ wrap : Replica → Member, (∀ r, (wrap r).toReplica = r) ∧ program.start settings s m =
      ((Replica.start settings s m).1.map fun out => (wrap out.1, out.2),
        (Replica.start settings s m).2) := by
  cases program with
  | replica => exact ⟨.replica, fun _ => rfl, rfl⟩
  | service limits link =>
      refine ⟨fun r => .service ⟨r, limits, .filled limits.idleEvaluators,
        .start (Replica.start settings s m).2⟩, fun _ => rfl, ?_⟩
      unfold Program.start Service.start
      dsimp only
      generalize Replica.start settings s m = out
      obtain ⟨_ | _, s'⟩ := out
      · rfl
      · rfl

/-- A node that has started takes over its name and its address. -/
def enrol (c : Cluster) (name : String) (p : Peer) : Cluster :=
  { c with
    peers := c.peers.insert c.started p
    started := c.started + 1
    names := c.names.insert name c.started
    addresses := c.addresses.insert p.member.settings.url c.started }

section Enrol

variable {name : String} {k : Nat} {q : Peer}

theorem peers_enrol (k : Nat) :
    (c.enrol name p).peers[k]? = if k = c.started then some p else c.peers[k]? :=
  getElem?_insert_ite _ _ _ _

theorem names_enrol (name' : String) :
    (c.enrol name p).names[name']? = if name' = name then some c.started else c.names[name']? :=
  getElem?_insert_ite _ _ _ _

theorem addresses_enrol (url : String) : (c.enrol name p).addresses[url]? =
    if url = p.member.settings.url then some c.started else c.addresses[url]? :=
  getElem?_insert_ite _ _ _ _

theorem live_of_enrol (h : (c.enrol name p).Live k) (hne : k ≠ c.started) : c.Live k := by
  rcases h with ⟨name', hname⟩ | ⟨url, hurl⟩
  · rw [names_enrol] at hname
    split at hname
    · exact absurd (Option.some.inj hname).symm hne
    · exact Or.inl ⟨name', hname⟩
  · rw [addresses_enrol] at hurl
    split at hurl
    · exact absurd (Option.some.inj hurl).symm hne
    · exact Or.inr ⟨url, hurl⟩

/-- A live node is the new one, or one that was live before. -/
theorem enrolled_or_live (hk : (c.enrol name p).Live k)
    (hq : (c.enrol name p).peers[k]? = some q) :
    (k = c.started ∧ p = q) ∨ c.Live k ∧ c.peers[k]? = some q := by
  rw [peers_enrol] at hq
  split at hq
  · exact Or.inl ⟨‹_›, Option.some.inj hq⟩
  · exact Or.inr ⟨live_of_enrol hk ‹_›, hq⟩

end Enrol

namespace Consistent

variable {L : Ledger}

/-- The number of the new node is new. -/
theorem peers_enrol_eq_some (hc : c.Consistent L) {name : String} {p : Peer} {k : Nat} {q : Peer}
    (hq : c.peers[k]? = some q) : (c.enrol name p).peers[k]? = some q := by
  rw [peers_enrol, if_neg (Nat.ne_of_lt (hc.numbered k q hq))]
  exact hq

theorem enrol (hc : c.Consistent L) (name : String) (hidle : c.Idle p.storage)
    (hmirrors : (c.storage p.storage).Mirrors p.member.snapshot)
    (hrecords : L.Records p.member.snapshot) : (c.enrol name p).Consistent L where
  addressed url k hk := by
    rw [addresses_enrol] at hk
    split at hk
    · rename_i hurl
      obtain rfl := Option.some.inj hk
      exact ⟨p, (peers_enrol _).trans (if_pos rfl), hurl.symm⟩
    · obtain ⟨q, hq, hurl⟩ := hc.addressed url k hk
      exact ⟨q, hc.peers_enrol_eq_some hq, hurl⟩
  named name' k hk := by
    rw [names_enrol] at hk
    split at hk
    · obtain rfl := Option.some.inj hk
      exact ⟨p, (peers_enrol _).trans (if_pos rfl)⟩
    · obtain ⟨q, hq⟩ := hc.named name' k hk
      exact ⟨q, hc.peers_enrol_eq_some hq⟩
  numbered k q hq := by
    show k < c.started + 1
    rw [peers_enrol] at hq
    split at hq
    · omega
    · exact Nat.lt_succ_of_lt (hc.numbered k q hq)
  apart k k' q q' hk hk' hq hq' hsame := by
    rcases enrolled_or_live hk hq with ⟨rfl, rfl⟩ | ⟨hlive, hold⟩ <;>
      rcases enrolled_or_live hk' hq' with ⟨rfl, rfl⟩ | ⟨hlive', hold'⟩
    · rfl
    · exact absurd hsame.symm (hidle k' q' hlive' hold')
    · exact absurd hsame (hidle k q hlive hold)
    · exact hc.apart k k' q q' hlive hlive' hold hold' hsame
  sound := hc.sound
  mirrors k q hk hq := by
    rcases enrolled_or_live hk hq with ⟨-, rfl⟩ | ⟨hlive, hold⟩
    · exact hmirrors
    · exact hc.mirrors k q hlive hold
  stored := hc.stored
  held k q hq := by
    rw [peers_enrol] at hq
    split at hq
    · obtain rfl := Option.some.inj hq
      exact ⟨hmirrors.coherent, hrecords⟩
    · exact hc.held k q hq
  linked := hc.linked

/-- A node starts on a storage that is not in use, in a state that the ledger has once it is
entered. -/
theorem start (hc : c.Consistent L) {m : Moment} (hfresh : ∀ t ∈ [m.sign, m.spare], L t = none)
    (name : String) {storage : String} (hidle : c.Idle storage) (settings : Settings)
    (program : Program) : ∃ L', L.Grows [m.sign, m.spare] L' ∧
      (c.start m name storage settings program).2.Consistent L' := by
  obtain ⟨wrap, hwrap, hstart⟩ := program.start_eq settings (c.storage storage) m
  obtain ⟨L', hgrows, hsound, hstored, hstarted⟩ := Ledger.grows_of_started (hc.sound storage)
    (hc.stored storage) hfresh (Replica.start_cases (hc.sound storage) settings m)
  unfold Cluster.start
  rw [hstart]
  dsimp only
  generalize Replica.start settings (c.storage storage) m = out at *
  obtain ⟨result, s'⟩ := out
  have hset : (c.setStorage storage s').Consistent L' := by
    refine (hc.mono hgrows.kept).setStorage hsound ?_ hstored
    exact fun id p hlive hp hsame => absurd hsame (hidle id p hlive hp)
  refine ⟨L', hgrows, ?_⟩
  cases result with
  | error e => exact hset
  | ok started =>
      obtain ⟨r, pushes⟩ := started
      obtain ⟨rfl, hmirrors, hlinks⟩ := hstarted r pushes rfl
      obtain ⟨hpushed, hspares⟩ : ((c.setStorage storage s').pushAll m.now program.link
          pushes).2.Consistent L' ∧ _ := hset.pushAll hlinks
      -- the pushes do not reach the node, which has no address yet
      have hidle' : ((c.setStorage storage s').pushAll m.now program.link pushes).2.Idle storage :=
        hspares.idle_iff.mpr hidle
      have hstorage : ((c.setStorage storage s').pushAll m.now program.link pushes).2.storage
          storage = s' := by
        rw [hspares.storages storage fun id p hlive hp hsame => absurd hsame (hidle id p hlive hp),
          storage_setStorage, if_pos rfl]
      have hmember : (wrap r).snapshot = r.snapshot := congrArg Replica.snapshot (hwrap r)
      have hurl : (wrap r).settings.url = r.settings.url :=
        congrArg (fun r : Replica => r.settings.url) (hwrap r)
      have henrolled := hpushed.enrol name (p := ⟨wrap r, storage, program.link⟩) hidle'
        (by rw [hstorage, hmember]; exact hmirrors)
        (by rw [hmember]; exact hstored r.snapshot hmirrors)
      rw [Cluster.enrol, hurl] at henrolled
      exact henrolled

/-- A node that stops leaves its storage and its number behind. -/
theorem stop (hc : c.Consistent L) (name : String) (p : Peer) : (c.stop name p).Consistent L := by
  have hnames : ∀ {name' : String} {k : Nat}, (c.names.erase name)[name']? = some k →
      c.names[name']? = some k := by
    intro name' k hk
    rw [getElem?_erase_ite] at hk
    split at hk
    · cases hk
    · exact hk
  have haddresses : ∀ {url : String} {k : Nat},
      (c.addresses.erase p.member.settings.url)[url]? = some k → c.addresses[url]? = some k := by
    intro url k hk
    rw [getElem?_erase_ite] at hk
    split at hk
    · cases hk
    · exact hk
  have hlive : ∀ {k : Nat}, (c.stop name p).Live k → c.Live k :=
    Or.imp (Exists.imp fun _ => hnames) (Exists.imp fun _ => haddresses)
  exact {
    addressed := fun url k hk => hc.addressed url k (haddresses hk)
    named := fun name' k hk => hc.named name' k (hnames hk)
    numbered := hc.numbered
    apart := fun k k' q q' hk hk' => hc.apart k k' q q' (hlive hk) (hlive hk')
    sound := hc.sound
    mirrors := fun k q hk => hc.mirrors k q (hlive hk)
    stored := hc.stored
    held := hc.held
    linked := hc.linked }

end Consistent

/-! ## Whole runs -/

/-- All nodes of some clusters are as the ledger has them. -/
def Remembered (past : List Cluster) (L : Ledger) : Prop :=
  ∀ c ∈ past, ∀ (id : Nat) (p : Peer), c.peers[id]? = some p →
    p.member.snapshot.Coherent ∧ L.Records p.member.snapshot

theorem consistent_empty : empty.Consistent .empty where
  addressed url id h := by simp [empty] at h
  named name id h := by simp [empty] at h
  numbered id p h := by simp [empty] at h
  apart id id' p p' _ _ h := by simp [empty] at h
  sound _ := Storage.sound_empty
  mirrors id p _ h := by simp [empty] at h
  stored name snap h := by
    have hv : (empty.storage name).dataVersion? = none :=
      Storage.dataVersion?_of_sameData_empty (.refl _)
    exact nomatch hv.symm.trans h.dataVersion?_eq
  held id p h := by simp [empty] at h
  linked push h := absurd h List.not_mem_nil

section Runs

variable {L : Ledger} {past : List Cluster} {events : List Event}

theorem onPeer_of_getElem? (hp : c.peers[id]? = some p) (f : Peer → Cluster) :
    c.onPeer id f = f p := by
  rw [onPeer, hp]
  rfl

/-- Whatever happens in a cluster, its nodes are as a ledger has it, to which only signs were added
that were handed out for it. -/
theorem Consistent.step (hc : c.Consistent L) (hpast : Remembered past L) {e : Event}
    (he : c.Admits past e) (hfresh : ∀ t ∈ e.tokens, L t = none) :
    ∃ L', L.Grows e.tokens L' ∧ (c.step e).Consistent L' := by
  -- most events add nothing to the ledger
  have hkept : (c.step e).Consistent L → ∃ L', L.Grows e.tokens L' ∧ (c.step e).Consistent L' :=
    fun h => ⟨L, .refl L _, h⟩
  cases e with
  | start m name storage settings program => exact hc.start hfresh name he settings program
  | stop name =>
      refine hkept ?_
      show ((c.find? name).elim c fun found => c.stop name found.2).Consistent L
      cases c.find? name with
      | none => exact hc
      | some found => exact hc.stop name found.2
  | failNextCommit storage =>
      exact hkept (hc.setStorage_sameData (hc.sound storage).keyed fun _ _ => rfl)
  | cutOff url => exact hkept (hc.setSwitches (c.unreachable.insert url) c.failingFetches)
  | reconnect url => exact hkept (hc.setSwitches (c.unreachable.erase url) c.failingFetches)
  | failFetches n => exact hkept (hc.setSwitches c.unreachable n)
  | mutate id m expected d =>
      obtain ⟨p, hp⟩ := hc.exists_peer he
      rw [Cluster.step, onPeer_of_getElem? hp]
      exact hc.mutate he hp expected d (hfresh m.sign (by simp [Event.tokens]))
  | write id m expected w =>
      obtain ⟨p, hp⟩ := hc.exists_peer he
      rw [Cluster.step, onPeer_of_getElem? hp]
      cases hmember : p.member with
      | replica r =>
          rw [onService, hmember]
          exact ⟨L, .refl L _, hc⟩
      | service sv =>
          rw [onService, hmember]
          exact hc.write he hp hmember expected w (hfresh m.sign (by simp [Event.tokens]))
  | get id now ctx =>
      refine hkept ?_
      obtain ⟨p, hp⟩ := hc.exists_peer he
      rw [Cluster.step, onPeer_of_getElem? hp]
      cases hmember : p.member with
      | replica r =>
          rw [onService, hmember]
          exact hc
      | service sv =>
          rw [onService, hmember]
          exact hc.get he hp hmember now ctx
  | sync id now =>
      refine hkept ?_
      obtain ⟨p, hp⟩ := hc.exists_peer he
      rw [Cluster.step, onPeer_of_getElem? hp]
      exact hc.sync he hp now
  | deliver id now payload =>
      refine hkept ?_
      obtain ⟨hlive, push, hpush, rfl⟩ := he
      obtain ⟨p, hp⟩ := hc.exists_peer hlive
      rw [Cluster.step, onPeer_of_getElem? hp]
      exact hc.deliver hlive hp (hc.linked push hpush)
  | resync id now d =>
      refine hkept ?_
      obtain ⟨hlive, c', hc', id', p', hp', rfl⟩ := he
      obtain ⟨p, hp⟩ := hc.exists_peer hlive
      obtain ⟨hcoherent, hrecords⟩ := hpast c' hc' id' p' hp'
      rw [Cluster.step, onPeer_of_getElem? hp]
      exact hc.resync hlive hp now hcoherent hrecords

/-- As long as no sign comes again, there is a ledger of all that the nodes ever held. -/
theorem Run.consistent (hrun : Run events past c) (hfresh : (events.flatMap Event.tokens).Nodup) :
    ∃ L : Ledger, L.Within (events.flatMap Event.tokens) ∧ c.Consistent L ∧ Remembered past L := by
  induction hrun with
  | empty =>
      refine ⟨.empty, nofun, consistent_empty, ?_⟩
      rintro c hc id p hp
      obtain rfl := List.mem_singleton.mp hc
      simp [Cluster.empty] at hp
  | @step events past c e _ he ih =>
      rw [List.flatMap_append, List.flatMap_singleton] at hfresh ⊢
      obtain ⟨hold, -, hnew⟩ := List.nodup_append.mp hfresh
      obtain ⟨L, hwithin, hc, hpast⟩ := ih hold
      obtain ⟨L', hgrows, hc'⟩ := hc.step hpast he fun t ht =>
        hwithin.eq_none fun hmem => hnew t hmem t ht rfl
      refine ⟨L', hwithin.grows hgrows, hc', ?_⟩
      intro c' hmem id p hp
      rcases List.mem_append.mp hmem with hmem | hmem
      · obtain ⟨hcoherent, hrecords⟩ := hpast c' hmem id p hp
        exact ⟨hcoherent, hrecords.mono hgrows.kept⟩
      · obtain rfl := List.mem_singleton.mp hmem
        exact hc'.held id p hp

end Runs

end Cluster

end RemoteConfig
