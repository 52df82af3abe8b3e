import RemoteConfig.Proofs.Atomicity
import RemoteConfig.Proofs.Ledger
/-! # Nodes side by side

The nodes of a cluster are consistent with a ledger if each has its own storage, which mirrors what
the node holds, and if whatever is held, stored or was pushed is as the ledger has it.  Pushes keep
that, and reach no nodes but those that they were sent to. -/

namespace RemoteConfig

open Table

/-- After any operation the storage mirrors the snapshot, and that is the old one, or one that the
replica has moved on to. -/
theorem Replica.Effect.outcome {α : Type} {r : Replica} {s : Storage} {heard : Error → Prop}
    {kept : α → Prop} {moved : α → Snapshot → Prop} {out : Except Error α × Replica × Storage}
    (h : Effect r s heard kept moved out) (hm : s.Mirrors r.snapshot) :
    out.2.1.settings = r.settings ∧ out.2.2.Mirrors out.2.1.snapshot ∧
      (out.2.1.snapshot = r.snapshot ∨ ∃ a, out.1 = .ok a ∧ moved a out.2.1.snapshot) := by
  cases h with
  | refused e he => exact ⟨rfl, hm, Or.inl rfl⟩
  | failed hfail => exact ⟨rfl, hm.sameData hm.keyed fun _ _ => rfl, Or.inl rfl⟩
  | kept a r' hsettings hsnapshot ha => exact ⟨hsettings, hsnapshot ▸ hm, Or.inl hsnapshot⟩
  | moved a r' s' hsettings hmirrors ha => exact ⟨hsettings, hmirrors, Or.inr ⟨a, rfl, ha⟩⟩

@[simp]
theorem Member.toReplica_withReplica (m : Member) (r : Replica) :
    (m.withReplica r).toReplica = r := by
  cases m <;> rfl

@[simp]
theorem Member.withReplica_withReplica (m : Member) (r r' : Replica) :
    (m.withReplica r).withReplica r' = m.withReplica r' := by
  cases m <;> rfl

namespace Cluster

/-! ## Parts of clusters -/

variable {c : Cluster} {id : Nat} {p : Peer}

/-- Who answers at an address is the node that was started there, if the address is in reach. -/
theorem answering_eq_ok {url : String} {found : Nat × Peer} :
    c.answering url = .ok found ↔ c.unreachable.contains url = false ∧
      c.addresses[url]? = some found.1 ∧ c.peers[found.1]? = some found.2 := by
  constructor
  · intro h
    unfold answering at h
    split at h
    · cases h
    · rename_i hreachable
      split at h
      · rename_i found' hfound
        obtain rfl := Except.ok.inj h
        obtain ⟨id, hid, hfound⟩ := Option.bind_eq_some_iff.mp hfound
        obtain ⟨p, hp, rfl⟩ := Option.map_eq_some_iff.mp hfound
        exact ⟨Bool.not_eq_true _ ▸ hreachable, hid, hp⟩
      · cases h
  · rintro ⟨hreachable, hid, hp⟩
    simp [answering, hreachable, hid, hp]

/-- A node that has been put into a new state still answers, in that state. -/
theorem answering_put {url : String} {id₀ : Nat} {p₀ : Peer}
    (h : c.answering url = .ok (id₀, p₀)) (id : Nat) (p : Peer) (s : Storage) :
    (c.put id p s).answering url = .ok (id₀, if id₀ = id then p else p₀) := by
  obtain ⟨hreachable, haddress, hpeer⟩ := answering_eq_ok.mp h
  refine answering_eq_ok.mpr ⟨hreachable, haddress, ?_⟩
  rw [peers_put]
  split
  · rfl
  · exact hpeer

/-- A state of a node after another one: the storage and the settings stay. -/
structure Moved (p p' : Peer) : Prop where
  storage : p'.storage = p.storage
  settings : p'.member.settings = p.member.settings

/-- Each node was there before one of them was put into a new state. -/
theorem exists_of_peers_put {p' : Peer} {s : Storage} (hp : c.peers[id]? = some p)
    (hmoved : Moved p p') {k : Nat} {q : Peer} (hq : (c.put id p' s).peers[k]? = some q) :
    ∃ q₀, c.peers[k]? = some q₀ ∧ Moved q₀ q := by
  rw [peers_put] at hq
  split at hq
  · rename_i hk
    obtain rfl := Option.some.inj hq
    exact ⟨p, hk ▸ hp, hmoved⟩
  · exact ⟨q, hq, rfl, rfl⟩

/-- Each node is still there after one of them was put into a new state. -/
theorem exists_peers_put {p' : Peer} {s : Storage} (hp : c.peers[id]? = some p)
    (hmoved : Moved p p') {k : Nat} {q₀ : Peer} (hq₀ : c.peers[k]? = some q₀) :
    ∃ q, (c.put id p' s).peers[k]? = some q ∧ Moved q₀ q := by
  rw [peers_put]
  split
  · rename_i hk
    obtain rfl := Option.some.inj (hp.symm.trans (hk ▸ hq₀))
    exact ⟨p', rfl, hmoved⟩
  · exact ⟨q₀, hq₀, rfl, rfl⟩

/-- A node that has not been stopped or replaced: it has a name or an address. -/
def Live (c : Cluster) (id : Nat) : Prop :=
  (∃ name : String, c.names[name]? = some id) ∨ ∃ url : String, c.addresses[url]? = some id

theorem live_iff_mem_values : c.Live id ↔ id ∈ c.names.values ∨ id ∈ c.addresses.values := by
  rw [mem_values, mem_values]
  exact Iff.rfl

instance : Decidable (c.Live id) := decidable_of_iff _ live_iff_mem_values.symm

/-- A storage that no node is using. -/
def Idle (c : Cluster) (name : String) : Prop :=
  ∀ (id : Nat) (p : Peer), c.Live id → c.peers[id]? = some p → p.storage ≠ name

theorem idle_iff_forall_mem {name : String} :
    c.Idle name ↔ ∀ found ∈ c.peers.toList, c.Live found.1 → found.2.storage ≠ name := by
  constructor
  · rintro h ⟨id, p⟩ hmem hlive
    exact h id p hlive (Std.ExtTreeMap.mem_toList_iff_getElem?_eq_some.mp hmem)
  · intro h id p hlive hp
    exact h (id, p) (Std.ExtTreeMap.mem_toList_iff_getElem?_eq_some.mpr hp) hlive

instance {name : String} : Decidable (c.Idle name) := decidable_of_iff _ idle_iff_forall_mem.symm

/-! ## Consistent clusters -/

/-- A cluster whose nodes have their own storages, all as the ledger has it. -/
structure Consistent (c : Cluster) (L : Ledger) : Prop where
  addressed : ∀ (url : String) (id : Nat), c.addresses[url]? = some id →
    ∃ p : Peer, c.peers[id]? = some p ∧ p.member.settings.url = url
  named : ∀ (name : String) (id : Nat), c.names[name]? = some id → ∃ p, c.peers[id]? = some p
  numbered : ∀ (id : Nat) p, c.peers[id]? = some p → id < c.started
  apart : ∀ (id id' : Nat) (p p' : Peer), c.Live id → c.Live id' → c.peers[id]? = some p →
    c.peers[id']? = some p' → p.storage = p'.storage → id = id'
  sound : ∀ name, (c.storage name).Sound
  mirrors : ∀ (id : Nat) (p : Peer), c.Live id → c.peers[id]? = some p →
    (c.storage p.storage).Mirrors p.member.snapshot
  stored : ∀ name snap, (c.storage name).Mirrors snap → L.Records snap
  held : ∀ (id : Nat) (p : Peer), c.peers[id]? = some p →
    p.member.snapshot.Coherent ∧ L.Records p.member.snapshot
  linked : ∀ push ∈ c.pushes, L.Links push.payload

namespace Consistent

variable {L L' : Ledger}

theorem exists_peer (hc : c.Consistent L) (hlive : c.Live id) : ∃ p, c.peers[id]? = some p := by
  rcases hlive with ⟨name, hname⟩ | ⟨url, hurl⟩
  · exact hc.named name id hname
  · obtain ⟨p, hp, -⟩ := hc.addressed url id hurl
    exact ⟨p, hp⟩

theorem mono (hc : c.Consistent L) (h : L.Extends L') : c.Consistent L' :=
  { hc with
    stored := fun name snap hsnap => (hc.stored name snap hsnap).mono h
    held := fun id p hp => ⟨(hc.held id p hp).1, (hc.held id p hp).2.mono h⟩
    linked := fun push hpush => (hc.linked push hpush).mono h }

/-- Only the parts of a cluster that nodes run on matter. -/
theorem setSwitches (hc : c.Consistent L) (unreachable : Keys) (failingFetches : Nat) :
    { c with unreachable := unreachable, failingFetches := failingFetches }.Consistent L :=
  ⟨hc.addressed, hc.named, hc.numbered, hc.apart, hc.sound, hc.mirrors, hc.stored, hc.held,
    hc.linked⟩

/-- A storage may change if it still mirrors what its node holds, as the ledger has it. -/
theorem setStorage (hc : c.Consistent L) {name : String} {s : Storage} (hs : s.Sound)
    (hmirrors : ∀ (id : Nat) (p : Peer), c.Live id → c.peers[id]? = some p → p.storage = name →
      s.Mirrors p.member.snapshot)
    (hstored : ∀ snap, s.Mirrors snap → L.Records snap) : (c.setStorage name s).Consistent L where
  addressed := hc.addressed
  named := hc.named
  numbered := hc.numbered
  apart := hc.apart
  sound name' := by
    rw [storage_setStorage]
    split
    · exact hs
    · exact hc.sound name'
  mirrors id p hlive hp := by
    rw [storage_setStorage]
    split
    · rename_i hname
      exact hmirrors id p hlive hp hname
    · exact hc.mirrors id p hlive hp
  stored name' snap := by
    rw [storage_setStorage]
    split
    · exact hstored snap
    · exact hc.stored name' snap
  held := hc.held
  linked := hc.linked

/-- That a commit will fail makes no difference to what is stored. -/
theorem setStorage_sameData (hc : c.Consistent L) {name : String} {s : Storage}
    (hk : s.rows.WellKeyed) (hs : (c.storage name).SameData s) :
    (c.setStorage name s).Consistent L := by
  refine hc.setStorage ((hc.sound name).sameData hk hs) ?_ ?_
  · rintro id p hlive hp rfl
    exact (hc.mirrors id p hlive hp).sameData hk hs
  · exact fun snap hsnap => hc.stored name snap (hsnap.sameData (hc.sound name).keyed hs.symm)

/-- A node that has been put into a new state has its storage to itself, as before. -/
theorem mirrors_put (hc : c.Consistent L) (hlive : c.Live id) (hp : c.peers[id]? = some p)
    {p' : Peer} (hstorage : p'.storage = p.storage) {s : Storage}
    (hmirrors : s.Mirrors p'.member.snapshot) {k : Nat} {q : Peer} (hk : c.Live k)
    (hq : (c.put id p' s).peers[k]? = some q) :
    ((c.put id p' s).storage q.storage).Mirrors q.member.snapshot := by
  rw [peers_put] at hq
  rw [storage_put]
  split at hq
  · obtain rfl := Option.some.inj hq
    rw [if_pos rfl]
    exact hmirrors
  · rename_i hne
    have hother : q.storage ≠ p'.storage := fun hsame =>
      hne (hc.apart k id q p hk hlive hq hp (hsame.trans hstorage))
    rw [if_neg hother]
    exact hc.mirrors k q hk hq

/-- A node may move on, together with its storage, to a state that the ledger has. -/
theorem put (hc : c.Consistent L) (hlive : c.Live id) (hp : c.peers[id]? = some p) (p' : Peer)
    (hstorage : p'.storage = p.storage) (hsettings : p'.member.settings = p.member.settings)
    {s : Storage} (hmirrors : s.Mirrors p'.member.snapshot)
    (hrecords : L.Records p'.member.snapshot) : (c.put id p' s).Consistent L where
  addressed url k hk := by
    obtain ⟨q₀, hq₀, hurl⟩ := hc.addressed url k hk
    obtain ⟨q, hq, hmoved⟩ := exists_peers_put hp ⟨hstorage, hsettings⟩ hq₀
    exact ⟨q, hq, hmoved.settings ▸ hurl⟩
  named name k hk := by
    obtain ⟨q₀, hq₀⟩ := hc.named name k hk
    obtain ⟨q, hq, -⟩ := exists_peers_put hp ⟨hstorage, hsettings⟩ hq₀
    exact ⟨q, hq⟩
  numbered k q hq := by
    obtain ⟨q₀, hq₀, -⟩ := exists_of_peers_put hp ⟨hstorage, hsettings⟩ hq
    exact hc.numbered k q₀ hq₀
  apart k k' q q' hk hk' hq hq' hsame := by
    obtain ⟨q₀, hq₀, hmoved⟩ := exists_of_peers_put hp ⟨hstorage, hsettings⟩ hq
    obtain ⟨q₀', hq₀', hmoved'⟩ := exists_of_peers_put hp ⟨hstorage, hsettings⟩ hq'
    exact hc.apart k k' q₀ q₀' hk hk' hq₀ hq₀'
      (hmoved.storage.symm.trans (hsame.trans hmoved'.storage))
  sound name := by
    rw [storage_put]
    split
    · exact hmirrors.sound
    · exact hc.sound name
  mirrors k q hk hq := hc.mirrors_put hlive hp hstorage hmirrors hk hq
  stored name snap hsnap := by
    rw [storage_put] at hsnap
    split at hsnap
    · exact hrecords.of_mirrors hmirrors hsnap
    · exact hc.stored name snap hsnap
  held k q hq := by
    rw [peers_put] at hq
    split at hq
    · obtain rfl := Option.some.inj hq
      exact ⟨hmirrors.coherent, hrecords⟩
    · exact hc.held k q hq
  linked := hc.linked

theorem putReplica (hc : c.Consistent L) (hlive : c.Live id) (hp : c.peers[id]? = some p)
    {r : Replica} (hsettings : r.settings = p.member.settings) {s : Storage}
    (hmirrors : s.Mirrors r.snapshot) (hrecords : L.Records r.snapshot) :
    (c.put id { p with member := p.member.withReplica r } s).Consistent L := by
  refine hc.put hlive hp { p with member := p.member.withReplica r } rfl ?_ ?_ ?_
  · rwa [Member.settings, Member.toReplica_withReplica]
  · rwa [Member.snapshot, Member.toReplica_withReplica]
  · rwa [Member.snapshot, Member.toReplica_withReplica]

theorem setPushes (hc : c.Consistent L) {pushes : List Push}
    (h : ∀ push ∈ pushes, L.Links push.payload) : { c with pushes := pushes }.Consistent L :=
  { hc with linked := h }

end Consistent

/-! ## Pushes -/

/-- How a push can end: nobody was reached, or the node at the address has received it. -/
inductive Pushed (c : Cluster) (now : Timestamp) (url : String) (payload : Payload) :
    Except Error Unit × Cluster → Prop
  | failed (e : Error) (pushes : List Push)
      (hpushes : ∀ push ∈ pushes, push ∈ c.pushes ∨ push.payload = payload) :
      Pushed c now url payload (.error e, { c with pushes := pushes })
  | received (id : Nat) (p : Peer) (result : Except Error Unit) (r : Replica) (s : Storage)
      (hp : c.answering url = .ok (id, p))
      (hr : p.member.toReplica.receive (c.storage p.storage) now payload = (result, r, s))
      (pushes : List Push)
      (hpushes : ∀ push ∈ pushes, push ∈ c.pushes ∨ push.payload = payload) :
      Pushed c now url payload (result.mapError asRemote,
        { c.put id { p with member := p.member.withReplica r } s with pushes := pushes })

theorem pushed (c : Cluster) (now : Timestamp) (link : Link) (url : String) (payload : Payload) :
    c.Pushed now url payload (c.push now link url payload) := by
  have hrecord : ∀ failure, ∀ push ∈ c.pushes ++ [⟨url, payload, failure⟩],
      push ∈ c.pushes ∨ push.payload = payload := by
    intro failure push hpush
    rcases List.mem_append.mp hpush with hold | hnew
    · exact Or.inl hold
    · rw [List.mem_singleton.mp hnew]
      exact Or.inr rfl
  cases link with
  | http => exact .failed _ c.pushes fun _ => Or.inl
  | direct =>
      unfold push callPush
      cases hp : c.answering url with
      | error e => exact .failed e _ (hrecord _)
      | ok found =>
          obtain ⟨id, p⟩ := found
          dsimp only [deliver]
          generalize hr : p.member.toReplica.receive (c.storage p.storage) now payload = out
          obtain ⟨result, r, s⟩ := out
          exact .received id p result r s hp hr _ (hrecord _)

/-- What pushes to some addresses leave alone. -/
structure Spares (c c' : Cluster) (urls : List String) : Prop where
  names : c'.names = c.names
  addresses : c'.addresses = c.addresses
  started : c'.started = c.started
  unreachable : c'.unreachable = c.unreachable
  absent : ∀ id : Nat, c.peers[id]? = none → c'.peers[id]? = none
  peers : ∀ (id : Nat) (p : Peer), c.peers[id]? = some p → ∃ p' : Peer,
    c'.peers[id]? = some p' ∧ p'.storage = p.storage ∧
      p'.member.settings = p.member.settings ∧ (p.member.settings.url ∉ urls → p' = p)
  storages : ∀ name, (∀ (id : Nat) (p : Peer), c.Live id → c.peers[id]? = some p →
    p.storage = name → p.member.settings.url ∉ urls) → c'.storage name = c.storage name

namespace Spares

variable {c' c'' : Cluster} {urls urls' : List String}

theorem refl (c : Cluster) (urls : List String) : c.Spares c urls :=
  ⟨rfl, rfl, rfl, rfl, fun _ => id, fun _ p hp => ⟨p, hp, rfl, rfl, fun _ => rfl⟩,
    fun _ _ => rfl⟩

theorem setPushes (h : c.Spares c' urls) (pushes : List Push) :
    c.Spares { c' with pushes := pushes } urls :=
  ⟨h.names, h.addresses, h.started, h.unreachable, h.absent, h.peers, h.storages⟩

theorem put (hp : c.peers[id]? = some p) (hlive : c.Live id) (p' : Peer)
    (hstorage : p'.storage = p.storage) (hsettings : p'.member.settings = p.member.settings)
    (hurl : p.member.settings.url ∈ urls) (s : Storage) : c.Spares (c.put id p' s) urls where
  names := rfl
  addresses := rfl
  started := rfl
  unreachable := rfl
  absent k hk := by
    rw [peers_put, if_neg]
    · exact hk
    · rintro rfl
      rw [hp] at hk
      cases hk
  peers k q hq := by
    rw [peers_put]
    split
    · rename_i hk
      obtain rfl := Option.some.inj (hp.symm.trans (hk ▸ hq))
      exact ⟨p', rfl, hstorage, hsettings, fun hnot => absurd hurl hnot⟩
    · exact ⟨q, hq, rfl, rfl, fun _ => rfl⟩
  storages name hname := by
    rw [storage_put, if_neg]
    exact fun hsame => hname id p hlive hp (hstorage.symm.trans hsame.symm) hurl

theorem live_iff (h : c.Spares c' urls) : c'.Live id ↔ c.Live id := by
  rw [Live, Live, h.names, h.addresses]

/-- A node that is there was there. -/
theorem exists_before (h : c.Spares c' urls) {p' : Peer} (hp' : c'.peers[id]? = some p') :
    ∃ p : Peer, c.peers[id]? = some p ∧ p'.storage = p.storage ∧
      p'.member.settings = p.member.settings := by
  cases hp : c.peers[id]? with
  | none =>
      rw [h.absent id hp] at hp'
      cases hp'
  | some p =>
      obtain ⟨p'', hp'', hstorage, hsettings, -⟩ := h.peers id p hp
      obtain rfl := Option.some.inj (hp'.symm.trans hp'')
      exact ⟨p, rfl, hstorage, hsettings⟩

theorem idle_iff (h : c.Spares c' urls) {name : String} : c'.Idle name ↔ c.Idle name := by
  constructor
  · intro hidle id p hlive hp
    obtain ⟨p', hp', hstorage, -⟩ := h.peers id p hp
    exact hstorage ▸ hidle id p' (h.live_iff.mpr hlive) hp'
  · intro hidle id p' hlive hp'
    obtain ⟨p, hp, hstorage, -⟩ := h.exists_before hp'
    exact hstorage ▸ hidle id p (h.live_iff.mp hlive) hp

theorem trans (h : c.Spares c' urls) (h' : c'.Spares c'' urls') :
    c.Spares c'' (urls ++ urls') where
  names := h'.names.trans h.names
  addresses := h'.addresses.trans h.addresses
  started := h'.started.trans h.started
  unreachable := h'.unreachable.trans h.unreachable
  absent id hp := h'.absent id (h.absent id hp)
  peers id p hp := by
    obtain ⟨p', hp', hstorage, hsettings, hsame⟩ := h.peers id p hp
    obtain ⟨p'', hp'', hstorage', hsettings', hsame'⟩ := h'.peers id p' hp'
    refine ⟨p'', hp'', hstorage'.trans hstorage, hsettings'.trans hsettings, ?_⟩
    intro hurl
    rw [List.mem_append, not_or] at hurl
    rw [hsame' (hsettings ▸ hurl.2), hsame hurl.1]
  storages name hname := by
    have hfirst := h.storages name fun id p hlive hp hstorage hurl =>
      hname id p hlive hp hstorage (List.mem_append_left _ hurl)
    rw [← hfirst]
    refine h'.storages name ?_
    intro id p' hlive hp' hstorage hurl
    obtain ⟨p, hp, hst, hset⟩ := h.exists_before hp'
    exact hname id p (h.live_iff.mp hlive) hp (hst.symm.trans hstorage)
      (List.mem_append_right _ (hset ▸ hurl))

/-- A node at another address is as it was, and so is its storage, which it shares with nobody. -/
theorem kept {L : Ledger} (h : c.Spares c' urls) (hc : c.Consistent L) (hlive : c.Live id)
    (hp : c.peers[id]? = some p) (hurl : p.member.settings.url ∉ urls) :
    c'.peers[id]? = some p ∧ c'.storage p.storage = c.storage p.storage := by
  obtain ⟨p', hp', -, -, hsame⟩ := h.peers id p hp
  refine ⟨hsame hurl ▸ hp', h.storages p.storage ?_⟩
  intro id' q hlive' hq hstorage
  obtain rfl := hc.apart id' id q p hlive' hlive hq hp hstorage
  obtain rfl := Option.some.inj (hq.symm.trans hp)
  exact hurl

/-- Who answers at another address is who answered there, and is as it was. -/
theorem answering {L : Ledger} {url : String} (h : c.Spares c' urls) (hc : c.Consistent L)
    (hp : c.answering url = .ok (id, p)) (hurl : url ∉ urls) : c'.answering url = .ok (id, p) := by
  obtain ⟨hreachable, haddress, hpeer⟩ := answering_eq_ok.mp hp
  obtain ⟨p', hp', rfl⟩ := hc.addressed url id haddress
  obtain rfl := Option.some.inj (hpeer.symm.trans hp')
  refine answering_eq_ok.mpr ⟨?_, ?_, ?_⟩
  · rw [h.unreachable]
    exact hreachable
  · rw [h.addresses]
    exact haddress
  · exact (h.kept hc (Or.inr ⟨_, haddress⟩) hpeer hurl).1

end Spares

section Pushing

variable {L : Ledger} {now : Timestamp} {url : String} {payload : Payload}
  {out : Except Error Unit × Cluster}

/-- A push reaches no node but the one at its address. -/
theorem Pushed.spares (h : c.Pushed now url payload out) (hc : c.Consistent L) :
    c.Spares out.2 [url] := by
  cases h with
  | failed e pushes hpushes => exact (Spares.refl c [url]).setPushes pushes
  | received id p result r s hp hr pushes hpushes =>
      obtain ⟨-, haddress, hpeer⟩ := answering_eq_ok.mp hp
      have hlive : c.Live id := Or.inr ⟨url, haddress⟩
      obtain ⟨p', hp', hurl⟩ := hc.addressed url id haddress
      obtain rfl := Option.some.inj (hpeer.symm.trans hp')
      have heffect := Replica.receive_effect (hc.mirrors id p hlive hpeer) now payload
      rw [hr] at heffect
      have hsettings := (heffect.outcome (hc.mirrors id p hlive hpeer)).1
      have hput : c.Spares (c.put id { p with member := p.member.withReplica r } s) [url] := by
        refine .put hpeer hlive { p with member := p.member.withReplica r } rfl ?_
          (List.mem_singleton.mpr hurl) s
        rwa [Member.settings, Member.toReplica_withReplica]
      exact hput.setPushes pushes

/-- A payload that the ledger links leads a node to a state that the ledger has. -/
theorem Consistent.deliver (hc : c.Consistent L) (hlive : c.Live id) (hp : c.peers[id]? = some p)
    (hlinks : L.Links payload) : (c.deliver now id p payload).2.Consistent L := by
  have hmirrors := hc.mirrors id p hlive hp
  obtain ⟨hcoherent, hrecords⟩ := hc.held id p hp
  obtain ⟨hsettings, hmirrors', hsnapshot⟩ :=
    (Replica.receive_effect hmirrors now payload).outcome hmirrors
  refine hc.putReplica hlive hp hsettings hmirrors' ?_
  rcases hsnapshot with hsame | ⟨-, -, hreceived⟩
  · exact hsame ▸ hrecords
  · exact hrecords.of_received hcoherent hlinks hreceived

theorem Pushed.consistent (h : c.Pushed now url payload out) (hc : c.Consistent L)
    (hlinks : L.Links payload) : out.2.Consistent L := by
  have hlinked : ∀ {pushes : List Push}, (∀ push ∈ pushes, push ∈ c.pushes ∨
      push.payload = payload) → ∀ push ∈ pushes, L.Links push.payload := by
    intro pushes hpushes push hpush
    rcases hpushes push hpush with hold | hnew
    · exact hc.linked push hold
    · exact hnew ▸ hlinks
  cases h with
  | failed e pushes hpushes => exact hc.setPushes (hlinked hpushes)
  | received id p result r s hp hr pushes hpushes =>
      obtain ⟨-, haddress, hpeer⟩ := answering_eq_ok.mp hp
      have hdelivered : (c.deliver now id p payload).2.Consistent L :=
        hc.deliver (Or.inr ⟨url, haddress⟩) hpeer hlinks
      rw [Cluster.deliver, hr] at hdelivered
      exact hdelivered.setPushes (hlinked hpushes)

end Pushing

section

variable {L : Ledger} {now : Timestamp} {link : Link}

theorem pushAll_cons (c : Cluster) (url : String) (payload : Payload)
    (rest : List (String × Payload)) :
    c.pushAll now link ((url, payload) :: rest) =
      (if (c.push now link url payload).1.toBool then
          ((c.push now link url payload).2.pushAll now link rest).1
        else url :: ((c.push now link url payload).2.pushAll now link rest).1,
        ((c.push now link url payload).2.pushAll now link rest).2) := rfl

/-- Pushes reach no nodes but those at their addresses, and lead to states that the ledger has. -/
theorem Consistent.pushAll : ∀ {pushes : List (String × Payload)} {c : Cluster},
    c.Consistent L → (∀ push ∈ pushes, L.Links push.2) →
      (c.pushAll now link pushes).2.Consistent L ∧
        c.Spares (c.pushAll now link pushes).2 (pushes.map Prod.fst)
  | [], c, hc, _ => ⟨hc, .refl c []⟩
  | (url, payload) :: rest, c, hc, hlinks => by
      have hpushed := c.pushed now link url payload
      have hnext := hpushed.consistent hc (hlinks _ List.mem_cons_self)
      obtain ⟨hrest, hspares⟩ := hnext.pushAll fun push hpush =>
        hlinks push (List.mem_cons_of_mem _ hpush)
      exact ⟨hrest, (hpushed.spares hc).trans hspares⟩

end

end Cluster

end RemoteConfig
