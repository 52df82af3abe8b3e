import RemoteConfig.Proofs.Network
/-! # Reports of pushes

A mutation ends with a list of slaves that could not be told.  Every other slave in the registry is
at the new version, and holds what the master holds; those in the list hold what they held. -/

namespace RemoteConfig

open Table

/-! ## Slaves in the registry -/

/-- No address comes twice. -/
theorem Snapshot.Coherent.nodup_slaves {s : Snapshot} (hs : s.Coherent) :
    (s.slaves.map (·.url)).Nodup := by
  have hvalues : (s.nodes.values.map (·.url)).Nodup := by
    rw [values_eq, List.map_map, List.nodup_iff_pairwise_ne, List.pairwise_map]
    refine (pairwise_toList s.nodes).imp_of_mem ?_
    intro a b ha hb hne hsame
    rw [Std.ExtTreeMap.mem_toList_iff_getElem?_eq_some] at ha hb
    exact hne ((hs.node_url ha).symm.trans (hsame.trans (hs.node_url hb)))
  exact hvalues.sublist (List.filter_sublist.map _)

/-- What goes to the slaves goes to all of them but the sender. -/
theorem Replica.mem_pushesFor {own : String} {s : Snapshot} {p : Payload}
    {push : String × Payload} : push ∈ pushesFor own s p ↔
      push.2 = p ∧ push.1 ≠ own ∧ ∃ n ∈ s.slaves, n.url = push.1 := by
  simp only [pushesFor, List.mem_map, List.mem_filter, decide_eq_true_eq]
  constructor
  · rintro ⟨url, ⟨hslave, hne⟩, rfl⟩
    exact ⟨rfl, hne, hslave⟩
  · rintro ⟨rfl, hne, hslave⟩
    exact ⟨push.1, ⟨hslave, hne⟩, rfl⟩

/-- No slave is sent anything twice. -/
theorem Replica.nodup_pushesFor {s : Snapshot} (hs : s.Coherent) (own : String) (p : Payload) :
    ((pushesFor own s p).map Prod.fst).Nodup := by
  have hurls : (pushesFor own s p).map Prod.fst = (s.slaves.map (·.url)).filter (· ≠ own) := by
    rw [pushesFor, List.map_map]
    exact List.map_id _
  rw [hurls]
  exact hs.nodup_slaves.sublist List.filter_sublist

namespace Replica

variable {r r' : Replica} {s s' : Storage} {m : Moment}

/-- Whoever takes a push in is a slave, and is at the version of the push then. -/
theorem dataVersion_of_receive {now : Timestamp} {p : Payload}
    (h : r.receive s now p = (.ok (), r', s')) :
    r.settings.role = .slave ∧ r'.settings = r.settings ∧
      r'.snapshot.dataVersion = p.dataVersion := by
  unfold receive at h
  dsimp only at h
  split at h
  · cases h
  rename_i hrole
  have hslave : r.settings.role = .slave := by
    cases hr : r.settings.role with
    | master => exact absurd hr hrole
    | slave => rfl
  split at h
  · rename_i hsame
    cases h
    exact ⟨hslave, rfl, hsame⟩
  split at h
  · cases h
  split at h
  · cases h
  · cases h
    exact ⟨hslave, rfl, rfl⟩

/-- A mutation that leads to another version is committed. -/
theorem mutated_of_ok {expected : Option Int} {build : Snapshot → Except Error Delta}
    {c : Committed} (hm : s.Mirrors r.snapshot)
    (h : r.mutate s m expected build = (.ok c, r', s'))
    (hnew : c.dataVersion ≠ r.snapshot.dataVersion) : r.Mutated m build c r'.snapshot := by
  have hcases := mutate_cases hm m expected build
  rw [h] at hcases
  cases hcases with
  | idle hd hempty => exact absurd rfl hnew
  | committed c r' s' hexpected hd hfull hsettings hmirrors hc => exact hc

end Replica

namespace Cluster

variable {c : Cluster} {L : Ledger} {now : Timestamp} {link : Link} {url : String}
  {payload : Payload} {out : Except Error Unit × Cluster}

/-! ## Single pushes -/

/-- The nodes of an address hold what they held, and have stored what they had. -/
def Keeps (c c' : Cluster) (url : String) : Prop :=
  ∀ (id : Nat) (p : Peer), c.Live id → c.peers[id]? = some p → p.member.settings.url = url →
    c'.peers[id]? = some p ∧ (c'.storage p.storage).rows = (c.storage p.storage).rows

theorem Keeps.trans {c₁ c' : Cluster} (h : c.Keeps c₁ url) (hlive : ∀ id, c.Live id → c₁.Live id)
    (h' : c₁.Keeps c' url) : c.Keeps c' url := by
  intro id p hid hp hurl
  obtain ⟨hp₁, hrows⟩ := h id p hid hp hurl
  obtain ⟨hp', hrows'⟩ := h' id p (hlive id hid) hp₁ hurl
  exact ⟨hp', hrows'.trans hrows⟩

theorem Spares.keeps {c' : Cluster} {urls : List String} (h : c.Spares c' urls)
    (hc : c.Consistent L) (hurl : url ∉ urls) : c.Keeps c' url := by
  rintro id p hlive hp rfl
  obtain ⟨hp', hstorage⟩ := h.kept hc hlive hp hurl
  exact ⟨hp', congrArg Storage.rows hstorage⟩

/-- A push that fails has no effect. -/
theorem Pushed.keeps_of_error {e : Error} (h : c.Pushed now url payload out)
    (he : out.1 = .error e) (url' : String) : c.Keeps out.2 url' := by
  intro id' p' hlive hp' hurl
  cases h with
  | failed e pushes hpushes => exact ⟨hp', rfl⟩
  | received id p result r s hp hr pushes hpushes =>
      cases result with
      | ok _ => cases he
      | error e =>
          have hatomic := Replica.atomic_receive (r := p.member.toReplica)
            (s := c.storage p.storage) now payload
          rw [hr] at hatomic
          have huntouched := untouched_of_atomic (answering_eq_ok.mp hp).2.2 hatomic rfl
          exact ⟨huntouched.peers ▸ hp', huntouched.rows p'.storage⟩

/-- After a push that does not fail, the slave at the address is at the new version. -/
theorem Pushed.of_ok (h : c.Pushed now url payload out) (hok : out.1 = .ok ()) :
    ∃ (id : Nat) (p : Peer), out.2.answering url = .ok (id, p) ∧
      p.member.settings.role = .slave ∧
      p.member.snapshot.dataVersion = payload.dataVersion := by
  cases h with
  | failed e pushes hpushes => cases hok
  | received id p result r s hp hr pushes hpushes =>
      cases result with
      | error e => cases hok
      | ok _ =>
          obtain ⟨hslave, hsettings, hversion⟩ := Replica.dataVersion_of_receive hr
          have hput := answering_put hp id { p with member := p.member.withReplica r } s
          rw [if_pos rfl] at hput
          refine ⟨id, { p with member := p.member.withReplica r }, hput, ?_, ?_⟩
          · rw [Member.settings, Member.toReplica_withReplica, hsettings]
            exact hslave
          · rw [Member.snapshot, Member.toReplica_withReplica]
            exact hversion

/-! ## Several pushes -/

/-- What a list of addresses says about several pushes. -/
structure Reports (c : Cluster) (pushes : List (String × Payload)) (failed : List String)
    (c' : Cluster) : Prop where
  sublist : failed.Sublist (pushes.map Prod.fst)
  told : ∀ push ∈ pushes, push.1 ∉ failed → ∃ (id : Nat) (p : Peer),
    c'.answering push.1 = .ok (id, p) ∧ p.member.settings.role = .slave ∧
      p.member.snapshot.dataVersion = push.2.dataVersion
  spared : ∀ url ∈ failed, c.Keeps c' url

theorem reports_pushAll : ∀ {pushes : List (String × Payload)} {c : Cluster}, c.Consistent L →
    (∀ push ∈ pushes, L.Links push.2) → (pushes.map Prod.fst).Nodup →
      c.Reports pushes (c.pushAll now link pushes).1 (c.pushAll now link pushes).2
  | [], _, _, _, _ => ⟨.refl _, nofun, nofun⟩
  | (url, payload) :: rest, c, hc, hlinks, hnodup => by
      obtain ⟨hnot, hnodup'⟩ := List.nodup_cons.mp hnodup
      have hpushed := c.pushed now link url payload
      have hspares := hpushed.spares hc
      have hnext := hpushed.consistent hc (hlinks _ List.mem_cons_self)
      have hlinks' : ∀ push ∈ rest, L.Links push.2 :=
        fun push hpush => hlinks push (List.mem_cons_of_mem _ hpush)
      have ih := reports_pushAll hnext hlinks' hnodup'
      have hlater : Spares _ ((c.push now link url payload).2.pushAll now link rest).2
          (rest.map Prod.fst) := (hnext.pushAll hlinks').2
      rw [pushAll_cons]
      dsimp only
      generalize c.push now link url payload = first at *
      obtain ⟨result, c₁⟩ := first
      dsimp only at *
      generalize c₁.pushAll now link rest = last at *
      obtain ⟨failed, c'⟩ := last
      have hlive : ∀ id, c.Live id → c₁.Live id := fun _ => hspares.live_iff.mpr
      -- the first push has left the nodes at the other addresses alone
      have hspared : ∀ url' ∈ failed, c.Keeps c' url' := by
        intro url' hmem
        have hne : url' ∉ [url] := by
          rw [List.mem_singleton]
          rintro rfl
          exact hnot (ih.sublist.subset hmem)
        exact (hspares.keeps hc hne).trans hlive (ih.spared url' hmem)
      cases result with
      | ok _ =>
          show c.Reports ((url, payload) :: rest) failed c'
          refine ⟨ih.sublist.cons _, ?_, hspared⟩
          intro push hpush hmem
          rcases List.mem_cons.mp hpush with rfl | hpush
          · obtain ⟨id, p, hanswer, htold⟩ := hpushed.of_ok rfl
            exact ⟨id, p, hlater.answering hnext hanswer hnot, htold⟩
          · exact ih.told push hpush hmem
      | error e =>
          show c.Reports ((url, payload) :: rest) (url :: failed) c'
          refine ⟨ih.sublist.cons_cons _, ?_, ?_⟩
          · intro push hpush hmem
            rw [List.mem_cons, not_or] at hmem
            obtain ⟨hne, hmem⟩ := hmem
            rcases List.mem_cons.mp hpush with rfl | hpush
            · exact absurd rfl hne
            · exact ih.told push hpush hmem
          · intro url' hmem
            rcases List.mem_cons.mp hmem with rfl | hmem
            · exact (hpushed.keeps_of_error rfl url').trans hlive (hlater.keeps hnext hnot)
            · exact hspared url' hmem

/-! ## Mutations -/

variable {id : Nat} {p : Peer} {m : Moment} {outcome : Outcome} {c' : Cluster}

/-- The mutations of a node, on its own account or at the request of an operator. -/
inductive Mutates (c : Cluster) (m : Moment) (id : Nat) (p : Peer) :
    Except Error Outcome × Cluster → Prop
  | mutate (expected : Option Int) (d : Delta) : Mutates c m id p (c.mutate m id p expected d)
  | write {sv : Service} (hsv : p.member = .service sv) (expected : Option Int) (w : Write) :
      Mutates c m id p (c.write m id p sv expected w)

/-- A mutation that succeeds is one of the replica, and what the replica has to push is
announced. -/
theorem Mutates.exists_mutate {out : Except Error Outcome × Cluster} (h : c.Mutates m id p out)
    (hok : out.1 = .ok outcome) : ∃ expected build committed r s member,
      p.member.toReplica.mutate (c.storage p.storage) m expected build = (.ok committed, r, s) ∧
      member.toReplica = r ∧
      out = (c.put id { p with member := member } s).announce m.now p.link (.ok committed) := by
  cases h with
  | mutate expected d =>
      unfold Cluster.mutate at hok ⊢
      generalize hresult : p.member.toReplica.mutate (c.storage p.storage) m expected
        (fun _ => .ok d) = result at hok
      obtain ⟨_ | committed, r, s⟩ := result
      · cases hok
      · exact ⟨expected, _, committed, r, s, p.member.withReplica r, hresult,
          Member.toReplica_withReplica _ _, rfl⟩
  | @write sv hsv expected w =>
      obtain ⟨member, storage, link⟩ := p
      obtain rfl : member = .service sv := hsv
      unfold Cluster.write Service.write at hok ⊢
      cases hcheck : w.check sv.replica.settings with
      | error e =>
          rw [hcheck] at hok
          cases hok
      | ok _ =>
          rw [hcheck] at hok
          dsimp only at hok ⊢
          generalize hresult : sv.replica.mutate (c.storage storage) m expected
            (w.delta m.spare) = result at hok
          obtain ⟨_ | committed, r, s⟩ := result
          · cases hok
          · exact ⟨expected, _, committed, r, s, .service { sv with replica := r }, hresult, rfl,
              rfl⟩

/-- What the outcome of a mutation says about the slaves in a snapshot of the node at the address
`own` is so. -/
structure Honest (c c' : Cluster) (own : String) (s : Snapshot) (outcome : Outcome) : Prop where
  nodup : outcome.failed.Nodup
  slaves : ∀ url ∈ outcome.failed, url ≠ own ∧ ∃ n ∈ s.slaves, n.url = url
  told : ∀ n ∈ s.slaves, n.url ≠ own → n.url ∉ outcome.failed → ∃ (id : Nat) (p : Peer),
    c'.answering n.url = .ok (id, p) ∧ p.member.settings.role = .slave ∧
      p.member.snapshot.dataVersion = outcome.dataVersion ∧
      p.member.snapshot.dump.withoutProgress = s.dump.withoutProgress
  spared : ∀ url ∈ outcome.failed, c.Keeps c' url

/-- What a node has committed beside the other nodes of a cluster is reported truly. -/
theorem honest_pushAll {L' : Ledger} {c₁ : Cluster} {q : Peer} {own : String} (hc : c.Consistent L)
    (hcommit : c.Spares c₁ [own]) (hc₁ : c₁.Consistent L') (hlive : c₁.Live id)
    (hq : c₁.peers[id]? = some q) (hown : q.member.settings.url = own)
    (hversion : payload.dataVersion = q.member.snapshot.dataVersion)
    {pushes : List (String × Payload)}
    (hpushes : pushes = Replica.pushesFor own q.member.snapshot payload)
    (hlinks : ∀ push ∈ pushes, L'.Links push.2) (now : Timestamp) (link : Link) :
    (c₁.pushAll now link pushes).2.peers[id]? = some q ∧
      c.Honest (c₁.pushAll now link pushes).2 own q.member.snapshot
        ⟨payload.dataVersion, (c₁.pushAll now link pushes).1⟩ := by
  obtain ⟨hcoherent, hrecords⟩ := hc₁.held id q hq
  have hnodup : (pushes.map Prod.fst).Nodup :=
    hpushes ▸ Replica.nodup_pushesFor hcoherent own payload
  have hmem : ∀ push, push ∈ pushes ↔ push.2 = payload ∧ push.1 ≠ own ∧
      ∃ n ∈ q.member.snapshot.slaves, n.url = push.1 :=
    fun push => hpushes ▸ Replica.mem_pushesFor
  have hreports : c₁.Reports pushes (c₁.pushAll now link pushes).1
      (c₁.pushAll now link pushes).2 := reports_pushAll hc₁ hlinks hnodup
  obtain ⟨hc', hspares⟩ : (c₁.pushAll now link pushes).2.Consistent L' ∧
      c₁.Spares (c₁.pushAll now link pushes).2 _ := hc₁.pushAll hlinks
  generalize c₁.pushAll now link pushes = out at *
  obtain ⟨failed, c'⟩ := out
  have hpushed : ∀ url ∈ pushes.map Prod.fst,
      url ≠ own ∧ ∃ n ∈ q.member.snapshot.slaves, n.url = url := by
    intro url hurl
    obtain ⟨push, hpush, rfl⟩ := List.mem_map.mp hurl
    exact ((hmem push).mp hpush).2
  refine ⟨(hspares.kept hc₁ hlive hq fun hurl => (hpushed _ hurl).1 hown).1, ?_, ?_, ?_, ?_⟩
  · exact hnodup.sublist hreports.sublist
  · exact fun url hurl => hpushed url (hreports.sublist.subset hurl)
  · intro n hn hne hnot
    obtain ⟨id', p', hanswer, hslave, hsame⟩ := hreports.told (n.url, payload)
      ((hmem _).mpr ⟨rfl, hne, n, hn, rfl⟩) hnot
    -- at the version of the push, the slave holds what the ledger has under its sign
    obtain ⟨hcoherent', hrecords'⟩ := hc'.held id' p' (answering_eq_ok.mp hanswer).2.2
    exact ⟨id', p', hanswer, hslave, hsame,
      hrecords'.dump_eq hrecords hcoherent' hcoherent (hsame.trans hversion)⟩
  · intro url hfailed
    have hne : url ∉ [own] := by
      rw [List.mem_singleton]
      exact (hpushed url (hreports.sublist.subset hfailed)).1
    exact (hcommit.keeps hc hne).trans (fun _ => hcommit.live_iff.mpr) (hreports.spared url hfailed)

section

variable {events : List Event} {past : List Cluster}

/-- In any reachable state, a mutation that leads to another version tells truly which slaves have
been told. -/
theorem push_reports_honest (hrun : Run events past c)
    (hfresh : (events.flatMap Event.tokens ++ [m.sign, m.spare]).Nodup) (hlive : c.Live id)
    (hp : c.peers[id]? = some p) (hcall : c.Mutates m id p (.ok outcome, c'))
    (hnew : outcome.dataVersion ≠ p.member.snapshot.dataVersion) :
    ∃ q : Peer, c'.peers[id]? = some q ∧ q.member.snapshot.dataVersion = outcome.dataVersion ∧
      c.Honest c' p.member.settings.url q.member.snapshot outcome := by
  obtain ⟨hold, -, hapart⟩ := List.nodup_append.mp hfresh
  obtain ⟨L, hwithin, hc, -⟩ := hrun.consistent hold
  have hsign : L m.sign = none :=
    hwithin.eq_none fun hmem => hapart m.sign hmem m.sign List.mem_cons_self rfl
  obtain ⟨expected, build, committed, r, s, member, hmutate, hmember, hannounce⟩ :=
    hcall.exists_mutate rfl
  obtain ⟨houtcome, rfl⟩ := Prod.mk.inj hannounce
  obtain rfl := Except.ok.inj houtcome
  have hmirrors := hc.mirrors id p hlive hp
  have heffect := Replica.mutate_effect hmirrors m expected build
  obtain ⟨L', -, hput, hlinks⟩ := hc.commit hlive hp heffect hsign member (hmutate ▸ hmember)
  have hsettings := (heffect.outcome hmirrors).1
  rw [hmutate, ← hmember] at hsettings
  rw [hmutate] at hput hlinks
  obtain ⟨d, -, -, hsnapshot, rfl⟩ := Replica.mutated_of_ok hmirrors hmutate hnew
  rw [← hmember] at hsnapshot hput hlinks ⊢
  have hq : (c.put id { p with member := member } s).peers[id]? =
      some { p with member := member } := by
    rw [peers_put, if_pos rfl]
  have hspares : c.Spares (c.put id { p with member := member } s) [p.member.settings.url] :=
    .put hp hlive { p with member := member } rfl hsettings List.mem_cons_self s
  have hversion : p.member.snapshot.dataVersion.next m.sign m.now = member.snapshot.dataVersion :=
    (congrArg Snapshot.dataVersion hsnapshot).symm
  obtain ⟨hq', hhonest⟩ := honest_pushAll hc hspares hput hlive hq
    (congrArg Settings.url hsettings) hversion rfl (hlinks _ rfl) m.now p.link
  exact ⟨{ p with member := member }, hq', hversion.symm, hhonest⟩

end

/-- A master with two slaves, of which one is out of reach in the end. -/
def enlistment : List Event :=
  [.start ⟨.epoch, "v0", "t0"⟩ "m" "mdisk" ⟨"http://m", .master, none, false⟩ .replica,
    .start ⟨.epoch, "v1", "t1"⟩ "s" "sdisk" ⟨"http://s", .slave, some "http://m", false⟩ .replica,
    .start ⟨.epoch, "v2", "t2"⟩ "t" "tdisk" ⟨"http://t", .slave, some "http://m", false⟩ .replica,
    .mutate 0 ⟨.epoch, "v3", "t3"⟩ none ⟨[.upsert (.node ⟨"http://s", .slave, none, 0⟩),
      .upsert (.node ⟨"http://t", .slave, none, 0⟩)]⟩,
    .sync 1 .epoch, .sync 2 .epoch, .cutOff "http://t"]

def enlisted : Cluster := enlistment.foldl step empty

theorem run_enlistment : ∃ past, Run enlistment past enlisted := by
  refine ⟨_, (((((((Run.empty.step _ ?_).step _ ?_).step _ ?_).step _ ?_).step _ ?_).step _
    ?_).step _ ?_)⟩
  · show Idle _ "mdisk"
    decide +kernel
  · show Idle _ "sdisk"
    decide +kernel
  · show Idle _ "tdisk"
    decide +kernel
  · show Live _ 0
    decide +kernel
  · show Live _ 1
    decide +kernel
  · show Live _ 2
    decide +kernel
  · exact trivial

/-- The slave that is in reach has the new account, and the other one is reported. -/
theorem push_reports_honest_enlisted : ∃ (p q : Peer) (outcome : Outcome) (c' : Cluster),
    enlisted.peers[0]? = some p ∧ enlisted.mutate ⟨.epoch, "v4", "t4"⟩ 0 p none
      ⟨[.upsert (.user ⟨"u", "p", .normal⟩)]⟩ = (.ok outcome, c') ∧
    outcome.failed = ["http://t"] ∧ enlisted.Honest c' "http://m" q.member.snapshot outcome ∧
    q.member.snapshot.dump.users = [⟨"u", "p", .normal⟩] := by
  let p := enlisted.peers[0]?.get (by decide +kernel)
  have hp : enlisted.peers[0]? = some p := (Option.some_get _).symm
  obtain ⟨out, hout⟩ : ∃ out, enlisted.mutate ⟨.epoch, "v4", "t4"⟩ 0 p none
    ⟨[.upsert (.user ⟨"u", "p", .normal⟩)]⟩ = out := ⟨_, rfl⟩
  have hok : (match out.1 with
      | .ok outcome => decide (outcome.failed = ["http://t"] ∧
          outcome.dataVersion = ⟨2, "v4", "v3", .epoch⟩)
      | .error _ => false) = true := by
    rw [← hout]
    decide +kernel
  have husers : (out.2.peers[0]?.map fun q => q.member.snapshot.dump.users) =
      some [⟨"u", "p", .normal⟩] := by
    rw [← hout]
    decide +kernel
  have hold : p.member.snapshot.dataVersion ≠ ⟨2, "v4", "v3", .epoch⟩ := by decide +kernel
  have hown : p.member.settings.url = "http://m" := by decide +kernel
  obtain ⟨result, c'⟩ := out
  cases result with
  | error e => cases hok
  | ok outcome =>
      obtain ⟨hfailed, hversion⟩ := of_decide_eq_true hok
      obtain ⟨past, hrun⟩ := run_enlistment
      have hcall : enlisted.Mutates ⟨.epoch, "v4", "t4"⟩ 0 p (.ok outcome, c') :=
        hout ▸ Mutates.mutate none _
      obtain ⟨q, hq, -, hhonest⟩ := push_reports_honest hrun (by decide +kernel)
        (by decide +kernel) hp hcall (hversion ▸ hold.symm)
      rw [hown] at hhonest
      rw [hq] at husers
      exact ⟨p, q, outcome, c', hp, hout, hfailed, hhonest, Option.some.inj husers⟩

end Cluster

end RemoteConfig
