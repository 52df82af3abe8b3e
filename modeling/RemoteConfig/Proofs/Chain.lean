import Mathlib.Data.List.Chain
import RemoteConfig.Proofs.Host
/-! # The chain of versions

A master commits one mutation after the other, and each version carries the number and the sign of
the one before.  Failed commits and restarts do not break the chain, nor do mutations with nothing
to commit.  Who expects a certain version commits only at that version; so of all who expect the
same one, one commits at most. -/

namespace RemoteConfig

/-- A version that directly continues the chain, without an overflow of the number. -/
def DataVersion.Continues (v w : DataVersion) : Prop :=
  w.version = v.version + 1 ∧ w.oldSign = v.sign

theorem DataVersion.continues_next {v : DataVersion} (h : v.version < 0x7fffffffffffffff)
    (sign : String) (now : Timestamp) : v.Continues (v.next sign now) := by
  refine ⟨?_, rfl⟩
  show successor v.version = v.version + 1
  rw [successor, if_neg (Int.ne_of_lt h)]

/-- A storage and the replica that runs on it, if one does. -/
structure Site where
  storage : Storage
  running : Option Replica

/-- What can happen to the site of a master: a mutation with any expectation, made by any function
of the snapshot, the order that a commit fail, and a restart. -/
inductive Call where
  | mutate (m : Moment) (expected : Option Int) (build : Snapshot → Except Error Delta)
  | failNextCommit
  | restart (masterUrl : Option String) (replacesMaster : Bool) (m : Moment)

namespace Call

/-- The version that a call expects. -/
def expected? : Call → Option Int
  | mutate _ expected _ => expected
  | _ => none

end Call

/-- Whether a mutation has anything to commit. -/
def Replica.isChange (build : Snapshot → Except Error Delta) (s : Snapshot) : Bool :=
  match build s with
  | .ok d => !d.isEmpty
  | .error _ => false

/-- What passes the check is the version that was expected. -/
theorem Replica.eq_of_checkExpected {expected : Option Int} {current n : Int}
    (h : checkExpected expected current = .ok ()) (hn : expected = some n) : current = n := by
  subst hn
  unfold checkExpected at h
  dsimp only at h
  split at h
  · exact Eq.symm ‹_›
  · cases h

namespace Site

/-- One call at the site of the master of an address, with the version that it commits: the one
that a mutation with something to commit returns, or that of a restart at which the master had
something to claim. -/
def step (url : String) (t : Site) : Call → Option DataVersion × Site
  | .mutate m expected build =>
    match t.running with
    | none => (none, t)
    | some r =>
      match r.mutate t.storage m expected build with
      | (.error _, r', s) => (none, ⟨s, some r'⟩)
      | (.ok c, r', s) =>
        (if Replica.isChange build r.snapshot then some c.dataVersion else none, ⟨s, some r'⟩)
  | .failNextCommit => (none, { t with storage := t.storage.failNextCommit })
  | .restart masterUrl replacesMaster m =>
    let settings : Settings := ⟨url, .master, masterUrl, replacesMaster⟩
    match Replica.start settings t.storage m with
    | (.error _, s) => (none, ⟨s, none⟩)
    | (.ok (r, _), s) =>
      (match Replica.open? settings t.storage m with
        | (.ok opened, _) =>
          if Replica.isChange (Replica.claim settings m.now) opened then
            some r.snapshot.dataVersion
          else none
        | (.error _, _) => none, ⟨s, some r⟩)

/-- The site after some calls. -/
def after (url : String) (t : Site) : List Call → Site
  | [] => t
  | call :: rest => after url (t.step url call).2 rest

/-- The versions that calls commit, each with the version that its call expected. -/
def log (url : String) (t : Site) : List Call → List (Option Int × DataVersion)
  | [] => []
  | call :: rest =>
    ((t.step url call).1.map fun w => (call.expected?, w)).toList ++
      log url (t.step url call).2 rest

/-- The versions that calls commit. -/
def versions (url : String) (t : Site) (calls : List Call) : List DataVersion :=
  (t.log url calls).map (·.2)

/-- The site is at a version, in the storage and in memory. -/
structure IsAt (t : Site) (v : DataVersion) : Prop where
  stored : t.storage.dataVersion? = some v
  running : ∀ r, t.running = some r → r.snapshot.dataVersion = v

/-- What holds of calls at a site that starts at a version. -/
structure Linear (url : String) (t : Site) (v : DataVersion) (calls : List Call) : Prop where
  /-- What is committed is a chain from the first version on. -/
  chain : (v :: t.versions url calls).IsChain DataVersion.Continues
  /-- A call that commits a version leads to it, and it continues the current one; any other call
  leaves the current version as it is. -/
  moves : ∀ before call rest, calls = before ++ call :: rest →
    ∃ current, (t.after url before).IsAt current ∧
      match (t.after url before).step url call with
      | (some w, t') => current.Continues w ∧ t'.IsAt w
      | (none, t') => t'.IsAt current
  /-- Who expects a version commits at that version only, and nothing was committed since the site
  came to that version. -/
  expected : ∀ before m n build rest w, calls = before ++ .mutate m (some n) build :: rest →
    ((t.after url before).step url (.mutate m (some n) build)).1 = some w →
      w.version = n + 1 ∧ (∃ current, (t.after url before).IsAt current ∧ current.version = n) ∧
      ∀ earlier u, earlier <+: before → (t.after url earlier).IsAt u → u.version = n →
        t.log url before = t.log url earlier
  /-- Of all who expect the same version, one commits at most. -/
  exclusive : ∀ n, ((t.log url calls).filter (·.1 = some n)).length ≤ 1

/-! ## Steps -/

/-- The storage mirrors a snapshot at a version, and what the replica holds, if one runs. -/
structure Steady (t : Site) (v : DataVersion) : Prop where
  stored : ∃ snap, t.storage.Mirrors snap ∧ snap.dataVersion = v
  running : ∀ r, t.running = some r → t.storage.Mirrors r.snapshot

variable {url : String} {t : Site} {v : DataVersion}

theorem Steady.isAt (h : t.Steady v) : t.IsAt v := by
  obtain ⟨snap, hmirrors, rfl⟩ := h.stored
  refine ⟨hmirrors.dataVersion?_eq, ?_⟩
  intro r hr
  have hsame := (h.running r hr).dataVersion?_eq.symm.trans hmirrors.dataVersion?_eq
  exact Option.some.inj hsame

theorem IsAt.eq {w : DataVersion} (h : t.IsAt v) (h' : t.IsAt w) : v = w :=
  Option.some.inj (h.stored.symm.trans h'.stored)

/-- A replica whose snapshot its storage mirrors. -/
theorem steady_of_mirrors {s : Storage} {r : Replica} (h : s.Mirrors r.snapshot) :
    Steady ⟨s, some r⟩ r.snapshot.dataVersion := by
  refine ⟨⟨_, h, rfl⟩, ?_⟩
  intro r' hr'
  obtain rfl := Option.some.inj hr'
  exact h

/-- The storage may lose the order to fail, and the replica may be gone. -/
theorem Steady.sameData (h : t.Steady v) {s : Storage} (hk : s.rows.WellKeyed)
    (hs : t.storage.SameData s) {running : Option Replica}
    (hr : running = none ∨ running = t.running) : Steady ⟨s, running⟩ v := by
  obtain ⟨snap, hmirrors, hv⟩ := h.stored
  refine ⟨⟨snap, hmirrors.sameData hk hs, hv⟩, ?_⟩
  intro r hrunning
  rcases hr with rfl | rfl
  · cases hrunning
  · exact (h.running r hrunning).sameData hk hs

/-- What a call can do: the version stays as it is, or the next one is committed, if it was the
current one that the call expected. -/
inductive Stepped (v : DataVersion) (call : Call) : Option DataVersion × Site → Prop
  | kept (t' : Site) (h : t'.Steady v) : Stepped v call (none, t')
  | committed (w : DataVersion) (t' : Site) (h : t'.Steady w) (sign : String) (now : Timestamp)
      (hw : w = v.next sign now) (hexpected : ∀ n, call.expected? = some n → v.version = n) :
      Stepped v call (some w, t')

theorem Steady.keyed (h : t.Steady v) : t.storage.rows.WellKeyed := by
  obtain ⟨snap, hmirrors, -⟩ := h.stored
  exact hmirrors.keyed

theorem Steady.step_mutate (h : t.Steady v) (m : Moment) (expected : Option Int)
    (build : Snapshot → Except Error Delta) :
    Stepped v (.mutate m expected build) (t.step url (.mutate m expected build)) := by
  unfold step
  cases hrunning : t.running with
  | none => exact .kept t h
  | some r =>
      have hmirrors := h.running r hrunning
      have hv : r.snapshot.dataVersion = v := h.isAt.running r hrunning
      have hsame : Steady ⟨t.storage, some r⟩ v := hv ▸ steady_of_mirrors hmirrors
      have hcases := Replica.mutate_cases hmirrors m expected build
      dsimp only
      generalize r.mutate t.storage m expected build = out at *
      cases hcases with
      | refused e he => exact .kept _ hsame
      | failed hfail =>
          refine .kept _ (h.sameData ?_ ?_ (Or.inr hrunning.symm))
          · exact h.keyed
          · exact fun _ _ => rfl
      | idle hd hempty =>
          have hidle : Replica.isChange build r.snapshot = false := by
            simp [Replica.isChange, hd, hempty]
          simp only [hidle, Bool.false_eq_true, if_false]
          exact .kept _ hsame
      | committed c r' s' hexpected hd hfull hsettings hmirrors' hc =>
          have hchange : Replica.isChange build r.snapshot = true := by
            simp [Replica.isChange, hd, hfull]
          obtain ⟨d, -, -, hsnap, rfl⟩ := hc
          simp only [hchange, if_true]
          have hnext : r'.snapshot.dataVersion = r.snapshot.dataVersion.next m.sign m.now := by
            rw [hsnap, Snapshot.dataVersion_advance]
          refine .committed _ _ (hnext ▸ steady_of_mirrors hmirrors') m.sign m.now (by rw [hv]) ?_
          intro n hn
          rw [← hv, Replica.eq_of_checkExpected hexpected hn]

theorem Steady.step_restart (h : t.Steady v) (masterUrl : Option String) (replacesMaster : Bool)
    (m : Moment) :
    Stepped v (.restart masterUrl replacesMaster m)
      (t.step url (.restart masterUrl replacesMaster m)) := by
  obtain ⟨snap, hmirrors, hv⟩ := h.stored
  have hversion : t.storage.dataVersion? = some v := h.isAt.stored
  have hloaded : t.storage.Mirrors t.storage.load := Storage.mirrors_load hmirrors.sound hversion
  have hcurrent : t.storage.load.dataVersion = v := by rw [hmirrors.dataVersion_load, hv]
  have hrole : (⟨url, .master, masterUrl, replacesMaster⟩ : Settings).role = .master := rfl
  unfold step
  dsimp only
  generalize (⟨url, .master, masterUrl, replacesMaster⟩ : Settings) = settings at *
  have hopen : Replica.open? settings t.storage m = (.ok t.storage.load, t.storage) :=
    if_pos (by rw [hversion]; rfl)
  have hstart := Replica.start_cases hmirrors.sound settings m
  rw [hopen]
  generalize Replica.start settings t.storage m = out at *
  cases hstart with
  | refused e he => exact .kept _ (h.sameData hmirrors.keyed (.refl _) (Or.inl rfl))
  | failed hfail =>
      refine .kept _ (h.sameData ?_ ?_ (Or.inl rfl))
      · exact hmirrors.keyed
      · exact fun _ _ => rfl
  | fresh r s' hempty =>
      rw [Storage.dataVersion?_of_sameData_empty hempty] at hversion
      cases hversion
  | loaded r hs hsettings hsnapshot hclaim =>
      obtain ⟨d, hd, hempty⟩ := hclaim hrole
      have hidle : Replica.isChange (Replica.claim settings m.now) t.storage.load = false := by
        simp [Replica.isChange, hd, hempty]
      simp only [hidle, Bool.false_eq_true, if_false]
      have hsteady : Steady ⟨t.storage, some r⟩ r.snapshot.dataVersion :=
        steady_of_mirrors (hsnapshot ▸ hloaded)
      rw [hsnapshot, hcurrent] at hsteady
      exact .kept _ hsteady
  | @claimed d r s' c hs hsettings hmirrors' hd hfull hc =>
      have hchange : Replica.isChange (Replica.claim settings m.now) t.storage.load = true := by
        simp [Replica.isChange, hd, hfull]
      simp only [hchange, if_true]
      obtain ⟨d', -, -, hsnap, -⟩ := hc
      have hnext : r.snapshot.dataVersion = v.next m.sign m.now := by
        rw [hsnap, Snapshot.dataVersion_advance, ← hcurrent]
        rfl
      refine .committed _ _ (steady_of_mirrors hmirrors') m.sign m.now hnext ?_
      intro n hn
      cases hn

/-- The step lemma of calls. -/
theorem Steady.step (h : t.Steady v) (url : String) (call : Call) :
    Stepped v call (t.step url call) := by
  cases call with
  | mutate m expected build => exact h.step_mutate m expected build
  | failNextCommit =>
      refine .kept _ (h.sameData ?_ ?_ (Or.inr rfl))
      · exact h.keyed
      · exact fun _ _ => rfl
  | restart masterUrl replacesMaster m => exact h.step_restart masterUrl replacesMaster m

/-! ## Runs -/

theorem log_append : ∀ (before rest : List Call) {t : Site},
    t.log url (before ++ rest) = t.log url before ++ (t.after url before).log url rest
  | [], _, _ => rfl
  | call :: before, rest, t => by
      rw [List.cons_append, log, log, log_append before rest, List.append_assoc]
      rfl

theorem log_mono {before calls : List Call} (h : before <+: calls) :
    t.log url before <+: t.log url calls := by
  obtain ⟨rest, rfl⟩ := h
  rw [log_append]
  exact List.prefix_append _ _

theorem versions_cons (call : Call) (rest : List Call) : t.versions url (call :: rest) =
    (t.step url call).1.toList ++ (t.step url call).2.versions url rest := by
  rw [versions, log, List.map_append]
  cases (t.step url call).1 <;> rfl

/-- The version to which calls lead a site is the last one that they commit. -/
theorem Steady.run : ∀ {calls : List Call} {t : Site} {v : DataVersion}, t.Steady v →
    (∀ u ∈ v :: t.versions url calls, u.version < 0x7fffffffffffffff) →
      (v :: t.versions url calls).IsChain DataVersion.Continues ∧
      (t.after url calls).Steady ((t.versions url calls).getLastD v) ∧
      ∀ entry ∈ t.log url calls, ∀ n, entry.1 = some n → entry.2.version = n + 1
  | [], t, v, h, _ => ⟨.singleton v, h, nofun⟩
  | call :: rest, t, v, h, hbelow => by
      have hstep := h.step url call
      rw [versions_cons] at hbelow ⊢
      unfold log after
      generalize t.step url call = out at *
      cases hstep with
      | kept t' h' => exact h'.run hbelow
      | committed w t' h' sign now hw hexpected =>
          have hcontinues : v.Continues w := by
            rw [hw]
            exact DataVersion.continues_next (hbelow v List.mem_cons_self) sign now
          have hrest : ∀ u ∈ w :: t'.versions url rest, u.version < 0x7fffffffffffffff :=
            fun u hu => hbelow u (List.mem_cons_of_mem _ hu)
          obtain ⟨hchain, hsteady, hlog⟩ := h'.run hrest
          refine ⟨List.isChain_cons_cons.mpr ⟨hcontinues, hchain⟩, ?_, ?_⟩
          · show (t'.after url rest).Steady ((w :: t'.versions url rest).getLastD v)
            rw [List.getLastD_cons]
            exact hsteady
          · intro entry hentry n hn
            rcases List.mem_cons.mp hentry with rfl | hmem
            · rw [hcontinues.1, hexpected n hn]
            · exact hlog entry hmem n hn

/-- The number of a version is the number of versions that led to it. -/
theorem version_getLastD : ∀ {versions : List DataVersion} {v : DataVersion},
    (v :: versions).IsChain DataVersion.Continues →
      (versions.getLastD v).version = v.version + versions.length
  | [], v, _ => by simp
  | w :: rest, v, h => by
      obtain ⟨hfirst, hrest⟩ := List.isChain_cons_cons.mp h
      rw [List.getLastD_cons, version_getLastD hrest, hfirst.1, List.length_cons]
      omega

/-- Calls that lead from a version to one with the same number have committed nothing. -/
theorem log_eq_of_version {earlier before : List Call} (hle : earlier <+: before)
    (hearlier : (v :: t.versions url earlier).IsChain DataVersion.Continues)
    (hbefore : (v :: t.versions url before).IsChain DataVersion.Continues)
    (h : ((t.versions url earlier).getLastD v).version =
      ((t.versions url before).getLastD v).version) : t.log url before = t.log url earlier := by
  rw [version_getLastD hearlier, version_getLastD hbefore] at h
  refine ((log_mono hle).eq_of_length ?_).symm
  simp only [versions, List.length_map] at h
  omega

/-- In a chain no number comes twice. -/
theorem length_filter_le_one {log : List (Option Int × DataVersion)}
    (hchain : (log.map (·.2)).IsChain DataVersion.Continues) {n : Int}
    (hlog : ∀ entry ∈ log, entry.1 = some n → entry.2.version = n + 1) :
    (log.filter (·.1 = some n)).length ≤ 1 := by
  have hnumbers : log.Pairwise fun a b => a.2.version < b.2.version := by
    have hless : (log.map fun entry => entry.2.version).IsChain (· < ·) := by
      rw [List.isChain_map] at hchain ⊢
      refine hchain.imp ?_
      intro a b hab
      rw [hab.1]
      omega
    exact List.pairwise_map.mp hless.pairwise
  have hall : ∀ entry ∈ log.filter (·.1 = some n), entry.2.version = n + 1 := by
    intro entry hentry
    obtain ⟨hmem, hexpected⟩ := List.mem_filter.mp hentry
    exact hlog entry hmem (of_decide_eq_true hexpected)
  refine Table.length_le_one_of_pairwise (hnumbers.filter _) ?_
  intro a ha b hb
  rw [hall a ha, hall b hb]
  exact Int.lt_irrefl _

/-- Numbers that stay small in all calls do so in the first of them. -/
theorem below_of_before {before calls : List Call} (hbefore : before <+: calls)
    (hbelow : ∀ u ∈ v :: t.versions url calls, u.version < 0x7fffffffffffffff) :
    ∀ u ∈ v :: t.versions url before, u.version < 0x7fffffffffffffff := by
  intro u hu
  refine hbelow u ?_
  rcases List.mem_cons.mp hu with rfl | hmem
  · exact List.mem_cons_self
  · exact List.mem_cons_of_mem _ (((log_mono hbefore).map _).subset hmem)

section Linear

variable (h : t.Steady v) {before : List Call}
  (hbelow : ∀ u ∈ v :: t.versions url before, u.version < 0x7fffffffffffffff)
include h hbelow

/-- A call after others commits the version that continues the last one, or none. -/
theorem Steady.moves (call : Call) : ∃ current, (t.after url before).IsAt current ∧
    match (t.after url before).step url call with
    | (some w, t') => current.Continues w ∧ t'.IsAt w
    | (none, t') => t'.IsAt current := by
  obtain ⟨-, hsteady, -⟩ := h.run hbelow
  refine ⟨_, hsteady.isAt, ?_⟩
  have hcurrent := hbelow _ List.getLastD_mem_cons
  have hstep := hsteady.step url call
  generalize (t.after url before).step url call = out at *
  cases hstep with
  | kept t' h' => exact h'.isAt
  | committed w t' h' sign now hw =>
      refine ⟨?_, h'.isAt⟩
      rw [hw]
      exact DataVersion.continues_next hcurrent sign now

/-- A call that expects a version commits only if nothing was committed since. -/
theorem Steady.expected {m : Moment} {n : Int} {build : Snapshot → Except Error Delta}
    {w : DataVersion}
    (hw : ((t.after url before).step url (.mutate m (some n) build)).1 = some w) :
    w.version = n + 1 ∧ (∃ current, (t.after url before).IsAt current ∧ current.version = n) ∧
      ∀ earlier u, earlier <+: before → (t.after url earlier).IsAt u → u.version = n →
        t.log url before = t.log url earlier := by
  obtain ⟨hlinked, hsteady, -⟩ := h.run hbelow
  have hcurrent := hbelow _ List.getLastD_mem_cons
  have hstep := hsteady.step url (.mutate m (some n) build)
  generalize (t.after url before).step url (.mutate m (some n) build) = out at *
  cases hstep with
  | kept => cases hw
  | committed w' t' h' sign now hnext hexpected =>
      obtain rfl := Option.some.inj hw
      have hn := hexpected n rfl
      have hcontinues : DataVersion.Continues _ w' := hnext ▸
        DataVersion.continues_next hcurrent sign now
      refine ⟨by rw [hcontinues.1, hn], ⟨_, hsteady.isAt, hn⟩, ?_⟩
      intro earlier u hearlier hu hun
      obtain ⟨hlinked', hsteady', -⟩ := h.run (below_of_before hearlier hbelow)
      rw [hu.eq hsteady'.isAt] at hun
      exact log_eq_of_version hearlier hlinked' hlinked (hun.trans hn.symm)

end Linear

theorem Steady.linear (h : t.Steady v) {calls : List Call}
    (hbelow : ∀ u ∈ v :: t.versions url calls, u.version < 0x7fffffffffffffff) :
    t.Linear url v calls := by
  obtain ⟨hchain, -, hlog⟩ := h.run hbelow
  constructor
  · exact hchain
  · rintro before call rest rfl
    exact h.moves (below_of_before (List.prefix_append _ _) hbelow) call
  · rintro before m n build rest w rfl hw
    exact h.expected (below_of_before (List.prefix_append _ _) hbelow) hw
  · intro n
    exact length_filter_le_one hchain.tail fun entry hentry => hlog entry hentry n

end Site

namespace Host

/-- The site of a host. -/
def site (h : Host) : Site := ⟨h.storage, h.running.map (·.replica)⟩

/-- At the site of any host, whatever happened there before, the versions that a master commits are
a chain from the version that it finds, and no update is lost.  Numbers of versions are assumed to
stay below the largest one. -/
theorem version_chain {actions : List Action} {v : DataVersion}
    (hv : (run actions).storage.dataVersion? = some v) {url : String} {calls : List Call}
    (hbelow : ∀ u ∈ v :: (run actions).site.versions url calls, u.version < 0x7fffffffffffffff) :
    (run actions).site.Linear url v calls := by
  have hs := synced_run actions
  refine Site.Steady.linear ⟨?_, ?_⟩ hbelow
  · have hloaded := Storage.mirrors_load hs.sound hv
    refine ⟨_, hloaded, ?_⟩
    exact Option.some.inj (hloaded.dataVersion?_eq.symm.trans hv)
  · intro r hr
    obtain ⟨sv, hsv, rfl⟩ := Option.map_eq_some_iff.mp hr
    exact hs.mirrors sv hsv

/-- The start of a master. -/
def startRun : List Action :=
  [.start ⟨"http://m", .master, none, false⟩ ⟨300, 0, 2⟩ ⟨.epoch, "v0", "t0"⟩]

/-- Two mutations that expect the same version, one with nothing to commit, and one that removes the
row of the master itself; then two restarts, of which the first fails. -/
def contendingCalls : List Call :=
  [.mutate ⟨.epoch, "v1", "t1"⟩ (some 0) fun _ => .ok ⟨[.upsert (.user ⟨"u", "p", .normal⟩)]⟩,
    .mutate ⟨.epoch, "v2", "t2"⟩ (some 0) fun _ => .ok ⟨[.delete ⟨.user, "u"⟩]⟩,
    .mutate ⟨.epoch, "v3", "t3"⟩ none fun _ => .ok ⟨[]⟩,
    .mutate ⟨.epoch, "v4", "t4"⟩ (some 1) fun _ => .ok ⟨[.delete ⟨.node, "http://m"⟩]⟩,
    .failNextCommit,
    .restart none false ⟨.epoch, "v5", "t5"⟩,
    .restart none false ⟨.epoch, "v6", "t6"⟩]

/-- The mutations that went through are committed, and then the claim of the second restart. -/
theorem version_chain_contendingCalls :
    (run startRun).site.versions "http://m" contendingCalls =
      [⟨1, "v1", "t0", .epoch⟩, ⟨2, "v4", "v1", .epoch⟩, ⟨3, "v6", "v4", .epoch⟩] ∧
    (run startRun).site.Linear "http://m" ⟨0, "t0", "", .epoch⟩ contendingCalls := by
  have hversions : (run startRun).site.versions "http://m" contendingCalls =
      [⟨1, "v1", "t0", .epoch⟩, ⟨2, "v4", "v1", .epoch⟩, ⟨3, "v6", "v4", .epoch⟩] := by
    decide +kernel
  refine ⟨hversions, version_chain (by decide +kernel) ?_⟩
  rw [hversions]
  decide +kernel

end Host

end RemoteConfig
