import RemoteConfig.Proofs.Mirror
import RemoteConfig.Service.Basic
/-! # Hosts

A host is a storage and the service that runs on it, if one does.  A service is started on whatever
the storage holds, is stopped or replaced at any time, and while it runs it is asked to do things in
any order, with commits that fail in between.  In a host that began with an empty storage, storage
and memory are in step. -/

namespace RemoteConfig

open Table

/-! ## What recording leaves alone -/

theorem Storage.rows_commit_insert (s : Storage) (r : Record) :
    (s.commit (Transaction.empty.insert r)).2.rows = s.rows ∨
      (s.commit (Transaction.empty.insert r)).2.rows = s.rows.insert r.uniqueKey r := by
  cases hfail : s.failsNext with
  | true =>
      left
      rw [commit_of_failsNext hfail]
  | false =>
      by_cases hmem : r.uniqueKey ∈ s.rows
      · left
        have hrun : Operation.runAll s.rows [.insert r] = .error (.duplicateKey r.uniqueKey) := by
          simp only [Operation.runAll, Operation.run, if_pos hmem]
          rfl
        have hcommit : s.commit (Transaction.empty.insert r) =
            (.error (.duplicateKey r.uniqueKey), s) := commit_of_runAll_error hfail hrun
        rw [hcommit]
      · right
        have hrun : Operation.runAll s.rows [.insert r] = .ok (s.rows.insert r.uniqueKey r) := by
          simp only [Operation.runAll, Operation.run, if_neg hmem]
          rfl
        have hcommit : s.commit (Transaction.empty.insert r) =
            (.ok (), { s with rows := s.rows.insert r.uniqueKey r }) := commit_of_runAll hfail hrun
        rw [hcommit]

namespace Telemetry

/-- Taking in a value touches no other rows. -/
theorem sameData_learn (t : Telemetry) {s : Storage} (h : s.rows.WellKeyed) (a : ClientAttribute) :
    s.SameData (t.learn s a).2 ∧ (t.learn s a).2.rows.WellKeyed := by
  have hrows : (t.learn s a).2.rows = s.rows ∨
      (t.learn s a).2.rows =
        s.rows.insert (Record.clientAttribute a).uniqueKey (.clientAttribute a) := by
    unfold learn
    split
    · exact Or.inl rfl
    · have hcommit := s.rows_commit_insert (.clientAttribute a)
      split
      · rename_i heq
        rwa [heq] at hcommit
      · rename_i heq
        rwa [heq] at hcommit
  rcases hrows with hrows | hrows
  · exact ⟨fun key _ => by rw [hrows], hrows ▸ h⟩
  · refine ⟨fun key hkey => ?_, hrows ▸ Rows.wellKeyed_insert h _⟩
    rw [hrows, getElem?_insert_ite, if_neg]
    rintro rfl
    exact hkey rfl

theorem sameData_learnAll (as : List ClientAttribute) : ∀ (t : Telemetry) {s : Storage},
    s.rows.WellKeyed → s.SameData (t.learnAll s as).2 ∧ (t.learnAll s as).2.rows.WellKeyed := by
  induction as with
  | nil => exact fun _ s h => ⟨.refl s, h⟩
  | cons a rest ih =>
      intro t s h
      obtain ⟨hs, hk⟩ := t.sameData_learn h a
      obtain ⟨hs', hk'⟩ := ih (t.learn s a).1 hk
      exact ⟨hs.trans hs', hk'⟩

end Telemetry

/-! ## Requests -/

/-- What a running service can be asked for.  A synchronisation comes with the answers of the
master, whatever they are. -/
inductive Request where
  | mutate (m : Moment) (expected : Option Int) (d : Delta)
  | write (m : Moment) (expected : Option Int) (w : Write)
  | receive (now : Timestamp) (p : Payload)
  | resync (now : Timestamp) (d : Dump)
  | sync (now : Timestamp) (version : Except Error DataVersion) (dump : Except Error Dump)
  | get (now : Timestamp) (ctx : Context)
  /-- The recorder takes in a value, at whatever time. -/
  | observe (a : ClientAttribute)

namespace Service

/-- Does what is asked.  The answer is what the slaves have to be told. -/
def serve (sv : Service) (s : Storage) :
    Request → Except Error (List (String × Payload)) × Service × Storage
  | .mutate m expected d =>
    let (result, r, s) := sv.replica.mutate s m expected fun _ => .ok d
    (result.map (·.pushes), { sv with replica := r }, s)
  | .write m expected w =>
    let (result, sv, s) := sv.write s m expected w
    (result.map (·.pushes), sv, s)
  | .receive now p =>
    let (result, sv, s) := sv.receive s now p
    (result.map fun _ => [], sv, s)
  | .resync now d =>
    let (result, r, s) := sv.replica.resync s now d
    (result.map fun _ => [], { sv with replica := r }, s)
  | .sync now version dump =>
    let (result, r, s) := sv.replica.sync s now version dump
    (result.map fun _ => [], { sv with replica := r }, s)
  | .get now ctx =>
    let (result, sv, s) := sv.get s now ctx
    (result.map fun _ => [], sv, s)
  | .observe a =>
    let (telemetry, s) := sv.telemetry.learn s a
    (.ok [], { sv with telemetry := telemetry }, s)

end Service

namespace Request

/-- Whether a request carries an error of the master. -/
def Hears (e : Error) : Request → Prop
  | sync _ version dump => version = .error e ∨ dump = .error e
  | _ => False

/-- How a request moves a replica to another snapshot, and what the slaves are told. -/
inductive Moves (r : Replica) : Request → List (String × Payload) → Snapshot → Prop
  | mutate {m expected d c snap} (h : r.Mutated m (fun _ => .ok d) c snap) :
      Moves r (.mutate m expected d) c.pushes snap
  | write {m expected w c snap} (hw : Write.check r.settings w = .ok ())
      (h : r.Mutated m (w.delta m.spare) c snap) : Moves r (.write m expected w) c.pushes snap
  | receive {now p snap} (h : r.Received p snap) : Moves r (.receive now p) [] snap
  | resync {now d snap} (h : r.Resynced now d snap) : Moves r (.resync now d) [] snap
  | sync {now version d snap} (h : r.Resynced now d snap) :
      Moves r (.sync now version (.ok d)) [] snap

end Request

namespace Service

/-- What a request can do to a service: its data are kept, or they move on with the storage. -/
inductive Served (sv : Service) (s : Storage) (q : Request) :
    Except Error (List (String × Payload)) × Service × Storage → Prop
  | kept (result : Except Error (List (String × Payload))) (sv' : Service) (s' : Storage)
      (hsettings : sv'.replica.settings = sv.replica.settings)
      (hsnapshot : sv'.snapshot = sv.snapshot) (hdata : s.SameData s') (hkeyed : s'.rows.WellKeyed)
      (hpushes : ∀ pushes, result = .ok pushes → pushes = [])
      (hfault : ∀ fault, result = .error (.persistence fault) →
        (fault = .commitFailed ∧ s.failsNext = true) ∨ q.Hears (.persistence fault)) :
      Served sv s q (result, sv', s')
  | moved (pushes : List (String × Payload)) (sv' : Service) (s' : Storage)
      (hsettings : sv'.replica.settings = sv.replica.settings) (hmirrors : s'.Mirrors sv'.snapshot)
      (hmoves : q.Moves sv.replica pushes sv'.snapshot) : Served sv s q (.ok pushes, sv', s')

/-- What an operation does to the replica, it does to the service. -/
theorem served_of_effect {α : Type} {sv : Service} {s : Storage} {q : Request}
    {heard : Error → Prop} {kept : α → Prop} {moved : α → Snapshot → Prop}
    {out : Except Error α × Replica × Storage}
    (h : Replica.Effect sv.replica s heard kept moved out) (hk : s.rows.WellKeyed)
    (pushes : α → List (String × Payload))
    (hheard : ∀ fault, heard (.persistence fault) → q.Hears (.persistence fault))
    (hkept : ∀ a, kept a → pushes a = [])
    (hmoved : ∀ a snap, moved a snap → q.Moves sv.replica (pushes a) snap) :
    Served sv s q (out.1.map pushes, { sv with replica := out.2.1 }, out.2.2) := by
  cases h with
  | refused e he =>
      refine .kept _ sv s rfl rfl (.refl s) hk nofun fun fault h => Or.inr ?_
      have hfault : e = .persistence fault := Except.error.inj h
      exact hheard fault (hfault ▸ he fault hfault)
  | failed hfail =>
      exact .kept _ sv _ rfl rfl (fun _ _ => rfl) hk nofun fun fault h => by
        cases h
        exact Or.inl ⟨rfl, hfail⟩
  | kept a r' hsettings hsnapshot ha =>
      refine .kept _ _ s hsettings hsnapshot (.refl s) hk ?_ nofun
      intro l hl
      rw [← Except.ok.inj hl]
      exact hkept a ha
  | moved a r' s' hsettings hmirrors ha => exact .moved _ _ s' hsettings hmirrors (hmoved a _ ha)

/-- Clients change nothing but attribute values. -/
theorem answer_kept (sv : Service) {s : Storage} (hk : s.rows.WellKeyed) (ctx : Context) :
    (sv.answer s ctx).2.1.replica = sv.replica ∧ s.SameData (sv.answer s ctx).2.2 ∧
      (sv.answer s ctx).2.2.rows.WellKeyed ∧ Unfailing (sv.answer s ctx).1 := by
  unfold answer
  dsimp only
  cases sv.snapshot.findApp? (ctx.get .appKey) with
  | none => exact ⟨rfl, .refl s, hk, nofun⟩
  | some a =>
      obtain ⟨hs, hk'⟩ := Telemetry.sameData_learnAll (Telemetry.observed a.key ctx) sv.telemetry hk
      exact ⟨rfl, hs, hk', unfailing_ok _⟩

theorem unfailing_checkFresh (sv : Service) (now : Timestamp) : Unfailing (sv.checkFresh now) := by
  unfold checkFresh
  refine unfailing_ite (unfailing_ok _) ?_
  split
  · exact nofun
  · exact unfailing_ite (unfailing_ok _) nofun

theorem get_kept (sv : Service) {s : Storage} (hk : s.rows.WellKeyed) (now : Timestamp)
    (ctx : Context) :
    (sv.get s now ctx).2.1.replica = sv.replica ∧ s.SameData (sv.get s now ctx).2.2 ∧
      (sv.get s now ctx).2.2.rows.WellKeyed ∧ Unfailing (sv.get s now ctx).1 := by
  unfold get
  have hfresh := sv.unfailing_checkFresh now
  cases hcheck : sv.checkFresh now with
  | error e =>
      rw [hcheck] at hfresh
      exact ⟨rfl, .refl s, hk, fun fault h => hfresh fault (congrArg _ (Except.error.inj h))⟩
  | ok _ => exact sv.answer_kept hk ctx

theorem serve_served {sv : Service} {s : Storage} (h : s.Mirrors sv.snapshot) (q : Request) :
    Served sv s q (sv.serve s q) := by
  cases q with
  | mutate m expected d =>
      exact served_of_effect (Replica.mutate_effect h m expected _) h.keyed (·.pushes)
        (fun fault h => absurd h (unfailing_ok d fault)) (fun _ => id) fun _ _ => .mutate
  | write m expected w =>
      have hserve : sv.serve s (.write m expected w) = ((sv.write s m expected w).1.map (·.pushes),
        (sv.write s m expected w).2.1, (sv.write s m expected w).2.2) := rfl
      rw [hserve, write]
      cases hcheck : Write.check sv.replica.settings w with
      | error e =>
          exact .kept _ sv s rfl rfl (.refl s) h.keyed nofun fun fault hfault =>
            absurd (hcheck.trans (congrArg Except.error (Except.error.inj hfault)))
              (Write.unfailing_check _ w fault)
      | ok _ =>
          exact served_of_effect (Replica.mutate_effect h m expected (w.delta m.spare)) h.keyed
            (·.pushes) (fun fault hfault => absurd hfault (Write.unfailing_delta _ w _ fault))
            (fun _ => id) fun _ _ => .write hcheck
  | receive now p =>
      exact served_of_effect (Replica.receive_effect h now p) h.keyed _ nofun (fun _ _ => rfl)
        fun _ _ => .receive
  | resync now d =>
      exact served_of_effect (Replica.resync_effect h now d) h.keyed _ nofun (fun _ _ => rfl)
        fun _ _ => .resync
  | sync now version dump =>
      refine served_of_effect (Replica.sync_effect h now version dump) h.keyed _ (fun _ => id)
        (fun _ _ => rfl) ?_
      rintro _ snap ⟨d, rfl, hd⟩
      exact .sync hd
  | get now ctx =>
      have hserve : sv.serve s (.get now ctx) = ((sv.get s now ctx).1.map fun _ => [],
        (sv.get s now ctx).2.1, (sv.get s now ctx).2.2) := rfl
      obtain ⟨hreplica, hs, hk, hfault⟩ := sv.get_kept h.keyed now ctx
      rw [hserve]
      generalize sv.get s now ctx = out at *
      obtain ⟨result, sv', s'⟩ := out
      refine .kept _ sv' s' (congrArg Replica.settings hreplica) (congrArg Replica.snapshot hreplica)
        hs hk ?_ ?_
      · intro pushes hpushes
        cases result with
        | error e => cases hpushes
        | ok a => exact (Except.ok.inj hpushes).symm
      · intro fault herror
        cases result with
        | error e => exact absurd (congrArg _ (Except.error.inj herror)) (hfault fault)
        | ok a => cases herror
  | observe a =>
      obtain ⟨hs, hk⟩ := sv.telemetry.sameData_learn h.keyed a
      exact .kept _ _ _ rfl rfl hs hk (fun _ h => (Except.ok.inj h).symm) nofun

end Service

/-! ## Hosts -/

/-- What can happen to a host. -/
inductive Action where
  | start (settings : Settings) (limits : Limits) (m : Moment)
  | stop
  | failNextCommit
  | request (q : Request)

/-- Whether an action carries an error of the master. -/
def Action.Hears (e : Error) : Action → Prop
  | request q => q.Hears e
  | _ => False

structure Host where
  storage : Storage
  running : Option Service

namespace Host

def empty : Host := ⟨.empty, none⟩

/-- One step of a host.  Starting ends what ran before; without a running service a request has no
effect. -/
def step (h : Host) : Action → Except Error (List (String × Payload)) × Host
  | .start settings limits m =>
    match Service.start settings limits h.storage m with
    | (.error e, s) => (.error e, ⟨s, none⟩)
    | (.ok (sv, pushes), s) => (.ok pushes, ⟨s, some sv⟩)
  | .stop => (.ok [], { h with running := none })
  | .failNextCommit => (.ok [], { h with storage := h.storage.failNextCommit })
  | .request q =>
    match h.running with
    | none => (.ok [], h)
    | some sv =>
      let (result, sv, s) := sv.serve h.storage q
      (result, ⟨s, some sv⟩)

def runFrom (h : Host) : List Action → Host
  | [] => h
  | a :: rest => runFrom (h.step a).2 rest

/-- A host after some actions, begun with an empty storage. -/
def run (actions : List Action) : Host := empty.runFrom actions

/-- Storage and memory are in step. -/
structure Synced (h : Host) : Prop where
  sound : h.storage.Sound
  mirrors : ∀ sv, h.running = some sv → h.storage.Mirrors sv.snapshot

/-- Where nothing runs, anything holds of what runs. -/
theorem not_running {p : Service → Prop} : ∀ sv, (none : Option Service) = some sv → p sv :=
  fun _ h => absurd h (Option.some_ne_none _).symm

theorem synced_empty : empty.Synced := ⟨Storage.sound_empty, not_running⟩

/-- A service that has, after an action, the snapshot that was there before. -/
inductive Continues (h : Host) : Action → Service → Prop
  | loaded {limits : Limits} {m : Moment} {sv' : Service} (hv : h.storage.dataVersion?.isSome)
      (hsnapshot : sv'.snapshot = h.storage.load)
      (hclaim : Replica.Unclaiming sv'.replica.settings h.storage.load m.now) :
      Continues h (.start sv'.replica.settings limits m) sv'
  | running {a : Action} {sv sv' : Service} (hsv : h.running = some sv)
      (hsettings : sv'.replica.settings = sv.replica.settings)
      (hsnapshot : sv'.snapshot = sv.snapshot) : Continues h a sv'

/-- How an action moves the data of a host to another snapshot, and what the slaves are told. -/
inductive Moves (h : Host) (settings : Settings) :
    Action → List (String × Payload) → Snapshot → Prop
  | initialised {limits : Limits} {m : Moment} (hempty : Storage.empty.SameData h.storage) :
      Moves h settings (.start settings limits m) [] (.initial settings (.initial m.spare m.now))
  | claimed {limits : Limits} {m : Moment} {c : Committed} {snap : Snapshot}
      (hv : h.storage.dataVersion?.isSome)
      (hc : Replica.Mutated ⟨settings, .ofSnapshot h.storage.load⟩ m
        (Replica.claim settings m.now) c snap) :
      Moves h settings (.start settings limits m) c.pushes snap
  | served {q : Request} {pushes : List (String × Payload)} {snap : Snapshot} (sv : Service)
      (hsv : h.running = some sv) (hsettings : settings = sv.replica.settings)
      (hq : q.Moves sv.replica pushes snap) : Moves h settings (.request q) pushes snap

/-- What one step can do: the data are kept, or a service runs with data that moved on. -/
inductive Stepped (h : Host) (a : Action) :
    Except Error (List (String × Payload)) × Host → Prop
  | kept (result : Except Error (List (String × Payload))) (h' : Host)
      (hdata : h.storage.SameData h'.storage) (hkeyed : h'.storage.rows.WellKeyed)
      (hrunning : ∀ sv', h'.running = some sv' → h.Continues a sv')
      (hpushes : ∀ pushes, result = .ok pushes → pushes = [])
      (hfault : ∀ fault, result = .error (.persistence fault) →
        (fault = .commitFailed ∧ h.storage.failsNext = true) ∨ a.Hears (.persistence fault)) :
      Stepped h a (result, h')
  | moved (pushes : List (String × Payload)) (sv' : Service) (s' : Storage)
      (hmirrors : s'.Mirrors sv'.snapshot)
      (hmoves : h.Moves sv'.replica.settings a pushes sv'.snapshot) :
      Stepped h a (.ok pushes, ⟨s', some sv'⟩)

variable {h : Host}

theorem step_start (hs : h.Synced) (settings : Settings) (limits : Limits) (m : Moment) :
    h.Stepped (.start settings limits m) (h.step (.start settings limits m)) := by
  have hstart := Replica.start_cases hs.sound settings m
  unfold step Service.start
  dsimp only
  generalize Replica.start settings h.storage m = out at *
  cases hstart with
  | refused e he =>
      exact .kept _ _ (.refl _) hs.sound.keyed not_running nofun fun fault hfault =>
        absurd (Except.error.inj hfault) (he fault)
  | failed hfail =>
      -- the old service is gone, but the rows are still those it had
      refine .kept _ _ (fun _ _ => rfl) hs.sound.keyed not_running nofun fun fault hfault =>
        Or.inl ?_
      cases hfault
      exact ⟨rfl, hfail⟩
  | fresh r s' hempty hsettings hsnapshot hmirrors =>
      subst hsettings
      refine .moved [] _ s' hmirrors ?_
      show h.Moves r.settings _ [] r.snapshot
      rw [hsnapshot]
      exact .initialised hempty
  | loaded r hv hsettings hsnapshot hclaim =>
      subst hsettings
      refine .kept _ _ (.refl _) hs.sound.keyed ?_ (fun _ h => (Except.ok.inj h).symm) nofun
      rintro sv' hsv'
      obtain rfl := Option.some.inj hsv'
      have hload : Service.snapshot ⟨r, limits, .filled limits.idleEvaluators, .start h.storage⟩ =
          h.storage.load := hsnapshot
      exact .loaded hv hload hclaim
  | claimed r s' c hv hsettings hmirrors hd hfull hc =>
      subst hsettings
      exact .moved c.pushes _ s' hmirrors (.claimed hv hc)

/-- The step lemma of hosts. -/
theorem step_stepped (hs : h.Synced) (a : Action) : h.Stepped a (h.step a) := by
  cases a with
  | start settings limits m => exact step_start hs settings limits m
  | stop =>
      exact .kept _ _ (.refl _) hs.sound.keyed not_running (fun _ h => (Except.ok.inj h).symm) nofun
  | failNextCommit =>
      exact .kept _ _ (fun _ _ => rfl) hs.sound.keyed (fun sv' hsv' => .running hsv' rfl rfl)
        (fun _ h => (Except.ok.inj h).symm) nofun
  | request q =>
      unfold step
      cases hsv : h.running with
      | none =>
          refine .kept _ _ (.refl _) hs.sound.keyed ?_ (fun _ h => (Except.ok.inj h).symm) nofun
          rw [hsv]
          exact not_running
      | some sv =>
          have hserved := Service.serve_served (hs.mirrors sv hsv) q
          dsimp only
          generalize sv.serve h.storage q = out at *
          cases hserved with
          | kept result sv' s' hsettings hsnapshot hdata hkeyed hpushes hfault =>
              refine .kept result _ hdata hkeyed ?_ hpushes hfault
              rintro _ hsv'
              obtain rfl := Option.some.inj hsv'
              exact .running hsv hsettings hsnapshot
          | moved pushes sv' s' hsettings hmirrors hmoves =>
              exact .moved pushes sv' s' hmirrors (.served sv hsv hsettings hmoves)

/-- The storage still mirrors the snapshot that was there before. -/
theorem Continues.mirrors {a : Action} {sv' : Service} {s' : Storage} (hc : h.Continues a sv')
    (hs : h.Synced) (hk : s'.rows.WellKeyed) (hdata : h.storage.SameData s') :
    s'.Mirrors sv'.snapshot := by
  cases hc with
  | loaded hv hsnapshot =>
      obtain ⟨v, hv⟩ := Option.isSome_iff_exists.mp hv
      rw [hsnapshot]
      exact (Storage.mirrors_load hs.sound hv).sameData hk hdata
  | running hsv _ hsnapshot =>
      rw [hsnapshot]
      exact (hs.mirrors _ hsv).sameData hk hdata

theorem Synced.step (hs : h.Synced) (a : Action) : (h.step a).2.Synced := by
  have hstep := step_stepped hs a
  generalize h.step a = out at *
  cases hstep with
  | kept result h' hdata hkeyed hrunning hpushes hfault =>
      exact ⟨hs.sound.sameData hkeyed hdata,
        fun sv' hsv' => (hrunning sv' hsv').mirrors hs hkeyed hdata⟩
  | moved pushes sv' s' hmirrors hmoves =>
      refine ⟨hmirrors.sound, ?_⟩
      rintro _ hsv'
      obtain rfl := Option.some.inj hsv'
      exact hmirrors

theorem Synced.runFrom (actions : List Action) : ∀ {h : Host}, h.Synced →
    (h.runFrom actions).Synced := by
  induction actions with
  | nil => exact id
  | cons a rest ih => exact fun hs => ih (hs.step a)

theorem synced_run (actions : List Action) : (run actions).Synced := synced_empty.runFrom actions

/-- A fault of the storage is reported only if a commit was told to fail, or if the master
reported it. -/
theorem fault_step (hs : h.Synced) {a : Action} {fault : StorageFault}
    (hfault : (h.step a).1 = .error (.persistence fault)) :
    (fault = .commitFailed ∧ h.storage.failsNext = true) ∨ a.Hears (.persistence fault) := by
  have hstep := step_stepped hs a
  generalize h.step a = out at *
  cases hstep with
  | kept result h' _ _ _ _ hfaults => exact hfaults fault hfault
  | moved => cases hfault

/-- Storage and memory move in lockstep: after any actions, what could be loaded from the storage is
what the running service holds, and no commit ever fails but one that was told to. -/
theorem lockstep (actions : List Action) :
    (∀ sv, (run actions).running = some sv →
      (run actions).storage.dataVersion? = some sv.snapshot.dataVersion ∧
      (run actions).storage.load.dataVersion = sv.snapshot.dataVersion ∧
      (run actions).storage.load.dump = sv.snapshot.dump) ∧
    ∀ a fault, ((run actions).step a).1 = .error (.persistence fault) →
      (fault = .commitFailed ∧ (run actions).storage.failsNext = true) ∨
        a.Hears (.persistence fault) := by
  have hs := synced_run actions
  constructor
  · intro sv hsv
    have hmirrors := hs.mirrors sv hsv
    exact ⟨hmirrors.dataVersion?_eq, hmirrors.dataVersion_load, hmirrors.dump_load⟩
  · intro a fault hfault
    exact fault_step hs hfault

end Host

end RemoteConfig
