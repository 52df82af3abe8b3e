import Mathlib
import RemoteConfig.Proofs.Host
/-! # Freshness

A slave answers clients only if it has heard from the master, and not too long ago.  What counts is
the last push, dump or round of synchronisation that it accepted since it was started; the service
keeps its moment in milliseconds, with zero for never.  The whole seconds since then are compared
with the threshold as signed words, and a threshold that needs all 64 bits is negative as such a
word: the slave with the most patience refuses every client. -/

namespace RemoteConfig

/-! ## Contacts -/

/-- The moment at which a request that succeeds was a contact with the master, if it was one. -/
def Request.contact? : Request → Option Timestamp
  | .receive now _ => some now
  | .resync now _ => some now
  | .sync now _ _ => some now
  | _ => none

namespace Host

/-- The last contact with the master after an action, given the last one before it.  A service that
starts has not heard from the master. -/
def contact? (h : Host) (last : Option Timestamp) : Action → Option Timestamp
  | .start .. => none
  | .stop => none
  | .failNextCommit => last
  | .request q =>
    match h.running with
    | none => none
    | some sv =>
      match (sv.serve h.storage q).1 with
      | .ok _ => q.contact?.or last
      | .error _ => last

def contactFrom (h : Host) (last : Option Timestamp) : List Action → Option Timestamp
  | [] => last
  | a :: rest => (h.step a).2.contactFrom (h.contact? last a) rest

/-- The last contact with the master after some actions, begun with an empty storage. -/
def lastContact? (actions : List Action) : Option Timestamp := empty.contactFrom none actions

end Host

/-! ## The stamp -/

namespace Replica

variable {α β : Type} {r r' : Replica}

/-- After an operation the stamp is that of the contact, if the operation succeeded and was one, and
otherwise what it was. -/
def Stamped (r : Replica) (contact : Option Timestamp) (result : Except Error α) (r' : Replica) :
    Prop :=
  r'.store.checkedMillis = match result with
    | .ok _ => contact.elim r.store.checkedMillis Timestamp.millis
    | .error _ => r.store.checkedMillis

theorem Stamped.map {contact : Option Timestamp} {result : Except Error α}
    (h : r.Stamped contact result r') (f : α → β) : r.Stamped contact (result.map f) r' := by
  cases result with
  | error e => exact h
  | ok a => exact h

theorem stamped_none {result : Except Error α} :
    r.Stamped none result r' ↔ r'.store.checkedMillis = r.store.checkedMillis := by
  cases result <;> exact Iff.rfl

theorem stamped_commit (r : Replica) (s : Storage) (m : Moment) (d : Delta) :
    r.Stamped none (r.commit s m d).1 (r.commit s m d).2.1 := by
  rw [stamped_none]
  unfold commit
  dsimp only
  split <;> rfl

theorem stamped_mutate (r : Replica) (s : Storage) (m : Moment) (expected : Option Int)
    (build : Snapshot → Except Error Delta) :
    r.Stamped none (r.mutate s m expected build).1 (r.mutate s m expected build).2.1 := by
  unfold mutate
  dsimp only
  split
  · rfl
  · split
    · rfl
    · rfl
    · split
      · rfl
      · exact r.stamped_commit s m _

theorem stamped_receive (r : Replica) (s : Storage) (now : Timestamp) (p : Payload) :
    r.Stamped (some now) (r.receive s now p).1 (r.receive s now p).2.1 := by
  unfold receive
  dsimp only
  split
  · rfl
  · split
    · rfl
    · split
      · rfl
      · split <;> rfl

theorem stamped_resync (r : Replica) (s : Storage) (now : Timestamp) (d : Dump) :
    r.Stamped (some now) (r.resync s now d).1 (r.resync s now d).2.1 := by
  unfold resync
  dsimp only
  split
  · rfl
  · split
    · rfl
    · split <;> rfl

theorem stamped_sync (r : Replica) (s : Storage) (now : Timestamp)
    (version : Except Error DataVersion) (dump : Except Error Dump) :
    r.Stamped (some now) (r.sync s now version dump).1 (r.sync s now version dump).2.1 := by
  unfold sync
  split
  · rfl
  · split
    · rfl
    · split
      · rfl
      · split
        · rfl
        · exact r.stamped_resync s now _

/-- A replica that was just started has no stamp, also if it has taken its place as the master. -/
theorem checkedMillis_start {settings : Settings} {s s' : Storage} {m : Moment} {r : Replica}
    {pushes : List (String × Payload)} (h : start settings s m = (.ok (r, pushes), s')) :
    r.store.checkedMillis = 0 := by
  unfold start at h
  split at h
  · cases h
  · rename_i snapshot s₁ hopen
    dsimp only at h
    split at h
    · cases h
      rfl
    · -- the claim of a master is no contact
      have hstamp :=
        stamped_mutate ⟨settings, .ofSnapshot snapshot⟩ s₁ m none (claim settings m.now)
      rw [stamped_none] at hstamp
      split at h
      · cases h
      · rename_i hmutate
        cases h
        rw [hmutate] at hstamp
        exact hstamp

end Replica

namespace Service

theorem stamped_write (sv : Service) (s : Storage) (m : Moment) (expected : Option Int)
    (w : Write) :
    sv.replica.Stamped none (sv.write s m expected w).1 (sv.write s m expected w).2.1.replica := by
  unfold write
  cases Write.check sv.replica.settings w with
  | error e => rfl
  | ok _ => exact sv.replica.stamped_mutate s m expected _

theorem replica_answer (sv : Service) (s : Storage) (ctx : Context) :
    (sv.answer s ctx).2.1.replica = sv.replica := by
  unfold answer
  dsimp only
  split <;> rfl

theorem replica_get (sv : Service) (s : Storage) (now : Timestamp) (ctx : Context) :
    (sv.get s now ctx).2.1.replica = sv.replica := by
  unfold get
  split
  · rfl
  · exact sv.replica_answer s ctx

/-- The stamp of a service follows its contacts with the master, and nothing else. -/
theorem stamped_serve (sv : Service) (s : Storage) (q : Request) :
    sv.replica.Stamped q.contact? (sv.serve s q).1 (sv.serve s q).2.1.replica := by
  cases q with
  | mutate m expected d => exact (sv.replica.stamped_mutate s m expected fun _ => .ok d).map _
  | write m expected w => exact (sv.stamped_write s m expected w).map _
  | receive now p => exact (sv.replica.stamped_receive s now p).map _
  | resync now d => exact (sv.replica.stamped_resync s now d).map _
  | sync now version dump => exact (sv.replica.stamped_sync s now version dump).map _
  | get now ctx =>
      refine Replica.Stamped.map ?_ _
      exact Replica.stamped_none.mpr (congrArg (·.store.checkedMillis) (sv.replica_get s now ctx))
  | observe a => exact Replica.stamped_none.mpr rfl

end Service

namespace Host

variable {h : Host} {last : Option Timestamp}

/-- The service that runs is stamped with its last contact. -/
def Stamped (h : Host) (last : Option Timestamp) : Prop :=
  ∀ sv, h.running = some sv → sv.replica.store.checkedMillis = last.elim 0 Timestamp.millis

theorem Stamped.step (hstamp : h.Stamped last) (a : Action) :
    (h.step a).2.Stamped (h.contact? last a) := by
  cases a with
  | start settings limits m =>
      unfold Host.step Service.start
      dsimp only
      cases hstart : Replica.start settings h.storage m with
      | mk result s =>
          cases result with
          | error e => exact not_running
          | ok started =>
              rintro _ hsv
              obtain rfl := Option.some.inj hsv
              exact Replica.checkedMillis_start hstart
  | stop => exact not_running
  | failNextCommit => exact hstamp
  | request q =>
      cases hsv : h.running with
      | none =>
          simp only [Host.step, hsv, Stamped]
          exact not_running
      | some sv =>
          have hserve := sv.stamped_serve h.storage q
          have hbefore := hstamp sv hsv
          simp only [Host.step, contact?, hsv]
          generalize sv.serve h.storage q = out at *
          obtain ⟨result, sv', s'⟩ := out
          rintro _ hsv'
          obtain rfl := Option.some.inj hsv'
          rw [hserve]
          cases result with
          | error e => exact hbefore
          | ok a =>
              cases q.contact? with
              | none => exact hbefore
              | some now => rfl

theorem Stamped.contactFrom (actions : List Action) : ∀ {h : Host} {last : Option Timestamp},
    h.Stamped last → (h.runFrom actions).Stamped (h.contactFrom last actions) := by
  induction actions with
  | nil => exact id
  | cons a rest ih => exact fun hstamp => ih (hstamp.step a)

theorem stamped_run (actions : List Action) : (run actions).Stamped (lastContact? actions) :=
  Stamped.contactFrom actions not_running

end Host

/-! ## The gate -/

/-- The last contact was not more than a number of whole seconds ago.  The first millisecond of 1970
cannot be told from never. -/
def InTouch (last : Option Timestamp) (now : Timestamp) (seconds : Int) : Prop :=
  ∃ contact, last = some contact ∧ contact.millis ≠ 0 ∧
    now.secondsSince (.ofMillis contact.millis) ≤ seconds

theorem InTouch.mono {last : Option Timestamp} {now : Timestamp} {seconds seconds' : Int}
    (h : InTouch last now seconds) (hle : seconds ≤ seconds') : InTouch last now seconds' := by
  obtain ⟨contact, hlast, hne, hage⟩ := h
  exact ⟨contact, hlast, hne, Int.le_trans hage hle⟩

namespace Service

theorem signedSeconds_of_lt {n : Nat} (h : n < 2 ^ 63) : signedSeconds n = n := by
  unfold signedSeconds
  exact Int.bmod_eq_of_le (by omega) (by omega)

/-- A number of seconds that needs all 64 bits is negative as a signed word. -/
theorem signedSeconds_of_le {n : Nat} (h : 2 ^ 63 ≤ n) (hlt : n < 2 ^ 64) :
    signedSeconds n = n - 2 ^ 64 := by
  unfold signedSeconds
  rw [Int.bmod_def]
  omega

variable {sv : Service} {last : Option Timestamp} {now : Timestamp}

/-- A slave compares the seconds since its stamp with its threshold as a signed word. -/
theorem checkFresh_eq_ok_iff (hrole : sv.role = .slave) : sv.checkFresh now = .ok () ↔
    ∃ stamp, sv.replica.store.lastChecked? = some stamp ∧
      now.secondsSince stamp ≤ signedSeconds sv.limits.staleSeconds := by
  rw [checkFresh, if_neg (not_not.mpr hrole)]
  cases sv.replica.store.lastChecked? with
  | none => exact iff_of_false nofun nofun
  | some stamp =>
      simp only [Option.map_some, Option.some.injEq, exists_eq_left']
      split
      · exact iff_of_true rfl ‹_›
      · exact iff_of_false nofun ‹_›

/-- The stamp of a service that is stamped with its last contact. -/
theorem exists_lastChecked_iff
    (hstamp : sv.replica.store.checkedMillis = last.elim 0 Timestamp.millis) (seconds : Int) :
    (∃ stamp, sv.replica.store.lastChecked? = some stamp ∧ now.secondsSince stamp ≤ seconds) ↔
      InTouch last now seconds := by
  unfold Store.lastChecked?
  cases last with
  | none =>
      have hzero : sv.replica.store.checkedMillis = 0 := hstamp
      rw [if_pos hzero]
      exact iff_of_false nofun nofun
  | some contact =>
      have hcontact : sv.replica.store.checkedMillis = contact.millis := hstamp
      rw [hcontact]
      constructor
      · rintro ⟨stamp, hstamp, hage⟩
        split at hstamp
        · cases hstamp
        · rename_i hne
          cases hstamp
          exact ⟨contact, rfl, hne, hage⟩
      · rintro ⟨_, hlast, hne, hage⟩
        cases hlast
        exact ⟨_, if_neg hne, hage⟩

/-- Whoever is refused is told that the data are stale. -/
theorem checkFresh_eq_error {e : Error} (h : sv.checkFresh now = .error e) :
    ∃ age, e = .staleData age := by
  unfold checkFresh at h
  split at h
  · cases h
  · split at h
    · exact ⟨_, (Except.error.inj h).symm⟩
    · split at h
      · cases h
      · exact ⟨_, (Except.error.inj h).symm⟩

/-- Clients are answered in a certain case, and otherwise they are told that the data are stale,
which no answer says. -/
structure Gate (sv : Service) (s : Storage) (now : Timestamp) (ctx : Context) (passes : Prop) :
    Prop where
  admits : passes → sv.get s now ctx = sv.answer s ctx
  refuses : ¬ passes → ∃ age, sv.get s now ctx = (.error (.staleData age), sv, s)
  distinct : ∀ age, (sv.answer s ctx).1 ≠ .error (.staleData age)

variable {s : Storage} {ctx : Context} {passes : Prop}

theorem gate_of_iff (h : sv.checkFresh now = .ok () ↔ passes) : sv.Gate s now ctx passes where
  admits hpasses := by rw [get, h.mpr hpasses]
  refuses hnot := by
    cases hcheck : sv.checkFresh now with
    | ok _ => exact absurd (h.mp hcheck) hnot
    | error e =>
        obtain ⟨age, rfl⟩ := checkFresh_eq_error hcheck
        exact ⟨age, by rw [get, hcheck]⟩
  distinct age := by
    unfold answer
    dsimp only
    split <;> nofun

theorem gate_master (hrole : sv.role = .master) : sv.Gate s now ctx True := by
  have hmaster : sv.role ≠ .slave := by simp [hrole]
  have hcheck : sv.checkFresh now = .ok () := by rw [checkFresh, if_pos hmaster]
  exact gate_of_iff (iff_of_true hcheck trivial)

theorem gate_slave (hrole : sv.role = .slave)
    (hstamp : sv.replica.store.checkedMillis = last.elim 0 Timestamp.millis) :
    sv.Gate s now ctx (InTouch last now (signedSeconds sv.limits.staleSeconds)) :=
  gate_of_iff ((checkFresh_eq_ok_iff hrole).trans (exists_lastChecked_iff hstamp _))

theorem Gate.not_stale_iff (h : sv.Gate s now ctx passes) :
    (∀ age, (sv.get s now ctx).1 ≠ .error (.staleData age)) ↔ passes := by
  constructor
  · intro hnever
    by_contra hnot
    obtain ⟨age, hget⟩ := h.refuses hnot
    exact hnever age (congrArg Prod.fst hget)
  · intro hpasses age
    rw [h.admits hpasses]
    exact h.distinct age

/-- The same service with another threshold. -/
def withStaleSeconds (sv : Service) (n : Nat) : Service :=
  { sv with limits := { sv.limits with staleSeconds := n } }

end Service

namespace Host

/-- A master answers every client.  A slave answers if it has heard from the master since it was
started, and if no more whole seconds have passed since then than its threshold, which is to be less
than 2^63; below that, a larger threshold refuses no client that a smaller one admits.  A threshold
from 2^63 on counts as one that is 2^64 less. -/
theorem freshness_gate (actions : List Action) {sv : Service}
    (hsv : (run actions).running = some sv) (s : Storage) (now : Timestamp) (ctx : Context) :
    (sv.role = .master → sv.Gate s now ctx True) ∧
    (sv.role = .slave →
      (sv.limits.staleSeconds < 2 ^ 63 →
        sv.Gate s now ctx (InTouch (lastContact? actions) now sv.limits.staleSeconds)) ∧
      (2 ^ 63 ≤ sv.limits.staleSeconds → sv.limits.staleSeconds < 2 ^ 64 →
        sv.Gate s now ctx
          (InTouch (lastContact? actions) now (sv.limits.staleSeconds - 2 ^ 64)))) ∧
    ∀ n, sv.limits.staleSeconds ≤ n → n < 2 ^ 63 →
      (∀ age, (sv.get s now ctx).1 ≠ .error (.staleData age)) →
        ∀ age, ((sv.withStaleSeconds n).get s now ctx).1 ≠ .error (.staleData age) := by
  have hstamp := stamped_run actions sv hsv
  refine ⟨Service.gate_master, fun hrole => ⟨fun hlt => ?_, fun hle hlt => ?_⟩, ?_⟩
  · rw [← Service.signedSeconds_of_lt hlt]
    exact Service.gate_slave hrole hstamp
  · rw [← Service.signedSeconds_of_le hle hlt]
    exact Service.gate_slave hrole hstamp
  · intro n hle hlt
    cases hrole : sv.role with
    | master =>
        have hraised : (sv.withStaleSeconds n).Gate s now ctx True := Service.gate_master hrole
        exact fun _ => hraised.not_stale_iff.mpr trivial
    | slave =>
        have hgate : sv.Gate s now ctx _ := Service.gate_slave hrole hstamp
        have hraised : (sv.withStaleSeconds n).Gate s now ctx
            (InTouch (lastContact? actions) now (Service.signedSeconds n)) :=
          Service.gate_slave hrole hstamp
        rw [hgate.not_stale_iff, hraised.not_stale_iff,
          Service.signedSeconds_of_lt (Nat.lt_of_le_of_lt hle hlt), Service.signedSeconds_of_lt hlt]
        exact fun htouch => htouch.mono (Int.ofNat_le.mpr hle)

/-- A moment in 2023. -/
def syncedAt : Timestamp := ⟨1700000000, 123456789⟩

/-- A slave with a threshold that is told in its first round that it is at the version of the
master. -/
def syncedRun (threshold : Nat) : List Action :=
  [.start ⟨"http://s", .slave, some "http://m", false⟩ ⟨threshold, 0, 2⟩ ⟨syncedAt, "v0", "t0"⟩,
    .request (.sync syncedAt (.ok (.initial "t0" syncedAt)) (.error .notPermitted))]

/-- A slave that waits for a minute answers after a minute, and not after a minute and a second. -/
theorem freshness_gate_syncedRun : ∃ sv, (run (syncedRun 60)).running = some sv ∧
    sv.role = .slave ∧ ∀ s ctx,
      (∀ age, (sv.get s ⟨1700000060, 999999999⟩ ctx).1 ≠ .error (.staleData age)) ∧
      (∃ age, sv.get s ⟨1700000061, 123456789⟩ ctx = (.error (.staleData age), sv, s)) ∧
      ∀ age, ((sv.withStaleSeconds 61).get s ⟨1700000060, 999999999⟩ ctx).1 ≠
        .error (.staleData age) := by
  let sv := (run (syncedRun 60)).running.get (by decide +kernel)
  have hsv : (run (syncedRun 60)).running = some sv := (Option.some_get _).symm
  have hrole : sv.role = .slave := by decide +kernel
  have hlimit : sv.limits.staleSeconds = 60 := by decide +kernel
  have hcontact : lastContact? (syncedRun 60) = some syncedAt := by decide +kernel
  have hlt : sv.limits.staleSeconds < 2 ^ 63 := by rw [hlimit]; decide
  have hgate : ∀ s now ctx, sv.Gate s now ctx (InTouch (some syncedAt) now 60) := by
    intro s now ctx
    have hgate := ((freshness_gate (syncedRun 60) hsv s now ctx).2.1 hrole).1 hlt
    rwa [hcontact, hlimit] at hgate
  refine ⟨sv, hsv, hrole, fun s ctx => ?_⟩
  have hfresh : ∀ age, (sv.get s ⟨1700000060, 999999999⟩ ctx).1 ≠ .error (.staleData age) :=
    (hgate s _ ctx).not_stale_iff.mpr ⟨syncedAt, rfl, by decide, by decide⟩
  refine ⟨hfresh, (hgate s _ ctx).refuses ?_, ?_⟩
  · rintro ⟨contact, hlast, -, hage⟩
    obtain rfl := Option.some.inj hlast
    exact absurd hage (by decide)
  · exact (freshness_gate (syncedRun 60) hsv s _ ctx).2.2 61 (by rw [hlimit]; decide) (by decide)
      hfresh

/-- A slave that was given 2^63 seconds does not even answer at the moment of its contact with the
master. -/
theorem not_freshness_gate :
    ¬ ∀ actions sv, (run actions).running = some sv → sv.role = .slave →
      sv.limits.staleSeconds < 2 ^ 64 → ∀ s now ctx,
        sv.Gate s now ctx (InTouch (lastContact? actions) now sv.limits.staleSeconds) := by
  intro h
  let sv := (run (syncedRun (2 ^ 63))).running.get (by decide +kernel)
  have hsv : (run (syncedRun (2 ^ 63))).running = some sv := (Option.some_get _).symm
  have hrole : sv.role = .slave := by decide +kernel
  have hlimit : sv.limits.staleSeconds = 2 ^ 63 := by decide +kernel
  have hcontact : lastContact? (syncedRun (2 ^ 63)) = some syncedAt := by decide +kernel
  have hclaimed := h _ sv hsv hrole (by rw [hlimit]; decide) .empty syncedAt .empty
  have hsigned : sv.Gate .empty syncedAt .empty
      (InTouch (lastContact? (syncedRun (2 ^ 63))) syncedAt (Service.signedSeconds (2 ^ 63))) :=
    hlimit ▸ Service.gate_slave hrole (stamped_run _ sv hsv)
  rw [hcontact] at hclaimed hsigned
  have htouch : InTouch (some syncedAt) syncedAt sv.limits.staleSeconds :=
    ⟨syncedAt, rfl, by decide, by rw [hlimit]; decide⟩
  obtain ⟨contact, hlast, -, hage⟩ :=
    hsigned.not_stale_iff.mp (hclaimed.not_stale_iff.mpr htouch)
  obtain rfl := Option.some.inj hlast
  exact absurd hage (by decide)

end Host

end RemoteConfig
