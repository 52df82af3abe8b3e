import RemoteConfig.Proofs.Restart
import RemoteConfig.Proofs.Sharing
import RemoteConfig.Recorder
/-! # Recording beside other work

Between any two steps of the consumer of a recorder a replica may write to the same storage, commits
may be told to fail, and the recorder may be started anew.

Whatever the order, when the queue is drained the known values are those in storage.  In a service
that takes in values at once they always are. -/

namespace RemoteConfig

open Table

/-! ## Rows of attribute values -/

def ClientAttribute.rowKey (a : ClientAttribute) : RecordKey := (Record.clientAttribute a).uniqueKey

namespace Storage

variable {s s' : Storage} {a : ClientAttribute}

/-- The storage has a row of an attribute value. -/
def Holds (s : Storage) (a : ClientAttribute) : Prop :=
  s.rows[a.rowKey]? = some (.clientAttribute a)

theorem not_holds_empty : ¬ empty.Holds a := by simp [Holds, empty]

theorem mem_findAll_clientAttribute (h : s.rows.WellKeyed) {r : Record} :
    r ∈ s.findAll .clientAttribute ↔ ∃ a, r = .clientAttribute a ∧ s.Holds a := by
  rw [mem_findAll_iff h]
  constructor
  · rintro ⟨hr, hkind⟩
    cases r with
    | clientAttribute a => exact ⟨a, rfl, hr⟩
    | entity e => cases hkind
    | dataVersion v => cases hkind
  · rintro ⟨a, rfl, ha⟩
    exact ⟨ha, rfl⟩

theorem SparesAttributes.holds_iff (h : s.SparesAttributes s') : s'.Holds a ↔ s.Holds a := by
  rw [Holds, Holds, h.attributes _ rfl]

/-- A row with a new key is held beside those that were there. -/
theorem holds_insert_iff {b : ClientAttribute} (hnew : a.rowKey ∉ s.rows) :
    Holds { s with rows := s.rows.insert a.rowKey (.clientAttribute a) } b ↔ b = a ∨ s.Holds b := by
  simp only [Holds, getElem?_insert_ite]
  by_cases hkey : b.rowKey = a.rowKey
  · have hnone : s.rows[b.rowKey]? = none := by
      rw [hkey]
      exact Std.ExtTreeMap.getElem?_eq_none hnew
    simp [hkey ▸ hnone, hkey, eq_comm]
  · have hne : b ≠ a := fun heq => hkey (heq ▸ rfl)
    simp [hkey, hne]

/-- How the transaction of one new row can end. -/
theorem commit_insert_cases (s : Storage) (r : Record) :
    (s.failsNext = false ∧ r.uniqueKey ∉ s.rows ∧ s.commit (Transaction.empty.insert r) =
      (.ok (), { s with rows := s.rows.insert r.uniqueKey r })) ∨
    ((s.failsNext = true ∨ r.uniqueKey ∈ s.rows) ∧ ∃ fault,
      s.commit (Transaction.empty.insert r) = (.error fault, { s with failsNext := false })) := by
  cases hfail : s.failsNext with
  | true => exact Or.inr ⟨Or.inl rfl, _, commit_of_failsNext hfail _⟩
  | false =>
      by_cases hmem : r.uniqueKey ∈ s.rows
      · right
        have hrun : Operation.runAll s.rows [.insert r] = .error (.duplicateKey r.uniqueKey) := by
          simp only [Operation.runAll, Operation.run, if_pos hmem]
          rfl
        exact ⟨Or.inr hmem, _, (commit_of_runAll_error hfail hrun).trans (by rw [← hfail])⟩
      · left
        have hrun : Operation.runAll s.rows [.insert r] = .ok (s.rows.insert r.uniqueKey r) := by
          simp only [Operation.runAll, Operation.run, if_neg hmem]
          rfl
        exact ⟨rfl, hmem, (commit_of_runAll hfail hrun).trans (by rw [hfail])⟩

end Storage

namespace Telemetry

theorem mem_known_start {s : Storage} (h : s.rows.WellKeyed) {a : ClientAttribute} :
    a ∈ (start s).known ↔ s.Holds a := by
  simp only [start, List.mem_filterMap, Storage.mem_findAll_clientAttribute h]
  constructor
  · rintro ⟨r, ⟨b, rfl, hb⟩, heq⟩
    cases heq
    exact hb
  · exact fun ha => ⟨_, ⟨a, rfl, ha⟩, rfl⟩

/-- What a client shows for an app are its values of the recorded attributes, as far as they are not
empty. -/
theorem mem_observed {appKey : String} {ctx : Context} {a : ClientAttribute} :
    a ∈ observed appKey ctx ↔ appKey ≠ "" ∧
      ∃ attr ∈ recorded, ctx.get attr ≠ "" ∧ a = ⟨appKey, attr.symbol, ctx.get attr⟩ := by
  by_cases hkey : appKey = ""
  · simp [observed, hkey]
  · have hempty : ¬ appKey.isEmpty = true := by simpa using hkey
    rw [observed, if_neg hempty]
    simp only [List.mem_map, List.mem_filter, Bool.not_eq_true', String.isEmpty_eq_false_iff, hkey,
      ne_eq, not_false_eq_true, true_and, and_assoc, eq_comm (b := a)]

end Telemetry

/-! ## Recorders -/

def Task.value : Task → ClientAttribute
  | store a => a
  | forget a => a

namespace Recorder

/-- The value that the consumer is at. -/
def begun (r : Recorder) : Option ClientAttribute := r.task.map Task.value

theorem begun_of_task {r : Recorder} {task : Task} (h : r.task = some task) :
    r.begun = some task.value := by
  rw [begun, h, Option.map_some]

/-- All that was seen is settled. -/
def Drained (r : Recorder) : Prop := r.queue = [] ∧ r.task = none

/-- What a step of the consumer can do. -/
inductive Consumed (r : Recorder) (s : Storage) : Recorder × Storage → Prop
  | idle (h : r.Drained) : Consumed r s (r, s)
  | skipped {a : ClientAttribute} {rest : List ClientAttribute} (htask : r.task = none)
      (hqueue : r.queue = a :: rest) (hknown : a ∈ r.telemetry.known) :
      Consumed r s ({ r with queue := rest }, s)
  | taken {a : ClientAttribute} {rest : List ClientAttribute} (htask : r.task = none)
      (hqueue : r.queue = a :: rest) (hknown : a ∉ r.telemetry.known) :
      Consumed r s (⟨⟨a :: r.telemetry.known⟩, rest, some (.store a)⟩, s)
  | stored {a : ClientAttribute} (htask : r.task = some (.store a)) (hcalm : s.failsNext = false)
      (hnew : a.rowKey ∉ s.rows) :
      Consumed r s
        ({ r with task := none }, { s with rows := s.rows.insert a.rowKey (.clientAttribute a) })
  | failed {a : ClientAttribute} (htask : r.task = some (.store a))
      (hfault : s.failsNext = true ∨ a.rowKey ∈ s.rows) :
      Consumed r s ({ r with task := some (.forget a) }, { s with failsNext := false })
  | forgotten {a : ClientAttribute} (htask : r.task = some (.forget a)) :
      Consumed r s
        ({ r with telemetry := ⟨r.telemetry.known.filter (· ≠ a)⟩, task := none }, s)

theorem consume_consumed (r : Recorder) (s : Storage) : r.Consumed s (r.consume s) := by
  unfold consume
  split
  · exact .idle ⟨‹_›, ‹_›⟩
  · split
    · exact .skipped ‹_› ‹_› ‹_›
    · exact .taken ‹_› ‹_› ‹_›
  · rename_i _ a htask
    rcases s.commit_insert_cases (.clientAttribute a) with ⟨hcalm, hnew, h⟩ | ⟨hfault, fault, h⟩
    · rw [h]
      exact .stored htask hcalm hnew
    · rw [h]
      exact .failed htask hfault
  · exact .forgotten ‹_›

/-- How many steps are left at most. -/
def work (r : Recorder) : Nat :=
  3 * r.queue.length + match r.task with
    | none => 0
    | some (.store _) => 2
    | some (.forget _) => 1

theorem work_consume {r : Recorder} (h : ¬ r.Drained) (s : Storage) :
    (r.consume s).1.work < r.work := by
  have hconsumed := r.consume_consumed s
  generalize r.consume s = out at *
  cases hconsumed with
  | idle hdrained => exact absurd hdrained h
  | skipped htask hqueue _ =>
      simp only [work, htask, hqueue, List.length_cons]
      omega
  | taken htask hqueue _ =>
      simp only [work, htask, hqueue, List.length_cons]
      omega
  | stored htask _ _ => simp [work, htask]
  | failed htask _ => simp [work, htask]
  | forgotten htask => simp [work, htask]

/-- Every queue is drained by some number of steps. -/
theorem exists_drained (r : Recorder) (s : Storage) :
    ∃ n, ((Function.uncurry consume)^[n] (r, s)).1.Drained := by
  induction hwork : r.work using Nat.strong_induction_on generalizing r s with
  | h w ih =>
      by_cases hdrained : r.Drained
      · exact ⟨0, hdrained⟩
      · obtain ⟨n, hn⟩ := ih _ (hwork ▸ work_consume hdrained s) _ (r.consume s).2 rfl
        exact ⟨n + 1, hn⟩

/-! ### Undisturbed consumers -/

/-- A consumer that is left alone takes in a value as `learn` does. -/
theorem exists_consume_learn {r : Recorder} {a : ClientAttribute} {rest : List ClientAttribute}
    (htask : r.task = none) (hqueue : r.queue = a :: rest) (s : Storage) :
    ∃ n, (Function.uncurry consume)^[n] (r, s) =
      (⟨(r.telemetry.learn s a).1, rest, none⟩, (r.telemetry.learn s a).2) := by
  obtain ⟨t, queue, task⟩ := r
  obtain rfl : task = none := htask
  obtain rfl : queue = a :: rest := hqueue
  by_cases hknown : a ∈ t.known
  · refine ⟨1, ?_⟩
    simp [consume, Telemetry.learn, hknown]
  · have htaken : consume ⟨t, a :: rest, none⟩ s =
        (⟨⟨a :: t.known⟩, rest, some (.store a)⟩, s) := by simp [consume, hknown]
    rcases s.commit_insert_cases (.clientAttribute a) with ⟨-, -, h⟩ | ⟨-, fault, h⟩
    · refine ⟨2, ?_⟩
      rw [Function.iterate_succ_apply, Function.uncurry_apply_pair, htaken]
      simp [consume, Telemetry.learn, hknown, h]
    · -- the value that was noted first is struck out again
      have hstruck : (a :: t.known).filter (· ≠ a) = t.known := by
        rw [List.filter_cons_of_neg (by simp), List.filter_eq_self]
        exact fun b hb => decide_eq_true fun heq => hknown (heq ▸ hb)
      refine ⟨3, ?_⟩
      rw [Function.iterate_succ_apply, Function.uncurry_apply_pair, htaken]
      simp only [Function.iterate_succ_apply, Function.uncurry_apply_pair,
        Function.iterate_zero_apply, consume, Telemetry.learn, hknown, if_false, h, hstruck]

/-- A consumer that is left alone takes in the queue as `learnAll` does. -/
theorem exists_consume_learnAll (queue : List ClientAttribute) : ∀ (t : Telemetry) (s : Storage),
    ∃ n, (Function.uncurry consume)^[n] (⟨t, queue, none⟩, s) =
      (⟨(t.learnAll s queue).1, [], none⟩, (t.learnAll s queue).2) := by
  induction queue with
  | nil => exact fun t s => ⟨0, rfl⟩
  | cons a rest ih =>
      intro t s
      obtain ⟨n, hn⟩ := exists_consume_learn (r := ⟨t, a :: rest, none⟩) rfl rfl s
      obtain ⟨m, hm⟩ := ih (t.learn s a).1 (t.learn s a).2
      exact ⟨m + n, by rw [Function.iterate_add_apply, hn, hm]; rfl⟩

end Recorder

/-! ## Recordings -/

/-- A storage, a recorder on it, and a replica if one runs. -/
structure Recording where
  storage : Storage
  replica : Option Replica
  recorder : Recorder

namespace Recording

/-- What can happen at any moment.  A restart ends the recorder that was there, at whatever step it
was; a recorder that is shut down takes its last steps before. -/
inductive Event where
  | restart
  | record (appKey : String) (ctx : Context)
  | consume
  | failNextCommit
  | replicate (op : Replication)

/-- Whether an event is one of the recorder. -/
def Event.recording : Event → Bool
  | restart | record _ _ | consume => true
  | failNextCommit | replicate _ => false

def begin : Recording := ⟨.empty, none, .start .empty⟩

def step (st : Recording) : Event → Recording
  | .restart => { st with recorder := .start st.storage }
  | .record appKey ctx => { st with recorder := st.recorder.record appKey ctx }
  | .consume =>
    let (recorder, s) := st.recorder.consume st.storage
    { st with storage := s, recorder := recorder }
  | .failNextCommit => { st with storage := st.storage.failNextCommit }
  | .replicate op =>
    let (replica, s) := op.run st.replica st.storage
    { st with storage := s, replica := replica }

def run (events : List Event) : Recording := events.foldl step begin

theorem run_append (events more : List Event) :
    run (events ++ more) = more.foldl step (run events) :=
  List.foldl_append

/-- Steps of the consumer with nothing in between. -/
theorem run_append_consume (events : List Event) (n : Nat) :
    let out := (Function.uncurry Recorder.consume)^[n] ((run events).recorder, (run events).storage)
    run (events ++ List.replicate n .consume) =
      { run events with recorder := out.1, storage := out.2 } := by
  rw [run_append]
  generalize run events = st
  induction n generalizing st with
  | zero => rfl
  | succ n ih => exact ih (st.step .consume)

/-- The queue can be drained at any time. -/
theorem exists_run_drained (events : List Event) :
    ∃ n, (run (events ++ List.replicate n .consume)).recorder.Drained := by
  obtain ⟨n, hn⟩ := (run events).recorder.exists_drained (run events).storage
  exact ⟨n, by rw [run_append_consume]; exact hn⟩

/-- A recorder that has settled all else, and is then left alone, does what a service does at
once. -/
theorem exists_run_record {events : List Event} (h : (run events).recorder.Drained)
    (appKey : String) (ctx : Context) :
    ∃ n, run (events ++ [.record appKey ctx] ++ List.replicate n .consume) =
      let out := (run events).recorder.telemetry.record (run events).storage appKey ctx
      { run events with recorder := ⟨out.1, [], none⟩, storage := out.2 } := by
  have hqueue : (run (events ++ [.record appKey ctx])).recorder =
      ⟨(run events).recorder.telemetry, Telemetry.observed appKey ctx, none⟩ := by
    rw [run_append]
    simp [step, Recorder.record, h.1, h.2]
  obtain ⟨n, hn⟩ := Recorder.exists_consume_learnAll (Telemetry.observed appKey ctx)
    (run events).recorder.telemetry (run events).storage
  refine ⟨n, ?_⟩
  have hstorage : (run (events ++ [.record appKey ctx])).storage = (run events).storage := by
    rw [run_append]
    rfl
  rw [run_append_consume, hqueue, hstorage, hn, run_append]
  rfl

/-! ## Memory and storage -/

/-- A value that a client of some app had when it was recorded. -/
def Observed (events : List Event) (a : ClientAttribute) : Prop :=
  ∃ appKey ctx, .record appKey ctx ∈ events ∧ a ∈ Telemetry.observed appKey ctx

theorem Observed.append {events : List Event} {a : ClientAttribute} (h : Observed events a)
    (more : List Event) : Observed (events ++ more) a := by
  obtain ⟨appKey, ctx, hevent, ha⟩ := h
  exact ⟨appKey, ctx, List.mem_append_left _ hevent, ha⟩

/-- Known is what is stored, and beside it at most the value that the consumer is at.  All of this
was seen, and so was what is queued. -/
structure Agrees (seen : ClientAttribute → Prop) (s : Storage) (r : Recorder) : Prop where
  keyed : s.rows.WellKeyed
  known : ∀ a, a ∈ r.telemetry.known ↔ s.Holds a ∨ r.begun = some a
  unstored : ∀ a, r.begun = some a → ¬ s.Holds a
  stored_seen : ∀ a, s.Holds a → seen a
  begun_seen : ∀ a, r.begun = some a → seen a
  queue_seen : ∀ a ∈ r.queue, seen a

namespace Agrees

variable {seen seen' : ClientAttribute → Prop} {s s' : Storage} {r : Recorder}

theorem imp (h : Agrees seen s r) (hseen : ∀ a, seen a → seen' a) : Agrees seen' s r :=
  { h with
    stored_seen := fun a ha => hseen a (h.stored_seen a ha)
    begun_seen := fun a ha => hseen a (h.begun_seen a ha)
    queue_seen := fun a ha => hseen a (h.queue_seen a ha) }

theorem start (hk : s.rows.WellKeyed) (hseen : ∀ a, s.Holds a → seen a) :
    Agrees seen s (.start s) where
  keyed := hk
  known _ := (Telemetry.mem_known_start hk).trans (or_iff_left nofun).symm
  unstored := nofun
  stored_seen := hseen
  begun_seen := nofun
  queue_seen := nofun

theorem record (h : Agrees seen s r) {appKey : String} {ctx : Context}
    (hseen : ∀ a ∈ Telemetry.observed appKey ctx, seen a) : Agrees seen s (r.record appKey ctx) :=
  { h with queue_seen := fun a ha => (List.mem_append.mp ha).elim (h.queue_seen a) (hseen a) }

/-- Rows of other kinds, and what was ordered for the next commit, do not count. -/
theorem spares (h : Agrees seen s r) (hk : s'.rows.WellKeyed) (hs : ∀ a, s'.Holds a ↔ s.Holds a) :
    Agrees seen s' r where
  keyed := hk
  known a := by rw [hs, h.known]
  unstored a ha := by rw [hs]; exact h.unstored a ha
  stored_seen a ha := h.stored_seen a ((hs a).mp ha)
  begun_seen := h.begun_seen
  queue_seen := h.queue_seen

/-- The step lemma of consumers. -/
theorem consume (h : Agrees seen s r) : Agrees seen (r.consume s).2 (r.consume s).1 := by
  have hconsumed := r.consume_consumed s
  generalize r.consume s = out at *
  cases hconsumed with
  | idle _ => exact h
  | @skipped a rest htask hqueue hmem =>
      exact { h with queue_seen := fun b hb => h.queue_seen b (hqueue ▸ List.mem_cons_of_mem _ hb) }
  | @taken a rest htask hqueue hmem =>
      have hbegun : r.begun = none := by rw [Recorder.begun, htask]; rfl
      have hknown : ∀ b, b ∈ r.telemetry.known ↔ s.Holds b := by simpa [hbegun] using h.known
      refine ⟨h.keyed, fun b => ?_, fun b hb => ?_, h.stored_seen, fun b hb => ?_, fun b hb => ?_⟩
      · simp [Recorder.begun, Task.value, hknown, or_comm, eq_comm]
      · obtain rfl := Option.some.inj hb
        exact fun hholds => hmem ((hknown _).mpr hholds)
      · obtain rfl := Option.some.inj hb
        exact h.queue_seen _ (hqueue ▸ List.mem_cons_self)
      · exact h.queue_seen b (hqueue ▸ List.mem_cons_of_mem _ hb)
  | @stored a htask hcalm hnew =>
      have hbegun : r.begun = some a := Recorder.begun_of_task htask
      refine ⟨Rows.wellKeyed_insert h.keyed (.clientAttribute a), fun b => ?_, nofun,
        fun b hb => ?_, nofun, h.queue_seen⟩
      · rw [Storage.holds_insert_iff hnew, h.known, hbegun]
        simp [Recorder.begun, or_comm, eq_comm]
      · rcases (Storage.holds_insert_iff hnew).mp hb with rfl | hb
        · exact h.begun_seen b hbegun
        · exact h.stored_seen b hb
  | @failed a htask hfault =>
      have hbegun : r.begun = some a := Recorder.begun_of_task htask
      refine ⟨h.keyed, fun b => ?_, fun b hb => ?_, h.stored_seen, fun b hb => ?_, h.queue_seen⟩
      · exact (h.known b).trans (by rw [hbegun]; rfl)
      · exact h.unstored b (hbegun.trans hb)
      · exact h.begun_seen b (hbegun.trans hb)
  | @forgotten a htask =>
      have hbegun : r.begun = some a := Recorder.begun_of_task htask
      refine ⟨h.keyed, fun b => ?_, nofun, h.stored_seen, nofun, h.queue_seen⟩
      rw [List.mem_filter, h.known, hbegun, decide_eq_true_eq, Option.some_inj]
      constructor
      · rintro ⟨hb | hb, hne⟩
        · exact Or.inl hb
        · exact absurd hb.symm hne
      · rintro (hb | hb)
        · exact ⟨Or.inl hb, fun heq => h.unstored a hbegun (heq ▸ hb)⟩
        · cases hb

/-- The step lemma of recordings. -/
theorem step {past : List Event} {st : Recording}
    (h : Agrees (Observed past) st.storage st.recorder) (e : Event) :
    Agrees (Observed (past ++ [e])) (st.step e).storage (st.step e).recorder := by
  have h' := h.imp fun _ ha => ha.append [e]
  cases e with
  | restart => exact .start h.keyed h'.stored_seen
  | record appKey ctx =>
      exact h'.record fun a ha => ⟨appKey, ctx, List.mem_append_right _ List.mem_cons_self, ha⟩
  | consume => exact h'.consume
  | failNextCommit => exact h'.spares h.keyed fun _ => Iff.rfl
  | replicate op =>
      have hspares := op.sparesAttributes_run st.replica st.storage
      exact h'.spares (hspares.keyed h.keyed) fun _ => hspares.holds_iff

end Agrees

theorem agrees_run (events : List Event) :
    Agrees (Observed events) (run events).storage (run events).recorder := by
  induction events using List.reverseRecOn with
  | nil => exact .start Rows.wellKeyed_empty fun a ha => absurd ha Storage.not_holds_empty
  | append_singleton past e ih =>
      rw [run_append]
      exact ih.step e

/-- Rows of attribute values are neither changed nor removed. -/
theorem getElem?_step {st : Recording} {key : RecordKey} {r : Record}
    (hkey : key.kind = .clientAttribute) (h : st.storage.rows[key]? = some r) (e : Event) :
    (st.step e).storage.rows[key]? = some r := by
  cases e with
  | restart => exact h
  | record appKey ctx => exact h
  | consume =>
      have hconsumed := st.recorder.consume_consumed st.storage
      simp only [step]
      generalize st.recorder.consume st.storage = out at *
      cases hconsumed with
      | @stored a htask hcalm hnew =>
          have hne : key ≠ a.rowKey := by
            rintro rfl
            rw [Std.ExtTreeMap.getElem?_eq_none hnew] at h
            cases h
          rw [getElem?_insert_ite, if_neg hne]
          exact h
      | _ => exact h
  | failNextCommit => exact h
  | replicate op =>
      exact ((op.sparesAttributes_run st.replica st.storage).attributes key hkey).trans h

theorem getElem?_run_append {events : List Event} {key : RecordKey} {r : Record}
    (hkey : key.kind = .clientAttribute) (h : (run events).storage.rows[key]? = some r)
    (more : List Event) : (run (events ++ more)).storage.rows[key]? = some r := by
  rw [run_append]
  exact List.foldlRecOn (motive := fun st : Recording => st.storage.rows[key]? = some r) more step h
    fun _ h e _ => getElem?_step hkey h e

/-- The recorder has no effect on other rows, nor on the replica. -/
theorem sameData_step (st : Recording) {e : Event} (he : e.recording = true) :
    st.storage.SameData (st.step e).storage ∧ (st.step e).replica = st.replica := by
  cases e with
  | restart => exact ⟨.refl _, rfl⟩
  | record appKey ctx => exact ⟨.refl _, rfl⟩
  | consume =>
      refine ⟨?_, rfl⟩
      have hconsumed := st.recorder.consume_consumed st.storage
      simp only [step]
      generalize st.recorder.consume st.storage = out at *
      cases hconsumed with
      | @stored a htask hcalm hnew =>
          intro key hkey
          rw [getElem?_insert_ite, if_neg]
          rintro rfl
          exact hkey rfl
      | _ => exact fun _ _ => rfl
  | failNextCommit => cases he
  | replicate op => cases he

/-- Memory and storage agree when the queue is drained, as it can be at any time.  What is stored
was seen, and stays.  The recorder does nothing to other rows, nor to what is loaded from them. -/
theorem memory_agrees_with_storage (events : List Event) :
    let st := run events
    (∃ n, (run (events ++ List.replicate n .consume)).recorder.Drained) ∧
    (st.recorder.Drained → ∀ a, a ∈ st.recorder.telemetry.known ↔
      .clientAttribute a ∈ st.storage.findAll .clientAttribute) ∧
    (∀ r ∈ st.storage.findAll .clientAttribute, ∃ appKey ctx attr, .record appKey ctx ∈ events ∧
      appKey ≠ "" ∧ attr ∈ Telemetry.recorded ∧ ctx.get attr ≠ "" ∧
      r = .clientAttribute ⟨appKey, attr.symbol, ctx.get attr⟩) ∧
    (∀ (key : RecordKey) r more, key.kind = .clientAttribute → st.storage.rows[key]? = some r →
      (run (events ++ more)).storage.rows[key]? = some r) ∧
    (∀ e, e.recording = true → st.storage.SameData (st.step e).storage ∧
      (st.step e).storage.load = st.storage.load ∧ (st.step e).replica = st.replica) := by
  intro st
  have h : Agrees (Observed events) st.storage st.recorder := agrees_run events
  refine ⟨exists_run_drained events, ?_, ?_,
    fun key r more hkey hr => getElem?_run_append hkey hr more, ?_⟩
  · rintro ⟨-, htask⟩ a
    rw [h.known, Recorder.begun, htask, Storage.mem_findAll_clientAttribute h.keyed]
    simp
  · intro r hr
    obtain ⟨a, rfl, ha⟩ := (Storage.mem_findAll_clientAttribute h.keyed).mp hr
    obtain ⟨appKey, ctx, hevent, hmem⟩ := h.stored_seen a ha
    obtain ⟨hkey, attr, hattr, hvalue, rfl⟩ := Telemetry.mem_observed.mp hmem
    exact ⟨appKey, ctx, attr, hevent, hkey, hattr, hvalue, rfl⟩
  · intro e he
    obtain ⟨hdata, hreplica⟩ := st.sameData_step he
    exact ⟨hdata, hdata.load_eq, hreplica⟩

end Recording

/-! ## Services -/

/-- Values that are taken in at once keep memory and storage in agreement. -/
theorem Telemetry.mem_known_learnAll {t : Telemetry} {s : Storage} (hk : s.rows.WellKeyed)
    (h : ∀ a, a ∈ t.known ↔ s.Holds a) (as : List ClientAttribute) (a : ClientAttribute) :
    a ∈ (t.learnAll s as).1.known ↔ (t.learnAll s as).2.Holds a := by
  have hbegin : Recording.Agrees (fun _ => True) s ⟨t, as, none⟩ :=
    ⟨hk, fun b => (h b).trans (or_iff_left nofun).symm, nofun, fun _ _ => trivial,
      fun _ _ => trivial, fun _ _ => trivial⟩
  have hiterate : ∀ (n : Nat) (p : Recorder × Storage), Recording.Agrees (fun _ => True) p.2 p.1 →
      Recording.Agrees (fun _ => True) ((Function.uncurry Recorder.consume)^[n] p).2
        ((Function.uncurry Recorder.consume)^[n] p).1 := by
    intro n
    induction n with
    | zero => exact fun _ hp => hp
    | succ n ih => exact fun p hp => ih _ hp.consume
  obtain ⟨n, hn⟩ := Recorder.exists_consume_learnAll as t s
  have hend := hiterate n (⟨t, as, none⟩, s) hbegin
  rw [hn] at hend
  exact (hend.known a).trans (or_iff_left nofun)

namespace Host

/-- The recorder of the running service knows what is stored. -/
def Informed (h : Host) : Prop :=
  ∀ sv, h.running = some sv → ∀ a, a ∈ sv.telemetry.known ↔ h.storage.Holds a

theorem informed_serve {sv : Service} {s : Storage} (hk : s.rows.WellKeyed)
    (h : ∀ a, a ∈ sv.telemetry.known ↔ s.Holds a) (q : Request) (a : ClientAttribute) :
    a ∈ (sv.serve s q).2.1.telemetry.known ↔ (sv.serve s q).2.2.Holds a := by
  have hreplica : ∀ s', s.SparesAttributes s' → (a ∈ sv.telemetry.known ↔ s'.Holds a) :=
    fun s' hs => (h a).trans hs.holds_iff.symm
  cases q with
  | mutate m expected d =>
      exact hreplica _ (sv.replica.sparesAttributes_mutate s m expected fun _ => .ok d)
  | write m expected w =>
      simp only [Service.serve, Service.write]
      split
      · exact h a
      · exact hreplica _ (sv.replica.sparesAttributes_mutate s m expected (w.delta m.spare))
  | receive now p => exact hreplica _ (sv.replica.sparesAttributes_receive s now p)
  | resync now d => exact hreplica _ (sv.replica.sparesAttributes_resync s now d)
  | sync now version dump =>
      exact hreplica _ (sv.replica.sparesAttributes_sync s now version dump)
  | get now ctx =>
      simp only [Service.serve, Service.get]
      split
      · exact h a
      · simp only [Service.answer]
        split
        · exact h a
        · exact Telemetry.mem_known_learnAll hk h _ a
  | observe b => exact Telemetry.mem_known_learnAll hk h [b] a

theorem Informed.step {h : Host} (hs : h.Synced) (hi : h.Informed) (a : Action) :
    (h.step a).2.Informed := by
  cases a with
  | start settings limits m =>
      have hspares := Replica.sparesAttributes_start h.storage settings m
      simp only [Host.step, Service.start]
      generalize Replica.start settings h.storage m = out at *
      obtain ⟨result, s⟩ := out
      cases result with
      | error e => exact not_running
      | ok started =>
          rintro sv hsv b
          obtain rfl := Option.some.inj hsv
          exact Telemetry.mem_known_start (hspares.keyed hs.sound.keyed)
  | stop => exact not_running
  | failNextCommit => exact hi
  | request q =>
      simp only [Host.step]
      cases hsv : h.running with
      | none =>
          intro sv hsv'
          rw [hsv] at hsv'
          cases hsv'
      | some sv =>
          rintro sv' hsv' b
          obtain rfl := Option.some.inj hsv'
          exact informed_serve hs.sound.keyed (hi sv hsv) q b

/-- Whatever a host went through, its recorder knows exactly what is stored. -/
theorem informed_run (actions : List Action) : (run actions).Informed :=
  runFrom_induction (fun _ a hs hi => hi.step hs a) actions empty synced_empty not_running

end Host

end RemoteConfig
