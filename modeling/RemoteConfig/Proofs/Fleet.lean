import RemoteConfig.Proofs.Lineage
/-! # Fleets

A fleet is a master, with its lineage, and any number of slaves.  What the master told its slaves
stays on the way for good: it reaches any slave at any time, more than once, out of order, or never,
and so do the dumps that the master could have served.  Still every slave is at its own first
version without data, or it agrees with what the master was at the slave's version. -/

namespace RemoteConfig

/-- What the master could have said at any time so far. -/
def Lineage.Offers (l : Lineage) : Action → Prop
  | .request (.receive _ p) => p ∈ l.sent
  | .request (.resync _ d) => ∃ P ∈ l.past, d = P.snapshot.dump
  | .request (.sync _ version dump) =>
    (∀ v, version = .ok v → ∃ P ∈ l.past, v = P.snapshot.dataVersion) ∧
      ∀ d, dump = .ok d → ∃ P ∈ l.past, d = P.snapshot.dump
  | _ => True

structure Fleet (ι : Type) where
  master : Lineage
  slaves : ι → Host

/-- A step of one of the nodes. -/
inductive Event (ι : Type) where
  | master (a : Action)
  | slave (i : ι) (a : Action)

namespace Event

variable {ι : Type}

def action : Event ι → Action
  | master a => a
  | slave _ a => a

/-- The signs that are handed out in the course of events. -/
def tokens (events : List (Event ι)) : List String := events.flatMap fun e => e.action.tokens

end Event

namespace Fleet

variable {ι : Type}

/-- All nodes begin with empty storages. -/
def empty : Fleet ι := ⟨.empty, fun _ => .empty⟩

/-- Every node keeps its role, and slaves hear only what the master could have said. -/
def Admits (f : Fleet ι) : Event ι → Prop
  | .master a => a.StartsAs .master
  | .slave _ a => a.StartsAs .slave ∧ f.master.Offers a

variable [DecidableEq ι]

def step (f : Fleet ι) : Event ι → Fleet ι
  | .master a => { f with master := f.master.step a }
  | .slave i a => { f with slaves := Function.update f.slaves i ((f.slaves i).step a).2 }

/-- The events that can lead from one fleet to another. -/
inductive Run (f₀ : Fleet ι) : List (Event ι) → Fleet ι → Prop
  | refl : Run f₀ [] f₀
  | step {events : List (Event ι)} {f : Fleet ι} (e : Event ι) (hrun : Run f₀ events f)
      (he : f.Admits e) : Run f₀ (events ++ [e]) (f.step e)

theorem Run.trans {f₀ f f' : Fleet ι} {events events' : List (Event ι)} (h : Run f₀ events f)
    (h' : Run f events' f') : Run f₀ (events ++ events') f' := by
  induction h' with
  | refl => rwa [List.append_nil]
  | step e hrun he ih =>
      rw [← List.append_assoc]
      exact ih.step e he

end Fleet

/-! ## Agreement -/

/-- A state that agrees with one of the lineage, apart from the progress that nodes note. -/
def Lineage.Covers (l : Lineage) (snap : Snapshot) : Prop :=
  ∃ P ∈ l.past, P.snapshot.dataVersion = snap.dataVersion ∧
    P.snapshot.entity?.withoutProgress = snap.entity?.withoutProgress

/-- A state without data, whose sign is none of the lineage. -/
structure Lineage.Precedes (l : Lineage) (m : Moment) (snap : Snapshot) : Prop where
  version : snap.dataVersion = .initial m.spare m.now
  holdings : snap.entity? = Holdings.empty
  unknown : ∀ P ∈ l.past, P.snapshot.dataVersion.sign ≠ m.spare

/-- What holds of a slave: it is stored where it began, or where the lineage was. -/
structure Lineage.Leads (l : Lineage) (tokens : List String) (began : Moment → Prop) (h : Host) :
    Prop where
  synced : h.Synced
  role : h.RunsAs .slave
  state : ∀ snap, h.storage.Mirrors snap →
    l.Covers snap ∨ ∃ m, began m ∧ m.spare ∈ tokens ∧ l.Precedes m snap

namespace Lineage

variable {l : Lineage} {tokens : List String} {began : Moment → Prop} {h : Host} {a : Action}

theorem leads_empty (l : Lineage) : l.Leads [] began Host.empty where
  synced := Host.synced_empty
  role := Host.not_running
  state snap hsnap := by
    have hv : Storage.empty.dataVersion? = none := Storage.dataVersion?_of_sameData_empty (.refl _)
    exact nomatch hv.symm.trans hsnap.dataVersion?_eq

theorem Leads.mono {tokens' : List String} {began' : Moment → Prop} (hl : l.Leads tokens began h)
    (ht : tokens ⊆ tokens') (hb : ∀ m, began m → began' m) : l.Leads tokens' began' h where
  synced := hl.synced
  role := hl.role
  state snap hsnap := (hl.state snap hsnap).imp_right
    fun ⟨m, hm, hmem, hprec⟩ => ⟨m, hb m hm, ht hmem, hprec⟩

/-- A step of the master takes no slave out of its lead. -/
theorem Leads.step_master (hl : l.Leads tokens began h) (ho : l.Ordered tokens)
    (ha : a.StartsAs .master) (hfresh : ∀ t ∈ a.tokens, t ∉ tokens) :
    (l.step a).Leads tokens began h where
  synced := hl.synced
  role := hl.role
  state snap hsnap := by
    rcases hl.state snap hsnap with ⟨P, hP, hagree⟩ | ⟨m, hm, hmem, hprec⟩
    · exact Or.inl ⟨P, mem_past_step_of_mem hP, hagree⟩
    · refine Or.inr ⟨m, hm, hmem, hprec.version, hprec.holdings, ?_⟩
      intro Q hQ hsign
      rcases past_cases ho ha hQ with ⟨P, hP, halike⟩ | ⟨hnew, -⟩
      · exact hprec.unknown P hP (by rw [halike.1, hsign])
      · exact hfresh _ (hsign ▸ hnew) hmem

/-- A state that the lineage covers agrees with every state of the lineage that has its sign. -/
theorem Covers.eq_of_sign {snap : Snapshot} (hc : l.Covers snap) (ho : l.Ordered tokens)
    {P : Service} (hP : P ∈ l.past)
    (hsign : P.snapshot.dataVersion.sign = snap.dataVersion.sign) :
    P.snapshot.dataVersion = snap.dataVersion ∧
      P.snapshot.entity?.withoutProgress = snap.entity?.withoutProgress := by
  obtain ⟨Q, hQ, hv, hagree⟩ := hc
  have halike := ho.unique P hP Q hQ (by rw [hv, hsign])
  exact ⟨halike.1.trans hv, by rw [halike.2, hagree]⟩

/-- A stored state agrees with every state of the lineage that has its sign. -/
theorem Leads.agrees_of_sign (hl : l.Leads tokens began h) (ho : l.Ordered tokens) {snap : Snapshot}
    (hsnap : h.storage.Mirrors snap) {P : Service} (hP : P ∈ l.past)
    (hsign : P.snapshot.dataVersion.sign = snap.dataVersion.sign) :
    P.snapshot.entity?.withoutProgress = snap.entity?.withoutProgress := by
  rcases hl.state snap hsnap with hcovers | ⟨m, -, -, hprec⟩
  · exact (hcovers.eq_of_sign ho hP hsign).2
  · refine absurd ?_ (hprec.unknown P hP)
    rw [hsign, hprec.version]
    rfl

/-- A push that continues the chain leads a slave to the next state of the lineage. -/
theorem covers_of_received (hl : l.Leads tokens began h) (ho : l.Ordered tokens) {r : Replica}
    (hr : h.storage.Mirrors r.snapshot) {p : Payload} (hp : p ∈ l.sent) {snap : Snapshot}
    (hreceived : r.Received p snap) : l.Covers snap := by
  obtain ⟨-, hnext, rfl⟩ := hreceived
  obtain ⟨P, hP, Q, hQ, hlink, hversion, hholdings⟩ := ho.linked p hp
  -- the push was made of a state with the slave's sign, and there is one such state only
  have hsign : P.snapshot.dataVersion.sign = r.snapshot.dataVersion.sign := by
    simp only [DataVersion.isFollowedBy, Bool.and_eq_true, decide_eq_true_eq] at hnext hlink
    rw [← hlink.2, hnext.2]
  have hagree := hl.agrees_of_sign ho hr hP hsign
  refine ⟨Q, hQ, hversion, ?_⟩
  rw [hholdings, Snapshot.entity?_advance, Replica.withoutProgress_touchOwn hr.coherent]
  exact Holdings.withoutProgress_applyAll_congr _ hagree

/-- A dump of the lineage leads a slave to the state that was dumped. -/
theorem covers_of_resynced (ho : l.Ordered tokens) {r : Replica} {now : Timestamp} {P : Service}
    (hP : P ∈ l.past) {snap : Snapshot} (hresynced : r.Resynced now P.snapshot.dump snap) :
    l.Covers snap := by
  obtain ⟨-, -, rfl⟩ := hresynced
  refine ⟨P, hP, ?_, ?_⟩
  · rw [Snapshot.dataVersion_ofDump]
    rfl
  · exact (Snapshot.withoutProgress_ofDump_adoptOwn (ho.coherent P hP) _ _).symm

/-- A step of a slave keeps it in the lead of the master. -/
theorem Leads.step_slave (hl : l.Leads tokens began h) (ho : l.Ordered tokens)
    (ha : a.StartsAs .slave) (hoffers : l.Offers a) (hfresh : ∀ t ∈ a.tokens, t ∉ tokens) :
    l.Leads (tokens ++ a.tokens)
      (fun m => began m ∨ ∃ settings limits, a = .start settings limits m) (h.step a).2 where
  synced := hl.synced.step a
  role := hl.role.step hl.synced ha
  state snap hsnap := by
    have hstep := Host.step_stepped hl.synced a
    generalize h.step a = out at *
    cases hstep with
    | kept result h' hdata =>
        rcases hl.state snap (hsnap.sameData hl.synced.sound.keyed hdata.symm) with
          hc | ⟨m, hm, hmem, hprec⟩
        · exact Or.inl hc
        · exact Or.inr ⟨m, Or.inl hm, List.mem_append_left _ hmem, hprec⟩
    | moved pushes sv' s' hmirrors hmoves =>
        -- whatever the storage mirrors, it is the state that the slave has moved on to
        have halike := hmirrors.alike hsnap
        have hrole := hmoves.role hl.role ha
        have hadopts := hmoves.of_slave hrole
        suffices hstate : l.Covers sv'.snapshot ∨ ∃ m, (began m ∨ ∃ settings limits,
            a = .start settings limits m) ∧ m.spare ∈ tokens ++ a.tokens ∧
            l.Precedes m sv'.snapshot by
          rcases hstate with ⟨P, hP, hv, hagree⟩ | ⟨m, hm, hmem, hprec⟩
          · exact Or.inl ⟨P, hP, hv.trans halike.1, by rw [hagree, halike.2]⟩
          · exact Or.inr ⟨m, hm, hmem, halike.1.symm.trans hprec.version,
              halike.2.symm.trans hprec.holdings, hprec.unknown⟩
        generalize sv'.snapshot = snap' at *
        cases hadopts with
        | @initialised limits m hempty =>
            refine Or.inr ⟨m, Or.inr ⟨_, _, rfl⟩, ?_, ?_, ?_, ?_⟩
            · exact List.mem_append_right _ (Action.spare_mem_tokens rfl)
            · exact Snapshot.dataVersion_initial _ _
            · rw [Snapshot.initial, if_neg (by simp [hrole]), Snapshot.entity?_dataVersion,
                Snapshot.entity?_empty]
            · intro P hP hsign
              exact hfresh m.spare (Action.spare_mem_tokens rfl) (hsign ▸ ho.known P hP)
        | received sv hsv hp =>
            exact Or.inl (covers_of_received hl ho (hl.synced.mirrors sv hsv) hoffers hp)
        | resynced sv now d hsv hd hq =>
            left
            rcases hq with rfl | ⟨version, rfl⟩
            · obtain ⟨P, hP, rfl⟩ := hoffers
              exact covers_of_resynced ho hP hd
            · obtain ⟨P, hP, rfl⟩ := hoffers.2 d rfl
              exact covers_of_resynced ho hP hd

/-- The versions of a lineage leave room for one more. -/
def Bounded (l : Lineage) : Prop :=
  ∀ P ∈ l.past, P.snapshot.dataVersion.version < 0x7fffffffffffffff

/-- A stored version does not decrease in a step of a slave. -/
theorem Leads.version_le_step (hl : l.Leads tokens began h) (ha : a.StartsAs .slave)
    (hbound : l.Bounded) {snap : Snapshot} (hsnap : h.storage.Mirrors snap) :
    ∃ snap', (h.step a).2.storage.Mirrors snap' ∧
      snap.dataVersion.version ≤ snap'.dataVersion.version := by
  have hstep := Host.step_stepped hl.synced a
  generalize h.step a = out at *
  cases hstep with
  | kept result h' hdata hkeyed => exact ⟨snap, hsnap.sameData hkeyed hdata, Int.le_refl _⟩
  | moved pushes sv' s' hmirrors hmoves =>
      refine ⟨sv'.snapshot, hmirrors, ?_⟩
      have hadopts := hmoves.of_slave (hmoves.role hl.role ha)
      generalize sv'.snapshot = snap' at *
      cases hadopts with
      | initialised hempty =>
          have hnone := Storage.dataVersion?_of_sameData_empty hempty
          exact nomatch hnone.symm.trans hsnap.dataVersion?_eq
      | @received now p _ sv hsv hp =>
          obtain ⟨-, hnext, rfl⟩ := hp
          have hr : h.storage.Mirrors sv.replica.snapshot := hl.synced.mirrors sv hsv
          have hlt : snap.dataVersion.version < 0x7fffffffffffffff := by
            rcases hl.state snap hsnap with ⟨P, hP, hv, -⟩ | ⟨m, -, -, hprec⟩
            · rw [← hv]
              exact hbound P hP
            · rw [hprec.version]
              show (0 : Int) < 0x7fffffffffffffff
              decide
          simp only [DataVersion.isFollowedBy, Bool.and_eq_true, decide_eq_true_eq] at hnext
          rw [Snapshot.dataVersion_advance, hnext.1, (hr.alike hsnap).1, DataVersion.successor,
            if_neg (Int.ne_of_lt hlt)]
          exact Int.le_of_lt (Int.lt_add_one_iff.mpr (Int.le_refl _))
      | resynced sv now d hsv hd hq =>
          obtain ⟨-, hle, rfl⟩ := hd
          have hr : h.storage.Mirrors sv.replica.snapshot := hl.synced.mirrors sv hsv
          rw [Snapshot.dataVersion_ofDump, ← (hr.alike hsnap).1]
          exact hle

end Lineage

namespace Fleet

variable {ι : Type}

/-- What holds of a fleet after some events, as long as no sign comes again. -/
structure Agreed (f : Fleet ι) (events : List (Event ι)) : Prop where
  master : f.master.Ordered (Event.tokens events)
  slaves : ∀ i, f.master.Leads (Event.tokens events)
    (fun m => ∃ settings limits, Event.slave i (.start settings limits m) ∈ events) (f.slaves i)

theorem agreed_empty : (empty : Fleet ι).Agreed [] :=
  ⟨Lineage.ordered_empty, fun _ => Lineage.leads_empty _⟩

theorem tokens_snoc (events : List (Event ι)) (e : Event ι) :
    Event.tokens (events ++ [e]) = Event.tokens events ++ e.action.tokens := by
  simp [Event.tokens]

variable [DecidableEq ι]

theorem Agreed.step {f : Fleet ι} {events : List (Event ι)} (hf : f.Agreed events) {e : Event ι}
    (he : f.Admits e) (hfresh : ∀ t ∈ e.action.tokens, t ∉ Event.tokens events) :
    (f.step e).Agreed (events ++ [e]) := by
  have hsub : Event.tokens events ⊆ Event.tokens (events ++ [e]) := by
    rw [tokens_snoc]
    exact List.subset_append_left _ _
  cases e with
  | master a =>
      constructor
      · rw [tokens_snoc]
        exact hf.master.step he hfresh
      · intro i
        refine ((hf.slaves i).step_master hf.master he hfresh).mono hsub ?_
        rintro m ⟨settings, limits, hm⟩
        exact ⟨settings, limits, List.mem_append_left _ hm⟩
  | slave j a =>
      constructor
      · exact hf.master.mono hsub
      · intro i
        by_cases hij : i = j
        · subst hij
          have hstep := (hf.slaves i).step_slave hf.master he.1 he.2 hfresh
          simp only [Fleet.step, Function.update_self]
          rw [tokens_snoc]
          refine hstep.mono (List.Subset.refl _) ?_
          rintro m (⟨settings, limits, hm⟩ | ⟨settings, limits, rfl⟩)
          · exact ⟨settings, limits, List.mem_append_left _ hm⟩
          · exact ⟨settings, limits, by simp⟩
        · simp only [Fleet.step, Function.update_of_ne hij]
          refine (hf.slaves i).mono hsub ?_
          rintro m ⟨settings, limits, hm⟩
          exact ⟨settings, limits, List.mem_append_left _ hm⟩

theorem agreed_run {f : Fleet ι} {events : List (Event ι)} (hrun : Run empty events f)
    (hfresh : (Event.tokens events).Nodup) : f.Agreed events := by
  induction hrun with
  | refl => exact agreed_empty
  | step e hrun he ih =>
      rw [tokens_snoc, List.nodup_append] at hfresh
      exact (ih hfresh.1).step he fun t ht hmem => hfresh.2.2 t hmem t ht rfl

theorem mem_past_run {f f' : Fleet ι} {events : List (Event ι)} (hrun : Run f events f')
    {P : Service} (hP : P ∈ f.master.past) : P ∈ f'.master.past := by
  induction hrun with
  | refl => exact hP
  | step e hrun he ih =>
      cases e with
      | master a => exact Lineage.mem_past_step_of_mem ih
      | slave i a => exact ih

/-- Stored versions do not decrease in the course of events. -/
theorem version_le_run {f f' : Fleet ι} {events later : List (Event ι)} (hrun : Run empty events f)
    (hlater : Run f later f') (hfresh : (Event.tokens (events ++ later)).Nodup)
    (hbound : f'.master.Bounded) (i : ι) {snap : Snapshot}
    (hsnap : (f.slaves i).storage.Mirrors snap) :
    ∃ snap', (f'.slaves i).storage.Mirrors snap' ∧
      snap.dataVersion.version ≤ snap'.dataVersion.version := by
  induction hlater with
  | refl => exact ⟨snap, hsnap, Int.le_refl _⟩
  | @step later f'' e hlater he ih =>
      have hfresh' : (Event.tokens (events ++ later)).Nodup := by
        rw [← List.append_assoc, tokens_snoc, List.nodup_append] at hfresh
        exact hfresh.1
      have hbound' : f''.master.Bounded := fun P hP =>
        hbound P (mem_past_run (.step e .refl he) hP)
      obtain ⟨mid, hmid, hle⟩ := ih hfresh' hbound'
      -- only an event of the slave itself can move its version
      cases e with
      | master a => exact ⟨mid, hmid, hle⟩
      | slave j a =>
          by_cases hij : i = j
          · subst hij
            have hagreed := agreed_run (hrun.trans hlater) hfresh'
            obtain ⟨snap', hsnap', hle'⟩ := (hagreed.slaves i).version_le_step he.1 hbound' hmid
            refine ⟨snap', ?_, Int.le_trans hle hle'⟩
            simpa only [Fleet.step, Function.update_self] using hsnap'
          · refine ⟨mid, ?_, hle⟩
            simpa only [Fleet.step, Function.update_of_ne hij] using hmid

/-- Every slave is at its own first version and has no data, or it has what the master had at the
slave's version, apart from the progress that nodes note.  Its version never decreases, as long as
versions do not come around. -/
theorem prefix_agreement {f f' : Fleet ι} {events later : List (Event ι)}
    (hrun : Run empty events f) (hlater : Run f later f')
    (hfresh : (Event.tokens (events ++ later)).Nodup) (i : ι) :
    (∀ sv, (f.slaves i).running = some sv →
      (∃ settings limits m, Event.slave i (.start settings limits m) ∈ events ∧
        sv.snapshot.dump = ⟨.initial m.spare m.now, [], [], [], [], []⟩) ∨
      (∃ P ∈ f.master.past, P.snapshot.dataVersion = sv.snapshot.dataVersion) ∧
        ∀ P ∈ f.master.past, P.snapshot.dataVersion = sv.snapshot.dataVersion →
          sv.snapshot.dump.withoutProgress = P.snapshot.dump.withoutProgress) ∧
    (f'.master.Bounded → ∀ sv sv', (f.slaves i).running = some sv →
      (f'.slaves i).running = some sv' →
        sv.snapshot.dataVersion.version ≤ sv'.snapshot.dataVersion.version) := by
  have hfresh₀ : (Event.tokens events).Nodup := by
    rw [Event.tokens, List.flatMap_append, List.nodup_append] at hfresh
    exact hfresh.1
  have hagreed := agreed_run hrun hfresh₀
  have hagreed' := agreed_run (hrun.trans hlater) hfresh
  constructor
  · intro sv hsv
    have hmirrors := (hagreed.slaves i).synced.mirrors sv hsv
    rcases (hagreed.slaves i).state _ hmirrors with hcovers | ⟨m, ⟨settings, limits, hm⟩, -, hprec⟩
    · right
      constructor
      · obtain ⟨P, hP, hv, -⟩ := hcovers
        exact ⟨P, hP, hv⟩
      · intro P hP hv
        obtain ⟨-, hagree⟩ := hcovers.eq_of_sign hagreed.master hP (by rw [hv])
        exact Snapshot.dump_withoutProgress_eq hmirrors.coherent (hagreed.master.coherent P hP)
          hagree.symm hv.symm
    · left
      refine ⟨settings, limits, m, hm, ?_⟩
      exact Snapshot.dump_eq (t := { Snapshot.empty with dataVersion := .initial m.spare m.now })
        hmirrors.coherent (Snapshot.coherent_empty.setVersion _)
        (hprec.holdings.trans Snapshot.entity?_empty.symm) hprec.version
  · intro hbound sv sv' hsv hsv'
    have hmirrors := (hagreed.slaves i).synced.mirrors sv hsv
    obtain ⟨snap', hsnap', hle⟩ := version_le_run hrun hlater hfresh hbound i hmirrors
    rw [← (hsnap'.alike ((hagreed'.slaves i).synced.mirrors sv' hsv')).1]
    exact hle

/-- A slave is entered on the master and catches up from a dump. -/
def catchUp : List (Event Unit) :=
  [.master (.start ⟨"http://m", .master, none, false⟩ ⟨300, 0, 2⟩ ⟨.epoch, "v0", "t0"⟩),
    .slave () (.start ⟨"http://s", .slave, some "http://m", false⟩ ⟨300, 0, 2⟩ ⟨.epoch, "w0", "u0"⟩),
    .master (.request (.write ⟨.epoch, "v1", "t1"⟩ none (.putNode ⟨"http://s", .slave, none, 0⟩))),
    .master (.request (.write ⟨.epoch, "v2", "t2"⟩ none (.putApp "A" "app" .real))),
    .slave () (.request (.resync .epoch ⟨⟨2, "v2", "v1", .epoch⟩, [],
      [⟨"A", "app", .real, "t2", 0, 0⟩], [], [],
      [⟨"http://m", .master, some .epoch, 2⟩, ⟨"http://s", .slave, none, 0⟩]⟩))]

/-- The master adds a config and pushes it. -/
def follow : List (Event Unit) :=
  [.master (.request (.write ⟨.epoch, "v3", "t3"⟩ none
      (.putConfig ⟨"c", "A", "f", "x", .string, .active⟩))),
    .slave () (.request (.receive .epoch ⟨⟨[.upsert (.config ⟨"c", "A", "f", "x", .string, .active⟩),
      .upsert (.app ⟨"A", "app", .real, "t3", 1, 1⟩),
      .upsert (.node ⟨"http://m", .master, some .epoch, 3⟩)]⟩, ⟨3, "v3", "v2", .epoch⟩⟩))]

theorem run_catchUp : Run empty catchUp (catchUp.foldl step empty) := by
  refine (((((Run.refl.step _ ?_).step _ ?_).step _ ?_).step _ ?_).step _ ?_)
  · rfl
  · exact ⟨rfl, trivial⟩
  · exact trivial
  · exact trivial
  · exact ⟨trivial, List.get _ ⟨2, by decide +kernel⟩, List.get_mem _ _, by decide +kernel⟩

theorem run_follow :
    Run (catchUp.foldl step empty) follow (follow.foldl step (catchUp.foldl step empty)) := by
  refine ((Run.refl.step _ ?_).step _ ?_)
  · exact trivial
  · exact ⟨trivial, List.elem_iff.mp (by decide +kernel)⟩

/-- The slave has what the master had, before the push and after it. -/
theorem prefix_agreement_follow :
    ∃ sv sv', ((catchUp.foldl step empty).slaves ()).running = some sv ∧
      ((follow.foldl step (catchUp.foldl step empty)).slaves ()).running = some sv' ∧
      sv.snapshot.dataVersion.version = 2 ∧ sv'.snapshot.dataVersion.version = 3 ∧
      sv.snapshot.dataVersion.version ≤ sv'.snapshot.dataVersion.version ∧
      ∃ P ∈ (catchUp.foldl step empty).master.past,
        sv.snapshot.dump.withoutProgress = P.snapshot.dump.withoutProgress := by
  let f := catchUp.foldl step empty
  let sv := (f.slaves ()).running.get (by decide +kernel)
  let f' := follow.foldl step (catchUp.foldl step empty)
  let sv' := (f'.slaves ()).running.get (by decide +kernel)
  let P := f.master.past.get ⟨2, by decide +kernel⟩
  have hsv : (f.slaves ()).running = some sv := (Option.some_get _).symm
  have hsv' : (f'.slaves ()).running = some sv' := (Option.some_get _).symm
  have hbounded : f'.master.Bounded := by
    unfold Lineage.Bounded
    decide +kernel
  obtain ⟨hagree, hle⟩ := prefix_agreement run_catchUp run_follow (by decide +kernel) ()
  refine ⟨sv, sv', hsv, hsv', by decide +kernel, by decide +kernel, hle hbounded sv sv' hsv hsv', P,
    List.get_mem _ _, ?_⟩
  rcases hagree sv hsv with ⟨settings, limits, m, -, hdump⟩ | ⟨-, hsame⟩
  · have happs : sv.snapshot.dump.apps = [] := congrArg Dump.apps hdump
    exact absurd happs (by decide +kernel)
  · exact hsame P (List.get_mem _ _) (by decide +kernel)

end Fleet

end RemoteConfig
