import RemoteConfig.Proofs.Host
/-! # Lineages

A master is stopped and restarted on its own storage as often as one likes; its *lineage* is that
host together with every state its service was ever in and everything its slaves were ever told.
As long as no sign is handed out twice, a data version stands for one state of the lineage, and what
the slaves were told leads from one such state to the next. -/

namespace RemoteConfig

/-- Snapshots of the same version with the same holdings. -/
def Snapshot.Alike (s t : Snapshot) : Prop := s.dataVersion = t.dataVersion ∧ s.entity? = t.entity?

namespace Snapshot.Alike

variable {s t u : Snapshot}

theorem refl (s : Snapshot) : s.Alike s := ⟨rfl, rfl⟩

theorem symm (h : s.Alike t) : t.Alike s := ⟨h.1.symm, h.2.symm⟩

theorem trans (h : s.Alike t) (h' : t.Alike u) : s.Alike u := ⟨h.1.trans h'.1, h.2.trans h'.2⟩

end Snapshot.Alike

/-- A storage mirrors one state. -/
theorem Storage.Mirrors.alike {s : Storage} {snap snap' : Snapshot} (h : s.Mirrors snap)
    (h' : s.Mirrors snap') : snap.Alike snap' := by
  refine ⟨?_, h.holdings.symm.trans h'.holdings⟩
  have hv := h.version.symm.trans h'.version
  simpa using hv

theorem DataVersion.isFollowedBy_next (v : DataVersion) (sign : String) (now : Timestamp) :
    v.isFollowedBy (v.next sign now) = true := by
  simp [isFollowedBy, next]

/-! ## What an action brings along -/

namespace Action

/-- The time of an action that may commit something of its own, with the signs for it. -/
def moment? : Action → Option Moment
  | start _ _ m => some m
  | request (.mutate m _ _) => some m
  | request (.write m _ _) => some m
  | _ => none

/-- The signs that are handed out for an action. -/
def tokens (a : Action) : List String := a.moment?.elim [] fun m => [m.sign, m.spare]

/-- A node starts in the given role, if it is started. -/
def StartsAs (role : NodeRole) : Action → Prop
  | start settings _ _ => settings.role = role
  | _ => True

theorem sign_mem_tokens {a : Action} {m : Moment} (h : a.moment? = some m) : m.sign ∈ a.tokens := by
  simp [tokens, h]

theorem spare_mem_tokens {a : Action} {m : Moment} (h : a.moment? = some m) :
    m.spare ∈ a.tokens := by
  simp [tokens, h]

end Action

namespace Host

variable {h : Host} {a : Action} {settings : Settings}

/-- Whatever runs on the host has the given role. -/
def RunsAs (role : NodeRole) (h : Host) : Prop :=
  ∀ sv, h.running = some sv → sv.replica.settings.role = role

section Running

variable {p : Settings → Prop} (ha : ∀ settings limits m, a = .start settings limits m → p settings)
  (hr : ∀ sv, h.running = some sv → p sv.replica.settings)
include ha hr

theorem Moves.settings_of_start {pushes : List (String × Payload)} {snap : Snapshot}
    (hm : h.Moves settings a pushes snap) : p settings := by
  cases hm with
  | initialised => exact ha _ _ _ rfl
  | claimed => exact ha _ _ _ rfl
  | served sv hsv hsettings => exact hsettings ▸ hr sv hsv

/-- A service keeps the settings that it was started with. -/
theorem running_step (hs : h.Synced) :
    ∀ sv, (h.step a).2.running = some sv → p sv.replica.settings := by
  have hstep := step_stepped hs a
  generalize h.step a = out at *
  intro sv' hsv'
  cases hstep with
  | kept result h' hdata hkeyed hrunning =>
      cases hrunning sv' hsv' with
      | loaded => exact ha _ _ _ rfl
      | running hsv hsettings => exact hsettings ▸ hr _ hsv
  | moved pushes sv s' hmirrors hmoves =>
      obtain rfl := Option.some.inj hsv'
      exact hmoves.settings_of_start ha hr

end Running

theorem Moves.role {role : NodeRole} {pushes : List (String × Payload)} {snap : Snapshot}
    (hm : h.Moves settings a pushes snap) (hr : h.RunsAs role) (ha : a.StartsAs role) :
    settings.role = role := by
  refine hm.settings_of_start (p := (·.role = role)) ?_ hr
  rintro settings limits m rfl
  exact ha

theorem RunsAs.step {role : NodeRole} (hr : h.RunsAs role) (hs : h.Synced) (ha : a.StartsAs role) :
    (h.step a).2.RunsAs role := by
  refine running_step (p := (·.role = role)) ?_ hr hs
  rintro settings limits m rfl
  exact ha

/-- A mutation that an action makes of the state that a storage holds. -/
def Authors (h : Host) (settings : Settings) (a : Action) (pushes : List (String × Payload))
    (snap : Snapshot) : Prop :=
  ∃ (r : Replica) (m : Moment) (build : Snapshot → Except Error Delta) (c : Committed),
    a.moment? = some m ∧ h.storage.Mirrors r.snapshot ∧ r.settings = settings ∧
      r.Mutated m build c snap ∧ pushes = c.pushes

/-- A master moves on by its own mutations only. -/
theorem Moves.of_master {pushes : List (String × Payload)} {snap : Snapshot}
    (hm : h.Moves settings a pushes snap) (hs : h.Synced) (hrole : settings.role = .master) :
    (∃ m, a.moment? = some m ∧ pushes = [] ∧ snap = .initial settings (.initial m.spare m.now)) ∨
      h.Authors settings a pushes snap := by
  cases hm with
  | @initialised limits m hempty => exact Or.inl ⟨m, rfl, rfl, rfl⟩
  | @claimed limits m c snap hv hc =>
      obtain ⟨v, hv⟩ := Option.isSome_iff_exists.mp hv
      have hmirrors : h.storage.Mirrors (Replica.snapshot ⟨settings, .ofSnapshot h.storage.load⟩) :=
        Storage.mirrors_load hs.sound hv
      exact Or.inr ⟨_, m, _, c, rfl, hmirrors, rfl, hc, rfl⟩
  | served sv hsv hsettings hq =>
      subst hsettings
      have hmirrors := hs.mirrors sv hsv
      cases hq with
      | mutate hc => exact Or.inr ⟨_, _, _, _, rfl, hmirrors, rfl, hc, rfl⟩
      | write hw hc => exact Or.inr ⟨_, _, _, _, rfl, hmirrors, rfl, hc, rfl⟩
      | receive hp => exact absurd hrole hp.1
      | resync hd => exact absurd hrole hd.1
      | sync hd => exact absurd hrole hd.1

/-- What a slave moves on by: nothing but its first version, a push or a dump. -/
inductive Adopts (h : Host) (settings : Settings) : Action → Snapshot → Prop
  | initialised {limits : Limits} {m : Moment} (hempty : Storage.empty.SameData h.storage) :
      Adopts h settings (.start settings limits m) (.initial settings (.initial m.spare m.now))
  | received {now : Timestamp} {p : Payload} {snap : Snapshot} (sv : Service)
      (hsv : h.running = some sv) (hp : sv.replica.Received p snap) :
      Adopts h settings (.request (.receive now p)) snap
  | resynced {q : Request} {snap : Snapshot} (sv : Service) (now : Timestamp) (d : Dump)
      (hsv : h.running = some sv) (hd : sv.replica.Resynced now d snap)
      (hq : q = .resync now d ∨ ∃ version, q = .sync now version (.ok d)) :
      Adopts h settings (.request q) snap

theorem Moves.of_slave {pushes : List (String × Payload)} {snap : Snapshot}
    (hm : h.Moves settings a pushes snap) (hrole : settings.role = .slave) :
    h.Adopts settings a snap := by
  have hnot : settings.role ≠ .master := by simp [hrole]
  cases hm with
  | initialised hempty => exact .initialised hempty
  | claimed hv hc =>
      obtain ⟨d, -, hmaster, -⟩ := hc
      exact absurd hmaster hnot
  | served sv hsv hsettings hq =>
      subst hsettings
      cases hq with
      | mutate hc =>
          obtain ⟨d, -, hmaster, -⟩ := hc
          exact absurd hmaster hnot
      | write hw hc =>
          obtain ⟨d, -, hmaster, -⟩ := hc
          exact absurd hmaster hnot
      | receive hp => exact .received sv hsv hp
      | resync hd => exact .resynced sv _ _ hsv hd (Or.inl rfl)
      | sync hd => exact .resynced sv _ _ hsv hd (Or.inr ⟨_, rfl⟩)

end Host

/-! ## Lineages -/

structure Lineage where
  host : Host
  /-- The running service after every step. -/
  past : List Service
  /-- What was sent to slaves. -/
  sent : List Payload

namespace Lineage

def empty : Lineage := ⟨.empty, [], []⟩

/-- The payloads among what the slaves have to be told. -/
def payloads : Except Error (List (String × Payload)) → List Payload
  | .ok pushes => pushes.map Prod.snd
  | .error _ => []

theorem not_mem_payloads {result : Except Error (List (String × Payload))} {p : Payload}
    (h : ∀ pushes, result = .ok pushes → pushes = []) : p ∉ payloads result := by
  cases result with
  | error e => exact List.not_mem_nil
  | ok pushes =>
      rw [h pushes rfl]
      exact List.not_mem_nil

/-- All slaves are told the same. -/
theorem eq_of_mem_payloads {url : String} {s : Snapshot} {p p' : Payload}
    (h : p ∈ payloads (.ok (Replica.pushesFor url s p'))) : p = p' := by
  obtain ⟨push, hmem, rfl⟩ := List.mem_map.mp h
  obtain ⟨url', -, rfl⟩ := List.mem_map.mp hmem
  rfl

def step (l : Lineage) (a : Action) : Lineage :=
  let (result, h) := l.host.step a
  ⟨h, l.past ++ h.running.toList, l.sent ++ payloads result⟩

def runFrom (l : Lineage) : List Action → Lineage
  | [] => l
  | a :: rest => runFrom (l.step a) rest

def run (actions : List Action) : Lineage := empty.runFrom actions

/-- What holds of a lineage as long as no sign comes again: one sign stands for one state. -/
structure Ordered (l : Lineage) (tokens : List String) : Prop where
  synced : l.host.Synced
  role : l.host.RunsAs .master
  coherent : ∀ P ∈ l.past, P.snapshot.Coherent
  known : ∀ P ∈ l.past, P.snapshot.dataVersion.sign ∈ tokens
  unique : ∀ P ∈ l.past, ∀ Q ∈ l.past, P.snapshot.dataVersion.sign = Q.snapshot.dataVersion.sign →
    P.snapshot.Alike Q.snapshot
  /-- The stored state is one that the service was in. -/
  stored : ∀ snap, l.host.storage.Mirrors snap → ∃ P ∈ l.past, P.snapshot.Alike snap
  /-- What was sent leads from a state to the next one. -/
  linked : ∀ p ∈ l.sent, ∃ P ∈ l.past, ∃ Q ∈ l.past,
    P.snapshot.dataVersion.isFollowedBy p.dataVersion = true ∧
    Q.snapshot.dataVersion = p.dataVersion ∧
    Q.snapshot.entity? = P.snapshot.entity?.applyAll p.delta.changes

theorem ordered_empty : empty.Ordered [] where
  synced := Host.synced_empty
  role := Host.not_running
  coherent _ hP := absurd hP List.not_mem_nil
  known _ hP := absurd hP List.not_mem_nil
  unique _ hP := absurd hP List.not_mem_nil
  stored snap h := by
    have hv : empty.host.storage.dataVersion? = none :=
      Storage.dataVersion?_of_sameData_empty (.refl _)
    exact nomatch hv.symm.trans h.dataVersion?_eq
  linked _ hp := absurd hp List.not_mem_nil

theorem Ordered.mono {l : Lineage} {tokens tokens' : List String} (ho : l.Ordered tokens)
    (hsub : tokens ⊆ tokens') : l.Ordered tokens' :=
  { ho with known := fun P hP => hsub (ho.known P hP) }

theorem mem_past_step {l : Lineage} {a : Action} {Q : Service} :
    Q ∈ (l.step a).past ↔ Q ∈ l.past ∨ (l.host.step a).2.running = some Q := by
  simp [step]

theorem mem_past_step_of_mem {l : Lineage} {a : Action} {P : Service} (hP : P ∈ l.past) :
    P ∈ (l.step a).past := mem_past_step.mpr (Or.inl hP)

section Step

variable {l : Lineage} {tokens : List String} {a : Action}

/-- The sign of a state that a master moves on to was handed out for the action. -/
theorem sign_of_moves {settings : Settings} {pushes : List (String × Payload)} {snap : Snapshot}
    (hm : l.host.Moves settings a pushes snap) (ho : l.Ordered tokens)
    (hrole : settings.role = .master) : snap.dataVersion.sign ∈ a.tokens := by
  rcases hm.of_master ho.synced hrole with
    ⟨m, hmoment, -, rfl⟩ | ⟨r, m, build, c, hmoment, -, -, ⟨d, -, -, rfl, -⟩, -⟩
  · rw [Snapshot.dataVersion_initial]
    exact Action.spare_mem_tokens hmoment
  · exact Action.sign_mem_tokens hmoment

/-- After a step, the running service is in a state of the past, or in one with a new sign. -/
theorem running_step (ho : l.Ordered tokens) (ha : a.StartsAs .master) {Q : Service}
    (hQ : (l.host.step a).2.running = some Q) :
    (∃ P ∈ l.past, P.snapshot.Alike Q.snapshot) ∨ Q.snapshot.dataVersion.sign ∈ a.tokens := by
  have hstep := Host.step_stepped ho.synced a
  generalize l.host.step a = out at *
  cases hstep with
  | kept result h' hdata hkeyed hrunning =>
      exact Or.inl (ho.stored _ ((hrunning Q hQ).mirrors ho.synced ho.synced.sound.keyed (.refl _)))
  | moved pushes sv' s' hmirrors hmoves =>
      obtain rfl := Option.some.inj hQ
      exact Or.inr (sign_of_moves hmoves ho (hmoves.role ho.role ha))

theorem past_cases (ho : l.Ordered tokens) (ha : a.StartsAs .master) {Q : Service}
    (hQ : Q ∈ (l.step a).past) :
    (∃ P ∈ l.past, P.snapshot.Alike Q.snapshot) ∨
      (Q.snapshot.dataVersion.sign ∈ a.tokens ∧ (l.host.step a).2.running = some Q) := by
  rcases mem_past_step.mp hQ with hQ | hQ
  · exact Or.inl ⟨Q, hQ, .refl _⟩
  · exact (running_step ho ha hQ).imp_right fun hnew => ⟨hnew, hQ⟩

theorem stored_step (ho : l.Ordered tokens) {snap : Snapshot}
    (hsnap : (l.host.step a).2.storage.Mirrors snap) :
    ∃ P ∈ (l.step a).past, P.snapshot.Alike snap := by
  have hstep := Host.step_stepped ho.synced a
  have hmem : ∀ {Q}, (l.host.step a).2.running = some Q → Q ∈ (l.step a).past :=
    fun hQ => mem_past_step.mpr (Or.inr hQ)
  generalize l.host.step a = out at *
  cases hstep with
  | kept result h' hdata hkeyed hrunning =>
      obtain ⟨P, hP, halike⟩ := ho.stored snap (hsnap.sameData ho.synced.sound.keyed hdata.symm)
      exact ⟨P, mem_past_step_of_mem hP, halike⟩
  | moved pushes sv' s' hmirrors hmoves => exact ⟨sv', hmem rfl, hmirrors.alike hsnap⟩

/-- What is sent in a step leads from a state of the past to the new one. -/
theorem linked_step (ho : l.Ordered tokens) (ha : a.StartsAs .master) {p : Payload}
    (hp : p ∈ payloads (l.host.step a).1) :
    ∃ P ∈ l.past, ∃ Q, (l.host.step a).2.running = some Q ∧
      P.snapshot.dataVersion.isFollowedBy p.dataVersion = true ∧
      Q.snapshot.dataVersion = p.dataVersion ∧
      Q.snapshot.entity? = P.snapshot.entity?.applyAll p.delta.changes := by
  have hstep := Host.step_stepped ho.synced a
  generalize l.host.step a = out at *
  cases hstep with
  | kept result h' hdata hkeyed hrunning hpushes => exact absurd hp (not_mem_payloads hpushes)
  | moved pushes sv' s' hmirrors hmoves =>
      -- the first version is not sent to anybody
      rcases hmoves.of_master ho.synced (hmoves.role ho.role ha) with
        ⟨m, -, rfl, -⟩ | ⟨r, m, build, c, -, hr, -, ⟨d, -, -, hsnap, rfl⟩, rfl⟩
      · exact absurd hp List.not_mem_nil
      · obtain rfl := eq_of_mem_payloads hp
        obtain ⟨P, hP, halike⟩ := ho.stored _ hr
        refine ⟨P, hP, sv', rfl, ?_, ?_, ?_⟩
        · rw [halike.1]
          exact DataVersion.isFollowedBy_next _ _ _
        · rw [hsnap, Snapshot.dataVersion_advance]
        · rw [hsnap, Snapshot.entity?_advance, halike.2]

/-- One step keeps the order, if it brings new signs. -/
theorem Ordered.step (ho : l.Ordered tokens) (ha : a.StartsAs .master)
    (hfresh : ∀ t ∈ a.tokens, t ∉ tokens) : (l.step a).Ordered (tokens ++ a.tokens) where
  synced := ho.synced.step a
  role := ho.role.step ho.synced ha
  coherent P hP := by
    rcases mem_past_step.mp hP with hP | hP
    · exact ho.coherent P hP
    · exact ((ho.synced.step a).mirrors P hP).coherent
  known P hP := by
    rw [List.mem_append]
    rcases mem_past_step.mp hP with hP | hP
    · exact Or.inl (ho.known P hP)
    · rcases running_step ho ha hP with ⟨P', hP', halike⟩ | hnew
      · rw [← halike.1]
        exact Or.inl (ho.known P' hP')
      · exact Or.inr hnew
  unique P hP Q hQ hsign := by
    -- an old sign is not handed out again, and all that is new in one step is one state
    rcases past_cases ho ha hP with ⟨P', hP', hPP⟩ | ⟨hnewP, hrunP⟩ <;>
      rcases past_cases ho ha hQ with ⟨Q', hQ', hQQ⟩ | ⟨hnewQ, hrunQ⟩
    · have hsign' : P'.snapshot.dataVersion.sign = Q'.snapshot.dataVersion.sign := by
        rw [hPP.1, hQQ.1, hsign]
      exact hPP.symm.trans ((ho.unique P' hP' Q' hQ' hsign').trans hQQ)
    · rw [← hsign, ← hPP.1] at hnewQ
      exact absurd (ho.known P' hP') (hfresh _ hnewQ)
    · rw [hsign, ← hQQ.1] at hnewP
      exact absurd (ho.known Q' hQ') (hfresh _ hnewP)
    · obtain rfl := Option.some.inj (hrunP.symm.trans hrunQ)
      exact .refl _
  stored snap hsnap := stored_step ho hsnap
  linked p hp := by
    rcases List.mem_append.mp hp with hp | hp
    · obtain ⟨P, hP, Q, hQ, hlink⟩ := ho.linked p hp
      exact ⟨P, mem_past_step_of_mem hP, Q, mem_past_step_of_mem hQ, hlink⟩
    · obtain ⟨P, hP, Q, hQ, hlink⟩ := linked_step ho ha hp
      exact ⟨P, mem_past_step_of_mem hP, Q, mem_past_step.mpr (Or.inr hQ), hlink⟩

end Step

end Lineage

end RemoteConfig
