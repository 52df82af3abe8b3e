import RemoteConfig.Proofs.Lineage
/-! # Ledgers

Where several nodes write and hear of each other, no single line of states tells what a data version
stands for.  A ledger does: it has down, under the sign of every version that there ever was, the
version and what was held at it.  A node that moves on under a new sign adds an entry; a node that
takes in what another one has sent lands on an entry that is there. -/

namespace RemoteConfig

/-- The version of each sign, and what is held at it apart from the progress that nodes note. -/
abbrev Ledger := String → Option (DataVersion × Holdings)

namespace Ledger

def empty : Ledger := fun _ => none

variable {L L' : Ledger} {s t : Snapshot}

/-! ## Entries -/

/-- A snapshot is as the entry of its sign has it. -/
def Records (L : Ledger) (s : Snapshot) : Prop :=
  L s.dataVersion.sign = some (s.dataVersion, s.entity?.withoutProgress)

/-- A payload leads from one entry to another. -/
def Links (L : Ledger) (p : Payload) : Prop :=
  ∃ v m, L v.sign = some (v, m) ∧ v.isFollowedBy p.dataVersion = true ∧
    L p.dataVersion.sign =
      some (p.dataVersion, m.applyAll (p.delta.changes.map Change.withoutProgress))

/-- All entries have signs among the given ones. -/
def Within (L : Ledger) (tokens : List String) : Prop :=
  ∀ sign entry, L sign = some entry → sign ∈ tokens

/-- All entries of one ledger stand in another one. -/
def Extends (L L' : Ledger) : Prop := ∀ sign entry, L sign = some entry → L' sign = some entry

theorem Extends.refl (L : Ledger) : L.Extends L := fun _ _ => id

theorem Records.mono (hs : L.Records s) (h : L.Extends L') : L'.Records s := h _ _ hs

theorem Links.mono {p : Payload} (hp : L.Links p) (h : L.Extends L') : L'.Links p := by
  obtain ⟨v, m, hv, hnext, hp⟩ := hp
  exact ⟨v, m, h _ _ hv, hnext, h _ _ hp⟩

theorem Records.congr (hs : L.Records s) (hv : t.dataVersion = s.dataVersion)
    (he : t.entity?.withoutProgress = s.entity?.withoutProgress) : L.Records t := by
  rw [Records, hv, he]
  exact hs

/-- A storage mirrors one state. -/
theorem Records.of_mirrors {σ : Storage} (hs : L.Records s) (hm : σ.Mirrors s) (ht : σ.Mirrors t) :
    L.Records t :=
  have halike := hm.alike ht
  hs.congr halike.1.symm (by rw [halike.2])

/-- Under one sign there is one state. -/
theorem Records.agree (hs : L.Records s) (ht : L.Records t)
    (hsign : s.dataVersion.sign = t.dataVersion.sign) :
    s.dataVersion = t.dataVersion ∧ s.entity?.withoutProgress = t.entity?.withoutProgress := by
  rw [Records, hsign] at hs
  exact Prod.mk.inj (Option.some.inj (hs.symm.trans ht))

/-- Snapshots at the same version have the same dump, apart from the progress of nodes. -/
theorem Records.dump_eq (hs : L.Records s) (ht : L.Records t) (hcs : s.Coherent)
    (hct : t.Coherent) (hv : s.dataVersion = t.dataVersion) :
    s.dump.withoutProgress = t.dump.withoutProgress :=
  Snapshot.dump_withoutProgress_eq hcs hct (hs.agree ht (congrArg DataVersion.sign hv)).2 hv

/-- The entry of a snapshot. -/
def enter (L : Ledger) (s : Snapshot) : Ledger :=
  Function.update L s.dataVersion.sign (some (s.dataVersion, s.entity?.withoutProgress))

theorem records_enter (L : Ledger) (s : Snapshot) : (L.enter s).Records s :=
  Function.update_self _ _ _

/-- An entry under a new sign replaces none. -/
theorem extends_enter (h : L s.dataVersion.sign = none) : L.Extends (L.enter s) := by
  intro sign entry hentry
  rw [enter, Function.update_of_ne]
  · exact hentry
  · rintro rfl
    rw [h] at hentry
    cases hentry

/-- One ledger has all entries of another one, and beside them only some under the given signs. -/
structure Grows (L : Ledger) (tokens : List String) (L' : Ledger) : Prop where
  kept : L.Extends L'
  added : ∀ sign entry, L' sign = some entry → L sign = some entry ∨ sign ∈ tokens

theorem Grows.refl (L : Ledger) (tokens : List String) : L.Grows tokens L :=
  ⟨.refl L, fun _ _ => Or.inl⟩

theorem grows_enter {tokens : List String} (h : L s.dataVersion.sign = none)
    (hsign : s.dataVersion.sign ∈ tokens) : L.Grows tokens (L.enter s) where
  kept := extends_enter h
  added sign entry hentry := by
    rw [enter, Function.update_apply] at hentry
    split at hentry
    · rename_i hsame
      exact Or.inr (hsame ▸ hsign)
    · exact Or.inl hentry

theorem Within.grows {tokens tokens' : List String} (h : L.Within tokens)
    (hgrows : L.Grows tokens' L') : L'.Within (tokens ++ tokens') := by
  intro sign entry hentry
  rw [List.mem_append]
  exact (hgrows.added sign entry hentry).imp_left (h sign entry)

theorem Within.eq_none {tokens : List String} (h : L.Within tokens) {sign : String}
    (hfresh : sign ∉ tokens) : L sign = none := by
  cases hentry : L sign with
  | none => rfl
  | some entry => exact absurd (h sign entry hentry) hfresh

/-! ## What replicas do -/

variable {r : Replica} {snap : Snapshot}

/-- A mutation under a new sign adds an entry, and all that is pushed leads to it. -/
theorem links_of_mutated {m : Moment} {build : Snapshot → Except Error Delta} {c : Committed}
    (hr : L.Records r.snapshot) (h : r.Mutated m build c snap) (hfresh : L m.sign = none) :
    snap.dataVersion.sign = m.sign ∧ ∀ push ∈ c.pushes, (L.enter snap).Links push.2 := by
  obtain ⟨d, -, -, hsnap, rfl⟩ := h
  have hsign : snap.dataVersion.sign = m.sign := by
    rw [hsnap]
    rfl
  refine ⟨hsign, ?_⟩
  intro push hpush
  obtain ⟨url, -, rfl⟩ := List.mem_map.mp hpush
  refine ⟨r.snapshot.dataVersion, _, extends_enter (hsign ▸ hfresh) _ _ hr,
    DataVersion.isFollowedBy_next _ _ _, ?_⟩
  have hentry := L.records_enter snap
  rw [Records] at hentry
  rw [← Holdings.withoutProgress_applyAll, ← Snapshot.entity?_advance, ← hsnap]
  rw [hsnap] at hentry ⊢
  exact hentry

/-- A replica starts in a state that the ledger has, or has once it is entered under a new sign. -/
theorem grows_of_started {settings : Settings} {m : Moment} {σ : Storage}
    {out : Except Error (Replica × List (String × Payload)) × Storage} (hσ : σ.Sound)
    (hstored : ∀ snap, σ.Mirrors snap → L.Records snap)
    (hfresh : ∀ t ∈ [m.sign, m.spare], L t = none) (h : Replica.Started settings σ m out) :
    ∃ L', L.Grows [m.sign, m.spare] L' ∧ out.2.Sound ∧
      (∀ snap, out.2.Mirrors snap → L'.Records snap) ∧
      ∀ r pushes, out.1 = .ok (r, pushes) → r.settings = settings ∧ out.2.Mirrors r.snapshot ∧
        ∀ push ∈ pushes, L'.Links push.2 := by
  cases h with
  | refused e he => exact ⟨L, .refl L _, hσ, hstored, nofun⟩
  | failed hfail =>
      have hdata : σ.SameData { σ with failsNext := false } := fun _ _ => rfl
      refine ⟨L, .refl L _, hσ.sameData hσ.keyed hdata, ?_, nofun⟩
      exact fun snap hsnap => hstored snap (hsnap.sameData hσ.keyed hdata.symm)
  | fresh r s' hs hsettings hsnapshot hmirrors =>
      have hsign : r.snapshot.dataVersion.sign = m.spare := by
        rw [hsnapshot, Snapshot.dataVersion_initial]
        rfl
      have hgrows : L.Grows [m.sign, m.spare] (L.enter r.snapshot) :=
        grows_enter (hsign ▸ hfresh m.spare (by simp)) (by simp [hsign])
      refine ⟨L.enter r.snapshot, hgrows, hmirrors.sound, ?_, ?_⟩
      · exact fun snap => (L.records_enter r.snapshot).of_mirrors hmirrors
      · rintro _ _ hout
        obtain ⟨rfl, rfl⟩ := Prod.mk.inj (Except.ok.inj hout)
        exact ⟨hsettings, hmirrors, nofun⟩
  | loaded r hs hsettings hsnapshot hclaim =>
      obtain ⟨v, hv⟩ := Option.isSome_iff_exists.mp hs
      refine ⟨L, .refl L _, hσ, hstored, ?_⟩
      rintro _ _ hout
      obtain ⟨rfl, rfl⟩ := Prod.mk.inj (Except.ok.inj hout)
      exact ⟨hsettings, hsnapshot ▸ Storage.mirrors_load hσ hv, nofun⟩
  | @claimed d r s' c hs hsettings hmirrors hd hfull hc =>
      obtain ⟨v, hv⟩ := Option.isSome_iff_exists.mp hs
      have hloaded : L.Records (Replica.snapshot ⟨settings, .ofSnapshot σ.load⟩) :=
        hstored _ (Storage.mirrors_load hσ hv)
      obtain ⟨hsign, hlinks⟩ := links_of_mutated hloaded hc (hfresh m.sign (by simp))
      have hgrows : L.Grows [m.sign, m.spare] (L.enter r.snapshot) :=
        grows_enter (hsign ▸ hfresh m.sign (by simp)) (by simp [hsign])
      refine ⟨L.enter r.snapshot, hgrows, hmirrors.sound, ?_, ?_⟩
      · exact fun snap => (L.records_enter r.snapshot).of_mirrors hmirrors
      · rintro _ _ hout
        obtain ⟨rfl, rfl⟩ := Prod.mk.inj (Except.ok.inj hout)
        exact ⟨hsettings, hmirrors, hlinks⟩

/-- A push that continues the chain leads to the entry of its version. -/
theorem Records.of_received {p : Payload} (hr : L.Records r.snapshot)
    (hc : r.snapshot.Coherent) (hp : L.Links p) (h : r.Received p snap) : L.Records snap := by
  obtain ⟨-, hnext, rfl⟩ := h
  obtain ⟨v, m, hv, hfollows, hentry⟩ := hp
  -- the entry that the payload starts from is that of the replica, since both have its old sign
  have hsign : v.sign = r.snapshot.dataVersion.sign := by
    simp only [DataVersion.isFollowedBy, Bool.and_eq_true, decide_eq_true_eq] at hnext hfollows
    rw [← hfollows.2, hnext.2]
  rw [hsign] at hv
  obtain ⟨-, rfl⟩ := Prod.mk.inj (Option.some.inj (hv.symm.trans hr))
  rw [Records, Snapshot.dataVersion_advance, Snapshot.entity?_advance,
    Replica.withoutProgress_touchOwn hc, Holdings.withoutProgress_applyAll]
  exact hentry

/-- A dump leads to the entry of the snapshot that it was made of. -/
theorem Records.of_resynced {now : Timestamp} (hs : L.Records s) (hc : s.Coherent)
    (h : r.Resynced now s.dump snap) : L.Records snap := by
  obtain ⟨-, -, rfl⟩ := h
  refine hs.congr ?_ (Snapshot.withoutProgress_ofDump_adoptOwn hc _ _)
  rw [Snapshot.dataVersion_ofDump]
  rfl

end Ledger

end RemoteConfig
