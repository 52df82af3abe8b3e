import RemoteConfig.Proofs.FastPath
import RemoteConfig.Proofs.Invariant
/-! # Invalidation

A request of an operator changes the fingerprint of an app in one case only: it enters or removes
an active config, and that belongs to the app itself or to one of the apps that it inlines.  In this
case it always does, since the owner of the config is signed anew; and in no other case, since then
no app in the tree is signed anew, and the tree is the same. -/

namespace RemoteConfig

open Table

namespace Snapshot

variable {s t : Snapshot}

/-! ## Trees of apps -/

/-- What an active template inlines, is inlined one level deeper. -/
theorem mem_inlined_succ {levels : Nat} {appKey field key : String} {a : App}
    (h : (field, ConfigValue.template key) ∈ s.activeValues appKey)
    (hfind : s.findApp? key = some a) {b : App} (hb : b ∈ a :: s.inlined levels a.key) :
    b ∈ s.inlined (levels + 1) appKey := by
  rw [inlined]
  refine List.mem_flatMap.mpr ⟨_, h, ?_⟩
  dsimp only
  rw [hfind]
  exact hb

/-- An app inlines the same signs in two snapshots if all apps in its tree have the same sign and
the same active values in both. -/
theorem templateSigns_eq_of_kept (hs : s.Coherent) (ht : t.Coherent) (hgs : s.Grounded)
    (hgt : t.Grounded) {kept : String → Prop}
    (hkept : ∀ (k : String) a b, kept k → s.apps[k]? = some a → t.apps[k]? = some b →
      a.dataSign = b.dataSign ∧ s.activeValues k = t.activeValues k) :
    ∀ (levels : Nat) (key : String), s.activeValues key = t.activeValues key →
      (∀ a ∈ s.inlined levels key, kept a.key) →
        s.templateSigns levels key = t.templateSigns levels key
  | 0, _, _, _ => rfl
  | levels + 1, key, hvalues, htree => by
      rw [templateSigns_succ, templateSigns_succ, ← hvalues]
      refine List.flatMap_congr ?_
      rintro ⟨field, value⟩ hrow
      cases value with
      | template template =>
          obtain ⟨a, ha, hfinds, hakey⟩ := exists_template hs hgs hrow
          obtain ⟨b, hb, hfindt, hbkey⟩ := exists_template ht hgt (hvalues ▸ hrow)
          have hbelow : ∀ x ∈ a :: s.inlined levels a.key, kept x.key := fun x hx =>
            htree x (mem_inlined_succ hrow hfinds hx)
          obtain ⟨hsign, hsame⟩ :=
            hkept template a b (hakey ▸ hbelow a List.mem_cons_self) ha hb
          have hrest := templateSigns_eq_of_kept hs ht hgs hgt hkept levels template hsame
            fun x hx => hbelow x (List.mem_cons_of_mem _ (hakey.symm ▸ hx))
          simp only [valueSigns, hfinds, hfindt, hakey, hbkey, hsign, hrest]
      | _ => rfl

end Snapshot

/-! ## Requests that clients can see -/

namespace Write

/-- Whether a request enters or removes an active config of an app. -/
def shows (s : Snapshot) (appKey : String) : Write → Bool
  | putConfig c =>
    c.appKey = appKey && (c.isActive || (s.config? c.key).any fun before => before.entry.isActive)
  | deleteConfig key => (s.config? key).any fun c => c.entry.appKey = appKey && c.entry.isActive
  | _ => false

variable {sign : String} {s : Snapshot} {w : Write} {changes : List Change}

/-- No request asks for nothing. -/
theorem Accepted.ne_nil (h : w.Accepted sign s changes) : changes ≠ [] := by
  cases h <;> exact List.cons_ne_nil _ _

/-- If a request enters one row, it is enough to look at that row, and no other app may be shown. -/
theorem dataSign_of_insert {t : Snapshot} {row a b : App} {k : String} {shown : Bool}
    (happs : t.apps = s.apps.insert row.key row) (ha : s.apps[k]? = some a)
    (hb : t.apps[k]? = some b)
    (hown : k = row.key → row.dataSign = if shown then sign else a.dataSign)
    (hother : k ≠ row.key → shown = false) :
    b.dataSign = if shown then sign else a.dataSign := by
  rw [happs, getElem?_insert_ite] at hb
  split at hb
  · rename_i hk
    rw [← Option.some.inj hb]
    exact hown hk
  · rename_i hk
    rw [hother hk, Option.some.inj (hb.symm.trans ha)]
    rfl

/-- An app that stays is signed anew if its clients can see the request, and else keeps its sign. -/
theorem Accepted.dataSign_eq (h : w.Accepted sign s changes) (hs : s.Coherent) {k : String}
    {a b : App} (ha : s.apps[k]? = some a) (hb : (s.applyAll changes).apps[k]? = some b) :
    b.dataSign = if w.shows s k then sign else a.dataSign := by
  -- requests that enter no app leave the rows of the apps that stay
  have hkept : (s.applyAll changes).apps[k]? = s.apps[k]? → w.shows s k = false →
      b.dataSign = if w.shows s k then sign else a.dataSign := by
    intro hrow hshows
    rw [hrow, ha] at hb
    rw [← Option.some.inj hb, hshows]
    rfl
  cases h with
  | createApp hname hnew =>
      refine dataSign_of_insert rfl ha hb (fun hk => ?_) fun _ => rfl
      rw [hk, hnew] at ha
      cases ha
  | @updateApp key name type a' hname ha' htype =>
      refine dataSign_of_insert rfl ha hb (fun hk => ?_) fun _ => rfl
      have hown : a'.key = key := hs.app_key ha'
      rw [hk.trans hown, ha'] at ha
      rw [← Option.some.inj ha]
      rfl
  | @deleteApp key h hconfigs hreference =>
      refine hkept ?_ rfl
      rw [Snapshot.apps_deleteApp_hooks key kind_unhook, getElem?_erase_ite] at hb ⊢
      split at hb
      · cases hb
      · rename_i hk
        rw [if_neg hk]
  | @putConfig c a' value hvalue ha' hbefore hfield htemplate =>
      have hkey : (entered sign a' (s.configs[c.key]?.map (·.entry)) c).key = c.appKey :=
        (key_entered ..).trans (hs.app_key ha')
      refine dataSign_of_insert rfl ha hb (fun hk => ?_) fun hk => ?_
      · have hk' := hk.trans hkey
        rw [hk', ha'] at ha
        obtain rfl := Option.some.inj ha
        rw [dataSign_entered, hk']
        simp only [shows, Snapshot.config?, Option.any_map, decide_true, Bool.true_and,
          Bool.or_comm]
      · have hne : c.appKey ≠ k := fun heq => hk (heq.symm.trans hkey.symm)
        simp [shows, hne]
  | @deleteConfig key c a' hc ha' =>
      have hkey : (removed sign a' c.entry).key = c.entry.appKey :=
        (key_removed ..).trans (hs.app_key ha')
      have happs := s.apps_deleteConfig_upsert key (removed sign a' c.entry)
      refine dataSign_of_insert happs ha hb (fun hk => ?_) fun hk => ?_
      · have hk' := hk.trans hkey
        rw [hk', ha'] at ha
        obtain rfl := Option.some.inj ha
        rw [dataSign_removed, hk']
        simp [shows, Snapshot.config?, hc]
      · have hne : c.entry.appKey ≠ k := fun heq => hk (heq.symm.trans hkey.symm)
        simp [shows, Snapshot.config?, hc, hne]
  | @deleteOrphan key c hc ha' =>
      refine hkept ?_ ?_
      · rw [Snapshot.apps_applyAll_of_ne]
        simp [Change.key]
      · have hne : c.entry.appKey ≠ k := by
          rintro rfl
          rw [ha'] at ha
          cases ha
        simp [shows, Snapshot.config?, hc, hne]
  | _ => exact hkept rfl rfl

end Write

/-! ## What a request does to fingerprints -/

namespace Snapshot

variable {s t : Snapshot} {sign : String} {w : Write}

/-- How a snapshot goes on when a request is carried out under a new sign. -/
structure Carries (s : Snapshot) (w : Write) (sign : String) (t : Snapshot) : Prop where
  before : s.Coherent
  after : t.Coherent
  groundedBefore : s.Grounded
  groundedAfter : t.Grounded
  sealed : s.Sealed t
  signs : ∀ (k : String) a b, s.apps[k]? = some a → t.apps[k]? = some b →
    b.dataSign = if w.shows s k then sign else a.dataSign
  values : ∀ (k : String) a b, s.apps[k]? = some a → t.apps[k]? = some b → w.shows s k = false →
    s.activeValues k = t.activeValues k
  fresh : ∀ (k : String) a, s.apps[k]? = some a → a.dataSign ≠ sign

/-- An app whose tree holds no app that is shown keeps its sign and its list of signs. -/
theorem Carries.signs_eq (h : s.Carries w sign t) {levels : Nat} {key : String} {a b : App}
    (ha : s.apps[key]? = some a) (hb : t.apps[key]? = some b) (hkey : w.shows s key = false)
    (htree : ∀ x ∈ s.inlined levels key, w.shows s x.key = false) :
    a.dataSign = b.dataSign ∧ s.templateSigns levels key = t.templateSigns levels key := by
  have hsign : ∀ (k : String) a b, w.shows s k = false → s.apps[k]? = some a →
      t.apps[k]? = some b → a.dataSign = b.dataSign := by
    intro k a b hk ha hb
    rw [h.signs k a b ha hb, hk]
    rfl
  have hkept : ∀ (k : String) a b, w.shows s k = false → s.apps[k]? = some a →
      t.apps[k]? = some b → a.dataSign = b.dataSign ∧ s.activeValues k = t.activeValues k :=
    fun k a b hk ha hb => ⟨hsign k a b hk ha hb, h.values k a b ha hb hk⟩
  exact ⟨hsign key a b hkey ha hb, templateSigns_eq_of_kept h.before h.after h.groundedBefore
    h.groundedAfter hkept levels key (h.values key a b ha hb hkey) htree⟩

/-- An app that is shown is signed anew, so its sign is missing in all lists of signs. -/
theorem Carries.not_mem_templateSigns (h : s.Carries w sign t) {levels : Nat} {key : String}
    {x : App} (hx : s.apps[x.key]? = some x) (hshows : w.shows s x.key = true) :
    x.dataSign ∉ t.templateSigns levels key := by
  intro hmem
  obtain ⟨k, b, hb, hsame⟩ := exists_app_of_mem_templateSigns hmem
  obtain ⟨hk, -⟩ := h.sealed x.key k x b hx hb hsame.symm
  rw [← hk] at hb
  have hsign := h.signs x.key x b hx hb
  rw [hshows, if_pos rfl] at hsign
  exact h.fresh x.key x hx (hsame.symm.trans hsign)

end Snapshot

/-- Where equal fingerprints mean equal lists of signs, a request changes the fingerprint of an app
that stays if and only if an app in its tree is shown. -/
theorem Snapshot.Carries.changes_iff {s t : Snapshot} {w : Write} {sign : String}
    (h : s.Carries w sign t) {levels : Nat} {key : String} {a b : App}
    (ha : s.apps[key]? = some a) (hb : t.apps[key]? = some b)
    (hread : s.fingerprint a levels = t.fingerprint b levels →
      a.dataSign = b.dataSign ∧ s.templateSigns levels key = t.templateSigns levels key) :
    t.fingerprint b levels ≠ s.fingerprint a levels ↔
      w.shows s key = true ∨ ∃ template ∈ s.inlined levels key, w.shows s template.key = true := by
  constructor
  · intro hne
    by_contra hnot
    simp only [not_or, not_exists, not_and, Bool.not_eq_true] at hnot
    obtain ⟨hsign, hlist⟩ := h.signs_eq ha hb hnot.1 hnot.2
    refine hne ?_
    rw [fingerprint, fingerprint, h.before.app_key ha, h.after.app_key hb, hsign, hlist]
  · rintro hshown heq
    obtain ⟨hsign, hlist⟩ := hread heq.symm
    rcases hshown with hkey | ⟨template, hmem, htemplate⟩
    · have hnew := h.signs key a b ha hb
      rw [hkey, if_pos rfl] at hnew
      exact h.fresh key a ha (hsign.trans hnew)
    · have hlisted : template.dataSign ∈ t.templateSigns levels key := by
        rw [← hlist, templateSigns_eq_map]
        exact List.mem_map_of_mem hmem
      obtain ⟨k, hk⟩ := exists_key_of_mem_inlined hmem
      obtain rfl := h.before.app_key hk
      exact h.not_mem_templateSigns hk htemplate hlisted

/-- A request that is accepted leads to the snapshot in which it is carried out. -/
theorem Service.committed_of_write {sv sv' : Service} {s s' : Storage} {m : Moment}
    {expected : Option Int} {w : Write} {c : Committed} (h : s.Mirrors sv.snapshot)
    (hw : sv.write s m expected w = (.ok c, sv', s')) :
    ∃ d, w.Accepted m.spare sv.snapshot d.changes ∧
      sv'.snapshot = sv.snapshot.committed sv.replica.settings.url m d := by
  unfold write at hw
  cases hcheck : w.check sv.replica.settings with
  | error e =>
      rw [hcheck] at hw
      cases hw
  | ok _ =>
      rw [hcheck] at hw
      have hcases := Replica.mutate_cases h m expected (w.delta m.spare)
      dsimp only at hw
      generalize sv.replica.mutate s m expected (w.delta m.spare) = out at *
      cases hcases with
      | refused e he => cases hw
      | failed hfail => cases hw
      | idle hd hempty =>
          exact absurd (List.isEmpty_iff.mp hempty) (Write.accepted_delta hd).ne_nil
      | committed c r' s' hexpected hd hfull hsettings hmirrors hc =>
          cases hw
          obtain ⟨d, hd, -, hsnap, -⟩ := hc
          exact ⟨d, Write.accepted_delta hd, hsnap⟩

namespace Lineage

variable {l : Lineage} {tokens : List String} {sv sv' : Service} {s' : Storage} {m : Moment}
  {expected : Option Int} {w : Write} {c : Committed}

theorem runFrom_append : ∀ (first second : List Action) (l : Lineage),
    l.runFrom (first ++ second) = (l.runFrom first).runFrom second
  | [], _, _ => rfl
  | a :: rest, second, l => runFrom_append rest second (l.step a)

theorem run_snoc (actions : List Action) (a : Action) :
    run (actions ++ [a]) = (run actions).step a := runFrom_append actions [a] empty

/-- The service that a request leaves behind runs after the step. -/
theorem running_step_write (hsv : l.host.running = some sv)
    (hw : sv.write l.host.storage m expected w = (.ok c, sv', s')) :
    (l.host.step (.request (.write m expected w))).2.running = some sv' := by
  simp only [Host.step, hsv, Service.serve, hw]

/-- A request to a running master is carried out under a sign that no app has. -/
theorem carries_of_write (hl : l.Traced tokens) (hsv : l.host.running = some sv)
    (hw : sv.write l.host.storage m expected w = (.ok c, sv', s'))
    (hnext : (l.step (.request (.write m expected w))).Traced (tokens ++ [m.sign, m.spare]))
    (hfresh : m.spare ∉ tokens) : sv.snapshot.Carries w m.spare sv'.snapshot := by
  have hpast := hl.tidy.current sv hsv
  have hcurrent := hnext.tidy.current sv' (running_step_write hsv hw)
  have hmirrors := hl.ordered.synced.mirrors sv hsv
  have hcoherent := hmirrors.coherent
  have he := hl.tidy.exact sv hpast
  have hg := hl.signed.grounded sv hpast
  obtain ⟨d, haccepted, hsnap⟩ := Service.committed_of_write hmirrors hw
  have hedit := haccepted.edit hcoherent
  have hafter := he.applyAll (hedit.admitsAll hcoherent he)
  have hagrees : (sv.snapshot.applyAll d.changes).Agrees sv'.snapshot :=
    hsnap ▸ hcoherent.agrees_committed _ m d
  have hsigns : ∀ (k : String) a b, sv.snapshot.apps[k]? = some a →
      sv'.snapshot.apps[k]? = some b →
        b.dataSign = if w.shows sv.snapshot k then m.spare else a.dataSign :=
    fun k a b ha hb => haccepted.dataSign_eq hcoherent ha (hagrees.apps_eq ▸ hb)
  have hunused : ∀ (k : String) a, sv.snapshot.apps[k]? = some a → a.dataSign ≠ m.spare :=
    fun k a ha hsame => hfresh (hsame ▸ hl.signed.known sv hpast k a ha)
  refine ⟨hcoherent, hagrees.right, hg, hnext.signed.grounded sv' hcurrent,
    hnext.signed.sealed sv (mem_past_step_of_mem hpast) sv' hcurrent, hsigns, ?_, hunused⟩
  intro k a b ha hb hshows
  obtain ⟨appKey, hresigned⟩ := hedit.resigned hcoherent he hg hafter
  rcases hresigned k b (hagrees.apps_eq ▸ hb) with ⟨-, hsign⟩ | ⟨a', -, -, hvalues⟩
  · -- the app was not signed anew, so it cannot have the new sign
    have hold : b.dataSign = a.dataSign := by
      rw [hsigns k a b ha hb, hshows]
      rfl
    exact absurd (hold.symm.trans hsign) (hunused k a ha)
  · rw [hvalues]
    exact hafter.activeValues_eq (hnext.tidy.exact sv' hcurrent) hagrees.configs_eq k

/-- Fingerprints change exactly when they should: an accepted request changes the fingerprint of an
app that stays if and only if it enters or removes an active config of that app, or of one that the
app inlines.  So requests that are not about configs, or about inactive ones only, change none.
Signs are hexadecimal, so that they can be told apart in a text in which they are joined by
colons. -/
theorem fingerprint_ne_iff {actions : List Action}
    (hactions : ∀ a ∈ actions, a.StartsAs .master ∧ a.ByOperators)
    (hnodup : (actions.flatMap Action.tokens ++ [m.sign, m.spare]).Nodup)
    (hplain : ∀ t ∈ actions.flatMap Action.tokens ++ [m.sign, m.spare], ':' ∉ t.toList)
    (hsv : (run actions).host.running = some sv)
    (hw : sv.write (run actions).host.storage m expected w = (.ok c, sv', s')) {levels : Nat}
    (hunique : ∀ x ∈ (run (actions ++ [.request (.write m expected w)])).hashed levels,
      ∀ y ∈ (run (actions ++ [.request (.write m expected w)])).hashed levels,
        Digest.md5 x = Digest.md5 y → x = y)
    (hother : ∀ x ∈ (run (actions ++ [.request (.write m expected w)])).hashed levels,
      Digest.md5 x ∉ actions.flatMap Action.tokens ++ [m.sign, m.spare])
    {key : String} {a b : App} (ha : sv.snapshot.app? key = some a)
    (hb : sv'.snapshot.app? key = some b) :
    (sv'.snapshot.fingerprint b levels ≠ sv.snapshot.fingerprint a levels ↔
      w.shows sv.snapshot key = true ∨
        ∃ template ∈ sv.snapshot.inlined levels key,
          w.shows sv.snapshot template.key = true) ∧
    ((∀ config, w = .putConfig config → config.isActive = false ∧
        ∀ before, sv.snapshot.config? config.key = some before → before.entry.isActive = false) →
      (∀ configKey before, w = .deleteConfig configKey →
        sv.snapshot.config? configKey = some before → before.entry.isActive = false) →
      sv'.snapshot.fingerprint b levels = sv.snapshot.fingerprint a levels) := by
  rw [run_snoc] at hunique hother
  obtain ⟨hold, -, hapart⟩ := List.nodup_append.mp hnodup
  have hfresh : m.spare ∉ actions.flatMap Action.tokens := fun hmem =>
    hapart _ hmem _ (List.mem_cons_of_mem _ List.mem_cons_self) rfl
  have hl := traced_run hactions hold
  have hnext : ((run actions).step (.request (.write m expected w))).Traced
      (actions.flatMap Action.tokens ++ [m.sign, m.spare]) := by
    have hall : ∀ a ∈ actions ++ [.request (.write m expected w)],
        a.StartsAs .master ∧ a.ByOperators :=
      List.forall_mem_append.mpr ⟨hactions, List.forall_mem_singleton.mpr ⟨trivial, trivial⟩⟩
    have htokens : (actions ++ [Action.request (.write m expected w)]).flatMap Action.tokens =
        actions.flatMap Action.tokens ++ [m.sign, m.spare] := by
      rw [List.flatMap_append, List.flatMap_singleton]
      rfl
    have htraced := traced_run hall (htokens ▸ hnodup)
    rwa [run_snoc, htokens] at htraced
  have hchanges := (carries_of_write hl hsv hw hnext hfresh).changes_iff ha hb
    (signs_eq_of_fingerprint hnext hplain hunique hother
      (mem_past_step_of_mem (hl.tidy.current sv hsv))
      (hnext.tidy.current sv' (running_step_write hsv hw)) ha hb)
  refine ⟨hchanges, ?_⟩
  intro hput hdelete
  have hnone : ∀ appKey, w.shows sv.snapshot appKey = false := by
    intro appKey
    cases w with
    | putConfig config =>
        obtain ⟨hinactive, hbefore⟩ := hput config rfl
        cases hold : sv.snapshot.config? config.key with
        | none => simp [Write.shows, hinactive, hold]
        | some before => simp [Write.shows, hinactive, hold, hbefore before hold]
    | deleteConfig configKey =>
        cases hold : sv.snapshot.config? configKey with
        | none => simp [Write.shows, hold]
        | some before => simp [Write.shows, hold, hdelete configKey before rfl hold]
    | _ => rfl
  by_contra hne
  simpa [hnone] using hchanges.mp hne

/-- When the template of an app gets a value, the app keeps its own sign, but not its
fingerprint. -/
theorem fingerprint_ne_iff_templateRun :
    ∃ sv c sv' s' a, (run (templateRun.take 4)).host.running = some sv ∧
      sv.write (run (templateRun.take 4)).host.storage ⟨.epoch, "v4", "t4"⟩ none
        (.putConfig ⟨"d", "T", "g", "x", .string, .active⟩) = (.ok c, sv', s') ∧
      sv.snapshot.app? "A" = some a ∧ sv'.snapshot.app? "A" = some a ∧
      sv'.snapshot.fingerprint a 2 ≠ sv.snapshot.fingerprint a 2 := by
  let sv := (run (templateRun.take 4)).host.running.get (by decide +kernel)
  have hsv : (run (templateRun.take 4)).host.running = some sv := (Option.some_get _).symm
  obtain ⟨out, hout⟩ : ∃ out, sv.write (run (templateRun.take 4)).host.storage
      ⟨.epoch, "v4", "t4"⟩ none (.putConfig ⟨"d", "T", "g", "x", .string, .active⟩) = out :=
    ⟨_, rfl⟩
  have ha : sv.snapshot.app? "A" = some ⟨"A", "app", .real, "t3", 1, 1⟩ := by decide +kernel
  have hb : out.2.1.snapshot.app? "A" = some ⟨"A", "app", .real, "t3", 1, 1⟩ := by
    rw [← hout]
    decide +kernel
  have hactions : ∀ a ∈ templateRun.take 4, a.StartsAs .master ∧ a.ByOperators := by
    simp [templateRun, Action.StartsAs, Action.ByOperators]
  have hhashed : (run (templateRun.take 4 ++ [.request (.write ⟨.epoch, "v4", "t4"⟩ none
      (.putConfig ⟨"d", "T", "g", "x", .string, .active⟩))])).hashed 2 = ["t3:t1", "t3:t4"] := by
    decide +kernel
  have hunique : ∀ x ∈ ["t3:t1", "t3:t4"], ∀ y ∈ ["t3:t1", "t3:t4"],
      Digest.md5 x = Digest.md5 y → x = y := by decide +kernel
  have hother : ∀ x ∈ ["t3:t1", "t3:t4"],
      Digest.md5 x ∉ (templateRun.take 4).flatMap Action.tokens ++ ["v4", "t4"] := by decide +kernel
  rw [← hhashed] at hunique hother
  have hok : out.1.toBool = true := by
    rw [← hout]
    decide +kernel
  cases hc : out.1 with
  | error e =>
      rw [hc] at hok
      cases hok
  | ok c =>
      have hw := hout.trans (Prod.ext hc rfl : out = (.ok c, out.2.1, out.2.2))
      have hinlined : ⟨"T", "tmpl", .template, "t1", 0, 0⟩ ∈ sv.snapshot.inlined 2 "A" :=
        List.elem_iff.mp (by decide +kernel)
      have hchanges := (fingerprint_ne_iff hactions (by decide +kernel) (by decide +kernel) hsv hw
        hunique hother ha hb).1
      exact ⟨sv, c, out.2.1, out.2.2, _, hsv, hw, ha, hb,
        hchanges.mpr (Or.inr ⟨_, hinlined, by decide +kernel⟩)⟩

end Lineage

end RemoteConfig
