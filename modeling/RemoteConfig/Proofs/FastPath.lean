import RemoteConfig.Proofs.Fingerprint
import RemoteConfig.Proofs.Operators
/-! # The fast path

A client that presents the sign of the fields it holds gets nothing if the sign is still that of its
app.  On a master that is written by operators no change is held back in this way: in any two states
of its lineage, equal fingerprints mean equal fields. -/

namespace RemoteConfig

namespace Snapshot

theorem grounded_initial (settings : Settings) (v : DataVersion) :
    (initial settings v).Grounded := by
  have hnone : ∀ (key : String) c, ¬ (initial settings v).configs[key]? = some c := by
    intro key c
    simp [configs_initial]
  exact ⟨fun key c hc => absurd hc (hnone key c), fun key c _ hc => absurd hc (hnone key c)⟩

end Snapshot

namespace Lineage

/-! ## Signs that stay -/

/-- What holds of the signs of apps in a lineage: each was handed out once, and stands for one app
with certain active values. -/
structure Signed (l : Lineage) (tokens : List String) : Prop where
  grounded : ∀ P ∈ l.past, P.snapshot.Grounded
  known : ∀ P ∈ l.past, ∀ (k : String) a, P.snapshot.apps[k]? = some a → a.dataSign ∈ tokens
  sealed : ∀ P ∈ l.past, ∀ Q ∈ l.past, P.snapshot.Sealed Q.snapshot

theorem signed_empty : empty.Signed [] where
  grounded _ hP := absurd hP List.not_mem_nil
  known _ hP := absurd hP List.not_mem_nil
  sealed _ hP := absurd hP List.not_mem_nil

/-- An app had its sign and its active values before. -/
def Recalls (l : Lineage) (snap : Snapshot) (k : String) (b : App) : Prop :=
  ∃ P ∈ l.past, ∃ a, P.snapshot.apps[k]? = some a ∧ a.dataSign = b.dataSign ∧
    P.snapshot.activeValues k = snap.activeValues k

/-- Every app of a snapshot is as it was at some time, or it is the one app of the given key and has
a sign that is handed out now. -/
def Inherits (l : Lineage) (snap : Snapshot) (appKey : String) (tokens : List String) : Prop :=
  ∀ (k : String) b, snap.apps[k]? = some b → (k = appKey ∧ b.dataSign ∈ tokens) ∨ l.Recalls snap k b

variable {l : Lineage} {tokens : List String} {a : Action}

/-- What is held on the host of a lineage is as some state of the past. -/
theorem exists_past_of_held (ht : l.Tidy) (ho : l.Ordered tokens) {s : Snapshot}
    (hheld : l.host.Held s) : ∃ P ∈ l.past, s.apps = P.snapshot.apps ∧
      s.configs = P.snapshot.configs ∧ ∀ k, s.activeValues k = P.snapshot.activeValues k := by
  have hmirrors := hheld.mirrors ho.synced
  obtain ⟨P, hP, halike⟩ := ho.stored _ hmirrors
  have hagree : s.entity?.withoutProgress = P.snapshot.entity?.withoutProgress := by rw [halike.2]
  obtain ⟨happs, hconfigs⟩ := hmirrors.coherent.tables_eq (ho.coherent P hP) hagree
  refine ⟨P, hP, happs, hconfigs, ?_⟩
  exact (ht.exact_of_held ho hheld).activeValues_eq (ht.exact P hP) hconfigs

/-- An edit leaves a grounded snapshot in which all apps but one are as they were. -/
theorem inherits_of_edits (ht : l.Tidy) (ho : l.Ordered tokens) (hs : l.Signed tokens)
    {url : String} {pushes : List (String × Payload)} {snap : Snapshot}
    (h : l.host.Edits url a pushes snap) :
    snap.Grounded ∧ ∃ appKey, l.Inherits snap appKey a.tokens := by
  have hexact := exact_of_edits ht ho h
  cases h with
  | @mk m s d hm hheld hd next hnext _ hsnap =>
      subst hsnap
      have hcoherent := (hheld.mirrors ho.synced).coherent
      have he := ht.exact_of_held ho hheld
      obtain ⟨P, hP, happs, hconfigs, hvalues⟩ := exists_past_of_held ht ho hheld
      have hg : s.Grounded := (hs.grounded P hP).congr happs.symm hconfigs.symm
      have hafter := he.applyAll (hd.admitsAll hcoherent he)
      obtain ⟨happs', hconfigs'⟩ := Snapshot.tables_advance_touchOwn hcoherent url d next
      refine ⟨(hd.grounded he hg).congr happs'.symm hconfigs'.symm, ?_⟩
      obtain ⟨appKey, hresigned⟩ := hd.resigned hcoherent he hg hafter
      refine ⟨appKey, ?_⟩
      intro k b hb
      rcases hresigned k b (happs' ▸ hb) with ⟨hkey, hsign⟩ | ⟨b', hb', hsign, hsame⟩
      · exact Or.inl ⟨hkey, hsign ▸ Action.spare_mem_tokens hm⟩
      · refine Or.inr ⟨P, hP, b', happs ▸ hb', hsign, ?_⟩
        rw [← hvalues, hsame]
        exact hafter.activeValues_eq hexact hconfigs'.symm k

/-- After a step, the running service has a grounded snapshot, and all its apps but one are as they
were at some time. -/
theorem inherits_step (ht : l.Tidy) (ho : l.Ordered tokens) (hs : l.Signed tokens)
    (ha : a.StartsAs .master) (hop : a.ByOperators) {Q : Service}
    (hQ : (l.host.step a).2.running = some Q) :
    Q.snapshot.Grounded ∧ ∃ appKey, l.Inherits Q.snapshot appKey a.tokens := by
  have hstep := Host.step_stepped ho.synced a
  generalize l.host.step a = out at *
  cases hstep with
  | kept result h' hdata hkeyed hrunning =>
      obtain ⟨P, hP, happs, hconfigs, hvalues⟩ := exists_past_of_held ht ho (hrunning Q hQ).held
      refine ⟨(hs.grounded P hP).congr happs.symm hconfigs.symm, "", fun k b hb => Or.inr ?_⟩
      exact ⟨P, hP, b, happs ▸ hb, rfl, (hvalues k).symm⟩
  | moved pushes sv' s' hmirrors hmoves =>
      obtain rfl := Option.some.inj hQ
      rcases hmoves.edits ho.synced (hmoves.role ho.role ha) hop with ⟨m, -, -, hsnap⟩ | hedits
      · refine ⟨hsnap ▸ Snapshot.grounded_initial _ _, "", ?_⟩
        intro k b hb
        rw [hsnap, Snapshot.apps_initial] at hb
        simp at hb
      · exact inherits_of_edits ht ho hs hedits

/-- After a step, every app in a state of the lineage is as it was before, or it is the one app of
the running service that is signed anew. -/
theorem past_inherits (ht : l.Tidy) (ho : l.Ordered tokens) (hs : l.Signed tokens)
    (ha : a.StartsAs .master) (hop : a.ByOperators) : ∃ appKey, ∀ Q ∈ (l.step a).past,
      Q.snapshot.Grounded ∧ ∀ (k : String) b, Q.snapshot.apps[k]? = some b →
        ((l.host.step a).2.running = some Q ∧ k = appKey ∧ b.dataSign ∈ a.tokens) ∨
          l.Recalls Q.snapshot k b := by
  have hnew : ∃ appKey, ∀ Q, (l.host.step a).2.running = some Q →
      Q.snapshot.Grounded ∧ l.Inherits Q.snapshot appKey a.tokens := by
    cases hrunning : (l.host.step a).2.running with
    | none => exact ⟨"", nofun⟩
    | some sv =>
        obtain ⟨hg, appKey, hinherits⟩ := inherits_step ht ho hs ha hop hrunning
        refine ⟨appKey, ?_⟩
        intro Q hQ
        obtain rfl := Option.some.inj hQ
        exact ⟨hg, hinherits⟩
  obtain ⟨appKey, hnew⟩ := hnew
  refine ⟨appKey, ?_⟩
  intro Q hQ
  rcases mem_past_step.mp hQ with hold | hrunning
  · exact ⟨hs.grounded Q hold, fun k b hb => Or.inr ⟨Q, hold, b, hb, rfl, rfl⟩⟩
  · obtain ⟨hg, hinherits⟩ := hnew Q hrunning
    exact ⟨hg, fun k b hb => (hinherits k b hb).imp_left fun h => ⟨hrunning, h⟩⟩

/-- A sign stays the sign of one app with certain active values, if a step brings new signs. -/
theorem Signed.step (hs : l.Signed tokens) (ht : l.Tidy) (ho : l.Ordered tokens)
    (ha : a.StartsAs .master) (hop : a.ByOperators) (hfresh : ∀ t ∈ a.tokens, t ∉ tokens) :
    (l.step a).Signed (tokens ++ a.tokens) := by
  obtain ⟨appKey, hpast⟩ := past_inherits ht ho hs ha hop
  constructor
  · exact fun Q hQ => (hpast Q hQ).1
  · intro Q hQ k b hb
    rw [List.mem_append]
    rcases (hpast Q hQ).2 k b hb with ⟨-, -, hmem⟩ | ⟨P, hP, b', hb', hsign, -⟩
    · exact Or.inr hmem
    · exact Or.inl (hsign ▸ hs.known P hP k b' hb')
  · intro P hP Q hQ k k' b c hb hc heq
    -- a sign of the past is none of the new ones, and the new ones are those of one app
    rcases (hpast P hP).2 k b hb with ⟨hrunP, hk, hnewb⟩ | ⟨P', hP', b', hb', hsignb, hsameb⟩ <;>
      rcases (hpast Q hQ).2 k' c hc with ⟨hrunQ, hk', hnewc⟩ | ⟨Q', hQ', c', hc', hsignc, hsamec⟩
    · obtain rfl := Option.some.inj (hrunP.symm.trans hrunQ)
      subst hk hk'
      exact ⟨rfl, rfl⟩
    · rw [heq, ← hsignc] at hnewb
      exact absurd (hs.known Q' hQ' k' c' hc') (hfresh _ hnewb)
    · rw [← heq, ← hsignb] at hnewc
      exact absurd (hs.known P' hP' k b' hb') (hfresh _ hnewc)
    · have heq' : b'.dataSign = c'.dataSign := by rw [hsignb, heq, hsignc]
      obtain ⟨hkey, hvalues⟩ := hs.sealed P' hP' Q' hQ' k k' b' c' hb' hc' heq'
      exact ⟨hkey, hsameb.symm.trans (hvalues.trans hsamec)⟩

/-! ## Runs -/

/-- All that holds of a lineage whose master is written by operators, as long as no sign comes
again. -/
structure Traced (l : Lineage) (tokens : List String) : Prop where
  ordered : l.Ordered tokens
  tidy : l.Tidy
  signed : l.Signed tokens

theorem Traced.runFrom : ∀ {actions : List Action} {l : Lineage} {tokens : List String},
    l.Traced tokens → (∀ a ∈ actions, a.StartsAs .master ∧ a.ByOperators) →
      (tokens ++ actions.flatMap Action.tokens).Nodup →
        (l.runFrom actions).Traced (tokens ++ actions.flatMap Action.tokens)
  | [], l, tokens, hl, _, _ => by
      rw [List.flatMap_nil, List.append_nil]
      exact hl
  | a :: rest, l, tokens, hl, hactions, hnodup => by
      obtain ⟨ha, hop⟩ := hactions a List.mem_cons_self
      have hfresh : ∀ t ∈ a.tokens, t ∉ tokens := by
        intro t ht hmem
        exact (List.nodup_append.mp hnodup).2.2 t hmem t (List.mem_append_left _ ht) rfl
      have hstep : (l.step a).Traced (tokens ++ a.tokens) :=
        ⟨hl.ordered.step ha hfresh, hl.tidy.step hl.ordered ha hop,
          hl.signed.step hl.tidy hl.ordered ha hop hfresh⟩
      rw [List.flatMap_cons, ← List.append_assoc] at hnodup ⊢
      exact hstep.runFrom (fun b hb => hactions b (List.mem_cons_of_mem _ hb)) hnodup

theorem traced_run {actions : List Action}
    (hactions : ∀ a ∈ actions, a.StartsAs .master ∧ a.ByOperators)
    (hnodup : (actions.flatMap Action.tokens).Nodup) :
    (run actions).Traced (actions.flatMap Action.tokens) := by
  have hempty : empty.Traced [] := ⟨ordered_empty, tidy_empty, signed_empty⟩
  exact hempty.runFrom hactions hnodup

/-! ## Fingerprints in a lineage -/

/-- The texts whose digests are fingerprints of apps in a lineage. -/
def hashed (l : Lineage) (levels : Nat) : List String :=
  l.past.flatMap fun P => P.snapshot.apps.values.filterMap (P.snapshot.signText? levels)

theorem mem_hashed {levels : Nat} {P : Service} (hP : P ∈ l.past) {key : String} {a : App}
    (ha : P.snapshot.apps[key]? = some a) {x : String}
    (hx : P.snapshot.signText? levels a = some x) : x ∈ l.hashed levels := by
  refine List.mem_flatMap.mpr ⟨P, hP, List.mem_filterMap.mpr ⟨a, ?_, hx⟩⟩
  exact Table.mem_values.mpr ⟨key, ha⟩

theorem mem_tokens_of_mem_signs (hs : l.Signed tokens) {P : Service} (hP : P ∈ l.past)
    {key : String} {a : App} (ha : P.snapshot.apps[key]? = some a) (levels : Nat) {sign : String}
    (hsign : sign ∈ a.dataSign :: P.snapshot.templateSigns levels a.key) : sign ∈ tokens := by
  rcases List.mem_cons.mp hsign with rfl | hbelow
  · exact hs.known P hP key a ha
  · obtain ⟨k, b, hb, rfl⟩ := Snapshot.exists_app_of_mem_templateSigns hbelow
    exact hs.known P hP k b hb

/-- In a lineage equal fingerprints are those of apps with the same signs. -/
theorem signs_eq_of_fingerprint (hl : l.Traced tokens) {levels : Nat}
    (hplain : ∀ t ∈ tokens, ':' ∉ t.toList)
    (hunique : ∀ x ∈ l.hashed levels, ∀ y ∈ l.hashed levels, Digest.md5 x = Digest.md5 y → x = y)
    (hother : ∀ x ∈ l.hashed levels, Digest.md5 x ∉ tokens) {P Q : Service} (hP : P ∈ l.past)
    (hQ : Q ∈ l.past) {k k' : String} {a b : App} (ha : P.snapshot.apps[k]? = some a)
    (hb : Q.snapshot.apps[k']? = some b)
    (h : P.snapshot.fingerprint a levels = Q.snapshot.fingerprint b levels) :
    a.dataSign = b.dataSign ∧
      P.snapshot.templateSigns levels k = Q.snapshot.templateSigns levels k' := by
  have hsigns := Snapshot.signs_eq_of_fingerprint hplain hunique hother
    (fun x hx => mem_tokens_of_mem_signs hl.signed hP ha levels hx)
    (fun x hx => mem_tokens_of_mem_signs hl.signed hQ hb levels hx)
    (fun x hx => mem_hashed hP ha hx) (fun x hx => mem_hashed hQ hb hx) h
  rwa [(hl.ordered.coherent P hP).app_key ha, (hl.ordered.coherent Q hQ).app_key hb] at hsigns

/-- In a lineage equal fingerprints are those of one app with one tree. -/
theorem sameTree_of_fingerprint (hl : l.Traced tokens) {levels : Nat}
    (hplain : ∀ t ∈ tokens, ':' ∉ t.toList)
    (hunique : ∀ x ∈ l.hashed levels, ∀ y ∈ l.hashed levels, Digest.md5 x = Digest.md5 y → x = y)
    (hother : ∀ x ∈ l.hashed levels, Digest.md5 x ∉ tokens) {P Q : Service} (hP : P ∈ l.past)
    (hQ : Q ∈ l.past) {k k' : String} {a b : App} (ha : P.snapshot.apps[k]? = some a)
    (hb : Q.snapshot.apps[k']? = some b)
    (h : P.snapshot.fingerprint a levels = Q.snapshot.fingerprint b levels) :
    k = k' ∧ P.snapshot.SameTree Q.snapshot levels k := by
  have hcP := hl.ordered.coherent P hP
  have hcQ := hl.ordered.coherent Q hQ
  obtain ⟨hsign, hsigns⟩ := signs_eq_of_fingerprint hl hplain hunique hother hP hQ ha hb h
  have hsealed := hl.signed.sealed P hP Q hQ
  obtain ⟨rfl, hvalues⟩ := hsealed k k' a b ha hb hsign
  refine ⟨rfl, (Snapshot.sameTree_of_templateSigns hcP hcQ (hl.signed.grounded P hP)
    (hl.signed.grounded Q hQ) hsealed levels k hvalues [] [] ?_).1⟩
  rw [List.append_nil, List.append_nil, hsigns]

end Lineage

namespace Service

variable {sv : Service} {s : Storage} {ctx : Context}

/-- The answer about an app that is found. -/
theorem answer_of_findApp? {a : App} (h : sv.snapshot.findApp? (ctx.get .appKey) = some a) :
    let sign := sv.snapshot.fingerprint a sv.limits.templateLevels
    (sv.answer s ctx).1 = .ok ⟨(sv.fieldsFor a sign ctx).1, sign, sv.snapshot.nodes.keys⟩ := by
  simp only [answer, h]

/-- An answer is about an app that is found, and has its fingerprint; the fields are left out only
if the client presents that fingerprint. -/
theorem answer_eq_ok {r : Response} (h : (sv.answer s ctx).1 = .ok r) :
    ∃ a, sv.snapshot.findApp? (ctx.get .appKey) = some a ∧
      r.dataSign = sv.snapshot.fingerprint a sv.limits.templateLevels ∧
      (r.fields = none → ctx.dataSign = r.dataSign) ∧
      ∀ fields, r.fields = some fields →
        fields = (sv.resolve ctx sv.limits.templateLevels a.key).1 := by
  cases hfind : sv.snapshot.findApp? (ctx.get .appKey) with
  | none => simp only [answer, hfind] at h; cases h
  | some a =>
      rw [answer_of_findApp? hfind] at h
      obtain rfl := Except.ok.inj h
      refine ⟨a, rfl, rfl, ?_⟩
      dsimp only
      unfold fieldsFor
      split
      · rename_i hheld
        exact ⟨fun _ => hheld.2, nofun⟩
      · exact ⟨nofun, fun fields hfields => (Option.some.inj hfields).symm⟩

end Service

namespace Lineage

/-- The fast path hides no change: in any two states of a master that is written by operators, equal
fingerprints mean that an app resolves to the same fields.  So a client that gets nothing for the
sign of an earlier answer holds the fields that it would get.  Signs are hexadecimal, so that they
can be told apart in a text in which they are joined by colons. -/
theorem fast_path_sound {actions : List Action}
    (hactions : ∀ a ∈ actions, a.StartsAs .master ∧ a.ByOperators)
    (hnodup : (actions.flatMap Action.tokens).Nodup)
    (hplain : ∀ t ∈ actions.flatMap Action.tokens, ':' ∉ t.toList) {levels : Nat}
    (hunique : ∀ x ∈ (run actions).hashed levels, ∀ y ∈ (run actions).hashed levels,
      Digest.md5 x = Digest.md5 y → x = y)
    (hother : ∀ x ∈ (run actions).hashed levels, Digest.md5 x ∉ actions.flatMap Action.tokens)
    {P Q : Service} (hP : P ∈ (run actions).past) (hQ : Q ∈ (run actions).past) :
    (∀ key a b, P.snapshot.app? key = some a → Q.snapshot.app? key = some b →
      P.snapshot.fingerprint a levels = Q.snapshot.fingerprint b levels →
        ∀ ctx, (P.resolve ctx levels key).1 = (Q.resolve ctx levels key).1) ∧
    (P.limits.templateLevels = levels → Q.limits.templateLevels = levels →
      ∀ (ctx ctx' : Context) (s s' : Storage) (r r' : Response) (fields : Fields),
        ctx.SameAttributes ctx' → (P.answer s ctx).1 = .ok r → r.fields = some fields →
        ctx'.dataSign = r.dataSign → (Q.answer s' ctx').1 = .ok r' → r'.fields = none →
          ∃ a, Q.snapshot.findApp? (ctx'.get .appKey) = some a ∧
            (Q.resolve ctx' levels a.key).1 = fields) := by
  have hl := traced_run hactions hnodup
  have hpoolP := hl.tidy.pools P hP
  have hpoolQ := hl.tidy.pools Q hQ
  constructor
  · intro key a b ha hb h ctx
    obtain ⟨-, htree⟩ := sameTree_of_fingerprint hl hplain hunique hother hP hQ ha hb h
    exact Service.resolve_eq hpoolP hpoolQ (.refl ctx) htree
  · rintro rfl hlevels ctx ctx' s s' r r' fields hattributes hr hfields hsign hr' hnone
    obtain ⟨a, hfinda, hsigna, -, hheld⟩ := Service.answer_eq_ok hr
    obtain ⟨b, hfindb, hsignb, hsame, -⟩ := Service.answer_eq_ok hr'
    obtain ⟨k, ha⟩ := Snapshot.exists_key_of_findApp? hfinda
    obtain ⟨k', hb⟩ := Snapshot.exists_key_of_findApp? hfindb
    have h : P.snapshot.fingerprint a P.limits.templateLevels =
        Q.snapshot.fingerprint b P.limits.templateLevels := by
      rw [← hsigna, ← hsign, hsame hnone, hsignb, hlevels]
    obtain ⟨rfl, htree⟩ := sameTree_of_fingerprint hl hplain hunique hother hP hQ ha hb h
    have hkeya := (hl.ordered.coherent P hP).app_key ha
    have hkeyb := (hl.ordered.coherent Q hQ).app_key hb
    refine ⟨b, hfindb, ?_⟩
    rw [hheld fields hfields, hkeya, hkeyb]
    exact (Service.resolve_eq hpoolP hpoolQ hattributes htree).symm

/-- A master with an app that inlines a template; then the template gets a value, and after that an
operator's account is added. -/
def templateRun : List Action :=
  [.start ⟨"http://m", .master, none, false⟩ ⟨300, 0, 2⟩ ⟨.epoch, "v0", "t0"⟩,
    .request (.write ⟨.epoch, "v1", "t1"⟩ none (.putApp "T" "tmpl" .template)),
    .request (.write ⟨.epoch, "v2", "t2"⟩ none (.putApp "A" "app" .real)),
    .request (.write ⟨.epoch, "v3", "t3"⟩ none (.putConfig ⟨"c", "A", "f", "T", .template, .active⟩)),
    .request (.write ⟨.epoch, "v4", "t4"⟩ none (.putConfig ⟨"d", "T", "g", "x", .string, .active⟩)),
    .request (.write ⟨.epoch, "v5", "t5"⟩ none (.putUser ⟨"u", "p", .normal⟩))]

/-- The account changes neither the fingerprint of the app nor what clients get.  One that presents
the sign of the answer it got before gets no fields, and holds what it would get. -/
theorem fast_path_sound_templateRun :
    (run templateRun).hashed 2 = ["t3:t1", "t3:t4", "t3:t4"] ∧
      ∃ P ∈ (run templateRun).past, ∃ Q ∈ (run templateRun).past,
        P.snapshot.dataVersion.version = 4 ∧ Q.snapshot.dataVersion.version = 5 ∧
          (∀ ctx, (P.resolve ctx 2 "A").1 = (Q.resolve ctx 2 "A").1) ∧
          ∃ (ctx ctx' : Context) (r r' : Response) (fields : Fields), ctx.SameAttributes ctx' ∧
            (P.answer .empty ctx).1 = .ok r ∧ r.fields = some fields ∧
            fields.map Prod.fst = ["f"] ∧ ctx'.dataSign = r.dataSign ∧
            (Q.answer .empty ctx').1 = .ok r' ∧ r'.fields = none ∧
            ∃ a, Q.snapshot.findApp? (ctx'.get .appKey) = some a ∧
              (Q.resolve ctx' 2 a.key).1 = fields := by
  let P := (run templateRun).past.get ⟨4, by decide +kernel⟩
  let Q := (run templateRun).past.get ⟨5, by decide +kernel⟩
  have hP : P ∈ (run templateRun).past := List.get_mem _ _
  have hQ : Q ∈ (run templateRun).past := List.get_mem _ _
  have hhashed : (run templateRun).hashed 2 = ["t3:t1", "t3:t4", "t3:t4"] := by decide +kernel
  have hactions : ∀ a ∈ templateRun, a.StartsAs .master ∧ a.ByOperators := by
    simp [templateRun, Action.StartsAs, Action.ByOperators]
  have hunique : ∀ x ∈ (run templateRun).hashed 2, ∀ y ∈ (run templateRun).hashed 2,
      Digest.md5 x = Digest.md5 y → x = y := by
    rw [hhashed]
    decide +kernel
  have hother : ∀ x ∈ (run templateRun).hashed 2,
      Digest.md5 x ∉ templateRun.flatMap Action.tokens := by
    rw [hhashed]
    decide +kernel
  obtain ⟨hsame, hheld⟩ := fast_path_sound hactions (by decide +kernel) (by decide +kernel) hunique
    hother hP hQ
  let a : App := ⟨"A", "app", .real, "t3", 1, 1⟩
  let ctx := Context.empty.set (.client .appKey) "A"
  let ctx' := ctx.set .dataSign (Digest.md5 "t3:t4")
  have hattributes : ctx.SameAttributes ctx' := fun _ => rfl
  have hsign : P.snapshot.fingerprint a P.limits.templateLevels = Digest.md5 "t3:t4" := by
    decide +kernel
  have hr : (P.answer .empty ctx).1 = _ := Service.answer_of_findApp? (a := a) (by decide +kernel)
  have hr' : (Q.answer .empty ctx').1 = _ :=
    Service.answer_of_findApp? (a := a) (by decide +kernel)
  have hfields : (P.fieldsFor a (P.snapshot.fingerprint a P.limits.templateLevels) ctx).1 =
      some (P.resolve ctx P.limits.templateLevels a.key).1 := by
    rw [Service.fieldsFor, if_neg fun h => h.1 rfl]
  have hnone : (Q.fieldsFor a (Q.snapshot.fingerprint a Q.limits.templateLevels) ctx').1 =
      none := by
    rw [Service.fieldsFor, if_pos (by decide +kernel)]
  exact ⟨hhashed, P, hP, Q, hQ, by decide +kernel, by decide +kernel,
    hsame "A" a a (by decide +kernel) (by decide +kernel) (by decide +kernel),
    ctx, ctx', _, _, _, hattributes, hr, hfields, by decide +kernel, hsign.symm, hr', hnone,
    hheld (by decide +kernel) (by decide +kernel) ctx ctx' .empty .empty _ _ _ hattributes hr
      hfields hsign.symm hr' hnone⟩

end Lineage

end RemoteConfig
