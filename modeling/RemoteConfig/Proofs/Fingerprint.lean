import RemoteConfig.Proofs.Resolution
import RemoteConfig.Proofs.Signs
/-! # Fingerprints

The fingerprint of an app is a digest of a flat list of signs, its own and those of all it inlines.
Such a list can be read in one way only, since the first sign tells the active values, and these
tell what signs follow.  So equal lists mean equal trees; and where digests are unique, equal
fingerprints mean equal lists. -/

namespace RemoteConfig

namespace Snapshot

variable {s t : Snapshot}

/-! ## Flat lists of signs -/

/-- An app with the same sign in two snapshots is the same app with the same active values. -/
def Sealed (s t : Snapshot) : Prop :=
  ∀ (k k' : String) a b, s.apps[k]? = some a → t.apps[k']? = some b → a.dataSign = b.dataSign →
    k = k' ∧ s.activeValues k = t.activeValues k'

/-- The signs that a value stands for in the list of an app. -/
def valueSigns (s : Snapshot) (levels : Nat) : ConfigValue → List String
  | .template key =>
    match s.findApp? key with
    | some template => template.dataSign :: s.templateSigns levels template.key
    | none => []
  | _ => []

theorem templateSigns_succ (levels : Nat) (key : String) :
    s.templateSigns (levels + 1) key =
      (s.activeValues key).flatMap fun row => s.valueSigns levels row.2 := rfl

theorem exists_key_of_findApp? {name : String} {a : App} (h : s.findApp? name = some a) :
    ∃ key : String, s.apps[key]? = some a := by
  rcases Option.or_eq_some_iff.mp h with happ | ⟨-, hname⟩
  · exact ⟨name, happ⟩
  · obtain ⟨key, -, hkey⟩ := Option.bind_eq_some_iff.mp hname
    exact ⟨key, hkey⟩

/-- A template among the active values is an app, found under its key. -/
theorem exists_template (hs : s.Coherent) (hg : s.Grounded) {key field template : String}
    (h : (field, ConfigValue.template template) ∈ s.activeValues key) :
    ∃ a, s.apps[template]? = some a ∧ s.findApp? template = some a ∧ a.key = template := by
  obtain ⟨configKey, c, hc, hvalue⟩ := exists_config_of_mem_activeValues h
  obtain ⟨a, ha⟩ := Option.isSome_iff_exists.mp (hg.templates configKey c template hc hvalue)
  refine ⟨a, ha, ?_, hs.app_key ha⟩
  rw [findApp?, app?, ha, Option.some_or]

/-- The trees below some active values are the same in two snapshots. -/
def SameBelow (s t : Snapshot) (levels : Nat) (rows : List (String × ConfigValue)) : Prop :=
  ∀ field template, (field, ConfigValue.template template) ∈ rows →
    (s.findApp? template).map (·.key) = (t.findApp? template).map (·.key) ∧
      ∀ a, s.findApp? template = some a → SameTree s t levels a.key

theorem SameBelow.cons {levels : Nat} {row : String × ConfigValue}
    {rest : List (String × ConfigValue)} (hrest : SameBelow s t levels rest)
    (hrow : SameBelow s t levels [row]) : SameBelow s t levels (row :: rest) := by
  intro field template hmem
  rcases List.mem_cons.mp hmem with heq | hmem
  · exact hrow field template (heq ▸ List.mem_cons_self)
  · exact hrest field template hmem

section Reading

variable (hs : s.Coherent) (ht : t.Coherent) (hgs : s.Grounded) (hgt : t.Grounded)
  (hsealed : s.Sealed t)
include hs ht hgs hgt hsealed

/-- Active values are read one after the other, each as far as its own signs reach. -/
theorem sameBelow_of_valueSigns {levels : Nat} {key : String}
    (hvalues : s.activeValues key = t.activeValues key)
    (hlevel : ∀ key : String, s.activeValues key = t.activeValues key → ∀ r r' : List String,
      s.templateSigns levels key ++ r = t.templateSigns levels key ++ r' →
        SameTree s t levels key ∧ r = r') {r r' : List String} :
    ∀ rows : List (String × ConfigValue), (∀ row ∈ rows, row ∈ s.activeValues key) →
      (rows.flatMap fun row => s.valueSigns levels row.2) ++ r =
        (rows.flatMap fun row => t.valueSigns levels row.2) ++ r' →
      SameBelow s t levels rows ∧ r = r'
  | [], _, h => ⟨nofun, h⟩
  | (field, value) :: rest, hmem, h => by
      have hrest : ∀ row ∈ rest, row ∈ s.activeValues key := fun row hrow =>
        hmem row (List.mem_cons_of_mem _ hrow)
      cases value with
      | template template =>
          have hactive := hmem _ List.mem_cons_self
          obtain ⟨a, ha, hfinds, hakey⟩ := exists_template hs hgs hactive
          obtain ⟨b, hb, hfindt, hbkey⟩ := exists_template ht hgt (hvalues ▸ hactive)
          simp only [List.flatMap_cons, valueSigns, hfinds, hfindt, hakey, hbkey, List.cons_append,
            List.append_assoc, List.cons.injEq] at h
          -- the first sign tells the active values of the template, so its own list can be read
          obtain ⟨-, hbelow⟩ := hsealed template template a b ha hb h.1
          obtain ⟨htree, hmore⟩ := hlevel template hbelow _ _ h.2
          obtain ⟨hall, hr⟩ := sameBelow_of_valueSigns hvalues hlevel rest hrest hmore
          refine ⟨hall.cons fun field' template' hrow => ?_, hr⟩
          cases List.mem_singleton.mp hrow
          rw [hfinds, hfindt]
          refine ⟨by rw [Option.map_some, Option.map_some, hakey, hbkey], ?_⟩
          intro a' ha'
          obtain rfl := Option.some.inj ha'
          rw [hakey]
          exact htree
      | _ =>
          obtain ⟨hall, hr⟩ := sameBelow_of_valueSigns hvalues hlevel rest hrest h
          exact ⟨hall.cons fun field' template' hrow => (nomatch List.mem_singleton.mp hrow), hr⟩

/-- Equal lists of signs come from equal trees, also if they are the beginnings of longer lists. -/
theorem sameTree_of_templateSigns : ∀ (levels : Nat) (key : String),
    s.activeValues key = t.activeValues key → ∀ r r' : List String,
      s.templateSigns levels key ++ r = t.templateSigns levels key ++ r' →
        SameTree s t levels key ∧ r = r'
  | 0, _, hvalues, _, _, h => ⟨hvalues, h⟩
  | levels + 1, key, hvalues, r, r', h => by
      rw [templateSigns_succ, templateSigns_succ, ← hvalues] at h
      obtain ⟨hbelow, hr⟩ := sameBelow_of_valueSigns hs ht hgs hgt hsealed hvalues
        (sameTree_of_templateSigns levels) _ (fun _ => id) h
      exact ⟨⟨hvalues, hbelow⟩, hr⟩

end Reading

/-! ## Apps that are inlined -/

/-- The apps that are inlined into an app, outer ones before inner ones. -/
def inlined (s : Snapshot) : (levels : Nat) → String → List App
  | 0, _ => []
  | levels + 1, appKey => (s.activeValues appKey).flatMap fun (_, value) =>
    match value with
    | .template key =>
      match s.findApp? key with
      | some template => template :: inlined s levels template.key
      | none => []
    | _ => []

/-- The signs in a list are those of the apps that are inlined. -/
theorem templateSigns_eq_map : ∀ (levels : Nat) (appKey : String),
    s.templateSigns levels appKey = (s.inlined levels appKey).map (·.dataSign)
  | 0, _ => rfl
  | levels + 1, appKey => by
      rw [templateSigns_succ, inlined, List.map_flatMap]
      refine List.flatMap_congr ?_
      rintro ⟨field, value⟩ -
      cases value with
      | template key =>
          simp only [valueSigns]
          cases s.findApp? key with
          | none => rfl
          | some template => simp only [List.map_cons, templateSigns_eq_map levels template.key]
      | _ => rfl

/-- What is inlined is there. -/
theorem exists_key_of_mem_inlined {a : App} : ∀ {levels : Nat} {appKey : String},
    a ∈ s.inlined levels appKey → ∃ key : String, s.apps[key]? = some a
  | 0, _, h => absurd h List.not_mem_nil
  | levels + 1, appKey, h => by
      rw [inlined] at h
      obtain ⟨⟨field, value⟩, -, hmem⟩ := List.mem_flatMap.mp h
      cases value with
      | template template =>
          dsimp only at hmem
          split at hmem
          · rename_i b hfind
            rcases List.mem_cons.mp hmem with rfl | hbelow
            · exact exists_key_of_findApp? hfind
            · exact exists_key_of_mem_inlined hbelow
          · exact absurd hmem List.not_mem_nil
      | _ => exact absurd hmem List.not_mem_nil

/-- All signs in a list are signs of apps. -/
theorem exists_app_of_mem_templateSigns {sign : String} {levels : Nat} {key : String}
    (h : sign ∈ s.templateSigns levels key) :
    ∃ (k : String) (a : App), s.apps[k]? = some a ∧ a.dataSign = sign := by
  rw [templateSigns_eq_map] at h
  obtain ⟨a, ha, hsign⟩ := List.mem_map.mp h
  obtain ⟨k, hk⟩ := exists_key_of_mem_inlined ha
  exact ⟨k, a, hk, hsign⟩

/-! ## Digests -/

/-- The text whose digest an app has for its fingerprint, if it inlines anything. -/
def signText? (s : Snapshot) (levels : Nat) (a : App) : Option String :=
  match s.templateSigns levels a.key with
  | [] => none
  | signs => some (":".intercalate (a.dataSign :: signs))

theorem fingerprint_eq_elim (a : App) (levels : Nat) :
    s.fingerprint a levels = (s.signText? levels a).elim a.dataSign Digest.md5 := by
  unfold fingerprint signText?
  cases s.templateSigns levels a.key <;> rfl

/-- The part before the first separator is determined. -/
theorem append_cons_inj {α : Type} {c : α} {x y r r' : List α} (hx : c ∉ x) (hy : c ∉ y)
    (h : x ++ c :: r = y ++ c :: r') : x = y ∧ r = r' := by
  rcases List.append_eq_append_iff.mp h with ⟨d, rfl, hd⟩ | ⟨d, rfl, hd⟩
  · cases d with
    | nil => exact ⟨(List.append_nil x).symm, (List.cons.inj hd).2⟩
    | cons e d =>
        obtain rfl := (List.cons.inj hd).1
        exact absurd (List.mem_append_right x List.mem_cons_self) hy
  · cases d with
    | nil => exact ⟨List.append_nil y, (List.cons.inj hd).2.symm⟩
    | cons e d =>
        obtain rfl := (List.cons.inj hd).1
        exact absurd (List.mem_append_right y List.mem_cons_self) hx

/-- Signs without colons can be told apart when they are joined by colons. -/
theorem eq_of_join : ∀ {signs signs' : List String}, signs ≠ [] → signs' ≠ [] →
    (∀ x ∈ signs, ':' ∉ x.toList) → (∀ x ∈ signs', ':' ∉ x.toList) →
      ":".intercalate signs = ":".intercalate signs' → signs = signs'
  | [], _, h, _, _, _, _ => absurd rfl h
  | _, [], _, h, _, _, _ => absurd rfl h
  | [x], [y], _, _, _, _, h => by
      rw [String.intercalate_singleton, String.intercalate_singleton] at h
      rw [h]
  -- one sign has no colon, two or more are joined by one
  | [x], y :: z :: rest, _, _, hx, _, h => by
      rw [String.intercalate_singleton, String.intercalate_cons_cons] at h
      refine absurd ?_ (hx x List.mem_cons_self)
      rw [h]
      simp
  | x :: z :: rest, [y], _, _, _, hy, h => by
      rw [String.intercalate_singleton, String.intercalate_cons_cons] at h
      refine absurd ?_ (hy y List.mem_cons_self)
      rw [← h]
      simp
  | x :: x' :: rest, y :: y' :: rest', _, _, hx, hy, h => by
      rw [String.intercalate_cons_cons, String.intercalate_cons_cons] at h
      have hchars := congrArg String.toList h
      simp only [String.toList_append, List.append_assoc] at hchars
      obtain ⟨hhead, htail⟩ := append_cons_inj (hx x List.mem_cons_self) (hy y List.mem_cons_self)
        hchars
      have hrest : x' :: rest = y' :: rest' :=
        eq_of_join (List.cons_ne_nil _ _) (List.cons_ne_nil _ _)
          (fun z hz => hx z (List.mem_cons_of_mem _ hz)) (fun z hz => hy z (List.mem_cons_of_mem _ hz))
          (String.toList_inj.mp htail)
      rw [String.toList_inj.mp hhead, hrest]

/-- Where digests are unique among some texts, and are none of the signs, equal fingerprints mean
equal lists of signs. -/
theorem signs_eq_of_fingerprint {a b : App} {levels : Nat} {hashed tokens : List String}
    (hplain : ∀ x ∈ tokens, ':' ∉ x.toList)
    (hunique : ∀ x ∈ hashed, ∀ y ∈ hashed, Digest.md5 x = Digest.md5 y → x = y)
    (hother : ∀ x ∈ hashed, Digest.md5 x ∉ tokens)
    (hsa : ∀ x ∈ a.dataSign :: s.templateSigns levels a.key, x ∈ tokens)
    (htb : ∀ x ∈ b.dataSign :: t.templateSigns levels b.key, x ∈ tokens)
    (hs : ∀ x, s.signText? levels a = some x → x ∈ hashed)
    (ht : ∀ x, t.signText? levels b = some x → x ∈ hashed)
    (h : s.fingerprint a levels = t.fingerprint b levels) :
    a.dataSign = b.dataSign ∧ s.templateSigns levels a.key = t.templateSigns levels b.key := by
  rw [fingerprint_eq_elim, fingerprint_eq_elim] at h
  unfold signText? at h hs ht
  generalize s.templateSigns levels a.key = signs at *
  generalize t.templateSigns levels b.key = signs' at *
  -- a digest is no sign, so either both apps inline something or neither does
  cases signs with
  | nil =>
      cases signs' with
      | nil => exact ⟨h, rfl⟩
      | cons y ys =>
          have hdigest : a.dataSign = Digest.md5 (":".intercalate (b.dataSign :: y :: ys)) := h
          exact absurd (hdigest ▸ hsa _ List.mem_cons_self) (hother _ (ht _ rfl))
  | cons x xs =>
      cases signs' with
      | nil =>
          have hdigest : Digest.md5 (":".intercalate (a.dataSign :: x :: xs)) = b.dataSign := h
          exact absurd (hdigest ▸ htb _ List.mem_cons_self) (hother _ (hs _ rfl))
      | cons y ys =>
          have htext := hunique _ (hs _ rfl) _ (ht _ rfl) h
          have hjoin := eq_of_join (List.cons_ne_nil _ _) (List.cons_ne_nil _ _)
            (fun z hz => hplain z (hsa z hz)) (fun z hz => hplain z (htb z hz)) htext
          exact ⟨(List.cons.inj hjoin).1, (List.cons.inj hjoin).2⟩

end Snapshot

end RemoteConfig
