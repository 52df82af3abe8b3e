import RemoteConfig.Entity.Wire
/-! # Reading records that were written

A record that is written with its named fields, each once, is read field by field, in the order of
the names.  The same holds of lists, of the names of alternatives, and of values with a tag,
wherever there is room for them. -/

namespace RemoteConfig

namespace Json

/-! ## Room -/

theorem fits_array {room : Nat} {items : List Json} :
    (array items).fits room = true ↔ 0 < room ∧ ∀ j ∈ items, j.fits (room - 1) = true := by
  have hall : fitsAll (room - 1) items = true ↔ ∀ j ∈ items, j.fits (room - 1) = true := by
    induction items with
    | nil => simp [fitsAll]
    | cons j items ih => simp [fitsAll, ih]
  rw [fits, Bool.and_eq_true, decide_eq_true_eq, hall]

theorem fits_object {room : Nat} {fields : List (String × Json)} :
    (object fields).fits room = true ↔
      0 < room ∧ ∀ field ∈ fields, field.2.fits (room - 1) = true := by
  have hall : fitsFields (room - 1) fields = true ↔
      ∀ field ∈ fields, field.2.fits (room - 1) = true := by
    induction fields with
    | nil => simp [fitsFields]
    | cons field fields ih => simp [fitsFields, ih]
  rw [fits, Bool.and_eq_true, decide_eq_true_eq, hall]

@[simp]
theorem fits_string (room : Nat) (s : String) : (string s).fits room = true := rfl

@[simp]
theorem fits_null (room : Nat) : null.fits room = true := rfl

/-! ## Lists -/

/-- A list is read as what it was written for if each of its items is. -/
theorem mapM_map_eq_some_iff {α β : Type} {read : β → Option α} {encode : α → β} {xs : List α} :
    (xs.map encode).mapM read = some xs ↔ ∀ x ∈ xs, read (encode x) = some x := by
  induction xs with
  | nil => exact ⟨nofun, fun _ => rfl⟩
  | cons x xs ih =>
      rw [List.map_cons, List.mapM_cons, List.forall_mem_cons, ← ih]
      constructor
      · intro h
        obtain ⟨y, hy, h⟩ := Option.bind_eq_some_iff.mp h
        obtain ⟨ys, hys, h⟩ := Option.bind_eq_some_iff.mp h
        cases h
        exact ⟨hy, hys⟩
      · rintro ⟨hx, hxs⟩
        rw [hx, hxs]
        rfl

/-- Whatever a list is read as comes from one of its items. -/
theorem exists_of_mem_mapM {α β : Type} {read : α → Option β} {xs : List α} {ys : List β}
    (h : xs.mapM read = some ys) {y : β} (hy : y ∈ ys) : ∃ x ∈ xs, read x = some y := by
  induction xs generalizing ys with
  | nil =>
      cases h
      cases hy
  | cons x xs ih =>
      rw [List.mapM_cons] at h
      obtain ⟨z, hz, h⟩ := Option.bind_eq_some_iff.mp h
      obtain ⟨zs, hzs, h⟩ := Option.bind_eq_some_iff.mp h
      cases h
      rcases List.mem_cons.mp hy with rfl | hy
      · exact ⟨x, List.mem_cons_self .., hz⟩
      · obtain ⟨w, hw, hread⟩ := ih hzs hy
        exact ⟨w, List.mem_cons_of_mem x hw, hread⟩

theorem list?_map {α : Type} {read : Reader α} {encode : α → Json} {xs : List α} {place : Place}
    (hroom : 0 < place.room) (h : ∀ x ∈ xs, read place.inner (encode x) = some x) :
    list? read place (array (xs.map encode)) = some xs := by
  obtain ⟨room, hsucc⟩ := Nat.exists_eq_add_of_lt hroom
  unfold list?
  rw [hsucc]
  exact mapM_map_eq_some_iff.mpr h

theorem list?_eq_some {α : Type} {read : Reader α} {place : Place} {j : Json} {xs : List α}
    (h : list? read place j = some xs) :
    0 < place.room ∧ ∃ items, j = array items ∧ items.mapM (read place.inner) = some xs := by
  unfold list? at h
  split at h
  · rename_i hroom
    exact ⟨by omega, _, rfl, h⟩
  · cases h

/-! ## Fields -/

theorem valuesOf_of_mem {fields : List (String × Json)} (hnodup : (fields.map Prod.fst).Nodup)
    {name : String} {j : Json} (hmem : (name, j) ∈ fields) : valuesOf name fields = [j] := by
  induction fields with
  | nil => cases hmem
  | cons field fields ih =>
      rw [List.map_cons, List.nodup_cons] at hnodup
      obtain ⟨hnew, hnodup⟩ := hnodup
      unfold valuesOf at *
      rcases List.mem_cons.mp hmem with rfl | hmem
      · have hnone : fields.filter (fun field => field.1 = name) = [] := by
          rw [List.filter_eq_nil_iff]
          intro field hfield heq
          have hin : field.1 ∈ fields.map Prod.fst := List.mem_map_of_mem hfield
          rw [of_decide_eq_true heq] at hin
          exact hnew hin
        rw [List.filter_cons_of_pos (by simp), hnone]
        rfl
      · have hne : field.1 ≠ name := fun heq => hnew (heq ▸ List.mem_map_of_mem hmem)
        rw [List.filter_cons_of_neg (by simpa using hne)]
        exact ih hnodup hmem

/-- Fields that are written once each are found under their names. -/
theorem namedFields?_self {fields : List (String × Json)} (hnodup : (fields.map Prod.fst).Nodup) :
    namedFields? (fields.map Prod.fst) fields = some (fields.map fun field => some field.2) := by
  have hall : ∀ part : List (String × Json), (∀ field ∈ part, field ∈ fields) →
      namedFields? (part.map Prod.fst) fields = some (part.map fun field => some field.2) := by
    intro part hpart
    unfold namedFields?
    induction part with
    | nil => rfl
    | cons field part ih =>
        obtain ⟨hfield, hpart⟩ := List.forall_mem_cons.mp hpart
        have honce : fieldOnce? fields field.1 = some (some field.2) := by
          rw [fieldOnce?, valuesOf_of_mem hnodup hfield]
        rw [List.map_cons, List.mapM_cons, honce, ih hpart]
        rfl
  exact hall fields fun _ h => h

/-- An object with exactly the named fields, in their order, is read as them. -/
theorem record?_object {names : List String} {fields : List (String × Json)} {place : Place}
    (hnames : fields.map Prod.fst = names) (hnodup : names.Nodup) (hroom : 0 < place.room) :
    record? names place (object fields) = some (fields.map fun field => some field.2) := by
  obtain ⟨room, hsucc⟩ := Nat.exists_eq_add_of_lt hroom
  unfold record?
  rw [hsucc]
  subst hnames
  exact namedFields?_self hnodup

/-- The values that an array or object consists of. -/
def parts : Json → List Json
  | array items => items
  | object fields => fields.map Prod.snd
  | _ => []

theorem mem_of_fieldOnce? {fields : List (String × Json)} {name : String} {j : Json}
    (h : fieldOnce? fields name = some (some j)) : j ∈ fields.map Prod.snd := by
  unfold fieldOnce? at h
  split at h
  · cases h
  · rename_i hvalues
    cases h
    have hmem : j ∈ valuesOf name fields := by simp [hvalues]
    obtain ⟨field, hfield, rfl⟩ := List.mem_map.mp hmem
    exact List.mem_map_of_mem (List.mem_filter.mp hfield).1
  · cases h

/-- Whatever is read of a record is one of its parts. -/
theorem mem_parts_of_record? {names : List String} {place : Place} {j k : Json}
    {found : List (Option Json)} (h : record? names place j = some found) (hk : some k ∈ found) :
    0 < place.room ∧ k ∈ j.parts := by
  unfold record? at h
  split at h
  · rename_i hroom
    obtain ⟨name, -, hname⟩ := exists_of_mem_mapM h hk
    exact ⟨by omega, mem_of_fieldOnce? hname⟩
  · rename_i items hroom
    refine ⟨by omega, ?_⟩
    split at h
    · cases h
    · cases h
      rcases List.mem_append.mp hk with hk | hk
      · obtain ⟨item, hitem, heq⟩ := List.mem_map.mp hk
        cases heq
        exact hitem
      · cases List.eq_of_mem_replicate hk
  · cases h

/-! ## Alternatives -/

theorem lookup_of_mem {α : Type} {options : List (String × α)}
    (hnodup : (options.map Prod.fst).Nodup) {name : String} {x : α} (hmem : (name, x) ∈ options) :
    options.lookup name = some x := by
  induction options with
  | nil => cases hmem
  | cons option options ih =>
      rw [List.map_cons, List.nodup_cons] at hnodup
      obtain ⟨hnew, hnodup⟩ := hnodup
      rcases List.mem_cons.mp hmem with rfl | hmem
      · exact List.lookup_cons_self
      · have hne : (name == option.1) = false :=
          beq_false_of_ne fun heq => hnew (heq ▸ List.mem_map_of_mem hmem)
        rw [List.lookup_cons, hne]
        exact ih hnodup hmem

theorem nameOf_of_mem {α : Type} [DecidableEq α] {options : List (String × α)} {x : α}
    (hmem : x ∈ options.map Prod.snd) :
    ∃ name, (name, x) ∈ options ∧ nameOf options x = string name := by
  obtain ⟨option, hoption, rfl⟩ := List.mem_map.mp hmem
  unfold nameOf
  cases hfind : options.find? fun candidate => candidate.2 = option.2 with
  | none =>
      have hnone := List.find?_eq_none.mp hfind option hoption
      simp at hnone
  | some found =>
      obtain ⟨name, y⟩ := found
      have hy : y = option.2 := by simpa using List.find?_some hfind
      exact ⟨name, hy ▸ List.mem_of_find?_eq_some hfind, rfl⟩

/-- The name of an alternative is read as the alternative. -/
theorem alternative?_nameOf {α : Type} [DecidableEq α] {options : List (String × α)} {x : α}
    (hnodup : (options.map Prod.fst).Nodup) (hmem : x ∈ options.map Prod.snd) (place : Place) :
    alternative? options place (nameOf options x) = some x := by
  obtain ⟨name, hoption, hname⟩ := nameOf_of_mem hmem
  rw [hname]
  exact lookup_of_mem hnodup hoption

/-- A value with its tag in front is read as the tag tells. -/
theorem tagged?_object {α β : Type} {tagName contentName : String} {tags : List (String × α)}
    {content : α → Reader β} {place : Place} (hroom : 0 < place.room) (a b : Json) :
    tagged? tagName contentName tags content place (object [(tagName, a), (contentName, b)]) =
      (alternative? tags place.inner a).bind (content · place.inner b) := by
  obtain ⟨room, hsucc⟩ := Nat.exists_eq_add_of_lt hroom
  unfold tagged?
  rw [hsucc]
  simp

end Json

end RemoteConfig
