import RemoteConfig.Envelope
import RemoteConfig.Proofs.Moments
import RemoteConfig.Proofs.Records
import RemoteConfig.Proofs.Reread
import RemoteConfig.Snapshot.Dump
/-! # The wire between nodes

Whatever nodes send each other is read back as it was sent: entities and their keys, changes,
mutations, data versions, dumps, and the rows of a storage.  An envelope is read back too, with the
data of an answer or the code and the message of an error. -/

namespace RemoteConfig

namespace Json

/-- The value that a text denotes. -/
def decode {α : Type} (read : Reader α) (s : String) : Option α := (parse s).bind (read .top)

/-- A value that is read back from its text, and opens at most `depth` arrays and objects. -/
structure Sound (depth : Nat) (j : Json) : Prop where
  faithful : j.Faithful
  fits : ∀ room, depth ≤ room → j.fits room = true

/-- A value of the domain whose JSON form is read back as the value, wherever there is room. -/
structure Lossless {α : Type} (encode : α → Json) (read : Reader α) (depth : Nat) (x : α) :
    Prop where
  sound : Sound depth (encode x)
  reads : ∀ place : Place, depth ≤ place.room → read place (encode x) = some x

theorem Lossless.decode_print {α : Type} {encode : α → Json} {read : Reader α} {depth : Nat} {x : α}
    (h : Lossless encode read depth x) (hdepth : depth ≤ nestingLimit) :
    decode read (encode x).print = some x := by
  rw [decode, h.sound.faithful.parse_print, Option.bind_some]
  exact h.reads .top hdepth

/-! ## Sound values -/

theorem sound_string (s : String) (depth : Nat) : Sound depth (string s) :=
  ⟨faithful_string s, fun _ _ => rfl⟩

theorem sound_null (depth : Nat) : Sound depth null := ⟨faithful_null, fun _ _ => rfl⟩

theorem sound_bool (b : Bool) (depth : Nat) : Sound depth (bool b) :=
  ⟨faithful_bool b, fun _ _ => rfl⟩

theorem sound_integer {n : Int} (hlow : -0x8000000000000000 ≤ n) (hhigh : n < 0x10000000000000000)
    (depth : Nat) : Sound depth (integer n) :=
  ⟨faithful_integer hlow hhigh, fun _ _ => rfl⟩

theorem sound_int64 {n : Int} (h : Decimal.fitsInt64 n = true) (depth : Nat) :
    Sound depth (integer n) := by
  have hword : -0x8000000000000000 ≤ n ∧ n < 0x8000000000000000 := by
    simpa [Decimal.fitsInt64] using h
  exact sound_integer hword.1 (by omega) depth

theorem sound_nameOf {α : Type} [DecidableEq α] (options : List (String × α)) (x : α)
    (depth : Nat) : Sound depth (nameOf options x) := by
  unfold nameOf
  split
  · exact sound_string _ depth
  · exact sound_null depth

theorem sound_array {depth : Nat} {items : List Json} (h : ∀ j ∈ items, Sound depth j) :
    Sound (depth + 1) (array items) := by
  refine ⟨faithful_array fun j hj => (h j hj).faithful, fun room hroom => fits_array.mpr ?_⟩
  exact ⟨by omega, fun j hj => (h j hj).fits _ (by omega)⟩

theorem sound_object {depth : Nat} {fields : List (String × Json)}
    (h : ∀ field ∈ fields, Sound depth field.2) : Sound (depth + 1) (object fields) := by
  refine ⟨faithful_object fun field hf => (h field hf).faithful, fun room hroom =>
    fits_object.mpr ?_⟩
  exact ⟨by omega, fun field hf => (h field hf).fits _ (by omega)⟩

theorem Sound.mono {depth more : Nat} {j : Json} (h : Sound depth j) (hle : depth ≤ more) :
    Sound more j :=
  ⟨h.faithful, fun room hroom => h.fits room (Nat.le_trans hle hroom)⟩

/-! ## Lists -/

theorem lossless_list {α : Type} {encode : α → Json} {read : Reader α} {depth : Nat} {xs : List α}
    (h : ∀ x ∈ xs, Lossless encode read depth x) :
    Lossless (fun xs => array (xs.map encode)) (list? read) (depth + 1) xs := by
  constructor
  · refine sound_array fun j hj => ?_
    obtain ⟨x, hx, rfl⟩ := List.mem_map.mp hj
    exact (h x hx).sound
  · intro place hroom
    refine list?_map (by omega) fun x hx => (h x hx).reads _ ?_
    show depth ≤ place.room - 1
    omega

/-! ## Records -/

/-- A record is lossless if its values are sound and its reader makes it up from them. -/
theorem lossless_object {α : Type} {encode : α → Json} {read : Reader α} {depth : Nat} {x : α}
    {fields : List (String × Json)} (names : List String) (hencode : encode x = object fields)
    (hnames : fields.map Prod.fst = names) (hnodup : names.Nodup)
    (hsound : ∀ field ∈ fields, Sound depth field.2)
    (hreads : ∀ place : Place, depth < place.room →
      record? names place (encode x) = some (fields.map fun field => some field.2) →
        read place (encode x) = some x) :
    Lossless encode read (depth + 1) x := by
  refine ⟨hencode ▸ sound_object hsound, fun place hroom => hreads place hroom ?_⟩
  rw [hencode]
  exact record?_object hnames hnodup (by omega)

@[simp]
theorem string?_string (s : String) : string? (string s) = some s := rfl

theorem natBelow?_natCast {bound n : Nat} (h : n < bound) :
    natBelow? bound (integer n) = some n := by
  have hrange : 0 ≤ (n : Int) ∧ (n : Int) < bound := by omega
  rw [natBelow?, if_pos hrange, Int.toNat_natCast]

theorem int64?_integer {n : Int} (h : Decimal.fitsInt64 n = true) : int64? (integer n) = some n :=
  if_pos h

end Json

open Json

theorem Timestamp.ofJson?_toJson {t : Timestamp} (h : t.Proper) : ofJson? t.toJson = some t := by
  rw [ofJson?, toJson, string?_string, Option.bind_some]
  exact parse?_toText h

/-! ## Names of alternatives -/

@[simp]
theorem ValueType.read?_toJson (t : ValueType) (place : Place) : read? place t.toJson = some t :=
  alternative?_nameOf (by decide) (by cases t <;> decide) place

@[simp]
theorem Status.read?_toJson (s : Status) (place : Place) : read? place s.toJson = some s :=
  alternative?_nameOf (by decide) (by cases s <;> decide) place

@[simp]
theorem AppType.read?_toJson (t : AppType) (place : Place) : read? place t.toJson = some t :=
  alternative?_nameOf (by decide) (by cases t <;> decide) place

@[simp]
theorem NodeRole.read?_toJson (r : NodeRole) (place : Place) : read? place r.toJson = some r :=
  alternative?_nameOf (by decide) (by cases r <;> decide) place

@[simp]
theorem UserLevel.read?_toJson (l : UserLevel) (place : Place) : read? place l.toJson = some l :=
  alternative?_nameOf (by decide) (by cases l <;> decide) place

@[simp]
theorem EntityKind.read?_toJson (k : EntityKind) (place : Place) : read? place k.toJson = some k :=
  alternative?_nameOf (by decide) (by cases k <;> decide) place

/-! ## Records -/

theorem User.lossless (u : User) : Lossless toJson read? 1 u := by
  refine lossless_object ["name", "password_sign", "level"] rfl rfl (by decide) ?_
    fun place _ hrecord => ?_
  · simp only [List.forall_mem_cons]
    exact ⟨sound_string _ 0, sound_string _ 0, sound_nameOf _ _ 0, nofun⟩
  · simp [read?, hrecord]

theorem App.lossless (a : App) : Lossless toJson read? 1 a := by
  have hcount := a.keyCount.toNat_lt
  have htimes := a.updateTimes.toNat_lt
  refine lossless_object ["key", "name", "type", "data_sign", "key_count", "update_times"] rfl rfl
    (by decide) ?_ fun place _ hrecord => ?_
  · simp only [List.forall_mem_cons]
    exact ⟨sound_string _ 0, sound_string _ 0, sound_nameOf _ _ 0, sound_string _ 0,
      sound_integer (by omega) (by omega) 0, sound_integer (by omega) (by omega) 0, nofun⟩
  · simp [read?, hrecord, natBelow?_natCast hcount, natBelow?_natCast htimes]

theorem Config.lossless (c : Config) : Lossless toJson read? 1 c := by
  refine lossless_object ["key", "app_key", "field_name", "raw_value", "value_type", "status"] rfl
    rfl (by decide) ?_ fun place _ hrecord => ?_
  · simp only [List.forall_mem_cons]
    exact ⟨sound_string _ 0, sound_string _ 0, sound_string _ 0, sound_string _ 0,
      sound_nameOf _ _ 0, sound_nameOf _ _ 0, nofun⟩
  · simp [read?, hrecord]

theorem Webhook.lossless (w : Webhook) : Lossless toJson read? 1 w := by
  refine lossless_object ["key", "app_key", "url", "status"] rfl rfl (by decide) ?_
    fun place _ hrecord => ?_
  · simp only [List.forall_mem_cons]
    exact ⟨sound_string _ 0, sound_string _ 0, sound_string _ 0, sound_nameOf _ _ 0, nofun⟩
  · simp [read?, hrecord]

/-- A node whose last check is a moment that is represented, and whose version is a word. -/
structure Node.Proper (n : Node) : Prop where
  lastCheck : ∀ t ∈ n.lastCheck, t.Proper
  dataVersion : Decimal.fitsInt64 n.dataVersion = true

theorem Node.lossless {n : Node} (h : n.Proper) : Lossless toJson read? 1 n := by
  have hsound : Sound 0 (n.lastCheck.elim .null Timestamp.toJson) := by
    cases n.lastCheck with
    | none => exact sound_null 0
    | some t => exact sound_string _ 0
  have hcheck : lastCheck? (n.lastCheck.elim .null Timestamp.toJson) = some n.lastCheck := by
    cases hn : n.lastCheck with
    | none => rfl
    | some t =>
        have hmoment : lastCheck? t.toJson = (Timestamp.ofJson? t.toJson).map some := rfl
        rw [Option.elim_some, hmoment, Timestamp.ofJson?_toJson (h.lastCheck t hn), Option.map_some]
  refine lossless_object ["url", "type", "last_check_utc", "data_version"] rfl rfl (by decide) ?_
    fun place _ hrecord => ?_
  · simp only [List.forall_mem_cons]
    exact ⟨sound_string _ 0, sound_nameOf _ _ 0, hsound, sound_int64 h.dataVersion 0, nofun⟩
  · simp [read?, hrecord, hcheck, int64?_integer h.dataVersion]

/-- A version that is a word, with a moment that is represented. -/
structure DataVersion.Proper (v : DataVersion) : Prop where
  version : Decimal.fitsInt64 v.version = true
  updatedAt : v.updatedAt.Proper

theorem DataVersion.lossless {v : DataVersion} (h : v.Proper) : Lossless toJson read? 1 v := by
  refine lossless_object ["version", "sign", "old_sign", "updated_at"] rfl rfl (by decide) ?_
    fun place _ hrecord => ?_
  · simp only [List.forall_mem_cons]
    exact ⟨sound_int64 h.version 0, sound_string _ 0, sound_string _ 0, sound_string _ 0, nofun⟩
  · simp [read?, hrecord, int64?_integer h.version, Timestamp.ofJson?_toJson h.updatedAt]

theorem ClientAttribute.lossless (a : ClientAttribute) : Lossless toJson read? 1 a := by
  refine lossless_object ["app_key", "attribute", "value"] rfl rfl (by decide) ?_
    fun place _ hrecord => ?_
  · simp only [List.forall_mem_cons]
    exact ⟨sound_string _ 0, sound_string _ 0, sound_string _ 0, nofun⟩
  · simp [read?, hrecord]

/-! ## Tagged values -/

/-- A value with a tag is lossless if its content is. -/
theorem lossless_tagged {α β : Type} {tagName contentName : String} {tags : List (String × α)}
    {content : α → Reader β} {encode : β → Json} {tag body : Json} {depth : Nat} {x : β} {a : α}
    (hencode : encode x = .object [(tagName, tag), (contentName, body)])
    (htag : ∀ place, alternative? tags place tag = some a) (hsound : Sound depth tag)
    (hbody : Sound depth body)
    (hreads : ∀ place : Place, depth ≤ place.room → content a place body = some x) :
    Lossless encode (tagged? tagName contentName tags content) (depth + 1) x := by
  constructor
  · rw [hencode]
    refine sound_object ?_
    simp only [List.forall_mem_cons]
    exact ⟨hsound, hbody, nofun⟩
  · intro place hroom
    have hinner : depth ≤ place.inner.room := by
      show depth ≤ place.room - 1
      omega
    rw [hencode, tagged?_object (by omega), htag, Option.bind_some]
    exact hreads place.inner hinner

/-- An entity is proper if it is no node, or a proper one. -/
def Entity.Proper : Entity → Prop
  | node n => n.Proper
  | _ => True

/-- The record of an entity is read as the entity, once its kind is known. -/
theorem Entity.lossless_record {e : Entity} (h : e.Proper) :
    Lossless (fun _ => e.recordJson) (readRecord? e.kind) 1 e := by
  cases e with
  | user u => exact ⟨u.lossless.sound, fun p hp => congrArg (Option.map _) (u.lossless.reads p hp)⟩
  | app a => exact ⟨a.lossless.sound, fun p hp => congrArg (Option.map _) (a.lossless.reads p hp)⟩
  | config c =>
      exact ⟨c.lossless.sound, fun p hp => congrArg (Option.map _) (c.lossless.reads p hp)⟩
  | webhook w =>
      exact ⟨w.lossless.sound, fun p hp => congrArg (Option.map _) (w.lossless.reads p hp)⟩
  | node n =>
      have hn : n.Proper := h
      exact ⟨(Node.lossless hn).sound, fun p hp =>
        congrArg (Option.map _) ((Node.lossless hn).reads p hp)⟩

theorem Entity.lossless {e : Entity} (h : e.Proper) : Lossless toJson read? 2 e :=
  lossless_tagged rfl (e.kind.read?_toJson) (sound_nameOf _ _ 1) (lossless_record h).sound
    (lossless_record h).reads

theorem EntityKey.lossless (k : EntityKey) : Lossless toJson read? 1 k :=
  lossless_tagged rfl (k.kind.read?_toJson) (sound_nameOf _ _ 0) (sound_string _ 0)
    fun _ _ => rfl

/-- A row is proper if its entity or version is. -/
def Record.Proper : Record → Prop
  | entity e => e.Proper
  | dataVersion v => v.Proper
  | clientAttribute _ => True

theorem RecordKind.read?_toJson (k : RecordKind) (place : Place) :
    read? place k.toJson = some k := by
  rcases k with (_ | _ | _ | _ | _) | _ | _ <;> rfl

theorem Record.lossless {r : Record} (h : r.Proper) : Lossless toJson read? 2 r := by
  refine lossless_tagged rfl (r.kind.read?_toJson) (sound_string _ 1) ?_ ?_
  · cases r with
    | entity e => exact (Entity.lossless_record h).sound
    | dataVersion v => exact (DataVersion.lossless h).sound
    | clientAttribute a => exact a.lossless.sound
  · intro place hroom
    cases r with
    | entity e => exact congrArg (Option.map _) ((Entity.lossless_record h).reads place hroom)
    | dataVersion v => exact congrArg (Option.map _) ((DataVersion.lossless h).reads place hroom)
    | clientAttribute a => exact congrArg (Option.map _) (a.lossless.reads place hroom)

/-! ## Mutations -/

/-- A change is proper if the entity that it enters is. -/
def Change.Proper : Change → Prop
  | upsert e => e.Proper
  | delete _ => True

/-- A change with its operation in front is read as the operation tells. -/
theorem Change.read?_object {operation label : String} {readRest : Reader Change} {place : Place}
    {body : Json} (hoperation : operations.lookup operation = some readRest) (hlabel : label ≠ "op")
    (hfits : (Json.object [("op", .string operation), (label, body)]).fits place.room = true) :
    read? place (.object [("op", .string operation), (label, body)]) =
      readRest place.hold (.object [(label, body)]) := by
  have honce : fieldOnce? [("op", .string operation), (label, body)] "op" =
      some (some (.string operation)) := by
    simp [fieldOnce?, valuesOf, hlabel]
  have hchoice : choice? operations place.inner (.string operation) = some readRest := hoperation
  rw [read?, hfits]
  simp [honce, hchoice, hlabel]

theorem Change.lossless {c : Change} (h : c.Proper) : Lossless toJson read? 3 c := by
  cases c with
  | upsert e =>
      have he := Entity.lossless h
      have hsound : Sound (2 + 1) (toJson (.upsert e)) := by
        refine sound_object ?_
        simp only [List.forall_mem_cons]
        exact ⟨sound_string _ 2, he.sound, nofun⟩
      refine ⟨hsound, fun place hroom => ?_⟩
      have hrecord : record? ["entity"] place.hold (.object [("entity", e.toJson)]) =
          some [some e.toJson] :=
        record?_object rfl (by decide) (show 0 < place.room by omega)
      have hentity : Entity.read? place.hold.inner e.toJson = some e :=
        he.reads _ (show 2 ≤ place.room - 1 by omega)
      rw [toJson, read?_object rfl (by decide) (hsound.fits _ hroom)]
      simp only [hrecord, hentity, Option.map_some]
  | delete k =>
      have hk := k.lossless
      have hsound : Sound (2 + 1) (toJson (.delete k)) := by
        refine sound_object ?_
        simp only [List.forall_mem_cons]
        exact ⟨sound_string _ 2, hk.sound.mono (by decide), nofun⟩
      refine ⟨hsound, fun place hroom => ?_⟩
      have hrecord : record? ["key"] place.hold (.object [("key", k.toJson)]) =
          some [some k.toJson] :=
        record?_object rfl (by decide) (show 0 < place.room by omega)
      have hkey : EntityKey.read? place.hold.inner k.toJson = some k :=
        hk.reads _ (show 1 ≤ place.room - 1 by omega)
      rw [toJson, read?_object rfl (by decide) (hsound.fits _ hroom)]
      simp only [hrecord, hkey, Option.map_some]

/-- A mutation is proper if all its changes are. -/
def Delta.Proper (d : Delta) : Prop := ∀ c ∈ d.changes, c.Proper

theorem Delta.lossless {d : Delta} (h : d.Proper) : Lossless toJson read? 5 d := by
  have hchanges := lossless_list fun c hc => Change.lossless (h c hc)
  refine lossless_object ["changes"] rfl rfl (by decide) ?_ fun place hroom hrecord => ?_
  · simp only [List.forall_mem_cons]
    exact ⟨hchanges.sound, nofun⟩
  · have hread := hchanges.reads place.inner (show 4 ≤ place.room - 1 by omega)
    simp [read?, hrecord, hread]

structure Payload.Proper (p : Payload) : Prop where
  delta : p.delta.Proper
  dataVersion : p.dataVersion.Proper

theorem Payload.lossless {p : Payload} (h : p.Proper) : Lossless toJson read? 6 p := by
  have hdelta := Delta.lossless h.delta
  have hversion := DataVersion.lossless h.dataVersion
  refine lossless_object ["delta", "data_version"] rfl rfl (by decide) ?_
    fun place hroom hrecord => ?_
  · simp only [List.forall_mem_cons]
    exact ⟨hdelta.sound, hversion.sound.mono (by decide), nofun⟩
  · have hread := hdelta.reads place.inner (show 5 ≤ place.room - 1 by omega)
    have hreadVersion := hversion.reads place.inner (show 1 ≤ place.room - 1 by omega)
    simp [read?, hrecord, hread, hreadVersion]

/-- A dump is proper if its version and its nodes are. -/
structure Dump.Proper (d : Dump) : Prop where
  dataVersion : d.dataVersion.Proper
  nodes : ∀ n ∈ d.nodes, n.Proper

theorem Dump.lossless {d : Dump} (h : d.Proper) : Lossless toJson read? 3 d := by
  have hversion := DataVersion.lossless h.dataVersion
  have husers := lossless_list fun u (_ : u ∈ d.users) => u.lossless
  have happs := lossless_list fun a (_ : a ∈ d.apps) => a.lossless
  have hconfigs := lossless_list fun c (_ : c ∈ d.configs) => c.lossless
  have hwebhooks := lossless_list fun w (_ : w ∈ d.webhooks) => w.lossless
  have hnodes := lossless_list fun n hn => Node.lossless (h.nodes n hn)
  refine lossless_object ["data_version", "users", "apps", "configs", "webhooks", "nodes"] rfl rfl
    (by decide) ?_ fun place hroom hrecord => ?_
  · simp only [List.forall_mem_cons]
    exact ⟨hversion.sound.mono (by decide), husers.sound, happs.sound, hconfigs.sound,
      hwebhooks.sound, hnodes.sound, nofun⟩
  · have hinner : 2 ≤ place.inner.room := show 2 ≤ place.room - 1 by omega
    simp [read?, hrecord, hversion.reads place.inner (by omega), husers.reads place.inner hinner,
      happs.reads place.inner hinner, hconfigs.reads place.inner hinner,
      hwebhooks.reads place.inner hinner, hnodes.reads place.inner hinner]

/-! ## Envelopes -/

namespace Envelope

variable {α : Type} {encode : α → Json} {read : Reader α}

/-- Data that no error looks like is read back from an envelope. -/
theorem lossless_ok {x : α} {depth : Nat} (h : Lossless encode read depth x)
    (hdata : errorBody? (encode x) = none) :
    Lossless (toJson encode) (read? read) (depth + 1) (ok x) := by
  refine lossless_object ["status", "data"] rfl rfl (by decide) ?_ fun place hroom hrecord => ?_
  · simp only [List.forall_mem_cons]
    exact ⟨sound_bool _ depth, h.sound, nofun⟩
  · have hinner : depth ≤ place.inner.room := show depth ≤ place.room - 1 by omega
    rw [read?, hrecord]
    simp [ok, bool?, h.sound.fits _ hinner, hdata, h.reads _ hinner]

/-- An error is read back from an envelope, whatever data were expected. -/
theorem lossless_error (e : Error) : Lossless (toJson encode) (read? read) 2 (error e) := by
  have hbody : Sound 1 (.object [("code", .string e.code), ("msg", .string e.message)]) := by
    refine sound_object ?_
    simp only [List.forall_mem_cons]
    exact ⟨sound_string _ 0, sound_string _ 0, nofun⟩
  have herror : errorBody? (.object [("code", .string e.code), ("msg", .string e.message)]) =
      some (e.code, e.message) := by
    simp [errorBody?, fieldOnce?, valuesOf]
  refine lossless_object ["status", "data"] rfl rfl (by decide) ?_ fun place hroom hrecord => ?_
  · simp only [List.forall_mem_cons]
    exact ⟨sound_bool _ 1, hbody, nofun⟩
  · have hinner : 1 ≤ place.inner.room := show 1 ≤ place.room - 1 by omega
    rw [read?, hrecord]
    simp [error, bool?, hbody.fits _ hinner, herror]

theorem lossless_unit (u : Unit) : Lossless unitJson unit? 0 u := ⟨sound_null 0, fun _ _ => rfl⟩

/-- What the text of an envelope says. -/
def received (read : Reader α) (s : String) : Option (Except Error α) :=
  (decode (read? read) s).map toResult

theorem received_ok {x : α} {depth : Nat} (h : Lossless encode read depth x)
    (hdata : errorBody? (encode x) = none) (hdepth : depth < nestingLimit) :
    received read (toJson encode (ok x)).print = some (.ok x) := by
  rw [received, (lossless_ok h hdata).decode_print hdepth]
  rfl

theorem received_error (e : Error) :
    received read (toJson encode (error e)).print = some (.error (.remote e.code e.message)) := by
  rw [received, (lossless_error e).decode_print (by decide)]
  rfl

end Envelope

/-- Everything that nodes exchange is read back from its text: the integers are those of their words
and the moments are those that are represented, without leap seconds.  An envelope gives the data
that were wrapped in it, or for an error its code and message. -/
theorem peer_wire_lossless :
    (∀ d : Delta, d.Proper → decode Delta.read? d.toJson.print = some d) ∧
    (∀ p : Payload, p.Proper → decode Payload.read? p.toJson.print = some p) ∧
    (∀ v : DataVersion, v.Proper → decode DataVersion.read? v.toJson.print = some v) ∧
    (∀ d : Dump, d.Proper → decode Dump.read? d.toJson.print = some d) ∧
    (∀ e : Entity, e.Proper → decode Entity.read? e.toJson.print = some e) ∧
    (∀ k : EntityKey, decode EntityKey.read? k.toJson.print = some k) ∧
    (∀ r : Record, r.Proper → decode Record.read? r.toJson.print = some r) ∧
    (∀ u : Unit, Envelope.received Envelope.unit?
      ((Envelope.ok u).toJson Envelope.unitJson).print = some (.ok u)) ∧
    (∀ v : DataVersion, v.Proper → Envelope.received DataVersion.read?
      ((Envelope.ok v).toJson DataVersion.toJson).print = some (.ok v)) ∧
    (∀ d : Dump, d.Proper → Envelope.received Dump.read?
      ((Envelope.ok d).toJson Dump.toJson).print = some (.ok d)) ∧
    (∀ (α : Type) (encode : α → Json) (read : Reader α) (e : Error), Envelope.received read
      ((Envelope.error e : Envelope α).toJson encode).print =
        some (.error (.remote e.code e.message))) := by
  refine ⟨fun d h => (Delta.lossless h).decode_print (by decide),
    fun p h => (Payload.lossless h).decode_print (by decide),
    fun v h => (DataVersion.lossless h).decode_print (by decide),
    fun d h => (Dump.lossless h).decode_print (by decide),
    fun e h => (Entity.lossless h).decode_print (by decide),
    fun k => k.lossless.decode_print (by decide),
    fun r h => (Record.lossless h).decode_print (by decide),
    fun u => Envelope.received_ok (Envelope.lossless_unit u) rfl (by decide),
    fun v h => ?_, fun d h => ?_, fun α encode read e => Envelope.received_error e⟩
  · -- no field of a version has the name of a part of an error
    exact Envelope.received_ok (DataVersion.lossless h) (by simp [DataVersion.toJson,
      Envelope.errorBody?]) (by decide)
  · exact Envelope.received_ok (Dump.lossless h) (by simp [Dump.toJson, Envelope.errorBody?])
      (by decide)

/-- A mutation that enters a node, checked on the last day of the year before the year zero, and
removes a config whose key has to be escaped; a dump and rows of such parts; and envelopes of them,
of nothing, and of errors in the words of others. -/
theorem peer_wire_lossless_escaped :
    let n : Node := ⟨"http://n\u0001", .slave, some ⟨-62167305600, 7000⟩, -9223372036854775808⟩
    let v : DataVersion := ⟨9223372036854775807, "s\"2", "", ⟨253402300800, 999999999⟩⟩
    let k : EntityKey := ⟨.config, "a\\b\n"⟩
    let d : Delta := ⟨[.upsert (.node n), .delete k]⟩
    let dump : Dump := ⟨v, [⟨"u", "", .admin⟩], [⟨"k", "é", .template, "s", 4294967295, 0⟩], [], [],
      [n, n]⟩
    (n.Proper ∧ v.Proper ∧ d.Proper ∧ dump.Proper) ∧
      decode Delta.read? d.toJson.print = some d ∧
      decode Payload.read? (Payload.toJson ⟨d, v⟩).print = some ⟨d, v⟩ ∧
      decode DataVersion.read? v.toJson.print = some v ∧
      decode Dump.read? dump.toJson.print = some dump ∧
      decode Entity.read? (Entity.node n).toJson.print = some (.node n) ∧
      decode EntityKey.read? k.toJson.print = some k ∧
      decode Record.read? (Record.dataVersion v).toJson.print = some (.dataVersion v) ∧
      Envelope.received Envelope.unit? ((Envelope.ok ()).toJson Envelope.unitJson).print =
        some (.ok ()) ∧
      Envelope.received DataVersion.read? ((Envelope.ok v).toJson DataVersion.toJson).print =
        some (.ok v) ∧
      Envelope.received Dump.read? ((Envelope.ok dump).toJson Dump.toJson).print =
        some (.ok dump) ∧
      Envelope.received Dump.read?
        ((Envelope.error (.network "no \"route\"\n")).toJson Dump.toJson).print =
          some (.error (.remote "SERVER_ERROR" "no \"route\"\n")) ∧
      Envelope.received DataVersion.read?
        ((Envelope.error (.decode (.json "line 1\tcolumn 2"))).toJson DataVersion.toJson).print =
          some (.error (.remote "DECODE_ERROR" "malformed rule document: line 1\tcolumn 2")) := by
  intro n v k d dump
  have hn : n.Proper := by
    refine ⟨?_, rfl⟩
    rintro _ ⟨⟩
    exact ⟨by decide, by decide⟩
  have hv : v.Proper := ⟨rfl, by decide, by decide⟩
  have hd : d.Proper := by
    simp only [Delta.Proper, d, List.forall_mem_cons]
    exact ⟨hn, trivial, nofun⟩
  have hdump : dump.Proper := by
    refine ⟨hv, ?_⟩
    simp only [dump, List.forall_mem_cons]
    exact ⟨hn, hn, nofun⟩
  obtain ⟨hdeltas, hpayloads, hversions, hdumps, hentities, hkeys, hrecords, hunits, hokVersions,
    hokDumps, herrors⟩ := peer_wire_lossless
  exact ⟨⟨hn, hv, hd, hdump⟩, hdeltas d hd, hpayloads _ ⟨hd, hv⟩, hversions v hv, hdumps dump hdump,
    hentities _ hn, hkeys k, hrecords _ hv, hunits (), hokVersions v hv, hokDumps dump hdump,
    herrors Dump _ _ (.network _), herrors DataVersion _ _ (.decode (.json _))⟩

end RemoteConfig
