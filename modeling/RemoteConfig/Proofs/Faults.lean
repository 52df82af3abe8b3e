import RemoteConfig.Service.Write
/-! # Faults

Only a commit can report a fault of the storage.  Whatever else is refused is refused for another
reason: the claim of a starting master and the requests of operators never blame the storage. -/

namespace RemoteConfig

/-- A result that is not a fault of a storage. -/
def Unfailing {α : Type} (x : Except Error α) : Prop :=
  ∀ fault, x ≠ .error (.persistence fault)

theorem unfailing_ok {α : Type} (a : α) : Unfailing (.ok a) := nofun

theorem unfailing_bind {α β : Type} {x : Except Error α} {f : α → Except Error β}
    (hx : Unfailing x) (hf : ∀ a, Unfailing (f a)) : Unfailing (x >>= f) := by
  cases x with
  | error e => exact fun fault h => hx fault (by cases h; rfl)
  | ok a => exact hf a

theorem unfailing_ite {α : Type} {p : Prop} [Decidable p] {x y : Except Error α}
    (hx : Unfailing x) (hy : Unfailing y) : Unfailing (if p then x else y) := by
  split
  · exact hx
  · exact hy

theorem Replica.unfailing_claim (settings : Settings) (now : Timestamp) (snap : Snapshot) :
    Unfailing (claim settings now snap) := by
  unfold claim
  extract_lets own enter
  have henter : ∀ removal, Unfailing (enter removal) := by
    intro removal
    dsimp only [enter]
    split
    · exact unfailing_ite (unfailing_ok _) (unfailing_ok _)
    · exact unfailing_ok _
  cases snap.master? with
  | none => exact unfailing_bind (unfailing_ok _) henter
  | some other =>
      refine unfailing_ite (unfailing_bind (unfailing_ok _) henter) (unfailing_ite ?_ ?_)
      · exact unfailing_bind (unfailing_ok _) henter
      · exact unfailing_bind nofun henter

theorem ConfigValue.unfailing_compile (type : ValueType) (raw : String) :
    Unfailing (compile type raw) := by
  intro fault h
  unfold compile at h
  split at h
  · cases h
  · split at h <;> cases h
  · split at h <;> cases h
  · split at h
    · cases h
    · split at h <;> cases h
  · dsimp only at h
    split at h <;> cases h

namespace Write

theorem unfailing_refuseIf (condition : Bool) (cause : Invalid) :
    Unfailing (refuseIf condition cause) := unfailing_ite nofun (unfailing_ok _)

theorem unfailing_require (s : Snapshot) (k : EntityKey) : Unfailing (require s k) :=
  unfailing_ite (unfailing_ok _) nofun

theorem unfailing_requireUrl (url : String) : Unfailing (requireUrl url) :=
  unfailing_ite (unfailing_ok _) nofun

theorem unfailing_check (settings : Settings) (w : Write) : Unfailing (w.check settings) := by
  cases w with
  | putUser u => exact unfailing_refuseIf _ _
  | putApp key name type => exact unfailing_refuseIf _ _
  | putConfig c =>
      exact unfailing_bind (unfailing_refuseIf _ _) fun _ =>
        unfailing_bind (ConfigValue.unfailing_compile _ _) fun _ => unfailing_ok _
  | putWebhook w => exact unfailing_requireUrl _
  | putNode n =>
      exact unfailing_bind (unfailing_requireUrl _) fun _ => unfailing_refuseIf _ _
  | deleteNode url => exact unfailing_refuseIf _ _
  | deleteUser name => exact unfailing_ok _
  | deleteApp key => exact unfailing_ok _
  | deleteConfig key => exact unfailing_ok _
  | deleteWebhook key => exact unfailing_ok _

theorem unfailing_putAppDelta (sign key name : String) (type : AppType) (s : Snapshot) :
    Unfailing (putAppDelta sign key name type s) := by
  refine unfailing_bind (unfailing_refuseIf _ _) ?_
  intro _
  cases s.app? key with
  | none => exact unfailing_ok _
  | some a => exact unfailing_bind (unfailing_refuseIf _ _) fun _ => unfailing_ok _

theorem unfailing_deleteAppDelta (key : String) (s : Snapshot) :
    Unfailing (deleteAppDelta key s) :=
  unfailing_bind (unfailing_require _ _) fun _ =>
    unfailing_bind (unfailing_refuseIf _ _) fun _ =>
      unfailing_bind (unfailing_refuseIf _ _) fun _ => unfailing_ok _

theorem unfailing_checkTemplate (s : Snapshot) (appKey : String) (value : ConfigValue) :
    Unfailing (checkTemplate s appKey value) := by
  cases value with
  | template key => exact unfailing_refuseIf _ _
  | _ => exact unfailing_ok _

theorem unfailing_putConfigDelta (sign : String) (c : Config) (s : Snapshot) :
    Unfailing (putConfigDelta sign c s) := by
  refine unfailing_bind (ConfigValue.unfailing_compile _ _) ?_
  intro value
  cases s.app? c.appKey with
  | none => exact nofun
  | some a =>
      dsimp only
      have hrest : ∀ a', Unfailing (do
          refuseIf ((s.appConfigs c.appKey).any fun other =>
            other.entry.key ≠ c.key && other.entry.fieldName = c.fieldName)
            (.fieldExists c.fieldName c.appKey)
          checkTemplate s c.appKey value
          return (Delta.empty.upsert (.config c)).upsert (.app a')) := fun _ =>
        unfailing_bind (unfailing_refuseIf _ _) fun _ =>
          unfailing_bind (unfailing_checkTemplate _ _ _) fun _ => unfailing_ok _
      cases s.config? c.key with
      | none => exact hrest _
      | some b => exact unfailing_bind (unfailing_refuseIf _ _) fun _ => hrest _

theorem unfailing_deleteConfigDelta (sign key : String) (s : Snapshot) :
    Unfailing (deleteConfigDelta sign key s) := by
  unfold deleteConfigDelta
  cases s.config? key with
  | none => exact nofun
  | some c =>
      dsimp only
      cases s.app? c.entry.appKey <;> exact unfailing_ok _

theorem unfailing_putNodeDelta (n : Node) (s : Snapshot) : Unfailing (putNodeDelta n s) := by
  unfold putNodeDelta
  extract_lets enter
  have henter : ∀ u, Unfailing (enter u) := fun _ => unfailing_ok _
  cases s.master? with
  | none => exact unfailing_bind (unfailing_ok _) henter
  | some master =>
      refine unfailing_bind (unfailing_refuseIf _ _) fun _ => unfailing_ite ?_ (henter ())
      exact unfailing_bind nofun henter

theorem unfailing_delta (sign : String) (w : Write) (s : Snapshot) :
    Unfailing (w.delta sign s) := by
  have hrequire : ∀ k d, Unfailing (do require s k; return d : Except Error Delta) := fun k d =>
    unfailing_bind (unfailing_require s k) fun _ => unfailing_ok _
  cases w with
  | putUser u => exact unfailing_ok _
  | deleteUser name => exact hrequire _ _
  | putApp key name type => exact unfailing_putAppDelta sign key name type s
  | deleteApp key => exact unfailing_deleteAppDelta key s
  | putConfig c => exact unfailing_putConfigDelta sign c s
  | deleteConfig key => exact unfailing_deleteConfigDelta sign key s
  | putWebhook w => exact hrequire _ _
  | deleteWebhook key => exact hrequire _ _
  | putNode n => exact unfailing_putNodeDelta n s
  | deleteNode url => exact hrequire _ _

end Write

end RemoteConfig
