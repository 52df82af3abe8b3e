import RemoteConfig.Rule.Admission
import RemoteConfig.Rule.Token
import RemoteConfig.Storage.Record
/-! # Errors

Everything that can be refused or fail, each with its cause.  An error has a stable code for
programs and a message for people.  The wording of the causes that are known is here and nowhere
else; a cause that another library reports keeps the words of that library. -/

namespace RemoteConfig

/-- Why a well-formed request is refused. -/
inductive Invalid where
  | rule (reason : Inadmissible)
  | notAnInteger (raw : String)
  | notANumber (raw : String)
  | emptyTemplateKey
  | emptyUserName
  | emptyAppKeyOrName
  | appNameTaken (name : String)
  | templateReferenced (key : String)
  | appHasConfigs (key : String)
  | emptyConfigKeyOrField
  | configOfOtherApp (key appKey : String)
  | fieldExists (field appKey : String)
  | notATemplate (key : String)
  | localRole (url : String)
  | masterDemotion (url : String)
  | localNodeRemoval
  /-- None of these. -/
  | other (words : String)
deriving Repr

/-- Why a transaction fails. -/
inductive StorageFault where
  | commitFailed
  | keyMismatch (key : RecordKey)
  | duplicateKey (key : RecordKey)
  | noRow (key : RecordKey)
  /-- What a storage of another kind reports. -/
  | other (words : String)
deriving Repr

inductive Error where
  /-- A document that is none, or has no known form. -/
  | decode (cause : Rule.Malformed)
  | validation (cause : Invalid)
  /-- The transaction left no trace. -/
  | persistence (cause : StorageFault)
  | notFound (kind key : String)
  /-- A write on a node that is not the master, or a push to one that is. -/
  | notPermitted
  /-- The seconds since the last contact with the master, if there was one. -/
  | staleData (age : Option Int)
  | versionConflict (expected current : Int)
  | versionGap (held received : Int)
  | masterConflict (url : String)
  | invalidUrl
  /-- What a peer answered. -/
  | remote (code message : String)
  /-- A peer was not reached. -/
  | network (words : String)
  /-- The operating system refused something. -/
  | io (words : String)
  | threadPanicked
deriving Repr

namespace Invalid

def message : Invalid → String
  | rule reason => reason.message
  | notAnInteger raw => "`" ++ raw ++ "` is not an integer"
  | notANumber raw => "`" ++ raw ++ "` is not a number"
  | emptyTemplateKey => "template key is empty"
  | emptyUserName => "user name is empty"
  | emptyAppKeyOrName => "app key and name are required"
  | appNameTaken name => "app name `" ++ name ++ "` is taken"
  | templateReferenced key => "template `" ++ key ++ "` is still referenced"
  | appHasConfigs key => "app `" ++ key ++ "` still has configs"
  | emptyConfigKeyOrField => "config key and field name are required"
  | configOfOtherApp key appKey => "config `" ++ key ++ "` belongs to app `" ++ appKey ++ "`"
  | fieldExists field appKey =>
    "field `" ++ field ++ "` already exists in app `" ++ appKey ++ "`"
  | notATemplate key => "`" ++ key ++ "` is not a template app"
  | localRole url => "cannot change the role of the local node `" ++ url ++ "`"
  | masterDemotion url => "cannot demote the master node `" ++ url ++ "`"
  | localNodeRemoval => "cannot remove the local node"
  | other words => words

end Invalid

namespace StorageFault

def message : StorageFault → String
  | commitFailed => "commit failed"
  | keyMismatch key => "record key does not match " ++ key.shown
  | duplicateKey key => "duplicate key " ++ key.shown
  | noRow key => "no row for " ++ key.shown
  | other words => words

end StorageFault

namespace Error

def code : Error → String
  | decode _ => "DECODE_ERROR"
  | validation _ => "VALIDATION_ERROR"
  | notFound _ _ => "NOT_FOUND"
  | notPermitted => "NOT_PERMITTED"
  | staleData _ => "STALE_DATA"
  | versionConflict _ _ => "VERSION_CONFLICT"
  | versionGap _ _ => "VERSION_GAP"
  | masterConflict _ => "MASTER_CONFLICT"
  | invalidUrl => "INVALID_URL"
  | remote code _ => code
  | persistence _ | network _ | io _ | threadPanicked => "SERVER_ERROR"

def message : Error → String
  | decode cause => "malformed rule document: " ++ cause.message
  | validation cause => "validation failed: " ++ cause.message
  | persistence cause => "storage error: " ++ cause.message
  | notFound kind key => kind ++ " not found: " ++ key
  | notPermitted => "operation not permitted on this node"
  | staleData _ => "node data is stale"
  | versionConflict expected current =>
    "data version conflict: expected " ++ toString expected ++ ", current " ++ toString current
  | versionGap held received =>
    "data version gap: local " ++ toString held ++ ", received " ++ toString received
  | masterConflict url => "another master is already registered: " ++ url
  | invalidUrl => "invalid node url"
  | remote code message => "peer error " ++ code ++ ": " ++ message
  | network words | io words => words
  | threadPanicked => "background thread panicked"

end Error

end RemoteConfig
