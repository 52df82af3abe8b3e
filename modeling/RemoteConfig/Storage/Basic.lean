import RemoteConfig.Error
/-! # Transactional storage

A table of rows.  A transaction collects operations and touches nothing before it is committed; then
all of them take effect, one after the other, or none does. -/

namespace RemoteConfig

/-- An operation of a transaction. -/
inductive Operation where
  /-- The key has to be new. -/
  | insert (r : Record)
  /-- The key has to be there. -/
  | update (key : RecordKey) (r : Record)
  | delete (key : RecordKey)
deriving DecidableEq, Repr

abbrev Rows := Std.ExtTreeMap RecordKey Record compare

structure Storage where
  rows : Rows
  /-- Whether the next commit will fail. -/
  failsNext : Bool

/-- An open transaction: its operations in order. -/
structure Transaction where
  operations : List Operation

namespace Transaction

def empty : Transaction := ⟨[]⟩

def add (tx : Transaction) (op : Operation) : Transaction := ⟨tx.operations ++ [op]⟩

def insert (tx : Transaction) (r : Record) : Transaction := tx.add (.insert r)

def delete (tx : Transaction) (key : RecordKey) : Transaction := tx.add (.delete key)

/-- Stages a replacement, which has to keep the key. -/
def update (tx : Transaction) (key : RecordKey) (r : Record) :
    Except StorageFault Transaction :=
  if r.uniqueKey = key then .ok (tx.add (.update key r)) else .error (.keyMismatch key)

end Transaction

namespace Operation

/-- The rows after one operation. -/
def run (rows : Rows) : Operation → Except StorageFault Rows
  | insert r =>
    if r.uniqueKey ∈ rows then .error (.duplicateKey r.uniqueKey)
    else .ok (rows.insert r.uniqueKey r)
  | update key r => if key ∈ rows then .ok (rows.insert key r) else .error (.noRow key)
  | delete key => .ok (rows.erase key)

/-- The rows after all operations of a list. -/
def runAll (rows : Rows) : List Operation → Except StorageFault Rows
  | [] => .ok rows
  | op :: rest => do runAll (← op.run rows) rest

end Operation

namespace Storage

def empty : Storage := ⟨∅, false⟩

def failNextCommit (s : Storage) : Storage := { s with failsNext := true }

/-- The rows of a kind, in the order of their keys. -/
def findAll (s : Storage) (kind : RecordKind) : List Record :=
  (s.rows.toList.filter fun row => row.1.kind = kind).map Prod.snd

/-- Commits a transaction.  A commit that was told to fail takes that order with it. -/
def commit (s : Storage) (tx : Transaction) : Except StorageFault Unit × Storage :=
  if s.failsNext then (.error .commitFailed, { s with failsNext := false })
  else match Operation.runAll s.rows tx.operations with
    | .ok rows => (.ok (), { s with rows := rows })
    | .error fault => (.error fault, s)

end Storage

end RemoteConfig
