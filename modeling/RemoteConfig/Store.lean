import RemoteConfig.Snapshot.Dump
/-! # The store of a node

The snapshot that a node serves, and when it last heard from the master. -/

namespace RemoteConfig

structure Store where
  snapshot : Snapshot
  /-- Milliseconds since the start of 1970; zero stands for never. -/
  checkedMillis : Int

namespace Store

def ofSnapshot (s : Snapshot) : Store := ⟨s, 0⟩

def dataVersion (st : Store) : DataVersion := st.snapshot.dataVersion

/-- Applies a mutation and the version it leads to as one step. -/
def apply (st : Store) (d : Delta) (v : DataVersion) : Store :=
  { st with snapshot := st.snapshot.advance d v }

def replace (st : Store) (s : Snapshot) : Store := { st with snapshot := s }

/-- Notes a contact with the master. -/
def markChecked (st : Store) (now : Timestamp) : Store := { st with checkedMillis := now.millis }

/-- The last contact with the master, to the millisecond. -/
def lastChecked? (st : Store) : Option Timestamp :=
  if st.checkedMillis = 0 then none else some (.ofMillis st.checkedMillis)

end Store

end RemoteConfig
