import RemoteConfig.Rule.Evaluator
/-! # Pools

A pool keeps idle objects for reuse, up to a capacity.  Taking one never waits: if none is idle, a
new one is made.  Returning one never waits either: it is reset, and dropped if there is no room.
The counters are words of 64 bits, which start over when they are full. -/

namespace RemoteConfig

/-- Objects that can serve one borrower after another. -/
class Poolable (α : Type) where
  fresh : α
  reset : α → α

instance : Poolable Evaluator := ⟨.fresh, .reset⟩

structure Pool (α : Type) where
  /-- The idle objects, the one returned last in front. -/
  idle : List α
  capacity : Nat
  reused : UInt64
  created : UInt64
  discarded : UInt64

namespace Pool

variable {α : Type} [Poolable α]

/-- A pool filled to its capacity with new objects. -/
def filled (capacity : Nat) : Pool α where
  idle := List.replicate capacity Poolable.fresh
  capacity := capacity
  reused := 0
  created := 0
  discarded := 0

def acquire (p : Pool α) : α × Pool α :=
  match p.idle with
  | x :: rest => (x, { p with idle := rest, reused := p.reused + 1 })
  | [] => (Poolable.fresh, { p with created := p.created + 1 })

def release (p : Pool α) (x : α) : Pool α :=
  if p.idle.length < p.capacity then { p with idle := Poolable.reset x :: p.idle }
  else { p with discarded := p.discarded + 1 }

/-- Borrows an object for one use. -/
def use {β : Type} (p : Pool α) (f : α → β × α) : β × Pool α :=
  let (x, p) := p.acquire
  let (result, x) := f x
  (result, p.release x)

end Pool

end RemoteConfig
