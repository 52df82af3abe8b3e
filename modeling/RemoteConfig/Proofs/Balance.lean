import Mathlib.Data.List.InsertIdx
import RemoteConfig.Proofs.Resolution
/-! # Balance of pools

Borrowers take objects out of a pool, by hand or by a guard that returns its object in the end.
They do what they want with the objects, and return them in any order.  At every moment the objects
that are idle, on loan or dropped are those with which the pool began and those that it made later.
What is lent again was reset since it was used last.

The counters of a pool are words, which start over when they are full.  The accounts are kept in
exact numbers beside them, of which the counters show what fits a word.

To speak of the past of an object, objects are tracked: they carry with them what was done to them.
This is only a matter of speaking, as a pool does with tracked objects what it does with others. -/

namespace RemoteConfig

/-! ## Counters -/

namespace Pool

variable {α : Type}

/-- How often a pool did what it counts, in exact numbers. -/
structure Tally where
  reused : Nat
  created : Nat
  discarded : Nat

/-- The counters of a pool show the exact numbers, as far as words can. -/
structure Shows (p : Pool α) (tally : Tally) : Prop where
  reused : p.reused = .ofNat tally.reused
  created : p.created = .ofNat tally.created
  discarded : p.discarded = .ofNat tally.discarded

namespace Shows

variable {p : Pool α} {tally : Tally}

theorem reuse (h : p.Shows tally) (rest : List α) :
    Shows { p with idle := rest, reused := p.reused + 1 }
      { tally with reused := tally.reused + 1 } :=
  ⟨by rw [h.reused, UInt64.ofNat_add, UInt64.ofNat_one], h.created, h.discarded⟩

theorem create (h : p.Shows tally) :
    Shows { p with created := p.created + 1 } { tally with created := tally.created + 1 } :=
  ⟨h.reused, by rw [h.created, UInt64.ofNat_add, UInt64.ofNat_one], h.discarded⟩

theorem keep (h : p.Shows tally) (idle : List α) : Shows { p with idle := idle } tally :=
  ⟨h.reused, h.created, h.discarded⟩

theorem discard (h : p.Shows tally) :
    Shows { p with discarded := p.discarded + 1 }
      { tally with discarded := tally.discarded + 1 } :=
  ⟨h.reused, h.created, by rw [h.discarded, UInt64.ofNat_add, UInt64.ofNat_one]⟩

end Shows

end Pool

/-! ## Steps of a pool -/

namespace Pool

variable {α : Type} [Poolable α]

/-- What is taken from a pool is the object that was returned last, or a new one if none is idle. -/
theorem acquire_cases (p : Pool α) :
    (∃ x rest, p.idle = x :: rest ∧
      p.acquire = (x, { p with idle := rest, reused := p.reused + 1 })) ∨
    p.idle = [] ∧ p.acquire = (Poolable.fresh, { p with created := p.created + 1 }) := by
  unfold acquire
  cases hidle : p.idle with
  | nil => exact Or.inr ⟨rfl, rfl⟩
  | cons x rest => exact Or.inl ⟨x, rest, rfl, rfl⟩

/-- What is returned to a pool is reset and kept, or dropped if there is no room. -/
theorem release_cases (p : Pool α) (x : α) :
    (p.idle.length < p.capacity ∧ p.release x = { p with idle := Poolable.reset x :: p.idle }) ∨
    p.capacity ≤ p.idle.length ∧ p.release x = { p with discarded := p.discarded + 1 } := by
  unfold release
  split
  · exact Or.inl ⟨‹_›, rfl⟩
  · exact Or.inr ⟨Nat.le_of_not_lt ‹_›, rfl⟩

end Pool

/-! ## Loans -/

/-- A pool and the objects that it has lent: those that were taken by hand, and those that are with
guards. -/
structure Loans (α : Type) where
  pool : Pool α
  held : List α
  guarded : List α

namespace Loans

/-- What borrowers do.  Objects go by their places among those on loan; what names no place has no
effect. -/
inductive Event (α : Type) where
  /-- Takes an object by hand. -/
  | acquire
  /-- Takes an object with a guard. -/
  | get
  | useHeld (place : Nat) (f : α → α)
  | useGuarded (place : Nat) (f : α → α)
  /-- Returns an object that was taken by hand. -/
  | release (place : Nat)
  /-- Ends a guard, which returns its object. -/
  | drop (place : Nat)

variable {α : Type} [Poolable α]

def begin (capacity : Nat) : Loans α := ⟨.filled capacity, [], []⟩

def step (l : Loans α) : Event α → Loans α
  | .acquire => { l with pool := l.pool.acquire.2, held := l.held ++ [l.pool.acquire.1] }
  | .get => { l with pool := l.pool.acquire.2, guarded := l.guarded ++ [l.pool.acquire.1] }
  | .useHeld place f => { l with held := l.held.modify place f }
  | .useGuarded place f => { l with guarded := l.guarded.modify place f }
  | .release place =>
    match l.held[place]? with
    | some x => { l with pool := l.pool.release x, held := l.held.eraseIdx place }
    | none => l
  | .drop place =>
    match l.guarded[place]? with
    | some x => { l with pool := l.pool.release x, guarded := l.guarded.eraseIdx place }
    | none => l

def run (capacity : Nat) (events : List (Event α)) : Loans α := events.foldl step (begin capacity)

/-- To borrow an object for one use is to take it with a guard that ends at once. -/
theorem step_use {β : Type} (l : Loans α) (f : α → β × α) :
    ((l.step .get).step (.useGuarded l.guarded.length fun x => (f x).2)).step
      (.drop l.guarded.length) = { l with pool := (l.pool.use f).2 } := by
  have hmodify : (l.guarded ++ [l.pool.acquire.1]).modify l.guarded.length (fun x => (f x).2) =
      l.guarded ++ [(f l.pool.acquire.1).2] := by
    simp [List.modify_eq_take_drop]
  simp only [step, hmodify, Pool.use]
  simp [List.eraseIdx_append_of_length_le]

/-- Whether an event takes an object. -/
def Event.acquires : Event α → Bool
  | acquire | get => true
  | _ => false

/-- Whether an event returns an object. -/
def returns (l : Loans α) : Event α → Bool
  | .release place => place < l.held.length
  | .drop place => place < l.guarded.length
  | _ => false

/-- What a step can do: an object is taken, or one is returned, or the pool is left alone. -/
inductive Stepped (l : Loans α) : Event α → Loans α → Prop
  | acquired {e : Event α} {l' : Loans α} (he : e.acquires = true) (hr : l.returns e = false)
      (hpool : l'.pool = l.pool.acquire.2)
      (hlent : l'.held.length + l'.guarded.length = l.held.length + l.guarded.length + 1) :
      Stepped l e l'
  | returned {e : Event α} {l' : Loans α} (x : α) (he : e.acquires = false)
      (hr : l.returns e = true) (hpool : l'.pool = l.pool.release x)
      (hlent : l'.held.length + l'.guarded.length + 1 = l.held.length + l.guarded.length) :
      Stepped l e l'
  | kept {e : Event α} {l' : Loans α} (he : e.acquires = false) (hr : l.returns e = false)
      (hpool : l'.pool = l.pool)
      (hlent : l'.held.length + l'.guarded.length = l.held.length + l.guarded.length) :
      Stepped l e l'

theorem step_stepped (l : Loans α) (e : Event α) : l.Stepped e (l.step e) := by
  cases e with
  | acquire =>
      refine .acquired rfl rfl rfl ?_
      simp only [step, List.length_append, List.length_singleton]
      omega
  | get =>
      refine .acquired rfl rfl rfl ?_
      simp only [step, List.length_append, List.length_singleton]
      omega
  | useHeld place f => exact .kept rfl rfl rfl (by rw [step, List.length_modify])
  | useGuarded place f => exact .kept rfl rfl rfl (by rw [step, List.length_modify])
  | release place =>
      rw [step]
      cases hx : l.held[place]? with
      | none =>
          have hge := List.getElem?_eq_none_iff.mp hx
          exact .kept rfl (decide_eq_false (Nat.not_lt.mpr hge)) rfl rfl
      | some x =>
          obtain ⟨hlt, -⟩ := List.getElem?_eq_some_iff.mp hx
          refine .returned x rfl (decide_eq_true hlt) rfl ?_
          simp only [List.length_eraseIdx_of_lt hlt]
          omega
  | drop place =>
      rw [step]
      cases hx : l.guarded[place]? with
      | none =>
          have hge := List.getElem?_eq_none_iff.mp hx
          exact .kept rfl (decide_eq_false (Nat.not_lt.mpr hge)) rfl rfl
      | some x =>
          obtain ⟨hlt, -⟩ := List.getElem?_eq_some_iff.mp hx
          refine .returned x rfl (decide_eq_true hlt) rfl ?_
          simp only [List.length_eraseIdx_of_lt hlt]
          omega

/-! ## Accounts -/

/-- Only an acquisition from an empty pool makes an object. -/
theorem created_step (l : Loans α) (e : Event α) :
    (l.step e).pool.created =
      l.pool.created + if e.acquires ∧ l.pool.idle = [] then 1 else 0 := by
  cases l.step_stepped e with
  | acquired he _ hpool _ =>
      rcases l.pool.acquire_cases with ⟨x, rest, hrest, hacquire⟩ | ⟨hempty, hacquire⟩
      · simp [hpool, hacquire, hrest]
      · simp [hpool, hacquire, he, hempty]
  | returned x he _ hpool _ =>
      rcases l.pool.release_cases x with ⟨-, hrelease⟩ | ⟨-, hrelease⟩ <;>
        simp [hpool, hrelease, he]
  | kept he _ hpool _ => simp [hpool, he]

/-- The accounts of a pool after a number of acquisitions. -/
structure Balanced (capacity acquisitions : Nat) (tally : Pool.Tally) (l : Loans α) : Prop where
  capacity_eq : l.pool.capacity = capacity
  idle_le : l.pool.idle.length ≤ capacity
  shows : l.pool.Shows tally
  objects : l.pool.idle.length + (l.held.length + l.guarded.length) + tally.discarded =
    capacity + tally.created
  acquisitions_eq : tally.reused + tally.created = acquisitions
  /-- What was dropped or is on loan was acquired once. -/
  discarded_le : tally.discarded + (l.held.length + l.guarded.length) ≤ acquisitions

theorem balanced_begin (capacity : Nat) :
    Balanced capacity 0 ⟨0, 0, 0⟩ (begin capacity : Loans α) where
  capacity_eq := rfl
  idle_le := Nat.le_of_eq List.length_replicate
  shows := ⟨rfl, rfl, rfl⟩
  objects := by simp [begin, Pool.filled]
  acquisitions_eq := rfl
  discarded_le := Nat.le_refl 0

namespace Balanced

variable {capacity n : Nat} {tally : Pool.Tally} {l : Loans α}

/-- The step lemma of loans. -/
theorem step (h : Balanced capacity n tally l) (e : Event α) :
    ∃ tally, Balanced capacity (n + if e.acquires then 1 else 0) tally (l.step e) := by
  obtain ⟨hcapacity, hidle, hshows, hobjects, hacquisitions, hdiscarded⟩ := h
  cases l.step_stepped e with
  | acquired he _ hpool hlent =>
      rcases l.pool.acquire_cases with ⟨x, rest, hrest, hacquire⟩ | ⟨hempty, hacquire⟩
      · simp only [hacquire] at hpool
        rw [hrest, List.length_cons] at hidle hobjects
        refine ⟨_, ?_, ?_, hpool ▸ hshows.reuse rest, ?_, ?_, ?_⟩ <;>
          simp only [hpool, he, if_true, hlent] <;> omega
      · simp only [hacquire] at hpool
        rw [hempty, List.length_nil] at hidle hobjects
        refine ⟨_, ?_, ?_, hpool ▸ hshows.create, ?_, ?_, ?_⟩ <;>
          simp only [hpool, he, if_true, hlent, hempty, List.length_nil] <;> omega
  | returned x he _ hpool hlent =>
      rcases l.pool.release_cases x with ⟨hroom, hrelease⟩ | ⟨hfull, hrelease⟩
      · rw [hrelease] at hpool
        refine ⟨_, ?_, ?_, hpool ▸ hshows.keep _, ?_, ?_, ?_⟩ <;>
          simp only [hpool, he, Bool.false_eq_true, if_false, List.length_cons] <;> omega
      · rw [hrelease] at hpool
        refine ⟨_, ?_, ?_, hpool ▸ hshows.discard, ?_, ?_, ?_⟩ <;>
          simp only [hpool, he, Bool.false_eq_true, if_false] <;> omega
  | kept he _ hpool hlent =>
      refine ⟨tally, ?_, ?_, hpool ▸ hshows, ?_, ?_, ?_⟩ <;>
        simp only [hpool, he, Bool.false_eq_true, if_false] <;> omega

/-- Only a return to a full pool drops an object. -/
theorem discarded_step (h : Balanced capacity n tally l) (e : Event α) :
    (l.step e).pool.discarded =
      l.pool.discarded + if l.returns e ∧ l.pool.idle.length = capacity then 1 else 0 := by
  cases l.step_stepped e with
  | acquired _ hr hpool _ =>
      rcases l.pool.acquire_cases with ⟨x, rest, -, hacquire⟩ | ⟨-, hacquire⟩ <;>
        simp [hpool, hacquire, hr]
  | returned x _ hr hpool _ =>
      rcases l.pool.release_cases x with ⟨hroom, hrelease⟩ | ⟨hfull, hrelease⟩
      · have hne : l.pool.idle.length ≠ capacity := h.capacity_eq ▸ Nat.ne_of_lt hroom
        simp [hpool, hrelease, hne]
      · have heq : l.pool.idle.length = capacity :=
          Nat.le_antisymm h.idle_le (h.capacity_eq ▸ hfull)
        simp [hpool, hrelease, hr, heq]
  | kept _ hr hpool _ => simp [hpool, hr]

theorem foldl (events : List (Event α)) : ∀ {n : Nat} {tally : Pool.Tally} {l : Loans α},
    Balanced capacity n tally l → ∃ tally,
      Balanced capacity (n + events.countP Event.acquires) tally (events.foldl Loans.step l) := by
  induction events with
  | nil => exact fun h => ⟨_, h⟩
  | cons e rest ih =>
      intro n tally l h
      obtain ⟨tally, hstep⟩ := h.step e
      rw [List.countP_cons, Nat.add_comm (rest.countP _), ← Nat.add_assoc]
      exact ih hstep

omit [Poolable α] in
/-- The accounts in words. -/
theorem words (h : Balanced capacity n tally l) :
    .ofNat (l.pool.idle.length + (l.held.length + l.guarded.length)) + l.pool.discarded =
        .ofNat capacity + l.pool.created ∧
      l.pool.reused + l.pool.created = .ofNat n := by
  constructor
  · rw [h.shows.created, h.shows.discarded, ← UInt64.ofNat_add, ← UInt64.ofNat_add, h.objects]
  · rw [h.shows.reused, h.shows.created, ← UInt64.ofNat_add, h.acquisitions_eq]

omit [Poolable α] in
/-- The counters are exact as long as none was full. -/
theorem exact (h : Balanced capacity n tally l) (hn : n < UInt64.size) :
    l.pool.idle.length + (l.held.length + l.guarded.length) + l.pool.discarded.toNat =
        capacity + l.pool.created.toNat ∧
      l.pool.reused.toNat + l.pool.created.toNat = n := by
  have hacquisitions := h.acquisitions_eq
  have hdiscarded := h.discarded_le
  rw [h.shows.reused, h.shows.created, h.shows.discarded, UInt64.toNat_ofNat_of_lt' (by omega),
    UInt64.toNat_ofNat_of_lt' (by omega), UInt64.toNat_ofNat_of_lt' (by omega)]
  exact ⟨h.objects, hacquisitions⟩

end Balanced

theorem balanced_run (capacity : Nat) (events : List (Event α)) :
    ∃ tally, Balanced capacity (events.countP Event.acquires) tally
      (run capacity events : Loans α) := by
  have h := (balanced_begin (α := α) capacity).foldl events
  rwa [Nat.zero_add] at h

end Loans

/-! ## Tracked objects -/

/-- Something that is done to an object. -/
inductive Deed where
  | used
  | reset

/-- An object with all that was done to it. -/
structure Tracked (α : Type) where
  object : α
  /-- What was done last stands in front. -/
  past : List Deed

namespace Tracked

variable {α : Type}

def use (f : α → α) (x : Tracked α) : Tracked α := ⟨f x.object, .used :: x.past⟩

theorem map_object_modify (f : α → α) (xs : List (Tracked α)) (place : Nat) :
    (xs.modify place (use f)).map (·.object) = (xs.map (·.object)).modify place f := by
  refine List.ext_getElem? fun i => ?_
  simp only [List.getElem?_map, List.getElem?_modify]
  by_cases h : place = i <;> simp [h, use, Function.comp_def]

variable [Poolable α]

instance : Poolable (Tracked α) where
  fresh := ⟨Poolable.fresh, []⟩
  reset x := ⟨Poolable.reset x.object, .reset :: x.past⟩

/-- An object that is new, or was reset after all that was done to it. -/
def Clean (x : Tracked α) : Prop :=
  x = Poolable.fresh ∨ ∃ y : Tracked α, x = Poolable.reset y

theorem clean_fresh : (Poolable.fresh : Tracked α).Clean := Or.inl rfl

theorem clean_reset (x : Tracked α) : (Poolable.reset x).Clean := Or.inr ⟨x, rfl⟩

end Tracked

namespace Pool

variable {α : Type} [Poolable α]

/-- A pool of tracked objects, without the tracks. -/
def untracked (p : Pool (Tracked α)) : Pool α := { p with idle := p.idle.map (·.object) }

theorem untracked_acquire (p : Pool (Tracked α)) :
    p.untracked.acquire = (p.acquire.1.object, p.acquire.2.untracked) := by
  rcases p.acquire_cases with ⟨x, rest, hidle, h⟩ | ⟨hidle, h⟩
  · rw [h]
    simp only [acquire, untracked, hidle, List.map_cons]
  · rw [h]
    simp only [acquire, untracked, hidle, List.map_nil]
    rfl

theorem untracked_release (p : Pool (Tracked α)) (x : Tracked α) :
    p.untracked.release x.object = (p.release x).untracked := by
  rcases p.release_cases x with ⟨hroom, h⟩ | ⟨hfull, h⟩
  · rw [h, release, if_pos (by simpa [untracked] using hroom)]
    rfl
  · rw [h, release, if_neg (by simpa [untracked] using hfull)]
    rfl

end Pool

namespace Loans

variable {α : Type} [Poolable α]

/-- The same event for tracked objects. -/
def Event.tracked : Event α → Event (Tracked α)
  | acquire => .acquire
  | get => .get
  | useHeld place f => .useHeld place (Tracked.use f)
  | useGuarded place f => .useGuarded place (Tracked.use f)
  | release place => .release place
  | drop place => .drop place

/-- Loans of tracked objects, without the tracks. -/
def untracked (l : Loans (Tracked α)) : Loans α :=
  ⟨l.pool.untracked, l.held.map (·.object), l.guarded.map (·.object)⟩

theorem untracked_step (l : Loans (Tracked α)) (e : Event α) :
    (l.step e.tracked).untracked = l.untracked.step e := by
  cases e with
  | acquire => simp [Event.tracked, step, untracked, Pool.untracked_acquire]
  | get => simp [Event.tracked, step, untracked, Pool.untracked_acquire]
  | useHeld place f => simp [Event.tracked, step, untracked, Tracked.map_object_modify]
  | useGuarded place f => simp [Event.tracked, step, untracked, Tracked.map_object_modify]
  | release place =>
      have hplace : l.untracked.held[place]? = l.held[place]?.map (·.object) := List.getElem?_map
      simp only [Event.tracked, step, hplace]
      cases l.held[place]? with
      | none => rfl
      | some x => simp [untracked, Pool.untracked_release, List.eraseIdx_map]
  | drop place =>
      have hplace : l.untracked.guarded[place]? = l.guarded[place]?.map (·.object) :=
        List.getElem?_map
      simp only [Event.tracked, step, hplace]
      cases l.guarded[place]? with
      | none => rfl
      | some x => simp [untracked, Pool.untracked_release, List.eraseIdx_map]

theorem untracked_begin (capacity : Nat) :
    (begin capacity : Loans (Tracked α)).untracked = begin capacity := by
  simp [untracked, Pool.untracked, begin, Pool.filled, Poolable.fresh]

/-- Tracks have no effect. -/
theorem untracked_run (capacity : Nat) (events : List (Event α)) :
    (run capacity (events.map Event.tracked)).untracked = run capacity events := by
  rw [run, run, List.foldl_map, ← untracked_begin (α := α)]
  exact (List.foldl_hom untracked fun (l : Loans (Tracked α)) e => (untracked_step l e).symm).symm

/-- All that is idle is clean. -/
def Clean (l : Loans (Tracked α)) : Prop := ∀ x ∈ l.pool.idle, x.Clean

theorem clean_begin (capacity : Nat) : (begin capacity : Loans (Tracked α)).Clean :=
  fun _ hx => Or.inl (List.mem_replicate.mp hx).2

theorem Clean.step {l : Loans (Tracked α)} (h : l.Clean) (e : Event (Tracked α)) :
    (l.step e).Clean := by
  unfold Clean
  cases l.step_stepped e with
  | acquired _ _ hpool _ => exact hpool ▸ (Pool.acquire_of_idle Tracked.clean_fresh h).2
  | returned x _ _ hpool _ => exact hpool ▸ Pool.release_of_idle h (Tracked.clean_reset x)
  | kept _ _ hpool _ => exact hpool ▸ h

theorem clean_run (capacity : Nat) (events : List (Event (Tracked α))) :
    (run capacity events).Clean :=
  List.foldlRecOn events step (clean_begin capacity) fun _ h e _ => h.step e

/-! ## The accounts -/

/-- After any events the idle objects fit, every object is accounted for, and so is every
acquisition: in words whatever happened, and in exact numbers as long as fewer objects were acquired
than a word can count.  An object is made only when none is idle, and dropped only when there is no
room.  What is lent next is new or was reset after it was used. -/
theorem accounts_balance (capacity : Nat) (events : List (Event α)) :
    let l : Loans α := run capacity events
    let t : Loans (Tracked α) := run capacity (events.map Event.tracked)
    l.pool.idle.length ≤ capacity ∧
    .ofNat (l.pool.idle.length + (l.held.length + l.guarded.length)) + l.pool.discarded =
      .ofNat capacity + l.pool.created ∧
    l.pool.reused + l.pool.created = .ofNat (events.countP Event.acquires) ∧
    (events.countP Event.acquires < UInt64.size →
      l.pool.idle.length + (l.held.length + l.guarded.length) + l.pool.discarded.toNat =
        capacity + l.pool.created.toNat ∧
      l.pool.reused.toNat + l.pool.created.toNat = events.countP Event.acquires) ∧
    (∀ e, (l.step e).pool.created =
      l.pool.created + if e.acquires ∧ l.pool.idle = [] then 1 else 0) ∧
    (∀ e, (l.step e).pool.discarded =
      l.pool.discarded + if l.returns e ∧ l.pool.idle.length = capacity then 1 else 0) ∧
    t.untracked = l ∧ t.pool.acquire.1.Clean := by
  intro l t
  obtain ⟨tally, h⟩ : ∃ tally, Balanced capacity (events.countP Event.acquires) tally l :=
    balanced_run capacity events
  have hclean : t.Clean := clean_run capacity _
  exact ⟨h.idle_le, h.words.1, h.words.2, h.exact, l.created_step, h.discarded_step,
    untracked_run capacity events, (Pool.acquire_of_idle Tracked.clean_fresh hclean).1⟩

/-- Two evaluators are borrowed from a pool of one, so that one is made, and when both are back one
is dropped. -/
theorem accounts_balance_poolOfOne :
    let events : List (Event Evaluator) := [.acquire, .get, .release 0, .drop 0, .acquire]
    let l : Loans Evaluator := run 1 events
    events.countP Event.acquires < UInt64.size ∧
      l.held.length = 1 ∧ l.pool.idle.length = 0 ∧ l.pool.reused.toNat = 2 ∧
      l.pool.idle.length + (l.held.length + l.guarded.length) + l.pool.discarded.toNat =
        1 + l.pool.created.toNat ∧
      l.pool.reused.toNat + l.pool.created.toNat = events.countP Event.acquires := by
  intro events l
  have hlt : events.countP Event.acquires < UInt64.size := by decide
  obtain ⟨-, -, -, hexact, -⟩ := accounts_balance 1 events
  exact ⟨hlt, rfl, rfl, rfl, hexact hlt⟩

end Loans

end RemoteConfig
