import Mathlib.Data.List.Induction
import Mathlib.Data.String.Basic
import RemoteConfig.Proofs.Mirror
/-! # Serial transactions

Any number of transactions can be open on a storage at once.  Each collects its operations while
others are committed, so they run on rows that may be other ones than those at the time when they
were collected.  All the same the rows are always what the transactions that were committed make of
an empty table, one after the other and each as a whole.  Nothing else leaves a trace in them. -/

namespace RemoteConfig

theorem Record.kind_uniqueKey (r : Record) : r.uniqueKey.kind = r.kind := by
  cases r with
  | entity e => exact congrArg RecordKind.entity e.kind_key
  | dataVersion v => rfl
  | clientAttribute a => rfl

/-- Rows of one kind are ordered by the rest of their keys. -/
theorem RecordKey.key_lt_of_compare {a b : RecordKey} (hkind : a.kind = b.kind)
    (h : compare a b = .lt) : a.key < b.key := by
  have hthen : (compare a.kind.rank b.kind.rank).then (compare a.key b.key) = .lt := h
  have hrank : compare a.kind.rank b.kind.rank = .eq := by
    rw [hkind]
    exact Std.ReflCmp.compare_self
  rw [hrank] at hthen
  exact compare_lt_iff_lt.mp hthen

/-! ## Commits -/

namespace Operation

/-- A row of operations fails where one of them fails, on what those before it have left. -/
theorem runAll_eq_error_iff {fault : StorageFault} {operations : List Operation} {rows : Rows} :
    runAll rows operations = .error fault ↔ ∃ done op rest rows',
      operations = done ++ op :: rest ∧ runAll rows done = .ok rows' ∧
        op.run rows' = .error fault := by
  induction operations generalizing rows with
  | nil => simp [runAll]
  | cons op operations ih =>
      rw [runAll]
      cases hop : op.run rows with
      | error fault' =>
          constructor
          · rintro h
            cases h
            exact ⟨[], op, operations, rows, rfl, rfl, hop⟩
          · rintro ⟨done, op', rest, rows', hlist, hdone, hfault⟩
            cases done with
            | nil =>
                obtain ⟨rfl, rfl⟩ := List.cons.inj hlist
                cases hdone
                exact hop.symm.trans hfault
            | cons first done =>
                obtain ⟨rfl, -⟩ := List.cons.inj hlist
                rw [runAll, hop] at hdone
                cases hdone
      | ok next =>
          refine (@ih next).trans ?_
          constructor
          · rintro ⟨done, op', rest, rows', rfl, hdone, hfault⟩
            refine ⟨op :: done, op', rest, rows', rfl, ?_, hfault⟩
            rw [runAll, hop]
            exact hdone
          · rintro ⟨done, op', rest, rows', hlist, hdone, hfault⟩
            cases done with
            | nil =>
                obtain ⟨rfl, rfl⟩ := List.cons.inj hlist
                cases hdone
                cases hop.symm.trans hfault
            | cons first done =>
                obtain ⟨rfl, rfl⟩ := List.cons.inj hlist
                rw [runAll, hop] at hdone
                exact ⟨done, op', rest, rows', rfl, hdone, hfault⟩

theorem wellKeyed_runAll {operations : List Operation}
    (hkeys : ∀ key r, .update key r ∈ operations → r.uniqueKey = key) {rows rows' : Rows}
    (h : Rows.WellKeyed rows) (hrun : runAll rows operations = .ok rows') :
    Rows.WellKeyed rows' := by
  induction operations generalizing rows with
  | nil =>
      cases hrun
      exact h
  | cons op operations ih =>
      rw [runAll] at hrun
      cases hop : op.run rows with
      | error fault =>
          rw [hop] at hrun
          cases hrun
      | ok next =>
          rw [hop] at hrun
          refine ih (fun key r hmem => hkeys key r (List.mem_cons_of_mem _ hmem)) ?_ hrun
          cases op with
          | insert r =>
              rw [run] at hop
              split at hop
              · cases hop
              · cases hop
                exact Rows.wellKeyed_insert h r
          | update key r =>
              obtain rfl := hkeys key r List.mem_cons_self
              rw [run] at hop
              split at hop
              · cases hop
                exact Rows.wellKeyed_insert h r
              · cases hop
          | delete key =>
              cases hop
              exact Rows.wellKeyed_erase h key

end Operation

namespace Storage

variable {s : Storage} {tx : Transaction} {fault : StorageFault}

/-- Why a commit is refused: because that was ordered, or at some operation, on what the operations
before it have left, because the key of a new row is taken or the row to be replaced is missing. -/
inductive Refuses (s : Storage) : List Operation → StorageFault → Prop
  | ordered {operations : List Operation} (h : s.failsNext = true) :
      Refuses s operations .commitFailed
  | duplicate {done rest : List Operation} {r : Record} {rows : Rows} (h : s.failsNext = false)
      (hdone : Operation.runAll s.rows done = .ok rows) (hmem : r.uniqueKey ∈ rows) :
      Refuses s (done ++ .insert r :: rest) (.duplicateKey r.uniqueKey)
  | missing {done rest : List Operation} {key : RecordKey} {r : Record} {rows : Rows}
      (h : s.failsNext = false) (hdone : Operation.runAll s.rows done = .ok rows)
      (hmem : key ∉ rows) : Refuses s (done ++ .update key r :: rest) (.noRow key)

theorem refuses_of_failsNext (h : s.failsNext = true) {operations : List Operation} :
    s.Refuses operations fault ↔ fault = .commitFailed := by
  constructor
  · intro hrefuses
    cases hrefuses with
    | ordered => rfl
    | duplicate h' => cases h.symm.trans h'
    | missing h' => cases h.symm.trans h'
  · rintro rfl
    exact .ordered h

theorem refuses_iff_runAll (h : s.failsNext = false) {operations : List Operation} :
    s.Refuses operations fault ↔ Operation.runAll s.rows operations = .error fault := by
  rw [Operation.runAll_eq_error_iff]
  constructor
  · intro hrefuses
    cases hrefuses with
    | ordered h' => cases h.symm.trans h'
    | duplicate _ hdone hmem => exact ⟨_, _, _, _, rfl, hdone, if_pos hmem⟩
    | missing _ hdone hmem => exact ⟨_, _, _, _, rfl, hdone, if_neg hmem⟩
  · rintro ⟨done, op, rest, rows, rfl, hdone, hfault⟩
    cases op with
    | insert r =>
        rw [Operation.run] at hfault
        split at hfault
        · cases hfault
          exact .duplicate h hdone ‹_›
        · cases hfault
    | update key r =>
        rw [Operation.run] at hfault
        split at hfault
        · cases hfault
        · cases hfault
          exact .missing h hdone ‹_›
    | delete key => cases hfault

theorem commit_eq_error_iff : (s.commit tx).1 = .error fault ↔ s.Refuses tx.operations fault := by
  cases hfail : s.failsNext with
  | true =>
      rw [refuses_of_failsNext hfail, commit_of_failsNext hfail]
      exact ⟨fun h => (Except.error.inj h).symm, fun h => congrArg Except.error h.symm⟩
  | false =>
      rw [refuses_iff_runAll hfail]
      cases hrun : Operation.runAll s.rows tx.operations with
      | ok rows =>
          rw [commit_of_runAll hfail hrun]
          exact iff_of_false nofun nofun
      | error fault' =>
          rw [commit_of_runAll_error hfail hrun]
          exact ⟨congrArg _ ∘ Except.error.inj, congrArg _ ∘ Except.error.inj⟩

theorem rows_commit_of_failed (h : (s.commit tx).1 ≠ .ok ()) : (s.commit tx).2.rows = s.rows := by
  cases hfail : s.failsNext with
  | true => rw [commit_of_failsNext hfail]
  | false =>
      cases hrun : Operation.runAll s.rows tx.operations with
      | ok rows =>
          rw [commit_of_runAll hfail hrun] at h
          exact absurd rfl h
      | error fault => rw [commit_of_runAll_error hfail hrun]

/-- A commit that succeeds runs all operations. -/
theorem runAll_of_commit (h : (s.commit tx).1 = .ok ()) :
    Operation.runAll s.rows tx.operations = .ok (s.commit tx).2.rows := by
  cases hfail : s.failsNext with
  | true =>
      rw [commit_of_failsNext hfail] at h
      cases h
  | false =>
      cases hrun : Operation.runAll s.rows tx.operations with
      | ok rows => rw [commit_of_runAll hfail hrun]
      | error fault =>
          rw [commit_of_runAll_error hfail hrun] at h
          cases h

/-! ## Listings -/

/-- Rows under their own keys are listed by kind, each once. -/
theorem mem_findAll_iff (h : s.rows.WellKeyed) {kind : RecordKind} {r : Record} :
    r ∈ s.findAll kind ↔ s.rows[r.uniqueKey]? = some r ∧ r.kind = kind := by
  rw [mem_findAll]
  constructor
  · rintro ⟨key, hr, rfl⟩
    obtain rfl := h key r hr
    exact ⟨hr, r.kind_uniqueKey.symm⟩
  · rintro ⟨hr, rfl⟩
    exact ⟨_, hr, r.kind_uniqueKey⟩

/-- Rows under their own keys are listed in the order of the keys. -/
theorem pairwise_findAll (h : s.rows.WellKeyed) (kind : RecordKind) :
    (s.findAll kind).Pairwise fun r r' => r.uniqueKey.key < r'.uniqueKey.key := by
  have hordered := Std.ExtTreeMap.ordered_keys_toList (t := s.rows)
  refine List.pairwise_map.mpr ((hordered.filter _).imp_of_mem ?_)
  intro row row' hrow hrow' hlt
  obtain ⟨hmem, hkind⟩ := List.mem_filter.mp hrow
  obtain ⟨hmem', hkind'⟩ := List.mem_filter.mp hrow'
  rw [h row.1 row.2 (Std.ExtTreeMap.mem_toList_iff_getElem?_eq_some.mp hmem),
    h row'.1 row'.2 (Std.ExtTreeMap.mem_toList_iff_getElem?_eq_some.mp hmem')]
  refine RecordKey.key_lt_of_compare ?_ hlt
  rw [of_decide_eq_true hkind, of_decide_eq_true hkind']

end Storage

/-! ## Sessions -/

/-- A storage and all transactions that were begun on it. -/
structure Session where
  storage : Storage
  /-- By the order in which they were begun; nothing for those that are closed. -/
  transactions : List (Option Transaction)

namespace Session

/-- A call on a storage or on a transaction, which goes by its number. -/
inductive Call where
  | begin
  | insert (n : Nat) (r : Record)
  | update (n : Nat) (key : RecordKey) (r : Record)
  | delete (n : Nat) (key : RecordKey)
  | commit (n : Nat)
  | rollback (n : Nat)
  | failNextCommit
deriving DecidableEq

/-- The answer to a call; nothing if there is no open transaction of its number. -/
abbrev Answer := Option (Except StorageFault Unit)

def empty : Session := ⟨.empty, []⟩

def open? (s : Session) (n : Nat) : Option Transaction := s.transactions[n]?.join

def put (s : Session) (n : Nat) (tx : Option Transaction) : Session :=
  { s with transactions := s.transactions.set n tx }

def step (s : Session) : Call → Answer × Session
  | .begin => (some (.ok ()), { s with transactions := s.transactions ++ [some .empty] })
  | .failNextCommit => (some (.ok ()), { s with storage := s.storage.failNextCommit })
  | .insert n r =>
    match s.open? n with
    | none => (none, s)
    | some tx => (some (.ok ()), s.put n (some (tx.insert r)))
  | .update n key r =>
    match s.open? n with
    | none => (none, s)
    | some tx =>
      match tx.update key r with
      | .ok tx => (some (.ok ()), s.put n (some tx))
      | .error fault => (some (.error fault), s)
  | .delete n key =>
    match s.open? n with
    | none => (none, s)
    | some tx => (some (.ok ()), s.put n (some (tx.delete key)))
  | .commit n =>
    match s.open? n with
    | none => (none, s)
    | some tx =>
      let (result, storage) := s.storage.commit tx
      (some result, { s.put n none with storage := storage })
  | .rollback n =>
    match s.open? n with
    | none => (none, s)
    | some _ => (some (.ok ()), s.put n none)

def run (calls : List Call) : Session := calls.foldl (fun s c => (s.step c).2) empty

theorem run_append_singleton (past : List Call) (c : Call) :
    run (past ++ [c]) = ((run past).step c).2 := by
  rw [run, List.foldl_append]
  rfl

/-! ## What the calls say

Which transactions are open and what they have collected is read off the calls, whatever the rows
were meanwhile.  Which of them were committed is told by the answers. -/

/-- The calls since the transaction of a number was begun. -/
def since : Nat → List Call → List Call
  | _, [] => []
  | n, c :: rest =>
    if c = .begin then (if n = 0 then rest else since (n - 1) rest) else since n rest

/-- A transaction was begun, and neither committed nor rolled back. -/
def Open (n : Nat) (past : List Call) : Prop :=
  n < past.count .begin ∧ .commit n ∉ since n past ∧ .rollback n ∉ since n past

instance (n : Nat) (past : List Call) : Decidable (Open n past) := by
  unfold Open
  infer_instance

/-- The operation that a call gives to a transaction.  A record that does not belong to the key
gives none. -/
def Call.operation? (n : Nat) : Call → Option Operation
  | insert m r => if m = n then some (.insert r) else none
  | update m key r => if m = n ∧ r.uniqueKey = key then some (.update key r) else none
  | delete m key => if m = n then some (.delete key) else none
  | _ => none

/-- What a call makes of the transaction of a number, when `next` is the number for a new one. -/
def Call.effect (c : Call) (next n : Nat) : Option Transaction → Option Transaction
  | some tx =>
    if c = .commit n ∨ c = .rollback n then none
    else some ⟨tx.operations ++ (c.operation? n).toList⟩
  | none => if c = .begin ∧ n = next then some .empty else none

/-- The operations that were given to a transaction. -/
def staged (n : Nat) (past : List Call) : List Operation :=
  (since n past).filterMap (Call.operation? n)

/-- The operations that a call commits. -/
def commits? (past : List Call) : Call → Option (List Operation)
  | .commit n =>
    match ((run past).step (.commit n)).1 with
    | some (.ok _) => some (staged n past)
    | _ => none
  | _ => none

/-- The operations of the transactions that are committed after some calls, in the order in which
they are committed. -/
def committedAfter (past : List Call) : List Call → List (List Operation)
  | [] => []
  | c :: rest => (commits? past c).toList ++ committedAfter (past ++ [c]) rest

def committed (calls : List Call) : List (List Operation) := committedAfter [] calls

theorem count_append_singleton (past : List Call) (c : Call) :
    (past ++ [c]).count .begin = past.count .begin + if c = .begin then 1 else 0 := by
  rw [List.count_append, List.count_singleton]
  simp only [beq_iff_eq]

theorem since_append_singleton (n : Nat) (past : List Call) (c : Call) :
    since n (past ++ [c]) = if n < past.count .begin then since n past ++ [c] else [] := by
  induction past generalizing n with
  | nil =>
      simp only [List.nil_append, since]
      split <;> simp
  | cons d rest ih =>
      rw [List.cons_append, since, since, List.count_cons]
      by_cases hd : d = .begin
      · rcases Nat.eq_zero_or_pos n with rfl | hn
        · simp [hd]
        · have hlt : n < rest.count .begin + 1 ↔ n - 1 < rest.count .begin := by omega
          simp only [hd, if_true, beq_self_eq_true, if_neg (Nat.pos_iff_ne_zero.mp hn), ih, hlt]
      · simp only [if_neg hd, beq_eq_false_iff_ne.mpr hd, Bool.false_eq_true, if_false,
          Nat.add_zero, ih]

theorem committedAfter_append_singleton (c : Call) : ∀ past calls : List Call,
    committedAfter past (calls ++ [c]) =
      committedAfter past calls ++ (commits? (past ++ calls) c).toList
  | past, [] => by simp [committedAfter]
  | past, d :: rest => by
      rw [List.cons_append, committedAfter, committedAfter_append_singleton c, committedAfter,
        List.append_assoc, List.append_assoc, List.singleton_append]

theorem committed_append_singleton (past : List Call) (c : Call) :
    committed (past ++ [c]) = committed past ++ (commits? past c).toList := by
  rw [committed, committedAfter_append_singleton, List.nil_append]
  rfl

/-- The open transaction of a number, as the calls have left it. -/
def transaction? (n : Nat) (past : List Call) : Option Transaction :=
  if Open n past then some ⟨staged n past⟩ else none

section Append

variable {n : Nat} {past : List Call} {c : Call}

theorem open_append_singleton (hn : n < past.count .begin) :
    Open n (past ++ [c]) ↔ Open n past ∧ ¬ (c = .commit n ∨ c = .rollback n) := by
  have hn' : n < (past ++ [c]).count .begin := by
    rw [count_append_singleton]
    exact Nat.lt_add_right _ hn
  simp only [Open, since_append_singleton, hn, hn', if_true, true_and, List.mem_append,
    List.mem_singleton, not_or, eq_comm (a := c)]
  tauto

/-- A transaction that was not begun before can only be a new one. -/
theorem open_append_singleton_of_le (hn : past.count .begin ≤ n) :
    Open n (past ++ [c]) ↔ c = .begin ∧ n = past.count .begin := by
  have hlt : n < (past ++ [c]).count .begin ↔ c = .begin ∧ n = past.count .begin := by
    rw [count_append_singleton]
    by_cases hc : c = .begin
    · simp only [hc, if_true, true_and]
      omega
    · rw [if_neg hc, Nat.add_zero]
      exact iff_of_false (Nat.not_lt.mpr hn) fun h => hc h.1
  rw [Open, hlt, since_append_singleton, if_neg (Nat.not_lt.mpr hn)]
  simp only [List.not_mem_nil, not_false_eq_true, and_true]

theorem transaction?_append_singleton (n : Nat) (past : List Call) (c : Call) :
    transaction? n (past ++ [c]) = c.effect (past.count .begin) n (transaction? n past) := by
  by_cases hn : n < past.count .begin
  · have hstaged : staged n (past ++ [c]) = staged n past ++ (c.operation? n).toList := by
      rw [staged, since_append_singleton, if_pos hn, List.filterMap_append]
      cases h : c.operation? n <;> simp [staged, h]
    have hnew : ¬ (c = .begin ∧ n = past.count .begin) := fun h => hn.ne h.2
    unfold transaction?
    simp only [open_append_singleton hn, hstaged]
    by_cases hopen : Open n past
    · simp only [hopen, true_and, if_true, ite_not, Call.effect]
    · simp only [hopen, false_and, if_false, if_neg hnew, Call.effect]
  · have hle := Nat.not_lt.mp hn
    have hstaged : staged n (past ++ [c]) = [] := by
      rw [staged, since_append_singleton, if_neg hn, List.filterMap_nil]
    have hclosed : ¬ Open n past := fun h => hn h.1
    unfold transaction?
    simp only [open_append_singleton_of_le hle, hstaged, hclosed, if_false]
    rfl

end Append

/-! ## Steps -/

namespace Call

/-- The number of the transaction that a call is about. -/
def number? : Call → Option Nat
  | insert n _ | update n _ _ | delete n _ | commit n | rollback n => some n
  | begin | failNextCommit => none

variable {c : Call} {m n next : Nat}

theorem effect_none_of_number? (h : c.number? = some m) : c.effect next n none = none := by
  cases c with
  | begin => cases h
  | _ => simp [effect]

theorem effect_of_ne (h : c.number? = some m) (hn : n ≠ m) (tx : Option Transaction) :
    c.effect next n tx = tx := by
  cases tx with
  | none => exact effect_none_of_number? h
  | some tx => cases c <;> cases h <;> simp [effect, operation?, hn.symm]

theorem ne_begin_of_number? (h : c.number? = some m) : c ≠ .begin := by
  rintro rfl
  cases h

end Call

section Step

variable {s : Session} {n m : Nat} {tx : Transaction}

theorem lt_length_of_open? (h : s.open? n = some tx) : n < s.transactions.length := by
  obtain ⟨hlt, -⟩ := List.getElem?_eq_some_iff.mp (Option.join_eq_some_iff.mp h)
  exact hlt

theorem open?_put (h : s.open? m = some tx) (new : Option Transaction) (n : Nat) :
    (s.put m new).open? n = if n = m then new else s.open? n := by
  unfold open? put
  rw [List.getElem?_set, if_pos (lt_length_of_open? h)]
  by_cases hn : m = n
  · simp [hn]
  · simp [hn, Ne.symm hn]

theorem put_self (h : s.open? n = some tx) : s.put n (some tx) = s := by
  have hset : s.transactions.set n (some tx) = s.transactions := by
    obtain ⟨hlt, hget⟩ := List.getElem?_eq_some_iff.mp (Option.join_eq_some_iff.mp h)
    rw [← hget, List.set_getElem_self]
  rw [put, hset]

theorem length_put (s : Session) (n : Nat) (tx : Option Transaction) :
    (s.put n tx).transactions.length = s.transactions.length := List.length_set

theorem step_commit (h : s.open? n = some tx) : s.step (.commit n) =
    (some (s.storage.commit tx).1, { s.put n none with storage := (s.storage.commit tx).2 }) := by
  simp only [step, h]

theorem step_update_of_ne {key : RecordKey} {r : Record} (h : s.open? n = some tx)
    (hne : r.uniqueKey ≠ key) :
    s.step (.update n key r) = (some (.error (.keyMismatch key)), s) := by
  simp only [step, h, Transaction.update, if_neg hne]

/-- What a step can do.  A call on a transaction does to it what the call says; only a commit goes
to the storage. -/
inductive Stepped (s : Session) : Call → Answer × Session → Prop
  | begin : Stepped s .begin
      (some (.ok ()), { s with transactions := s.transactions ++ [some .empty] })
  | failNextCommit : Stepped s .failNextCommit
      (some (.ok ()), { s with storage := s.storage.failNextCommit })
  | ignored {c : Call} {m : Nat} (hc : c.number? = some m) (hclosed : s.open? m = none) :
      Stepped s c (none, s)
  | staged {c : Call} {m : Nat} {tx : Transaction} (result : Except StorageFault Unit)
      (hc : c.number? = some m) (hopen : s.open? m = some tx) (hcommit : ∀ n, c ≠ .commit n) :
      Stepped s c (some result, s.put m (c.effect s.transactions.length m (some tx)))
  | committed {m : Nat} {tx : Transaction} (hopen : s.open? m = some tx) :
      Stepped s (.commit m)
        (some (s.storage.commit tx).1, { s.put m none with storage := (s.storage.commit tx).2 })

theorem step_stepped (s : Session) (c : Call) : s.Stepped c (s.step c) := by
  have hignored : ∀ {m}, c.number? = some m → s.open? m = none → s.Stepped c (s.step c) := by
    intro m hc hclosed
    have hstep : s.step c = (none, s) := by
      cases c <;> cases hc <;> simp only [step, hclosed]
    exact hstep ▸ .ignored hc hclosed
  cases c with
  | begin => exact .begin
  | failNextCommit => exact .failNextCommit
  | insert m r =>
      cases h : s.open? m with
      | none => exact hignored rfl h
      | some tx =>
          have hstep : s.step (.insert m r) = (some (.ok ()),
              s.put m (Call.effect (.insert m r) s.transactions.length m (some tx))) := by
            simp [step, h, Call.effect, Call.operation?, Transaction.insert, Transaction.add]
          exact hstep ▸ .staged _ rfl h nofun
  | delete m key =>
      cases h : s.open? m with
      | none => exact hignored rfl h
      | some tx =>
          have hstep : s.step (.delete m key) = (some (.ok ()),
              s.put m (Call.effect (.delete m key) s.transactions.length m (some tx))) := by
            simp [step, h, Call.effect, Call.operation?, Transaction.delete, Transaction.add]
          exact hstep ▸ .staged _ rfl h nofun
  | update m key r =>
      cases h : s.open? m with
      | none => exact hignored rfl h
      | some tx =>
          by_cases hkey : r.uniqueKey = key
          · have hstep : s.step (.update m key r) = (some (.ok ()),
                s.put m (Call.effect (.update m key r) s.transactions.length m (some tx))) := by
              simp [step, h, Call.effect, Call.operation?, Transaction.update, Transaction.add, hkey]
            exact hstep ▸ .staged _ rfl h nofun
          · -- nothing is staged, so the transaction is put back as it was
            have hstep : s.step (.update m key r) = (some (.error (.keyMismatch key)),
                s.put m (Call.effect (.update m key r) s.transactions.length m (some tx))) := by
              rw [step_update_of_ne h hkey]
              simp [Call.effect, Call.operation?, hkey, put_self h]
            exact hstep ▸ .staged _ rfl h nofun
  | commit m =>
      cases h : s.open? m with
      | none => exact hignored rfl h
      | some tx => exact step_commit h ▸ .committed h
  | rollback m =>
      cases h : s.open? m with
      | none => exact hignored rfl h
      | some tx =>
          have hstep : s.step (.rollback m) = (some (.ok ()),
              s.put m (Call.effect (.rollback m) s.transactions.length m (some tx))) := by
            simp [step, h, Call.effect]
          exact hstep ▸ .staged _ rfl h nofun

theorem open?_begin (s : Session) (n : Nat) :
    open? { s with transactions := s.transactions ++ [some .empty] } n =
      Call.begin.effect s.transactions.length n (s.open? n) := by
  have hbegin : open? { s with transactions := s.transactions ++ [some .empty] } n =
      if n = s.transactions.length then some .empty else s.open? n := by
    unfold open?
    rcases Nat.lt_trichotomy n s.transactions.length with hlt | rfl | hgt
    · rw [List.getElem?_append_left hlt, if_neg hlt.ne]
    · simp
    · simp [hgt.ne', Nat.le_of_lt hgt, List.getElem?_append_right, Nat.sub_ne_zero_of_lt hgt]
  rw [hbegin]
  cases h : s.open? n with
  | none => simp [Call.effect]
  | some tx => simp [Call.effect, Call.operation?, (lt_length_of_open? h).ne]

/-- A call on a transaction leaves all others as they are. -/
theorem open?_put_effect {c : Call} (hc : c.number? = some m) (hopen : s.open? m = some tx)
    (next n : Nat) :
    (s.put m (c.effect next m (some tx))).open? n = c.effect next n (s.open? n) := by
  rw [open?_put hopen]
  by_cases hn : n = m
  · rw [if_pos hn, hn, hopen]
  · rw [if_neg hn, Call.effect_of_ne hc hn]

/-- A step does to every transaction what the call says, whatever the rows are. -/
theorem open?_step (s : Session) (c : Call) (n : Nat) :
    (s.step c).2.open? n = c.effect s.transactions.length n (s.open? n) := by
  have hstep := step_stepped s c
  generalize s.step c = out at *
  cases hstep with
  | begin => exact open?_begin s n
  | failNextCommit =>
      show s.open? n = _
      cases s.open? n <;> simp [Call.effect, Call.operation?]
  | @ignored _ m hc hclosed =>
      by_cases hn : n = m
      · rw [hn, hclosed, Call.effect_none_of_number? hc]
      · rw [Call.effect_of_ne hc hn]
  | staged result hc hopen => exact open?_put_effect hc hopen _ n
  | @committed m tx hopen =>
      have hnone : (Call.commit m).effect s.transactions.length m (some tx) = none :=
        if_pos (Or.inl rfl)
      exact hnone ▸ open?_put_effect (c := .commit m) rfl hopen s.transactions.length n

/-- Only a new transaction takes a number. -/
theorem length_step (s : Session) (c : Call) :
    (s.step c).2.transactions.length = s.transactions.length + if c = .begin then 1 else 0 := by
  have hstep := step_stepped s c
  generalize s.step c = out at *
  cases hstep with
  | begin => exact List.length_append
  | failNextCommit => rfl
  | ignored hc => rw [if_neg (Call.ne_begin_of_number? hc), Nat.add_zero]
  | staged result hc => rw [length_put, if_neg (Call.ne_begin_of_number? hc), Nat.add_zero]
  | committed => exact length_put s _ none

/-- Calls that commit nothing leave the rows alone. -/
theorem rows_step (s : Session) {c : Call}
    (h : ∀ n, c = .commit n → (s.step c).1 ≠ some (.ok ())) :
    (s.step c).2.storage.rows = s.storage.rows := by
  have hstep := step_stepped s c
  generalize s.step c = out at *
  cases hstep with
  | begin => rfl
  | failNextCommit => rfl
  | ignored => rfl
  | staged => rfl
  | committed hopen =>
      exact Storage.rows_commit_of_failed fun hok => h _ rfl (congrArg some hok)

end Step

/-! ## Runs -/

/-- What a session is after some calls: the transactions are as the calls have left them, and the
rows are as those that were committed have left them. -/
structure Reflects (past : List Call) (s : Session) : Prop where
  begun : s.transactions.length = past.count .begin
  transactions : ∀ n, s.open? n = transaction? n past
  serial : (committed past).foldlM Operation.runAll ∅ = .ok s.storage.rows
  keyed : s.storage.rows.WellKeyed

theorem reflects_empty : Reflects [] empty where
  begun := rfl
  transactions _ := rfl
  serial := rfl
  keyed := Rows.wellKeyed_empty

theorem transaction?_eq_some {past : List Call} {n : Nat} {tx : Transaction} :
    transaction? n past = some tx ↔ Open n past ∧ tx = ⟨staged n past⟩ := by
  unfold transaction?
  by_cases h : Open n past
  · rw [if_pos h, Option.some_inj, eq_comm]
    exact (and_iff_right h).symm
  · rw [if_neg h]
    exact iff_of_false nofun fun h' => h h'.1

/-- Replacements that are staged keep their keys. -/
theorem uniqueKey_of_mem_staged {past : List Call} {n : Nat} {key : RecordKey} {r : Record}
    (h : .update key r ∈ staged n past) : r.uniqueKey = key := by
  obtain ⟨c, -, hc⟩ := List.mem_filterMap.mp h
  cases c with
  | update m key' r' =>
      rw [Call.operation?] at hc
      split at hc
      · rename_i hkey
        cases hc
        exact hkey.2
      · cases hc
  | begin => cases hc
  | commit m => cases hc
  | rollback m => cases hc
  | failNextCommit => cases hc
  | insert m r' =>
      rw [Call.operation?] at hc
      split at hc <;> cases hc
  | delete m key' =>
      rw [Call.operation?] at hc
      split at hc <;> cases hc

namespace Reflects

variable {past : List Call}

/-- A commit that is answered is that of an open transaction. -/
theorem commit (h : Reflects past (run past)) {n : Nat} {result : Except StorageFault Unit}
    (hanswer : ((run past).step (.commit n)).1 = some result) :
    (run past).open? n = some ⟨staged n past⟩ := by
  cases hopen : (run past).open? n with
  | none =>
      rw [step, hopen] at hanswer
      cases hanswer
  | some tx =>
      obtain ⟨-, rfl⟩ := transaction?_eq_some.mp ((h.transactions n).symm.trans hopen)
      rfl

/-- What a call commits leads from the rows before it to those after it. -/
theorem rows_step (h : Reflects past (run past)) (c : Call) :
    (commits? past c).toList.foldlM Operation.runAll (run past).storage.rows =
        .ok ((run past).step c).2.storage.rows ∧
      ((run past).step c).2.storage.rows.WellKeyed := by
  by_cases hc : ∀ n, c = .commit n → ((run past).step c).1 ≠ some (.ok ())
  · have hnone : commits? past c = none := by
      cases c with
      | commit n =>
          have hfailed := hc n rfl
          rw [commits?]
          split
          · rename_i hok
            exact absurd hok hfailed
          · rfl
      | _ => rfl
    rw [hnone, Session.rows_step _ hc]
    exact ⟨rfl, h.keyed⟩
  · obtain ⟨n, rfl, hok⟩ : ∃ n, c = .commit n ∧ ((run past).step c).1 = some (.ok ()) := by
      simpa using hc
    have hopen := h.commit hok
    have hcommits : commits? past (.commit n) = some (staged n past) := by
      rw [commits?, hok]
    rw [step_commit hopen] at hok ⊢
    have hrun := Storage.runAll_of_commit (Option.some.inj hok)
    refine ⟨?_, Operation.wellKeyed_runAll (fun _ _ => uniqueKey_of_mem_staged) h.keyed hrun⟩
    rw [hcommits, Option.toList_some, List.foldlM_cons, hrun]
    rfl

/-- The step lemma of sessions. -/
theorem step (h : Reflects past (run past)) (c : Call) :
    Reflects (past ++ [c]) ((run past).step c).2 where
  begun := by rw [length_step, h.begun, count_append_singleton]
  transactions n := by
    rw [open?_step, h.begun, h.transactions, transaction?_append_singleton]
  serial := by
    rw [committed_append_singleton, List.foldlM_append, h.serial]
    exact (h.rows_step c).1
  keyed := (h.rows_step c).2

end Reflects

theorem reflects_run (calls : List Call) : Reflects calls (run calls) := by
  induction calls using List.reverseRecOn with
  | nil => exact reflects_empty
  | append_singleton past c ih =>
      rw [run_append_singleton]
      exact ih.step c

/-- Transactions are atomic and serial.  However calls on them are mixed, the rows are what the
transactions that were committed make of an empty table, one after the other and each as a whole.
All other calls leave the rows alone, and a commit fails if that was ordered or where one of its
operations fails.  A replacement under another key is refused, and the transaction stays as it was.
Every row is under its own key, so the rows of a kind are listed in the order of their keys. -/
theorem transactions_serial (calls : List Call) :
    (committed calls).foldlM Operation.runAll ∅ = .ok (run calls).storage.rows ∧
    (∀ c, (∀ n, c = .commit n → ((run calls).step c).1 ≠ some (.ok ())) →
      ((run calls).step c).2.storage.rows = (run calls).storage.rows) ∧
    (∀ n, Open n calls → ∃ result, ((run calls).step (.commit n)).1 = some result ∧
      ∀ fault, result = .error fault ↔ (run calls).storage.Refuses (staged n calls) fault) ∧
    (∀ n key r, Open n calls → r.uniqueKey ≠ key →
      (run calls).step (.update n key r) = (some (.error (.keyMismatch key)), run calls)) ∧
    (∀ (key : RecordKey) r, (run calls).storage.rows[key]? = some r → r.uniqueKey = key) ∧
    ∀ kind,
      ((run calls).storage.findAll kind).Pairwise (fun r r' => r.uniqueKey.key < r'.uniqueKey.key) ∧
      ∀ r, r ∈ (run calls).storage.findAll kind ↔
        (run calls).storage.rows[r.uniqueKey]? = some r ∧ r.kind = kind := by
  have h := reflects_run calls
  have hopen : ∀ n, Open n calls → (run calls).open? n = some ⟨staged n calls⟩ := fun n hn =>
    (h.transactions n).trans (transaction?_eq_some.mpr ⟨hn, rfl⟩)
  refine ⟨h.serial, fun c => Session.rows_step _, fun n hn => ?_, ?_, h.keyed, fun kind => ?_⟩
  · refine ⟨_, congrArg Prod.fst (step_commit (hopen n hn)), fun fault => ?_⟩
    exact Storage.commit_eq_error_iff
  · exact fun n key r hn hne => step_update_of_ne (hopen n hn) hne
  · exact ⟨Storage.pairwise_findAll h.keyed kind, fun r => Storage.mem_findAll_iff h.keyed⟩

/-- The row of an app. -/
def row (key name : String) : Record := .entity (.app ⟨key, name, .real, "", 0, 0⟩)

/-- Six transactions: the first one loses its key to the second one, which survives a replacement
that is refused; the third one is committed last, the fourth one on an order to fail; the fifth one
is rolled back, and the last one still open. -/
def mixedCalls : List Call :=
  [.begin, .begin, .insert 0 (row "a" "first"), .insert 1 (row "a" "second"),
    .update 1 (row "b" "").uniqueKey (row "a" "lost"), .commit 1, .commit 0,
    .begin, .begin, .insert 3 (row "c" ""), .failNextCommit, .commit 3,
    .insert 2 (row "b" ""), .update 2 (row "a" "").uniqueKey (row "a" "third"),
    .begin, .insert 4 (row "d" ""), .rollback 4, .commit 2,
    .begin, .delete 5 (row "b" "").uniqueKey, .update 5 (row "d" "").uniqueKey (row "d" "last")]

/-- Two transactions have made the rows.  The open one cannot be committed, since the row that it
would replace was rolled back. -/
theorem transactions_serial_mixedCalls :
    committed mixedCalls = [[.insert (row "a" "second")],
      [.insert (row "b" ""), .update (row "a" "").uniqueKey (row "a" "third")]] ∧
    (committed mixedCalls).foldlM Operation.runAll ∅ = .ok (run mixedCalls).storage.rows ∧
    (run mixedCalls).storage.findAll (.entity .app) = [row "a" "third", row "b" ""] ∧
    Open 5 mixedCalls ∧
    (run mixedCalls).step (.update 5 (row "b" "").uniqueKey (row "a" "")) =
      (some (.error (.keyMismatch (row "b" "").uniqueKey)), run mixedCalls) ∧
    ((run mixedCalls).step (.commit 5)).1 = some (.error (.noRow (row "d" "").uniqueKey)) := by
  obtain ⟨hserial, -, hcommit, hupdate, -⟩ := transactions_serial mixedCalls
  have hopen : Open 5 mixedCalls := by decide +kernel
  refine ⟨by decide +kernel, hserial, by decide +kernel, hopen, ?_, ?_⟩
  · exact hupdate 5 _ _ hopen (by decide +kernel)
  · obtain ⟨result, hresult, hfault⟩ := hcommit 5 hopen
    rw [hresult]
    refine congrArg some ((hfault _).mpr ?_)
    have hstaged : staged 5 mixedCalls = [.delete (row "b" "").uniqueKey] ++
        [.update (row "d" "").uniqueKey (row "d" "last")] := by decide +kernel
    have hmissing : (row "d" "").uniqueKey ∉
        (run mixedCalls).storage.rows.erase (row "b" "").uniqueKey := by decide +kernel
    rw [hstaged]
    exact .missing (by decide +kernel) rfl hmissing

end Session

end RemoteConfig
