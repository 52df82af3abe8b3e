import RemoteConfig.Proofs.Records
import RemoteConfig.Proofs.Scanning
/-! # Reading what was written

`reread` is the value that is read back from the text of a value.  A value is *faithful* if that is
the value itself.  Strings, truth values and null always are, integers are as long as they fit 64
bits with or without a sign, arrays and objects are if their parts are.  Whether a floating number
is faithful depends on how exactly its digits are read; `nan` and the infinities never are. -/

namespace RemoteConfig.Json

open Token

mutual
/-- The value that is read back from the text of a value. -/
def reread : Json → Json
  | null => null
  | bool b => bool b
  | integer n => (Literal.ofInt n).value
  | float x => rereadFloat x
  | string s => string s
  | array items => array (rereadAll items)
  | object fields => object (rereadFields fields)
  | unreadable => null

def rereadAll : List Json → List Json
  | [] => []
  | j :: rest => reread j :: rereadAll rest

def rereadFields : List (String × Json) → List (String × Json)
  | [] => []
  | (name, j) :: rest => (name, reread j) :: rereadFields rest
end

/-! ## Parsing tokens -/

theorem tokens_ne_closeArray (j : Json) (ts us : List Token) :
    tokens j ++ ts ≠ .closeArray :: us := by
  rcases j with _ | _ | _ | _ | _ | (_ | ⟨_, _⟩) | (_ | ⟨⟨_, _⟩, _⟩) | _ <;> rw [tokens] <;> nofun

theorem value_openArray (stack : List Frame) (j : Json) (ts : List Token) :
    value stack (.openArray :: (tokens j ++ ts)) = value (.items [] :: stack) (tokens j ++ ts) := by
  rw [value]
  exact tokens_ne_closeArray j ts

/-- The fields that were read so far, as an open object holds them. -/
def doneFields (fields : List (String × Json)) : List (Option String × Json) :=
  (fields.map fun field => (some field.1, field.2)).reverse

theorem mapM_doneFields {read : Option String × Json → Option (String × Json)}
    {fields : List (String × Json)}
    (h : ∀ field ∈ fields, read (some field.1, field.2) = some field) :
    (doneFields fields).reverse.mapM read = some fields := by
  rw [doneFields, List.reverse_reverse]
  exact mapM_map_eq_some_iff.mpr h

theorem closeFields_doneFields (fields : List (String × Json)) :
    closeFields (doneFields fields) = object fields := by
  rw [closeFields, mapM_doneFields]
  exact fun _ _ => rfl

mutual
/-- The tokens of a value are parsed as the value that is read back from it. -/
theorem value_tokens : ∀ (j : Json) (stack : List Frame) (rest : List Token),
    value stack (tokens j ++ rest) = after j.reread stack rest
  | null, stack, rest => by rw [tokens, reread, List.singleton_append, value]
  | bool b, stack, rest => by rw [tokens, reread, List.singleton_append, value]
  | integer n, stack, rest => by rw [tokens, reread, List.singleton_append, value]
  | float x, stack, rest => by rw [tokens, reread, List.singleton_append, value]
  | string s, stack, rest => by rw [tokens, reread, List.singleton_append, value]
  | unreadable, stack, rest => by rw [tokens, reread, List.singleton_append, value]
  | array [], stack, rest => by
      rw [tokens, reread, rereadAll, List.cons_append, List.singleton_append, value]
  | array (j :: items), stack, rest => by
      rw [tokens, reread, rereadAll, List.cons_append, List.append_assoc, value_openArray,
        value_tokens j, after_moreItems items]
      rfl
  | object [], stack, rest => by
      rw [tokens, reread, rereadFields, List.cons_append, List.singleton_append, value]
  | object ((name, j) :: fields), stack, rest => by
      rw [tokens, reread, rereadFields]
      simp only [List.cons_append, List.append_assoc]
      rw [value, value_tokens j]
      exact after_moreFields fields [] name j.reread stack rest

theorem after_moreItems : ∀ (items done : List Json) (j : Json) (stack : List Frame)
    (rest : List Token), after j (.items done :: stack) (moreItems items ++ rest) =
      after (.array (done.reverse ++ j :: rereadAll items)) stack rest
  | [], done, j, stack, rest => by
      rw [moreItems, rereadAll, List.singleton_append, after, List.reverse_cons]
  | next :: items, done, j, stack, rest => by
      rw [moreItems, rereadAll, List.cons_append, List.append_assoc, after, value_tokens next,
        after_moreItems items, List.reverse_cons, List.append_assoc]
      rfl

theorem after_moreFields : ∀ (fields done : List (String × Json)) (name : String) (j : Json)
    (stack : List Frame) (rest : List Token),
    after j (.fields (doneFields done) (some name) :: stack) (moreFields fields ++ rest) =
      after (.object (done ++ (name, j) :: rereadFields fields)) stack rest
  | [], done, name, j, stack, rest => by
      have hdone : (some name, j) :: doneFields done = doneFields (done ++ [(name, j)]) := by
        simp [doneFields]
      rw [moreFields, rereadFields, List.singleton_append, after, hdone, closeFields_doneFields]
  | (next, k) :: fields, done, name, j, stack, rest => by
      have hdone : (some name, j) :: doneFields done = doneFields (done ++ [(name, j)]) := by
        simp [doneFields]
      rw [moreFields, rereadFields]
      simp only [List.cons_append, List.append_assoc]
      rw [after, value_tokens k, hdone, after_moreFields fields, List.append_assoc]
      rfl
end

/-- What is read back from a text that was written. -/
theorem parse_print (j : Json) : parse j.print = some j.reread := by
  have hvalue := value_tokens j [] []
  rw [List.append_nil, after] at hvalue
  rw [parse, print, String.toList_ofList, scan_text]
  exact hvalue

/-! ## Faithful values -/

/-- A value that is read back from its text as it is. -/
def Faithful (j : Json) : Prop := j.reread = j

theorem faithful_iff (j : Json) : j.Faithful ↔ parse j.print = some j := by
  rw [parse_print, Option.some_inj]
  rfl

theorem Faithful.parse_print {j : Json} (h : j.Faithful) : parse j.print = some j :=
  (faithful_iff j).mp h

@[simp]
theorem faithful_null : Faithful null := by rw [Faithful, reread]

@[simp]
theorem faithful_bool (b : Bool) : Faithful (bool b) := by rw [Faithful, reread]

@[simp]
theorem faithful_string (s : String) : Faithful (string s) := by rw [Faithful, reread]

theorem faithful_integer {n : Int} (hlow : -0x8000000000000000 ≤ n)
    (hhigh : n < 0x10000000000000000) : Faithful (integer n) := by
  rw [Faithful, reread]
  exact Literal.value_ofInt hlow hhigh

theorem rereadAll_eq_map (items : List Json) : rereadAll items = items.map reread := by
  induction items with
  | nil => rfl
  | cons j items ih => rw [rereadAll, ih, List.map_cons]

theorem rereadFields_eq_map (fields : List (String × Json)) :
    rereadFields fields = fields.map fun (name, j) => (name, reread j) := by
  induction fields with
  | nil => rfl
  | cons field fields ih => rw [rereadFields, ih, List.map_cons]

theorem faithful_array {items : List Json} (h : ∀ j ∈ items, j.Faithful) :
    Faithful (array items) := by
  rw [Faithful, reread, rereadAll_eq_map, List.map_congr_left h, List.map_id']

theorem faithful_object {fields : List (String × Json)} (h : ∀ field ∈ fields, field.2.Faithful) :
    Faithful (object fields) := by
  have hfields : ∀ field ∈ fields, (field.1, reread field.2) = field := fun field hmem => by
    rw [h field hmem]
  rw [Faithful, reread, rereadFields_eq_map]
  congr 1
  exact (List.map_congr_left hfields).trans (List.map_id' fields)

end RemoteConfig.Json
