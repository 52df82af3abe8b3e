import RemoteConfig.Json.Token
/-! # Reading a JSON text

The parser keeps the open arrays and objects on a stack and takes the tokens one by one.  `value`
expects a value, `after` stands behind one. -/

namespace RemoteConfig.Json

/-- An array or object that is still open, with what it holds so far in reverse order.  A field name
that cannot be read makes the object unreadable. -/
inductive Frame where
  | items (done : List Json)
  | fields (done : List (Option String × Json)) (name : Option String)

/-- The object with the given fields, in reverse order. -/
def closeFields (done : List (Option String × Json)) : Json :=
  match done.reverse.mapM fun (name, j) => name.map (·, j) with
  | some fields => .object fields
  | none => .unreadable

mutual
/-- Reads a value and what follows it; the stack says what is open around it. -/
def value (stack : List Frame) : List Token → Option Json
  | .leaf j :: rest => after j stack rest
  | .string (some s) :: rest => after (.string s) stack rest
  | .string none :: rest => after .unreadable stack rest
  | .openArray :: .closeArray :: rest => after (.array []) stack rest
  | .openArray :: rest => value (.items [] :: stack) rest
  | .openObject :: .closeObject :: rest => after (.object []) stack rest
  | .openObject :: .string name :: .colon :: rest => value (.fields [] name :: stack) rest
  | _ => none
termination_by tokens => tokens.length

/-- Reads what follows a value. -/
def after (j : Json) (stack : List Frame) (tokens : List Token) : Option Json :=
  match stack, tokens with
  | [], [] => some j
  | .items done :: stack, .comma :: rest => value (.items (j :: done) :: stack) rest
  | .items done :: stack, .closeArray :: rest => after (.array (j :: done).reverse) stack rest
  | .fields done name :: stack, .comma :: .string next :: .colon :: rest =>
    value (.fields ((name, j) :: done) next :: stack) rest
  | .fields done name :: stack, .closeObject :: rest =>
    after (closeFields ((name, j) :: done)) stack rest
  | _, _ => none
termination_by tokens.length
end

/-- The value of a text: one value, with spaces around it at most. -/
def parse (s : String) : Option Json := do
  value [] (← Token.scan s.toList)

end RemoteConfig.Json
