import LevelLink.Json.Token

/-!
# JSON documents

`JsonValue.tokens` writes a value as tokens.  Reading goes the other way with a stack of the arrays and
objects that are open: `JsonValue.step` takes one token, and a document is read when its tokens leave one
value and nothing open.  So the depth of a document is not limited.
-/

namespace LevelLink

/-! ### Writing -/

mutual

/-- The tokens of a value. -/
def JsonValue.tokens : JsonValue → List JsonToken
  | .null => [.null]
  | .bool b => [.bool b]
  | .number n => [.number n]
  | .string t => [.string t]
  | .array items => .openArray :: JsonValue.itemTokens items ++ [.closeArray]
  | .object members => .openObject :: JsonValue.memberTokens members ++ [.closeObject]

/-- The tokens of the items of an array, with commas between them. -/
def JsonValue.itemTokens : List JsonValue → List JsonToken
  | [] => []
  | [v] => v.tokens
  | v :: rest => v.tokens ++ .comma :: JsonValue.itemTokens rest

/-- The tokens of the members of an object, with commas between them. -/
def JsonValue.memberTokens : List (JsonText × JsonValue) → List JsonToken
  | [] => []
  | [(k, v)] => .string k :: .colon :: v.tokens
  | (k, v) :: rest => .string k :: .colon :: v.tokens ++ .comma :: JsonValue.memberTokens rest

end

namespace JsonValue

/-- The document of a value, without white space. -/
def render (v : JsonValue) : String := String.ofList (v.tokens.flatMap JsonToken.chars)

/-! ### Reading -/

/-- An array or object that is open, with what is complete of it, the latest first. -/
inductive Frame where
  | array (done : List JsonValue)
  | object (done : List (JsonText × JsonValue))
  /-- An object of which the key of the next member is read. -/
  | member (done : List (JsonText × JsonValue)) (key : JsonText)

/-- What may come next. -/
inductive Phase where
  | value
  /-- A value, or the end of the array that was just opened. -/
  | firstItem
  | key
  /-- A key, or the end of the object that was just opened. -/
  | firstKey
  | colon
  /-- What may follow the value that was just completed. -/
  | after (value : JsonValue)

/-- How far a document has been read. -/
structure Reading where
  phase : Phase
  /-- What is open, the innermost first. -/
  stack : List Frame

/-- Takes a token where a value has to come. -/
def openValue (stack : List Frame) : JsonToken → Option Reading
  | .null => some ⟨.after .null, stack⟩
  | .bool b => some ⟨.after (.bool b), stack⟩
  | .number n => some ⟨.after (.number n), stack⟩
  | .string t => some ⟨.after (.string t), stack⟩
  | .openArray => some ⟨.firstItem, .array [] :: stack⟩
  | .openObject => some ⟨.firstKey, .object [] :: stack⟩
  | _ => none

/-- Takes one token. -/
def step (r : Reading) (t : JsonToken) : Option Reading :=
  match r.phase, r.stack, t with
  | .value, stack, t => openValue stack t
  | .firstItem, .array _ :: stack, .closeArray => some ⟨.after (.array []), stack⟩
  | .firstItem, stack, t => openValue stack t
  | .firstKey, .object _ :: stack, .closeObject => some ⟨.after (.object []), stack⟩
  | .firstKey, .object done :: stack, .string k => some ⟨.colon, .member done k :: stack⟩
  | .key, .object done :: stack, .string k => some ⟨.colon, .member done k :: stack⟩
  | .colon, stack, .colon => some ⟨.value, stack⟩
  | .after v, .array done :: stack, .comma => some ⟨.value, .array (v :: done) :: stack⟩
  | .after v, .array done :: stack, .closeArray => some ⟨.after (.array (v :: done).reverse), stack⟩
  | .after v, .member done k :: stack, .comma => some ⟨.key, .object ((k, v) :: done) :: stack⟩
  | .after v, .member done k :: stack, .closeObject =>
    some ⟨.after (.object ((k, v) :: done).reverse), stack⟩
  | _, _, _ => none

/-- The value of a document. -/
def parse? (text : String) : Option JsonValue := do
  let tokens ← JsonToken.readAll? text.toList
  match ← tokens.foldlM step ⟨.value, []⟩ with
  | ⟨.after v, []⟩ => some v
  | _ => none

end JsonValue
end LevelLink
