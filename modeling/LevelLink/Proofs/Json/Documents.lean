import LevelLink.Json.Document
import LevelLink.Proofs.Json.Spelling

/-!
# Documents and their values

A document of a value is a text that consists of the tokens of the value, in any spelling and with any white space
(`JsonValue.Document`).  It is read as that value (`JsonValue.parse?_of_document`): with the tokens of a value in front
the reader comes to the state behind the value, whatever is open around it.  The rendered form is such a document if
every token spells itself (`JsonValue.document_render`), and so it is for text, numbers and records of those.
-/

namespace LevelLink
namespace JsonValue

/-- The text is a document of the value. -/
def Document (v : JsonValue) (text : String) : Prop := JsonToken.Spells v.tokens text.toList

/-! ### The tokens of a value -/

theorem itemTokens_cons_cons (v w : JsonValue) (items : List JsonValue) :
    itemTokens (v :: w :: items) = v.tokens ++ .comma :: itemTokens (w :: items) := by
  rw [itemTokens]
  simp

theorem memberTokens_cons_cons (k l : JsonText) (v w : JsonValue) (members : List (JsonText × JsonValue)) :
    memberTokens ((k, v) :: (l, w) :: members) =
      .string k :: .colon :: (v.tokens ++ .comma :: memberTokens ((l, w) :: members)) := by
  rw [memberTokens]
  · rfl
  · simp

/-- A value does not begin with the end of an array. -/
theorem tokens_eq_cons (v : JsonValue) : ∃ t ts, v.tokens = t :: ts ∧ t ≠ .closeArray := by
  cases v <;> rw [tokens] <;> exact ⟨_, _, rfl, by simp⟩

/-! ### Reading the tokens of a value -/

/-- How far tokens lead from a state of reading. -/
def run (r : Reading) (ts : List JsonToken) : Option Reading := ts.foldlM step r

/-- The first item of an array is read like any other value. -/
theorem run_firstItem (v : JsonValue) (ts : List JsonToken) (stack : List Frame) :
    run ⟨.firstItem, .array [] :: stack⟩ (v.tokens ++ ts) = run ⟨.value, .array [] :: stack⟩ (v.tokens ++ ts) := by
  obtain ⟨t, rest, htokens, ht⟩ := tokens_eq_cons v
  have hstep : step ⟨.firstItem, .array [] :: stack⟩ t = step ⟨.value, .array [] :: stack⟩ t := by
    cases t <;> first | rfl | cases ht rfl
  rw [htokens, List.cons_append, run, List.foldlM_cons, hstep]
  rfl

mutual

/-- With the tokens of a value the reader comes to the state behind the value, whatever is open around it. -/
theorem run_tokens (v : JsonValue) (stack : List Frame) (ts : List JsonToken) :
    run ⟨.value, stack⟩ (v.tokens ++ ts) = run ⟨.after v, stack⟩ ts := by
  match v with
  | .null | .bool _ | .number _ | .string _ => rw [tokens]; rfl
  | .array [] => rw [tokens]; rfl
  | .array (w :: items) =>
    calc run ⟨.value, stack⟩ ((array (w :: items)).tokens ++ ts)
        = run ⟨.firstItem, .array [] :: stack⟩ (itemTokens (w :: items) ++ .closeArray :: ts) := by
          rw [tokens, List.cons_append, List.cons_append, List.append_assoc]
          rfl
      _ = run ⟨.value, .array [] :: stack⟩ (itemTokens (w :: items) ++ .closeArray :: ts) := by
          cases items with
          | nil => rw [itemTokens, run_firstItem]
          | cons => rw [itemTokens_cons_cons, List.append_assoc, run_firstItem]
      _ = run ⟨.after (.array (w :: items)), stack⟩ ts := run_itemTokens (w :: items) (by simp) [] stack ts
  | .object [] => rw [tokens]; rfl
  | .object ((k, w) :: members) =>
    calc run ⟨.value, stack⟩ ((object ((k, w) :: members)).tokens ++ ts)
        = run ⟨.firstKey, .object [] :: stack⟩ (memberTokens ((k, w) :: members) ++ .closeObject :: ts) := by
          rw [tokens, List.cons_append, List.cons_append, List.append_assoc]
          rfl
      _ = run ⟨.key, .object [] :: stack⟩ (memberTokens ((k, w) :: members) ++ .closeObject :: ts) := by
          cases members with
          | nil => rw [memberTokens]; rfl
          | cons => rw [memberTokens_cons_cons]; rfl
      _ = run ⟨.after (.object ((k, w) :: members)), stack⟩ ts :=
        run_memberTokens ((k, w) :: members) (by simp) [] stack ts

/-- The items of an array that is open come behind those that are done. -/
theorem run_itemTokens (items : List JsonValue) (hsome : items ≠ []) (done : List JsonValue) (stack : List Frame)
    (ts : List JsonToken) :
    run ⟨.value, .array done :: stack⟩ (itemTokens items ++ .closeArray :: ts) =
      run ⟨.after (.array (done.reverse ++ items)), stack⟩ ts := by
  match items with
  | [v] =>
    calc run ⟨.value, .array done :: stack⟩ (itemTokens [v] ++ .closeArray :: ts)
        = run ⟨.after v, .array done :: stack⟩ (.closeArray :: ts) := by rw [itemTokens, run_tokens v]
      _ = run ⟨.after (.array (v :: done).reverse), stack⟩ ts := rfl
      _ = run ⟨.after (.array (done.reverse ++ [v])), stack⟩ ts := by rw [List.reverse_cons]
  | v :: w :: items =>
    calc run ⟨.value, .array done :: stack⟩ (itemTokens (v :: w :: items) ++ .closeArray :: ts)
        = run ⟨.after v, .array done :: stack⟩ (.comma :: (itemTokens (w :: items) ++ .closeArray :: ts)) := by
          rw [itemTokens_cons_cons, List.append_assoc, run_tokens v, List.cons_append]
      _ = run ⟨.value, .array (v :: done) :: stack⟩ (itemTokens (w :: items) ++ .closeArray :: ts) := rfl
      _ = run ⟨.after (.array ((v :: done).reverse ++ w :: items)), stack⟩ ts :=
        run_itemTokens (w :: items) (by simp) (v :: done) stack ts
      _ = run ⟨.after (.array (done.reverse ++ v :: w :: items)), stack⟩ ts := by simp

/-- The members of an object that is open come behind those that are done. -/
theorem run_memberTokens (members : List (JsonText × JsonValue)) (hsome : members ≠ [])
    (done : List (JsonText × JsonValue)) (stack : List Frame) (ts : List JsonToken) :
    run ⟨.key, .object done :: stack⟩ (memberTokens members ++ .closeObject :: ts) =
      run ⟨.after (.object (done.reverse ++ members)), stack⟩ ts := by
  match members with
  | [(k, v)] =>
    calc run ⟨.key, .object done :: stack⟩ (memberTokens [(k, v)] ++ .closeObject :: ts)
        = run ⟨.value, .member done k :: stack⟩ (v.tokens ++ .closeObject :: ts) := by rw [memberTokens]; rfl
      _ = run ⟨.after v, .member done k :: stack⟩ (.closeObject :: ts) := run_tokens v _ _
      _ = run ⟨.after (.object ((k, v) :: done).reverse), stack⟩ ts := rfl
      _ = run ⟨.after (.object (done.reverse ++ [(k, v)])), stack⟩ ts := by rw [List.reverse_cons]
  | (k, v) :: (l, w) :: members =>
    calc run ⟨.key, .object done :: stack⟩ (memberTokens ((k, v) :: (l, w) :: members) ++ .closeObject :: ts)
        = run ⟨.value, .member done k :: stack⟩
            (v.tokens ++ .comma :: (memberTokens ((l, w) :: members) ++ .closeObject :: ts)) := by
          rw [memberTokens_cons_cons, List.cons_append, List.cons_append, List.append_assoc]
          rfl
      _ = run ⟨.after v, .member done k :: stack⟩ (.comma :: (memberTokens ((l, w) :: members) ++ .closeObject :: ts)) :=
        run_tokens v _ _
      _ = run ⟨.key, .object ((k, v) :: done) :: stack⟩ (memberTokens ((l, w) :: members) ++ .closeObject :: ts) := rfl
      _ = run ⟨.after (.object (((k, v) :: done).reverse ++ (l, w) :: members)), stack⟩ ts :=
        run_memberTokens ((l, w) :: members) (by simp) ((k, v) :: done) stack ts
      _ = run ⟨.after (.object (done.reverse ++ (k, v) :: (l, w) :: members)), stack⟩ ts := by simp

end

mutual

/-- In the tokens of a value nothing but a comma or a closing bracket comes behind a number. -/
theorem separated_tokens (v : JsonValue) : JsonToken.Separated v.tokens := by
  match v with
  | .null | .bool _ | .number _ | .string _ => rw [tokens]; exact .singleton _
  | .array items =>
    rw [tokens]
    exact .cons (by simp) ((separated_itemTokens items).append rfl (.singleton _))
  | .object members =>
    rw [tokens]
    exact .cons (by simp) ((separated_memberTokens members).append rfl (.singleton _))

theorem separated_itemTokens (items : List JsonValue) : JsonToken.Separated (itemTokens items) := by
  match items with
  | [] => rw [itemTokens]; exact .nil
  | [v] => rw [itemTokens]; exact separated_tokens v
  | v :: w :: items =>
    rw [itemTokens_cons_cons]
    exact (separated_tokens v).append rfl (.cons (by simp) (separated_itemTokens (w :: items)))

theorem separated_memberTokens (members : List (JsonText × JsonValue)) :
    JsonToken.Separated (memberTokens members) := by
  match members with
  | [] => rw [memberTokens]; exact .nil
  | [(k, v)] => rw [memberTokens]; exact .cons (by simp) (.cons (by simp) (separated_tokens v))
  | (k, v) :: (l, w) :: members =>
    rw [memberTokens_cons_cons]
    have hothers : JsonToken.Separated (v.tokens ++ .comma :: memberTokens ((l, w) :: members)) :=
      (separated_tokens v).append rfl (.cons (by simp) (separated_memberTokens ((l, w) :: members)))
    exact .cons (by simp) (.cons (by simp) hothers)

end

/-- A document of a value is read as this value. -/
theorem parse?_of_document {v : JsonValue} {text : String} (h : v.Document text) : parse? text = some v := by
  have htokens : JsonToken.readAll? text.toList = some v.tokens :=
    JsonToken.readAll?_of_spells h (separated_tokens v)
  have hrun : run ⟨.value, []⟩ (v.tokens ++ []) = some ⟨.after v, []⟩ := run_tokens v [] []
  rw [List.append_nil, run] at hrun
  simp [parse?, htokens, hrun]

/-! ### Rendered documents -/

/-- Every token of the value spells itself. -/
def Writable (v : JsonValue) : Prop := ∀ t ∈ v.tokens, t.Spelt t.chars

/-- The rendered form of a value is a document of it. -/
theorem document_render {v : JsonValue} (h : v.Writable) : v.Document v.render := by
  have key : ∀ ts : List JsonToken, (∀ t ∈ ts, t.Spelt t.chars) → JsonToken.Spells ts (ts.flatMap JsonToken.chars) := by
    intro ts hts
    induction ts with
    | nil => exact .nil (List.forall_mem_nil _)
    | cons t ts ih =>
      obtain ⟨ht, hts⟩ := List.forall_mem_cons.mp hts
      have hcons := JsonToken.Spells.cons (List.forall_mem_nil _) ht (ih hts)
      exact hcons
  rw [Document, render, String.toList_ofList]
  exact key v.tokens h

theorem writable_bool (b : Bool) : (bool b).Writable := by
  intro t ht
  rw [tokens] at ht
  cases List.mem_singleton.mp ht
  exact .bool b

theorem writable_ofNat (n : Nat) : (ofNat n).Writable := by
  intro t ht
  rw [ofNat, tokens] at ht
  cases List.mem_singleton.mp ht
  have hspelt : JsonNumber.Spelt (.integer false (Nat.toDigits 10 n)) (signChars false ++ Nat.toDigits 10 n) :=
    .integer (isWhole_toDigits n)
  exact .number hspelt

theorem writable_ofString (s : String) : (ofString s).Writable := by
  intro t ht
  rw [ofString, tokens] at ht
  cases List.mem_singleton.mp ht
  exact .string (JsonText.spelt_ofString s)

/-- An object spells itself if its keys and its values do. -/
theorem writable_object {members : List (JsonText × JsonValue)}
    (h : ∀ m ∈ members, m.1.Spelt (m.1.flatMap JsonToken.pieceChars) ∧ m.2.Writable) : (object members).Writable := by
  have key : ∀ t ∈ memberTokens members, t.Spelt t.chars := by
    induction members with
    | nil => simp [memberTokens]
    | cons m members ih =>
      obtain ⟨k, v⟩ := m
      obtain ⟨⟨hk, hv⟩, hmembers⟩ := List.forall_mem_cons.mp h
      intro t ht
      cases members with
      | nil =>
        simp only [memberTokens, List.mem_cons] at ht
        rcases ht with rfl | rfl | ht
        · exact .string hk
        · exact .colon
        · exact hv t ht
      | cons m members =>
        obtain ⟨l, w⟩ := m
        simp only [memberTokens_cons_cons, List.mem_cons, List.mem_append] at ht
        rcases ht with rfl | rfl | ht | rfl | ht
        · exact .string hk
        · exact .colon
        · exact hv t ht
        · exact .comma
        · exact ih hmembers t ht
  intro t ht
  rw [tokens] at ht
  simp only [List.mem_cons, List.mem_append, List.not_mem_nil, or_false] at ht
  rcases ht with (rfl | ht) | rfl
  · exact .openObject
  · exact key t ht
  · exact .closeObject

end JsonValue
end LevelLink
