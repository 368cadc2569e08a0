import PooledBuffers.Json.Token

/-!
# JSON values

* `Json.parse?` — the value that a text is, or nothing for anything else. A parse keeps the
  containers it is inside of on a stack and goes through the tokens once.
* `Json.record?` — the fields of a record, which is written as an object or as an array in the
  order of the fields.
-/

namespace PooledBuffers

/-- JSON values. Objects keep their fields in order, repeated ones too. -/
inductive Json where
  | null
  | bool (value : Bool)
  /-- A number as it is written. -/
  | number (text : String)
  /-- A string, if it stands for a text. -/
  | string (text : Option String)
  | array (items : List Json)
  | object (fields : List (Option String × Json))
  deriving Repr

namespace Json

/-- A container that is not complete, with what it has so far, last one first. -/
inductive Frame where
  | array (done : List Json)
  /-- An object, with the name of the field whose value is to come. -/
  | object (done : List (Option String × Json)) (name : Option String)

/-- What a parse expects next, inside of the containers of a stack. -/
inductive Parse where
  | value (stack : List Frame)
  | firstItem (stack : List Frame)
  | firstName (stack : List Frame)
  | name (done : List (Option String × Json)) (stack : List Frame)
  | colon (done : List (Option String × Json)) (name : Option String) (stack : List Frame)
  /-- A value is complete; its container goes on or ends. -/
  | after (value : Json) (stack : List Frame)

/-- Reads the first token of a value. -/
def Parse.start? (stack : List Frame) : Token → Option Parse
  | .null => some (.after .null stack)
  | .bool b => some (.after (.bool b) stack)
  | .number text => some (.after (.number text) stack)
  | .string text => some (.after (.string text) stack)
  | .openBracket => some (.firstItem stack)
  | .openBrace => some (.firstName stack)
  | _ => none

/-- Reads a token. -/
def Parse.step? : Parse → Token → Option Parse
  | .value stack, token => start? stack token
  | .firstItem stack, .closeBracket => some (.after (.array []) stack)
  | .firstItem stack, token => start? (.array [] :: stack) token
  | .firstName stack, .closeBrace => some (.after (.object []) stack)
  | .firstName stack, .string field => some (.colon [] field stack)
  | .name done stack, .string field => some (.colon done field stack)
  | .colon done field stack, .colon => some (.value (.object done field :: stack))
  | .after item (.array done :: stack), .comma => some (.value (.array (item :: done) :: stack))
  | .after item (.array done :: stack), .closeBracket =>
    some (.after (.array (item :: done).reverse) stack)
  | .after item (.object done field :: stack), .comma => some (.name ((field, item) :: done) stack)
  | .after item (.object done field :: stack), .closeBrace =>
    some (.after (.object ((field, item) :: done).reverse) stack)
  | _, _ => none

/-- The value that a text is. -/
def parse? (text : String) : Option Json := do
  let tokens ← tokens? text
  match ← tokens.foldlM Parse.step? (.value []) with
  | .after value [] => some value
  | _ => none

/-! ## Reading values -/

/-- A natural number up to `limit`, written in digits only. -/
def natural? (limit : Nat) : Json → Option Nat
  | .number text =>
    if text.toList.all Char.isDigit then
      let n := text.toList.foldl (fun n c => n * 10 + (c.toNat - '0'.toNat)) 0
      if n ≤ limit then some n else none
    else none
  | _ => none

def bool? : Json → Option Bool
  | .bool value => some value
  | _ => none

/-- The fields of a record by name, missing ones as nothing. An object may have other fields but
not one of these twice; an array gives the first fields and has no item left over. -/
def record? (names : List String) : Json → Option (List (Option Json))
  | .array items =>
    if items.length ≤ names.length then some ((List.range names.length).map (items[·]?))
    else none
  | .object fields =>
    let known := fields.map Prod.fst
    if known.all Option.isSome && names.all fun name => known.count (some name) ≤ 1 then
      some (names.map fun name => (fields.find? (·.1 = some name)).map Prod.snd)
    else none
  | _ => none

/-- A field's value, or the default of a field that is missing. -/
def field? {β : Type} (default : β) (read? : Json → Option β) : Option Json → Option β
  | none => some default
  | some value => read? value

/-- The text of an object whose values are written already. -/
def objectText (fields : List (String × String)) : String :=
  "\x7b" ++ String.intercalate "," (fields.map fun (name, value) => "\"" ++ name ++ "\":" ++ value)
    ++ "\x7d"

end Json

end PooledBuffers
