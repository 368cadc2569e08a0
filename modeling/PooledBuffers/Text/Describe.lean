import PooledBuffers.Text.Shapeless

/-!
# Descriptions of values

The text that shows a value to a programmer: records with named fields, wrapped values, lists,
sets and quoted strings. `Describe` is the class of values that have one.
-/

namespace PooledBuffers

/-- Values with a text that shows them to a programmer. -/
class Describe (α : Type) where
  describe : α → String

export Describe (describe)

namespace Text

/-- One character of a quoted string: quotes, backslashes and what has no shape are escaped. -/
def escapeChar (c : Char) : String :=
  if c = '"' then "\\\""
  else if c = '\\' then "\\\\"
  else if c = '\n' then "\\n"
  else if c = '\r' then "\\r"
  else if c = '\t' then "\\t"
  else if c.val = 0 then "\\0"
  else if isShapeless c then
    "\\u\x7b" ++ String.ofList (Nat.toDigits 16 c.toNat) ++ "\x7d"
  else String.singleton c

/-- A string in double quotes. -/
def quoted (s : String) : String :=
  "\"" ++ String.join (s.toList.map escapeChar) ++ "\""

/-- Items between commas. -/
def commaSeparated (items : List String) : String :=
  String.intercalate ", " items

/-- A record: its name and its fields in order. -/
def record (name : String) (fields : List (String × String)) : String :=
  name ++ " \x7b " ++ commaSeparated (fields.map fun (label, text) => label ++ ": " ++ text)
    ++ " \x7d"

/-- A name applied to one value. -/
def applied (name argument : String) : String :=
  name ++ "(" ++ argument ++ ")"

/-- A list in square brackets. -/
def list (items : List String) : String :=
  "[" ++ commaSeparated items ++ "]"

/-- A set in braces. -/
def set (items : List String) : String :=
  "\x7b" ++ commaSeparated items ++ "\x7d"

/-- A value that may be missing. -/
def optional : Option String → String
  | none => "None"
  | some text => applied "Some" text

end Text

instance : Describe Nat := ⟨fun n => toString n⟩
instance : Describe Bool := ⟨fun b => if b then "true" else "false"⟩
instance : Describe String := ⟨Text.quoted⟩
instance : Describe UInt8 := ⟨fun n => toString n.toNat⟩
instance : Describe UInt16 := ⟨fun n => toString n.toNat⟩
instance : Describe UInt32 := ⟨fun n => toString n.toNat⟩
instance : Describe UInt64 := ⟨fun n => toString n.toNat⟩

instance {α : Type} [Describe α] : Describe (Option α) :=
  ⟨fun value => Text.optional (value.map describe)⟩

instance {α : Type} [Describe α] : Describe (Array α) :=
  ⟨fun cells => Text.list (cells.toList.map describe)⟩

end PooledBuffers
