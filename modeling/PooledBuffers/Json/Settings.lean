import PooledBuffers.FlagByte
import PooledBuffers.Json.Value
import PooledBuffers.Pool.Config
import PooledBuffers.Stream.Config
import PooledBuffers.Text.Encoding

/-!
# Settings as JSON

Configurations, encodings and flags as JSON text and back. Reading checks the form only; whether
a configuration is usable is for its own `validate` to say.
-/

namespace PooledBuffers

open Json

namespace Pool.Config

/-- The configuration as JSON text. -/
def toJsonText (config : Config) : String :=
  objectText
    [("max_array_length", toString config.maxArrayLength),
      ("max_arrays_per_bucket", toString config.maxArraysPerBucket),
      ("clear_on_return", toString config.clearOnReturn)]

/-- The configuration that some JSON text stands for. -/
def ofJsonText? (text : String) : Option Config := do
  let standard : Config := {}
  match ← (← parse? text).record?
      ["max_array_length", "max_arrays_per_bucket", "clear_on_return"] with
  | [length, count, clear] =>
    return {
      maxArrayLength := ← field? standard.maxArrayLength (natural? Size.top) length
      maxArraysPerBucket := ← field? standard.maxArraysPerBucket (natural? Size.top) count
      clearOnReturn := ← field? standard.clearOnReturn bool? clear }
  | _ => none

end Pool.Config

namespace Stream.Config

/-- The configuration as JSON text. -/
def toJsonText (config : Config) : String :=
  objectText [("chunk_size", toString config.chunkSize)]

/-- The configuration that some JSON text stands for. -/
def ofJsonText? (text : String) : Option Config := do
  let standard : Config := {}
  match ← (← parse? text).record? ["chunk_size"] with
  | [size] => return { chunkSize := ← field? standard.chunkSize (natural? Size.top) size }
  | _ => none

end Stream.Config

namespace TextEncoding

/-- The encoding's name as JSON text. -/
def toJsonText (encoding : TextEncoding) : String :=
  "\"" ++ encoding.name ++ "\""

/-- The encoding that some JSON text names, alone or as the one field of an object without a
value. -/
def ofJsonText? (text : String) : Option TextEncoding := do
  match ← parse? text with
  | .string (some name) => ofName? name
  | .object [(some name, .null)] => ofName? name
  | _ => none

end TextEncoding

namespace FlagByte

/-- The flags' byte as JSON text. -/
def toJsonText (flags : FlagByte) : String := toString flags.byte.toNat

/-- The flags whose byte some JSON text is. -/
def ofJsonText? (text : String) : Option FlagByte := do
  return ⟨UInt8.ofNat (← (← parse? text).natural? 255)⟩

end FlagByte

end PooledBuffers
