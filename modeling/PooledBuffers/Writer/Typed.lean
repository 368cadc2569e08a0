import PooledBuffers.Wire.Layout
import PooledBuffers.Writer.Basic

/-!
# Fixed-width values in a writer of bytes

Values written at the cursor, with growth as for any run of bytes, and read back from it.
A refused operation leaves the writer and the pool as they were.
-/

namespace PooledBuffers.Writer

variable {τ : Type} [Layout τ]

/-- Writes a value at the cursor, steps over it and answers its width. -/
def write (writer : Writer UInt8) (order : ByteOrder) (value : τ) (pool : Pool UInt8) :
    Except Error (Nat × Writer UInt8 × Pool UInt8) := do
  Layout.checkOrder τ order
  let (_, writer, pool) :=
    writer.acquire (Layout.width τ) true (Layout.bytes order value) pool
  return (Layout.width τ, writer, pool)

/-- Reads a value at the cursor, from memory that is there already; the cursor steps over it if
asked to. -/
def read (writer : Writer UInt8) (order : ByteOrder) (movePosition : Bool) :
    Except Error (τ × Writer UInt8) := do
  Layout.checkLength τ writer.freeCapacity
  Layout.checkOrder τ order
  let value : τ := Layout.ofBytes order (writer.slice writer.position (Layout.width τ))
  return (value,
    if movePosition then { writer with position := writer.position + Layout.width τ } else writer)

end PooledBuffers.Writer
