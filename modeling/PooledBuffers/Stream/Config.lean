import PooledBuffers.Error
import PooledBuffers.Text.Describe

/-!
# Stream configuration
-/

namespace PooledBuffers.Stream

/-- How bytes are buffered on their way from or to a stream. -/
structure Config where
  /-- The number of bytes that are buffered at most. -/
  chunkSize : Nat := 1048576
  deriving DecidableEq, Repr

/-- Refuses a chunk without room for a byte. -/
def Config.validate (config : Config) : Except Error Unit :=
  if config.chunkSize = 0 then .error (.invalidParameter "chunk_size" "cannot be zero")
  else .ok ()

end PooledBuffers.Stream
