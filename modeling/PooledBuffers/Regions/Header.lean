import PooledBuffers.Wire.Layout

/-!
# Region headers

A region with bytes has a header of twelve bytes: where its bytes start in the data area, how many
they are, and how many values were appended.
-/

namespace PooledBuffers.Regions

/-- Where a region's bytes are. -/
structure Header where
  dataOffset : UInt32 := 0
  dataLength : UInt32 := 0
  count : UInt32 := 0
  deriving DecidableEq, Repr

namespace Header

/-- The offset behind the region's last byte. -/
def dataEnd (header : Header) : Nat :=
  header.dataOffset.toNat + header.dataLength.toNat

/-- The three numbers of a header in order. -/
def words (header : Header) : UInt32 × UInt32 × UInt32 :=
  (header.dataOffset, header.dataLength, header.count)

/-- The header of three numbers. -/
def ofWords (words : UInt32 × UInt32 × UInt32) : Header :=
  ⟨words.1, words.2.1, words.2.2⟩

instance : Layout Header := Layout.record words ofWords

instance : LawfulLayout Header := Layout.record_lawful (fun _ => rfl) fun _ => rfl

instance : Describe Header where
  describe header := Text.record "RegionHeader"
    [("data_offset", describe header.dataOffset), ("data_length", describe header.dataLength),
      ("count", describe header.count)]

end Header

/-- The width of a header. -/
def headerSize : Nat := Layout.width Header

/-- The width of a handle, which holds the offset of a header. -/
def handleSize : Nat := 4

/-- The handle of a region without a header. -/
def emptyHandle : UInt32 := 0xFFFFFFFF

/-- A region's number in words. -/
def idText (id : Nat) : String := s!"region#{id}"

end PooledBuffers.Regions
