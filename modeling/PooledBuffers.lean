import PooledBuffers.Json.Settings
import PooledBuffers.Proofs.Regions.Sheet
import PooledBuffers.Proofs.Stream.Conservation
import PooledBuffers.Proofs.Writer.Refinement
import PooledBuffers.Regions.Store
import PooledBuffers.Text.Hex
import PooledBuffers.Version
import PooledBuffers.Wire.Decoder
import PooledBuffers.Wire.Encoder
import PooledBuffers.Workspace.Typed
import PooledBuffers.Proofs.Regions.Holds
import PooledBuffers.Proofs.Regions.Append
import PooledBuffers.Proofs.Regions.Clear
import PooledBuffers.Proofs.Regions.Checks
import PooledBuffers.Proofs.Regions.Simulation
import PooledBuffers.Proofs.Regions.Operations
import PooledBuffers.Proofs.Regions.Table
import PooledBuffers.Proofs.Regions.Refinement
import PooledBuffers.Proofs.Ring.Contents
import PooledBuffers.Proofs.Text.Encoding
import PooledBuffers.Proofs.Stream.Delivery
import PooledBuffers.Proofs.Stream.Acceptance
import PooledBuffers.Proofs.Wire.Items
import PooledBuffers.Proofs.Wire.Writing
import PooledBuffers.Proofs.Wire.Reading
import PooledBuffers.Proofs.Wire.Answers
import PooledBuffers.Proofs.Wire.Outcomes
import PooledBuffers.Proofs.Wire.RoundTrip
import PooledBuffers.Proofs.Stream.Intake
import PooledBuffers.Proofs.Pool.Conservation
import PooledBuffers.Proofs.Workspace.Returns
import PooledBuffers.Proofs.Regions.Areas
import PooledBuffers.Proofs.Leftovers.Blocks
import PooledBuffers.Proofs.Leftovers.Writers
import PooledBuffers.Proofs.Leftovers.Collections
import PooledBuffers.Proofs.Leftovers.Regions
import PooledBuffers.Proofs.Leftovers.Rings
import PooledBuffers.Proofs.Leftovers.Streams
import PooledBuffers.Proofs.Leftovers.Workspaces
import PooledBuffers.Proofs.Leftovers.Sites
import PooledBuffers.Proofs.Writer.Moving
import PooledBuffers.Proofs.Collections.GrowList
import PooledBuffers.Proofs.Collections.Builder
import PooledBuffers.Proofs.Collections.DistinctList
import PooledBuffers.Proofs.Writer.Cursor
import PooledBuffers.Proofs.Stream.Steps
import PooledBuffers.Proofs.Stream.Count
import PooledBuffers.Proofs.Stream.Settlement
import PooledBuffers.Proofs.Wire.Advance
import PooledBuffers.Proofs.Text.Utf16Pairs
import PooledBuffers.Proofs.Text.Utf8Forms
import PooledBuffers.Proofs.Text.Exact
import PooledBuffers.Proofs.Text.Views
import PooledBuffers.Proofs.Wire.Endian
import PooledBuffers.Proofs.Writer.Lent
import PooledBuffers.Proofs.Regions.Lent
import PooledBuffers.Proofs.Stream.Readings
import PooledBuffers.Proofs.Stream.Demand
import PooledBuffers.Proofs.Stream.Footprint
import PooledBuffers.Proofs.Regions.Starts
import PooledBuffers.Proofs.Regions.Values
import PooledBuffers.Proofs.Writer.Growth
import PooledBuffers.Proofs.Writer.Refusals
import PooledBuffers.Proofs.Text.Indices
import PooledBuffers.Proofs.Pool.Rounding
import PooledBuffers.Proofs.Collections.Doubling
