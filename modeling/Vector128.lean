import Vector128.Main
import Vector128.Proofs.Binary.Exact
import Vector128.Proofs.Binary.Extremum
import Vector128.Proofs.Binary.Nearest
import Vector128.Proofs.Binary.NearestInteger
import Vector128.Proofs.Binary.Order
import Vector128.Proofs.Binary.Remainder
import Vector128.Proofs.Binary.Rounding
import Vector128.Proofs.Binary.Scaling
import Vector128.Proofs.Binary.Short
import Vector128.Proofs.Binary.Sum
import Vector128.Proofs.Binary.Value
import Vector128.Proofs.Binary.Widening
import Vector128.Proofs.Builtin.Arguments
import Vector128.Proofs.Builtin.Total
import Vector128.Proofs.Decimal.Grammar
import Vector128.Proofs.Decimal.Numeral
import Vector128.Proofs.Decimal.Shortest
import Vector128.Proofs.Literal.Compose
import Vector128.Proofs.Literal.Numbers
import Vector128.Proofs.Literal.Parse
import Vector128.Proofs.Literal.RoundTrip
import Vector128.Proofs.Memory.Atomic
import Vector128.Proofs.Memory.Bounded
import Vector128.Proofs.Memory.Bytes
import Vector128.Proofs.Memory.ClampedByte
import Vector128.Proofs.Memory.Codec
import Vector128.Proofs.Memory.Detach
import Vector128.Proofs.Memory.DumpReader
import Vector128.Proofs.Memory.Element
import Vector128.Proofs.Memory.ElementIndex
import Vector128.Proofs.Memory.Flat
import Vector128.Proofs.Memory.Image
import Vector128.Proofs.Memory.NearestByte
import Vector128.Proofs.Memory.Region
import Vector128.Proofs.Memory.Reinterpret
import Vector128.Proofs.Memory.RoundTrip
import Vector128.Proofs.Memory.World
import Vector128.Proofs.Number.Collected
import Vector128.Proofs.Number.Decimals
import Vector128.Proofs.Number.Index
import Vector128.Proofs.Number.Layout
import Vector128.Proofs.Number.Localized
import Vector128.Proofs.Number.LowBits
import Vector128.Proofs.Number.Radix
import Vector128.Proofs.Number.RoundTrip
import Vector128.Proofs.Number.Rounded
import Vector128.Proofs.Number.Text
import Vector128.Proofs.Packed.Blend
import Vector128.Proofs.Packed.Cast
import Vector128.Proofs.Packed.Compare
import Vector128.Proofs.Packed.Convert
import Vector128.Proofs.Packed.Faults
import Vector128.Proofs.Packed.LaneAccess
import Vector128.Proofs.Packed.LaneIndex
import Vector128.Proofs.Packed.LaneNumber
import Vector128.Proofs.Packed.Lens
import Vector128.Proofs.Packed.Permute
import Vector128.Proofs.Packed.Range
import Vector128.Proofs.Packed.Representable
import Vector128.Proofs.Packed.SameValue
import Vector128.Proofs.Packed.Saturate
import Vector128.Proofs.Packed.Shift
import Vector128.Proofs.Packed.Storage
import Vector128.Proofs.Packed.ThroughFloats
import Vector128.Proofs.Packed.Truncation
import Vector128.Proofs.Packed.WellFormed
import Vector128.Proofs.Packed.Words
