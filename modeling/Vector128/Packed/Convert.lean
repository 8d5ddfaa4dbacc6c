/-
Conversions between shapes, by value and by bits.

By value, each lane becomes the lane of the target shape with the same value. A float loses its fraction, an integer is
rounded to the nearest float, and what does not fit the target is refused, the first such lane deciding how. The cast of
floats to integers is given to a conversion (`FloatCast`). By bits, the 16 bytes of a vector are read again as another
shape, integer lanes in little-endian order.
-/
import Vector128.Memory.Image

namespace Vector128

/-- Casts of floats to the integers of a range, such as those of a machine type. The cast belongs to a library, so
conversions take it as an argument, and what they need of it is `FloatCast.Lawful`. -/
structure FloatCast where
  int? : (low high : Int) → Single → Option Int

namespace FloatCast

/-- What the library documents, for the six ranges of integer lanes: a float loses its fraction, and there is no integer
exactly if the rest is not in the range. -/
def Lawful (cast : FloatCast) : Prop :=
  ∀ (s : Shape) (low high : Int), s.range? = some (low, high) →
    ∀ x n, cast.int? low high x = some n ↔ x.truncate? = some n ∧ low ≤ n ∧ n ≤ high

/-- the cast that programs run with -/
def truncating : FloatCast := ⟨fun low high x => x.truncate?.filter fun n => low ≤ n ∧ n ≤ high⟩

theorem lawful_truncating : truncating.Lawful := by
  intro s low high _ x n
  simp only [truncating, Option.filter_eq_some_iff, decide_eq_true_eq]

end FloatCast

/-- a value of full precision as an integer lane of a range -/
def narrow (n low high : Int) : Except ConversionFault Int := if low ≤ n ∧ n ≤ high then .ok n else .error .outOfRange

/-- a float without its fraction as an integer of a range -/
def narrowFloat (cast : FloatCast) (x : Single) (low high : Int) : Except ConversionFault Int :=
  if x.isNaN then .error .notANumber
  else
    match cast.int? low high x with
    | some n => .ok n
    | none => .error .outOfRange

namespace Shape

/-- the lane of a number: checked against the range of integer lanes, or as the float that it is otherwise -/
def numberLane (s : Shape) (check : Int → Int → Except ConversionFault Int) (x : Single) :
    Except ConversionFault Lane :=
  match s.range? with
  | some (low, high) => (check low high).map fun n => .int (s.width.wrap n)
  | none => .ok (s.cast (.single x))

/-- the lane of this shape with the value of a source lane -/
def convertLane (cast : FloatCast) (s source : Shape) : Lane → Outcome Lane
  | .float x => (s.numberLane (narrowFloat cast x) x).mapError ConversionFault.forScripts
  | .int n =>
    let n := source.visible n
    (s.numberLane (narrow n) (Binary.ofInt n)).mapError ConversionFault.forScripts
  | .bool _ => refuse .unsupported

/-- whether lanes of the source convert by value: another shape with as many lanes, neither of them boolean -/
def convertsFrom (s source : Shape) : Bool :=
  source != s && source.laneCount == s.laneCount && !source.isBool && !s.isBool

/-- the vector of this shape with the values of a source vector -/
def convert (cast : FloatCast) (s source : Shape) (v : Packed) : Outcome Packed := do
  if s.convertsFrom source then
    let v ← v.expect source
    Packed.build s fun i => do s.convertLane cast source (← v.laneAt i)
  else refuse .conversionSource

/-! ## Conversion by bits -/

/-- the vector of this shape with the bits of a source vector, moved through a block of 16 bytes -/
def reinterpret (s source : Shape) (v : Packed) : Outcome Packed := do
  if s.isBool || source.isBool then refuse .unsupported
  else if source = s then refuse .conversionSource
  else
    let v ← v.expect source
    if s.byteSize = source.byteSize then
      match Region.cells.storeVector (List.replicate 16 0) 0 v source.laneCount with
      | (.ok (), block) => (Region.cells.loadVector block 0 s s.laneCount).mapError Fault.forScripts
      | (.error fault, _) => .error fault.forScripts
    else .error .misuse

end Shape

end Vector128
