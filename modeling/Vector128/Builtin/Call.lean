/-
Calls from scripts. Missing arguments are `undefined`, save for lane indices, which are zero; further ones are ignored.
Operands are checked from left to right before the operation looks at anything else. Only a store changes the store.
-/
import Vector128.Builtin.Basic
import Vector128.Locale
import Vector128.Memory.Transfer
import Vector128.Packed.Access
import Vector128.Packed.Shift

namespace Vector128

namespace Builtin

/-- the arguments, filled up with `undefined` to the number of fixed parameters -/
def padded (b : Builtin) (args : List Value) : List Value :=
  args ++ List.replicate (b.fixedLength - args.length) .undefined

/-- the argument at a position, which it is a misuse to exceed -/
def argument (args : List Value) (i : Nat) : Outcome Value :=
  match args[i]? with
  | some x => .ok x
  | none => .error .misuse

/-- the arguments from a position on, which it is a misuse to exceed -/
def further (args : List Value) (i : Nat) : Outcome (List Value) :=
  if i ≤ args.length then .ok (args.drop i) else .error .misuse

def operand (s : Shape) (args : List Value) (i : Nat) : Outcome Packed := do (← argument args i).expect s

/-- a selector has to be a vector; which one is checked with the operands -/
def selector (x : Value) : Outcome Packed :=
  match x.asVector? with
  | some v => .ok v
  | none => refuse .selectorMismatch

/-- a store of lanes, its array, index and vector being the arguments -/
def storeArguments (s : Shape) (st : Store) (args : List Value) (count : Nat) : Outcome Packed × Store :=
  match args with
  | target :: index :: x :: _ => s.store st target index x count
  | _ => (.error .misuse, st)

/-- the function on its arguments: what it returns, and the store after it -/
def dispatch (cast : FloatCast) (b : Builtin) (s : Shape) (st : Store) (args : List Value) : Outcome Value × Store :=
  match b with
  | splat => (do return .vector (← s.splat (← argument args 0)), st)
  | check => (do return .vector (← s.check (← argument args 0)), st)
  | unary op => (do return .vector (← s.unary op (← operand s args 0)), st)
  | binary op => (do return .vector (← s.binary op (← operand s args 0) (← operand s args 1)), st)
  | compare op => (do return .vector (← s.compare op (← operand s args 0) (← operand s args 1)), st)
  | anyTrue => (do return .boolean (← s.anyTrue (← operand s args 0)), st)
  | allTrue => (do return .boolean (← s.allTrue (← operand s args 0)), st)
  | select =>
    (do return .vector (← s.select (← selector (← argument args 0)) (← operand s args 1) (← operand s args 2)), st)
  | shiftLeft => (do return .vector (← s.shiftLeft (← operand s args 0) (← argument args 1)), st)
  | shiftRight => (do return .vector (← s.shiftRight (← operand s args 0) (← argument args 1)), st)
  | extractLane => (do s.extractLane (← operand s args 0) (← argument args 1), st)
  | replaceLane =>
    (do return .vector (← s.replaceLane (← operand s args 0) (← argument args 1) (← argument args 2)), st)
  | load amount => (do return .vector (← s.load st (← argument args 0) (← argument args 1) (amount.lanes s)), st)
  | store amount =>
    let (stored, st) := storeArguments s st args (amount.lanes s)
    (stored.map .vector, st)
  | swizzle => (do return .vector (← s.swizzle (← operand s args 0) (← further args 1)), st)
  | shuffle => (do return .vector (← s.shuffle (← operand s args 0) (← operand s args 1) (← further args 2)), st)
  | convert source => (do return .vector (← s.convert cast source (← operand source args 0)), st)
  | reinterpret source => (do return .vector (← s.reinterpret source (← operand source args 0)), st)

/-- a call: what it returns, and the store after it -/
def call (cast : FloatCast) (b : Builtin) (s : Shape) (st : Store) (args : List Value) : Outcome Value × Store :=
  b.dispatch cast s st (b.padded args)

end Builtin

/-! ## Prototype functions -/

/-- the functions that vectors of every shape have themselves -/
inductive Prototype
  | toString
  | toLocaleString
  | valueOf
  deriving DecidableEq, Repr

namespace Prototype

def all : List Prototype := [toString, toLocaleString, valueOf]

def name : Prototype → String
  | toString => "toString"
  | toLocaleString => "toLocaleString"
  | valueOf => "valueOf"

def ofName? (name : String) : Option Prototype := all.find? (·.name == name)

/-- the result of a prototype function on `this`, which has to be a vector of the shape -/
def call (p : Prototype) (s : Shape) (this : Value) : Outcome Value := do
  let v ← this.expect s
  match p with
  | toString => return .string v.text
  | toLocaleString => return .string v.localeText
  | valueOf => return .vector v

end Prototype

end Vector128
