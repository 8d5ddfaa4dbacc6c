/-
The command line: listing shapes and their functions, constructing a vector, calling a function.

`Command.ofArgs?` reads the arguments. Options come before the literals: from the first literal on, everything
is a literal, whatever it starts with. `Command.run` is what a run writes and the code it exits with: 0 for an
answer, 1 for an error, which is reported with its causes, and 2 for arguments that make no command.
-/
import Vector128.Builtin.Call
import Vector128.Literal
import Vector128.Memory.HexDump

namespace Vector128

inductive Command
  | types
  | ops (shape : Shape)
  | new (shape : Shape) (lanes : List String)
  | call (shape : Shape) (operation : String) (args : List String) (dump : Bool)
  deriving DecidableEq, Repr

namespace Command

/-- whether an argument looks like an option: a dash, and something behind it -/
def isOption (arg : String) : Bool :=
  match arg.toList with
  | '-' :: _ :: _ => true
  | _ => false

/-- The arguments of a command: its words, whether `--dump` is among its options, and its literals. The words
are as many as the command needs. Behind `--` there are no more options, and where the words are complete any
option but `--dump` is taken for a literal. -/
structure Parts where
  words : List String
  dump : Bool
  literals : List String
  deriving DecidableEq, Repr

/-- reads the arguments of a command that needs `need` more words and may take literals -/
def parts? (dumpable literals : Bool) : (need : Nat) → (dump : Bool) → List String → Option Parts
  | 0, dump, [] => some ⟨[], dump, []⟩
  | _ + 1, _, [] => none
  | need, dump, arg :: rest =>
    if arg = "--" then behind need dump rest
    else if dumpable && arg == "--dump" then
      if dump then none else parts? dumpable literals need true rest
    else if dumpable && arg.startsWith "--dump=" then none
    else
      match need with
      | 0 => if literals then some ⟨[], dump, arg :: rest⟩ else none
      | need + 1 =>
        if isOption arg then none
        else (parts? dumpable literals need dump rest).map fun p => { p with words := arg :: p.words }
where
  /-- the arguments behind `--` -/
  behind (need : Nat) (dump : Bool) (rest : List String) : Option Parts :=
    if rest.length < need || !literals && need < rest.length then none
    else some ⟨rest.take need, dump, rest.drop need⟩

def ofTypes? (args : List String) : Option Command := (parts? false false 0 false args).map fun _ => .types

def ofOps? (args : List String) : Option Command := do
  let p ← parts? false false 1 false args
  return .ops (← Shape.ofName? (p.words.getD 0 ""))

def ofNew? (args : List String) : Option Command := do
  let p ← parts? false true 1 false args
  return .new (← Shape.ofName? (p.words.getD 0 "")) p.literals

def ofCall? (args : List String) : Option Command := do
  let p ← parts? true true 2 false args
  return .call (← Shape.ofName? (p.words.getD 0 "")) (p.words.getD 1 "") p.literals p.dump

/-- the command after the options that all commands share -/
def ofWords? : List String → Option Command
  | "types" :: args => ofTypes? args
  | "ops" :: args => ofOps? args
  | "new" :: args => ofNew? args
  | "call" :: args => ofCall? args
  | _ => none

/-- the command that arguments make; being verbose changes nothing that a run answers -/
def ofArgs? : List String → Option Command
  | "-v" :: args | "--verbose" :: args => ofWords? args
  | args => ofWords? args

/-- what a run leaves behind -/
structure Report where
  exit : Nat
  stdout : String
  stderr : String
  deriving DecidableEq, Repr

def answer (text : String) : Report := ⟨0, text, ""⟩

/-- the causes of an error, each on its own line, and numbered if there are several -/
def causesText : List String → String
  | [] => ""
  | [cause] => "\nCaused by:\n    " ++ cause ++ "\n"
  | causes => "\nCaused by:\n" ++ String.join (causes.mapIdx fun i cause => "    " ++ toString i ++ ": " ++ cause ++ "\n")

def failure : List String → Report
  | [] => ⟨1, "", "Error: \n"⟩
  | error :: causes => ⟨1, "", "Error: " ++ error ++ "\n" ++ causesText causes⟩

/-! ## Runs -/

def padLeft (width : Nat) (text : String) : String := String.ofList (List.replicate (width - text.length) ' ') ++ text

def padRight (width : Nat) (text : String) : String := text ++ String.ofList (List.replicate (width - text.length) ' ')

def shapeLine (s : Shape) : String :=
  padRight 10 s.name ++ " " ++ padLeft 2 (toString s.laneCount) ++ " x " ++ toString s.bytesPerLane ++ " bytes  " ++
    s.kind.name ++
    (match s.range? with
      | some (low, high) => " in " ++ toString low ++ "..=" ++ toString high
      | none => "") ++ "\n"

def functionLines (s : Shape) : String :=
  String.join ((Builtin.available s).map fun b => b.signature s ++ "\n") ++
    String.join (Prototype.all.map fun p => "prototype." ++ p.name ++ "/0\n")

/-- the result of a function looked up by name, those of vectors first -/
def invoke (s : Shape) (operation : String) (args : List Value) (st : Store) :
    Except (List String) Value × Store :=
  match Prototype.ofName? operation with
  | some p => ((p.call s (args.headD .undefined)).mapError Fault.chain, st)
  | none =>
    match Builtin.find? s operation with
    | some b =>
      let (result, st) := b.call .truncating s st args
      (result.mapError Fault.chain, st)
    | none =>
      (.error [s.name ++ " does not provide " ++ Text.quote operation.toList, notFoundMessage], st)

def dumps (st : Store) (args : List Value) : String :=
  String.join (args.mapIdx fun i arg =>
    match arg with
    | .array view =>
      "\nargument " ++ toString i ++ ": " ++ view.kind.name ++ "\n" ++
        HexDump.ofRegion .upper view.region st
    | _ => "")

def run : Command → Report
  | types => answer (String.join (Shape.all.map shapeLine))
  | ops s => answer (functionLines s)
  | new s lanes =>
    match Literal.parseAll lanes Store.empty with
    | .error rejection => failure rejection.chain
    | .ok (values, _) =>
      match s.create values with
      | .ok v => answer (v.text ++ "\n")
      | .error fault => failure (("could not construct " ++ s.name) :: fault.chain)
  | call s operation args dump =>
    match Literal.parseAll args Store.empty with
    | .error rejection => failure rejection.chain
    | .ok (values, st) =>
      match invoke s operation values st with
      | (.ok result, st) => answer (result.text st ++ "\n" ++ if dump then dumps st values else "")
      | (.error chain, _) => failure ((s.name ++ "." ++ operation ++ " failed") :: chain)

/-- the run of a command line -/
def runArgs (args : List String) : Report :=
  match ofArgs? args with
  | some command => command.run
  | none => ⟨2, "", ""⟩

end Command

end Vector128
