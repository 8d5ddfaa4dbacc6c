/-
Hex dumps: a header, then one line for every sixteen bytes with the offset of the first, the bytes in four groups of
four columns, and the same bytes as ASCII characters.

Offsets have as many digits as the number of bytes needs, and at least eight. Columns after the last byte are blank. The
bytes are read line by line, and the dump ends where they cannot be read.
-/
import Vector128.Memory.Region

namespace Vector128.HexDump

inductive LetterCase
  | upper
  | lower
  deriving DecidableEq, Repr

def hexDigits (letters : LetterCase) (n : Nat) : List Char :=
  match letters with
  | .upper => (Nat.toDigits 16 n).map Char.toUpper
  | .lower => Nat.toDigits 16 n

/-- hexadecimal digits with zeros before them up to a width -/
def paddedHex (letters : LetterCase) (width n : Nat) : List Char :=
  let digits := hexDigits letters n
  List.replicate (width - digits.length) '0' ++ digits

/-- the number of digits of every offset: a digit for every four bits of the size, and at least eight -/
def offsetWidth (size : Nat) : Nat := max (size.log2 / 4) 7 + 1

/-- the blanks before a column: two where a group of four starts -/
def gap (column : Nat) : List Char := if column % 4 = 0 then [' ', ' '] else [' ']

/-- sixteen columns of two characters, blank where there is no byte -/
def columns (letters : LetterCase) (bytes : List UInt8) : List Char :=
  (List.range 16).flatMap fun column =>
    gap column ++
      match bytes[column]? with
      | some byte => paddedHex letters 2 byte.toNat
      | none => [' ', ' ']

/-- a byte as a character, a point where it has none that prints -/
def printable (byte : UInt8) : Char := if 0x20 ≤ byte ∧ byte ≤ 0x7E then Char.ofNat byte.toNat else '.'

def line (letters : LetterCase) (width offset : Nat) (bytes : List UInt8) : List Char :=
  paddedHex letters width offset ++ columns letters bytes ++ [' ', ' '] ++ bytes.map printable

/-- the header: a title as wide as the offsets, the columns numbered, and the title of the characters -/
def header (letters : LetterCase) (width : Nat) : List Char :=
  let title := "Offset".toList
  title ++ List.replicate (width - title.length) ' ' ++ columns letters ((List.range 16).map UInt8.ofNat) ++
    "  ASCII".toList

variable {σ : Type}

/-- the lines from an offset on, of sixteen bytes each or what is left of them, up to a read that fails -/
def linesFrom (letters : LetterCase) (p : Region σ) (st : σ) (width offset : Nat) : List (List Char) :=
  if offset < p.byteLength st then
    let count := min 16 (p.byteLength st - offset)
    match p.read st offset count with
    | .ok bytes => line letters width offset bytes :: linesFrom letters p st width (offset + count)
    | .error _ => []
  else []
termination_by p.byteLength st - offset

def lines (letters : LetterCase) (p : Region σ) (st : σ) : List (List Char) :=
  let width := offsetWidth (p.byteLength st)
  header letters width :: linesFrom letters p st width 0

def ofRegion (letters : LetterCase) (p : Region σ) (st : σ) : String :=
  String.ofList ((lines letters p st).flatMap fun l => l ++ ['\n'])

/-- the dump of a row of cells -/
def render (letters : LetterCase) (bytes : List UInt8) : String := ofRegion letters Region.cells bytes

end Vector128.HexDump
