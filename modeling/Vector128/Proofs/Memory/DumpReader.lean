/-
Hex dumps, read back.

The reader knows the letters, the number of digits of the offsets, and the places of the columns. It cuts the text
into lines (`List.splitOn`), reads a number at the start of each one and bytes from its sixteen columns
(`readColumns`), and finds the characters behind them (`Row`). Offsets are read as they are written because they are
smaller than the number of bytes, which has no more digits than they get (`lt_sixteen_pow_offsetWidth`). Where a
column is depends on how many groups precede it, not on what it holds (`length_before_column`).

A step of the writer is one line for a slice of sixteen bytes, the last one perhaps shorter; the whole run is a line
for each multiple of sixteen below the number of bytes (`linesFrom_eq`).
-/
import Mathlib.Tactic
import Vector128.Memory.HexDump
import Vector128.Proofs.Memory.RoundTrip

namespace Vector128

namespace HexDump

def alphabet : LetterCase → List Char
  | .upper => "0123456789ABCDEF".toList
  | .lower => "0123456789abcdef".toList

def number? (letters : LetterCase) (row : List Char) : Option Nat :=
  row.foldlM (fun n c => ((alphabet letters).idxOf? c).map (16 * n + ·)) 0

def byte? (letters : LetterCase) (row : List Char) : Option UInt8 :=
  if row.length = 2 then (number? letters row).map UInt8.ofNat else none

/-- the two characters of a column: two blanks precede a group of four, and one precedes any other column -/
def column (width : Nat) (text : List Char) (i : Nat) : List Char := (text.drop (width + 2 + 3 * i + i / 4)).take 2

/-- the bytes in the columns of a line -/
def readColumns (letters : LetterCase) (width : Nat) (text : List Char) : List UInt8 :=
  (List.range 16).filterMap fun i => byte? letters (column width text i)

/-- a character stands for a byte: the same one from blank to tilde, and otherwise a point -/
def Stands (byte : UInt8) (c : Char) : Prop :=
  if 0x20 ≤ byte.toNat ∧ byte.toNat ≤ 0x7E then c.toNat = byte.toNat else c = '.'

/-- A line of a dump: the offset, the bytes from there on in columns, blanks after the last one, and the characters.
-/
structure Row (letters : LetterCase) (width : Nat) (bytes : List UInt8) (offset : Nat) (text : List Char) : Prop where
  digits : (text.take width).length = width
  number : number? letters (text.take width) = some offset
  byte : ∀ i < 16, byte? letters (column width text i) = bytes[offset + i]?
  blank : ∀ i < 16, bytes.length ≤ offset + i → column width text i = [' ', ' ']
  characters : List.Forall₂ Stands (slice bytes offset 16) (text.drop (width + 54))

/-! ## Digits -/

section Digits

variable {letters : LetterCase} {width n : Nat}

theorem hexDigits_of_lt (letters : LetterCase) :
    ∀ n < 16, ∃ c ∈ alphabet letters, hexDigits letters n = [c] ∧ (alphabet letters).idxOf? c = some n := by
  intro n hn
  refine ⟨(alphabet letters).getD n '0', ?_⟩
  revert n
  cases letters <;> decide

theorem hexDigits_of_le (letters : LetterCase) (hn : 16 ≤ n) :
    hexDigits letters n = hexDigits letters (n / 16) ++ hexDigits letters (n % 16) := by
  have hlow : Nat.toDigits 16 (n % 16) = [Nat.digitChar (n % 16)] := Nat.toDigits_of_lt_base (Nat.mod_lt n (by decide))
  cases letters <;> simp [hexDigits, hlow, Nat.toDigits_of_base_le (by decide : 1 < 16) hn]

theorem mem_alphabet_of_mem_hexDigits {c : Char} (hc : c ∈ hexDigits letters n) : c ∈ alphabet letters := by
  induction n using Nat.strong_induction_on with
  | _ n ih =>
    obtain ⟨d, hd, hlow, -⟩ := hexDigits_of_lt letters (n % 16) (Nat.mod_lt n (by decide))
    rcases Nat.lt_or_ge n 16 with hn | hn
    · rw [← Nat.mod_eq_of_lt hn, hlow] at hc
      exact List.mem_singleton.1 hc ▸ hd
    · rw [hexDigits_of_le letters hn, hlow] at hc
      rcases List.mem_append.1 hc with hhigh | hlast
      · exact ih (n / 16) (by omega) hhigh
      · exact List.mem_singleton.1 hlast ▸ hd

/-- **Digits are read as the number that they are of.** -/
theorem number?_hexDigits (letters : LetterCase) (n : Nat) : number? letters (hexDigits letters n) = some n := by
  induction n using Nat.strong_induction_on with
  | _ n ih =>
    obtain ⟨d, -, hlow, hd⟩ := hexDigits_of_lt letters (n % 16) (Nat.mod_lt n (by decide))
    rcases Nat.lt_or_ge n 16 with hn | hn
    · rw [Nat.mod_eq_of_lt hn] at hlow hd
      simp [number?, hlow, hd]
    · have hhigh := ih (n / 16) (by omega)
      rw [number?] at hhigh
      rw [hexDigits_of_le letters hn, hlow, number?, List.foldlM_append, hhigh]
      simp [hd, Nat.div_add_mod]

theorem number?_zeros_append (letters : LetterCase) (k : Nat) (row : List Char) :
    number? letters (List.replicate k '0' ++ row) = number? letters row := by
  have hzero : (alphabet letters).idxOf? '0' = some 0 := by cases letters <;> decide
  induction k with
  | zero => rfl
  | succ k ih =>
    rw [← ih]
    simp [number?, List.replicate_succ, hzero]

/-- **Padded digits are read.** -/
theorem number?_paddedHex (letters : LetterCase) (width n : Nat) :
    number? letters (paddedHex letters width n) = some n := by
  rw [paddedHex, number?_zeros_append, number?_hexDigits]

theorem length_hexDigits (letters : LetterCase) (n : Nat) :
    (hexDigits letters n).length = (Nat.toDigits 16 n).length := by
  cases letters <;> simp [hexDigits]

theorem length_paddedHex (letters : LetterCase) (hwidth : 0 < width) (hn : n < 16 ^ width) :
    (paddedHex letters width n).length = width := by
  have hlength := length_hexDigits letters n
  have hle : (Nat.toDigits 16 n).length ≤ width := (Nat.length_toDigits_le_iff (by decide) hwidth).2 hn
  simp only [paddedHex, List.length_append, List.length_replicate]
  omega

theorem mem_alphabet_of_mem_paddedHex {c : Char} (hc : c ∈ paddedHex letters width n) : c ∈ alphabet letters := by
  rcases List.mem_append.1 hc with hzero | hdigit
  · rw [List.eq_of_mem_replicate hzero]
    cases letters <;> decide
  · exact mem_alphabet_of_mem_hexDigits hdigit

theorem length_paddedHex_byte (letters : LetterCase) (byte : UInt8) : (paddedHex letters 2 byte.toNat).length = 2 :=
  length_paddedHex letters (by decide) byte.toNat_lt

theorem byte?_paddedHex (letters : LetterCase) (byte : UInt8) :
    byte? letters (paddedHex letters 2 byte.toNat) = some byte := by
  rw [byte?, if_pos (length_paddedHex_byte letters byte), number?_paddedHex, Option.map_some, UInt8.ofNat_toNat]

theorem offsetWidth_eq (size : Nat) : offsetWidth size = max 8 (Nat.digits 16 size).length := by
  rcases Nat.eq_zero_or_pos size with rfl | hpos
  · rfl
  · have hlog : size.log2 / 4 = Nat.log 16 size := by
      rw [Nat.log2_eq_log_two, show 16 = 2 ^ 4 from rfl, Nat.log_pow_left]
    rw [offsetWidth, hlog, Nat.length_digits 16 size (by decide) hpos.ne']
    omega

theorem lt_sixteen_pow_offsetWidth (size : Nat) : size < 16 ^ offsetWidth size := by
  rw [offsetWidth_eq]
  exact (Nat.lt_base_pow_length_digits (by decide)).trans_le (Nat.pow_le_pow_right (by decide) (le_max_right _ _))

end Digits

/-! ## Columns -/

section Columns

variable {letters : LetterCase} {width : Nat} {bytes : List UInt8} {front back : List Char}

/-- what a column shows of a list of bytes -/
def cell (letters : LetterCase) (bytes : List UInt8) (i : Nat) : List Char :=
  match bytes[i]? with
  | some byte => paddedHex letters 2 byte.toNat
  | none => [' ', ' ']

theorem length_cell (letters : LetterCase) (bytes : List UInt8) (i : Nat) : (cell letters bytes i).length = 2 := by
  unfold cell
  split
  · exact length_paddedHex_byte letters _
  · rfl

theorem byte?_cell (letters : LetterCase) (bytes : List UInt8) (i : Nat) :
    byte? letters (cell letters bytes i) = bytes[i]? := by
  unfold cell
  split
  · rename_i byte hbyte
    rw [byte?_paddedHex, hbyte]
  · rename_i hnone
    rw [hnone]
    cases letters <;> decide

theorem columns_eq (letters : LetterCase) (bytes : List UInt8) :
    columns letters bytes = (List.range 16).flatMap fun i => gap i ++ cell letters bytes i := rfl

theorem length_before_column (letters : LetterCase) (bytes : List UInt8) (i : Nat) :
    (((List.range i).flatMap fun k => gap k ++ cell letters bytes k) ++ gap i).length = 2 + 3 * i + i / 4 := by
  induction i with
  | zero => rfl
  | succ i ih =>
    have hgap : ∀ k, (gap k).length = if k % 4 = 0 then 2 else 1 := by
      intro k
      unfold gap
      split_ifs <;> rfl
    rw [List.length_append, hgap] at ih ⊢
    rw [List.range_succ, List.flatMap_append, List.flatMap_singleton, List.length_append, List.length_append, hgap,
      length_cell]
    split_ifs at ih ⊢ <;> omega

theorem length_columns (letters : LetterCase) (bytes : List UInt8) : (columns letters bytes).length = 52 := by
  have h := length_before_column letters bytes 16
  rw [List.length_append] at h
  rw [columns_eq]
  exact Nat.add_right_cancel h

/-- a column, with what precedes and follows it -/
theorem exists_columns_eq (letters : LetterCase) (bytes : List UInt8) {i : Nat} (hi : i < 16) :
    ∃ before after, columns letters bytes = before ++ (cell letters bytes i ++ after) ∧
      before.length = 2 + 3 * i + i / 4 := by
  obtain ⟨later, hrange⟩ : ∃ later, List.range 16 = List.range i ++ i :: later := by
    have hdrop : (List.range 16).drop i = i :: (List.range 16).drop (i + 1) := by
      rw [List.drop_eq_getElem_cons (by simpa using hi), List.getElem_range]
    have htake : (List.range 16).take i = List.range i := by rw [List.take_range, Nat.min_eq_left hi.le]
    exact ⟨_, by rw [← hdrop, ← htake, List.take_append_drop]⟩
  refine ⟨_, later.flatMap fun k => gap k ++ cell letters bytes k, ?_, length_before_column letters bytes i⟩
  rw [columns_eq, hrange]
  simp

/-- **A column of a line is found where it is looked for.** -/
theorem column_eq (hfront : front.length = width) {i : Nat} (hi : i < 16) :
    column width (front ++ (columns letters bytes ++ back)) i = cell letters bytes i := by
  obtain ⟨before, after, hcolumns, hbefore⟩ := exists_columns_eq letters bytes hi
  have hdrop : (front ++ (columns letters bytes ++ back)).drop (width + 2 + 3 * i + i / 4) =
      cell letters bytes i ++ (after ++ back) := by
    have hsplit : front ++ (columns letters bytes ++ back) =
        (front ++ before) ++ (cell letters bytes i ++ (after ++ back)) := by
      rw [hcolumns]
      simp
    rw [hsplit, List.drop_left' (by rw [List.length_append]; omega)]
  rw [column, hdrop, List.take_left' (length_cell letters bytes i)]

theorem readColumns_eq (hfront : front.length = width) (hbytes : bytes.length ≤ 16) :
    readColumns letters width (front ++ (columns letters bytes ++ back)) = bytes := by
  have hread : ∀ n ≤ 16, ((List.range n).filterMap fun i =>
      byte? letters (column width (front ++ (columns letters bytes ++ back)) i)) = bytes.take n := by
    intro n hn
    induction n with
    | zero => simp
    | succ n ih =>
      have hlast : byte? letters (column width (front ++ (columns letters bytes ++ back)) n) = bytes[n]? := by
        rw [column_eq hfront (by omega), byte?_cell]
      rw [List.range_succ, List.filterMap_append, ih (by omega), List.take_add_one]
      cases hn : bytes[n]? <;> simp [hlast, hn]
  rw [readColumns, hread 16 le_rfl, List.take_of_length_le hbytes]

end Columns

/-! ## Lines -/

section Lines

variable {letters : LetterCase} {width : Nat} {bytes : List UInt8}

theorem stands_printable (byte : UInt8) : Stands byte (printable byte) := by
  have hiff : 0x20 ≤ byte ∧ byte ≤ 0x7E ↔ 0x20 ≤ byte.toNat ∧ byte.toNat ≤ 0x7E := by
    rw [UInt8.le_iff_toNat_le, UInt8.le_iff_toNat_le]
    rfl
  rw [Stands]
  split_ifs with hprints
  · have hvalid : byte.toNat.isValidChar := Or.inl (by omega)
    rw [printable, if_pos (hiff.2 hprints), Char.ofNat, dif_pos hvalid]
    rfl
  · rw [printable, if_neg (mt hiff.1 hprints)]

theorem line_eq (letters : LetterCase) (width offset : Nat) (bytes : List UInt8) : line letters width offset bytes =
    paddedHex letters width offset ++ (columns letters bytes ++ ([' ', ' '] ++ bytes.map printable)) := by
  simp [line]

section Places

variable {offset : Nat} (hoffset : (paddedHex letters width offset).length = width) (bytes : List UInt8)

include hoffset

theorem take_line : (line letters width offset bytes).take width = paddedHex letters width offset := by
  rw [line_eq, List.take_left' hoffset]

theorem column_line {i : Nat} (hi : i < 16) : column width (line letters width offset bytes) i = cell letters bytes i := by
  rw [line_eq, column_eq hoffset hi]

theorem readColumns_line (hbytes : bytes.length ≤ 16) :
    readColumns letters width (line letters width offset bytes) = bytes := by
  rw [line_eq, readColumns_eq hoffset hbytes]

theorem drop_line : (line letters width offset bytes).drop (width + 54) = bytes.map printable := by
  have hcolumns := length_columns letters bytes
  rw [line_eq, ← List.append_assoc, ← List.append_assoc, List.drop_left']
  simp only [List.length_append, hoffset, hcolumns, List.length_cons, List.length_nil]

end Places

/-- **A line is read**: its offset, its bytes and its characters. -/
theorem row_line (hwidth : 0 < width) {offset : Nat} (hoffset : offset < 16 ^ width) :
    Row letters width bytes offset (line letters width offset (slice bytes offset 16)) := by
  have hfront := length_paddedHex letters hwidth hoffset
  have hbyte : ∀ i < 16, (slice bytes offset 16)[i]? = bytes[offset + i]? := by
    intro i hi
    rw [getElem?_slice, if_pos hi]
  refine ⟨?_, ?_, fun i hi => ?_, fun i hi hend => ?_, ?_⟩
  · rw [take_line hfront, hfront]
  · rw [take_line hfront, number?_paddedHex]
  · rw [column_line hfront _ hi, byte?_cell, hbyte i hi]
  · rw [column_line hfront _ hi, cell, hbyte i hi, List.getElem?_eq_none hend]
  · rw [drop_line hfront, List.forall₂_map_right_iff, List.forall₂_same]
    exact fun byte _ => stands_printable byte

theorem mem_columns {c : Char} (hc : c ∈ columns letters bytes) : c = ' ' ∨ c ∈ alphabet letters := by
  rw [columns_eq] at hc
  obtain ⟨i, -, hc⟩ := List.mem_flatMap.1 hc
  rcases List.mem_append.1 hc with hgap | hcell
  · refine Or.inl ?_
    unfold gap at hgap
    split_ifs at hgap <;> simpa using hgap
  · unfold cell at hcell
    split at hcell
    · exact Or.inr (mem_alphabet_of_mem_paddedHex hcell)
    · exact Or.inl (by simpa using hcell)

theorem newline_not_mem_alphabet (letters : LetterCase) : '\n' ∉ alphabet letters := by
  cases letters <;> decide

theorem newline_not_mem_columns (letters : LetterCase) (bytes : List UInt8) : '\n' ∉ columns letters bytes := by
  intro hc
  rcases mem_columns hc with hblank | hdigit
  · cases hblank
  · exact newline_not_mem_alphabet letters hdigit

theorem printable_ne_newline (byte : UInt8) : printable byte ≠ '\n' := by
  intro hc
  have hstands := stands_printable byte
  rw [hc, Stands] at hstands
  split_ifs at hstands with hprints
  · have hten : byte.toNat = 10 := hstands.symm
    omega
  · cases hstands

theorem newline_not_mem_line (letters : LetterCase) (width offset : Nat) (bytes : List UInt8) :
    '\n' ∉ line letters width offset bytes := by
  rw [line_eq]
  simp only [List.mem_append, List.mem_map, not_or, not_exists, not_and]
  exact ⟨fun h => newline_not_mem_alphabet letters (mem_alphabet_of_mem_paddedHex h),
    newline_not_mem_columns letters bytes, by decide, fun byte _ => printable_ne_newline byte⟩

theorem header_eq (letters : LetterCase) (width : Nat) : header letters width =
    "Offset".toList ++ List.replicate (width - 6) ' ' ++
      (columns letters ((List.range 16).map UInt8.ofNat) ++ "  ASCII".toList) :=
  List.append_assoc _ _ _

theorem newline_not_mem_header (letters : LetterCase) (width : Nat) : '\n' ∉ header letters width := by
  have hcolumns := newline_not_mem_columns letters ((List.range 16).map UInt8.ofNat)
  have hblanks : '\n' ∉ List.replicate (width - 6) ' ' := fun h => absurd (List.eq_of_mem_replicate h) (by decide)
  rw [header_eq]
  generalize columns letters ((List.range 16).map UInt8.ofNat) = numbers at hcolumns ⊢
  simp only [List.mem_append, not_or]
  exact ⟨⟨by decide, hblanks⟩, hcolumns, by decide⟩

end Lines

section Runs

variable {σ : Type} {p : Region σ} {w : Window σ} {st : σ} {letters : LetterCase} {width offset : Nat}

theorem linesFrom_end (h : p.byteLength st ≤ offset) : linesFrom letters p st width offset = [] := by
  rw [linesFrom, if_neg (not_lt.2 h)]

/-- **A step**: a line for the next sixteen bytes, or for what is left of them. -/
theorem linesFrom_step (hp : p.Shows w) (hl : w.live st) (h : offset < (w.get st).length) :
    linesFrom letters p st width offset =
      line letters width offset (slice (w.get st) offset 16) :: linesFrom letters p st width (offset + 16) := by
  have hsize := hp.byteLength hl
  have hread : p.read st offset (min 16 ((w.get st).length - offset)) =
      .ok (slice (w.get st) offset (min 16 ((w.get st).length - offset))) := hp.read_ok hl (by omega)
  have hslice : slice (w.get st) offset (min 16 ((w.get st).length - offset)) = slice (w.get st) offset 16 := by
    rw [slice, slice, ← List.length_drop, List.take_eq_take_iff]
    omega
  rw [linesFrom, if_pos (hsize ▸ h)]
  simp only [hsize, hread, hslice]
  rcases Nat.le_total 16 ((w.get st).length - offset) with hfull | hlast
  · rw [Nat.min_eq_left hfull]
  · -- the last line ends where the bytes do
    rw [linesFrom_end (by omega), linesFrom_end (by omega)]

/-- **A run**: a line for every sixteen bytes from an offset on. -/
theorem linesFrom_eq (hp : p.Shows w) (hl : w.live st) (letters : LetterCase) (width : Nat) (n : Nat) :
    ∀ offset, n = ((w.get st).length - offset + 15) / 16 → linesFrom letters p st width offset =
      (List.range n).map fun j => line letters width (offset + 16 * j) (slice (w.get st) (offset + 16 * j) 16) := by
  induction n with
  | zero =>
    intro offset hn
    have hsize := hp.byteLength hl
    exact linesFrom_end (by omega)
  | succ n ih =>
    intro offset hn
    have hnext : ∀ j, offset + 16 + 16 * j = offset + 16 * (j + 1) := by omega
    rw [linesFrom_step hp hl (by omega), ih (offset + 16) (by omega), List.range_succ_eq_map]
    simp [hnext, Function.comp_def]

theorem splitOn_lines {ls : List (List Char)} (h : ∀ l ∈ ls, '\n' ∉ l) :
    (ls.flatMap fun l => l ++ ['\n']).splitOn '\n' = ls ++ [[]] := by
  induction ls with
  | nil => rfl
  | cons l ls ih =>
    have hfirst : '\n' ∉ l := h l List.mem_cons_self
    have hrest := ih fun l' hl' => h l' (List.mem_cons_of_mem l hl')
    rw [List.flatMap_cons, List.append_assoc, List.singleton_append,
      List.splitOn_append_cons_self_of_not_mem hfirst, hrest]
    rfl

theorem flatMap_rows (bytes : List UInt8) :
    ((List.range ((bytes.length + 15) / 16)).flatMap fun j => slice bytes (16 * j) 16) = bytes := by
  have hblocks := flatMap_slice bytes 0 16 ((bytes.length + 15) / 16)
  simp only [Nat.zero_add, Nat.mul_comm _ 16] at hblocks
  rw [hblocks, slice, List.drop_zero, List.take_of_length_le (by omega)]

end Runs

/-! ## Dumps -/

/-- A dump of bytes, which has a header and a line for every sixteen bytes or what is left of them. All offsets have
as many digits as the number of bytes has, or eight. -/
structure Dump (letters : LetterCase) (width : Nat) (bytes : List UInt8) (text header : List Char)
    (rows : List (List Char)) : Prop where
  width_eq : width = max 8 (Nat.digits 16 bytes.length).length
  lines : text.splitOn '\n' = header :: (rows ++ [[]])
  count : rows.length = (bytes.length + 15) / 16
  row : ∀ j (hj : j < rows.length), Row letters width bytes (16 * j) rows[j]
  contents : rows.flatMap (readColumns letters width) = bytes
  numbers : readColumns letters width header = (List.range 16).map UInt8.ofNat

section Dumps

variable {σ : Type} {p : Region σ} {w : Window σ} {st : σ} {letters : LetterCase} {bytes : List UInt8}
  {rows : List (List Char)}

theorem readColumns_header (letters : LetterCase) {width : Nat} (hwidth : 6 ≤ width) :
    readColumns letters width (header letters width) = (List.range 16).map UInt8.ofNat := by
  rw [header_eq]
  refine readColumns_eq ?_ (by simp)
  rw [List.length_append, List.length_replicate, show "Offset".toList.length = 6 by decide]
  omega

theorem six_le_offsetWidth (size : Nat) : 6 ≤ offsetWidth size := by
  rw [offsetWidth]
  omega

theorem dump_of_lines (letters : LetterCase) (bytes : List UInt8) (hrows : rows =
      (List.range ((bytes.length + 15) / 16)).map fun j =>
        line letters (offsetWidth bytes.length) (16 * j) (slice bytes (16 * j) 16)) :
    Dump letters (offsetWidth bytes.length) bytes
      ((header letters (offsetWidth bytes.length) :: rows).flatMap fun l => l ++ ['\n'])
      (header letters (offsetWidth bytes.length)) rows := by
  have hsix := six_le_offsetWidth bytes.length
  have hlt := lt_sixteen_pow_offsetWidth bytes.length
  have hwidth := offsetWidth_eq bytes.length
  generalize offsetWidth bytes.length = width at *
  subst hrows
  have hoffset : ∀ j < (bytes.length + 15) / 16, 16 * j < 16 ^ width := by
    intro j hj
    omega
  refine ⟨hwidth, splitOn_lines fun l hl => ?_, by simp, fun j hj => ?_, ?_, readColumns_header letters hsix⟩
  · rcases List.mem_cons.1 hl with rfl | hl
    · exact newline_not_mem_header letters width
    · obtain ⟨j, -, rfl⟩ := List.mem_map.1 hl
      exact newline_not_mem_line letters width _ _
  · rw [List.getElem_map, List.getElem_range]
    exact row_line (by omega) (hoffset j (by simpa using hj))
  · rw [List.flatMap_map]
    conv_rhs => rw [← flatMap_rows bytes]
    refine List.flatMap_congr fun j hj => ?_
    have hfront := length_paddedHex letters (by omega) (hoffset j (List.mem_range.1 hj))
    exact readColumns_line hfront _ (List.length_take_le _ _)

theorem toList_ofRegion (letters : LetterCase) (p : Region σ) (st : σ) : (ofRegion letters p st).toList =
    (header letters (offsetWidth (p.byteLength st)) ::
      linesFrom letters p st (offsetWidth (p.byteLength st)) 0).flatMap fun l => l ++ ['\n'] :=
  String.toList_ofList

/-- **What a region shows is dumped.** -/
theorem dump_of_shows (hp : p.Shows w) (hl : w.live st) (letters : LetterCase) :
    ∃ width header rows, Dump letters width (w.get st) (ofRegion letters p st).toList header rows := by
  have hlines := linesFrom_eq hp hl letters (offsetWidth (w.get st).length) _ 0 rfl
  simp only [Nat.sub_zero, Nat.zero_add] at hlines
  refine ⟨offsetWidth (w.get st).length, header letters (offsetWidth (w.get st).length),
    linesFrom letters p st (offsetWidth (w.get st).length) 0, ?_⟩
  rw [toList_ofRegion, hp.byteLength hl]
  exact dump_of_lines letters (w.get st) hlines

theorem dump_of_shut (hp : p.Shut st) (letters : LetterCase) :
    ∃ width header, Dump letters width [] (ofRegion letters p st).toList header [] := by
  have hnone : linesFrom letters p st (offsetWidth 0) 0 = [] := linesFrom_end hp.byteLength.le
  refine ⟨offsetWidth 0, header letters (offsetWidth 0), ?_⟩
  rw [toList_ofRegion, hp.byteLength, hnone]
  exact dump_of_lines letters [] rfl

end Dumps

/-- **A dump reads back**, of any buffer and any view: its columns have the bytes that are there, line by line from
the offsets written. A detached buffer and an empty one have a header only. -/
theorem hex_dump_reads_back {w : World} (hw : w.Reachable) {p : Handle} (hp : w.Holds p) (letters : LetterCase) :
    ∃ width bytes header rows, Dump letters width bytes (ofRegion letters p.region w.store).toList header rows ∧
      bytes.length = p.region.byteLength w.store ∧
      ((w.store.buffer p.buffer).detached = false → p.region.read w.store 0 bytes.length = .ok bytes) ∧
      ((w.store.buffer p.buffer).detached = true ∨ p.region.byteLength w.store = 0 → rows = []) := by
  cases hd : (w.store.buffer p.buffer).detached with
  | false =>
    have hl := hw.sound.live hp hd
    have hsize := p.shows_region.byteLength hl
    obtain ⟨width, header, rows, hdump⟩ := dump_of_shows p.shows_region hl letters
    refine ⟨width, _, header, rows, hdump, hsize.symm, fun _ => ?_, fun hempty => ?_⟩
    · rw [p.shows_region.read_ok hl (by omega)]
      simp [slice]
    · have hcount := hdump.count
      rw [← hsize, hempty.resolve_left Bool.false_ne_true] at hcount
      exact List.length_eq_zero_iff.1 hcount
  | true =>
    have hshut : p.region.Shut w.store := Handle.shut_region hd
    obtain ⟨width, header, hdump⟩ := dump_of_shut hshut letters
    exact ⟨width, [], header, [], hdump, hshut.byteLength.symm, fun h => absurd h.symm Bool.false_ne_true, fun _ => rfl⟩

/-- A view of eighteen bytes of a buffer has two lines, the second one with two bytes. -/
theorem hex_dump_reads_back_view :
    let w := World.empty.run [.bufferOf ((List.range 20).map fun i => UInt8.ofNat (0x2F + i)), .viewOf 0 .uint16 2 9]
    let p := Handle.view ⟨0, .uint16, 2, 9⟩
    w.Reachable ∧ w.Holds p ∧
      ofRegion .lower p.region w.store =
        "Offset    00 01 02 03  04 05 06 07  08 09 0a 0b  0c 0d 0e 0f  ASCII\n" ++
        "00000000  31 32 33 34  35 36 37 38  39 3a 3b 3c  3d 3e 3f 40  123456789:;<=>?@\n" ++
        "00000010  41 42                                               AB\n" ∧
      ∃ width header rows, Dump .lower width ((List.range 18).map fun i => UInt8.ofNat (0x31 + i))
        (ofRegion .lower p.region w.store).toList header rows := by
  intro w p
  have hw : w.Reachable := ⟨_, rfl⟩
  have hp : w.Holds p := by decide +kernel
  obtain ⟨width, bytes, header, rows, hdump, hlength, hread, -⟩ := hex_dump_reads_back hw hp .lower
  have hsize : bytes.length = 18 := hlength.trans (by decide +kernel)
  have hbytes : bytes = (List.range 18).map fun i => UInt8.ofNat (0x31 + i) := by
    have hall := hread (by decide +kernel)
    rw [hsize] at hall
    exact Except.ok.inj (hall.symm.trans (by decide +kernel))
  exact ⟨hw, hp, by decide +kernel, width, header, rows, hbytes ▸ hdump⟩

example : render .upper [0x53, 0x49, 0x4D, 0x44, 0, 1, 2, 3, 0xFF] =
    "Offset    00 01 02 03  04 05 06 07  08 09 0A 0B  0C 0D 0E 0F  ASCII\n" ++
    "00000000  53 49 4D 44  00 01 02 03  FF                        SIMD.....\n" := by
  decide +kernel

end HexDump

end Vector128
