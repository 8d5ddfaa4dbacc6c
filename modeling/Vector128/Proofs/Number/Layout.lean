/-
Numbers as they are displayed.

A Number other than zero is displayed by its sign and a layout of its digits, which depends on where the point falls
(`Number.LaidOut`). Digits and point are collected from the scientific form that a formatter gives (`Number.display?`), in
whatever pieces. This never fails, because a shortest decimal has few digits and a small exponent
(`Decimal.exponent_shortest_bounds`), and it gives the text of the Number. Every layout spells the decimal, and so nothing
is lost on the way (`Number.shows_decimalText`).

`number_text_laid_out` is the law: the layout, what it is read as, and that it is displayed.
-/
import Vector128.Proofs.Number.Collected

namespace Vector128

namespace Number

/-- Where the point falls decides on the layout: behind the digits, between them, in front of them, or with an exponent
behind the first of them. -/
structure LaidOut (digits : List Char) (n : Int) (body : List Char) : Prop where
  whole : digits.length ≤ n → n ≤ 21 → body = digits ++ zeros (n - digits.length).toNat
  inside : 0 < n → n < digits.length → n ≤ 21 → body = digits.take n.toNat ++ '.' :: digits.drop n.toNat
  before : -6 < n → n ≤ 0 → body = '0' :: '.' :: zeros (-n).toNat ++ digits
  scientific : n ≤ -6 ∨ 21 < n → ∀ first rest, digits = first :: rest →
    body = first :: (if rest = [] then [] else '.' :: rest) ++
      'e' :: (if n - 1 < 0 then '-' else '+') :: Nat.toDigits 10 (n - 1).natAbs

variable {digits body : List Char} {n : Int} {d : Decimal} {x : Double}

theorem laidOut_of_eq_some (hne : digits ≠ []) (h : laidOut? digits n = some body) : LaidOut digits n body := by
  have hpos : 0 < digits.length := List.length_pos_of_ne_nil hne
  unfold laidOut? at h
  constructor
  · intro hk hn
    rw [if_pos ⟨hk, hn⟩] at h
    exact (Option.some.inj h).symm
  · intro h0 hk hn
    rw [if_neg (by omega), if_pos ⟨h0, hn⟩] at h
    exact (Option.some.inj h).symm
  · intro h6 h0
    rw [if_neg (by omega), if_neg (by omega), if_pos ⟨h6, h0⟩] at h
    exact (Option.some.inj h).symm
  · rintro hn first rest rfl
    rw [if_neg (by omega), if_neg (by omega), if_neg (by omega)] at h
    exact (Option.some.inj h).symm

theorem withExponent?_digits (d : Decimal) :
    withExponent? (d.digits.length + d.exponent - 1) d.digits = some (scientific "+" d).toList := by
  have htext : (scientific "+" d).toList = pointed d.digits ++
      'e' :: (exponentText "+" (d.digits.length + d.exponent - 1)).toList := by
    rw [scientific, String.toList_append, String.toList_append, String.toList_ofList]
    simp
  rw [htext, Numeral.toList_exponentText]
  generalize d.digits.length + d.exponent - 1 = e
  have hsign : (if e < 0 then ['-'] else "+".toList) = [if e < 0 then '-' else '+'] := by
    split_ifs <;> rfl
  obtain ⟨first, rest, hfirst⟩ := List.exists_cons_of_ne_nil (digits_ne_nil d)
  rw [hsign, hfirst, withExponent?, pointed_cons]
  cases rest <;> rfl

/-- **The layout of a decimal** is found by cases on the point. -/
theorem laidOut?_digits (d : Decimal) :
    laidOut? d.digits (d.digits.length + d.exponent) = some (decimalText d).toList := by
  have hpos : 0 < d.digits.length := List.length_pos_of_ne_nil (digits_ne_nil d)
  rw [laidOut?, decimalText, positional, withExponent?_digits]
  generalize hn : d.digits.length + d.exponent = n
  by_cases hpositional : -6 < n ∧ n ≤ 21
  · rw [if_pos hpositional, String.toList_ofList]
    by_cases hwhole : 0 ≤ d.exponent
    · rw [if_pos (by omega), if_pos hwhole, ← hn, add_sub_cancel_left]
    · rw [if_neg (by omega), if_neg hwhole]
      by_cases hinside : 0 < n
      · rw [if_pos ⟨hinside, hpositional.2⟩, if_pos hinside]
      · rw [if_neg (by omega), if_pos ⟨hpositional.1, not_lt.1 hinside⟩, if_neg hinside]
  · rw [if_neg hpositional, if_neg (by omega), if_neg (by omega), if_neg (by omega)]

/-- A text that shows a decimal with a sign: how it is laid out, and what it is read as. -/
structure Shows (text : List Char) (negative : Bool) (d : Decimal) : Prop where
  layout : ∃ body, text = signText negative ++ body ∧ LaidOut d.digits (d.digits.length + d.exponent) body
  reading : ∃ m, Numeral.ofText? text = some m ∧ m.negative = negative ∧
    m.magnitude = (natOfDigits d.digits : ℚ) * 10 ^ d.exponent

/-- **The text of a decimal shows it.** -/
theorem shows_decimalText (negative : Bool) (d : Decimal) :
    Shows (signText negative ++ (decimalText d).toList) negative d where
  layout := ⟨_, rfl, laidOut_of_eq_some (digits_ne_nil d) (laidOut?_digits d)⟩
  reading := by
    obtain ⟨p, htext, hspells⟩ := exists_spelling d
    rw [htext, natOfDigits_digits]
    exact ⟨p.numeral negative, p.ofText?_text negative, rfl, hspells negative⟩

/-! ## Collected decimals -/

theorem order_zero (hn : x.isNaN = false) (hz : x.isZero = false) :
    x.equal Binary.zero = false ∧ x.less Binary.zero = x.negative := by
  have hordered : x.unordered Binary.zero = false := by
    rw [Binary.unordered, hn]
    rfl
  have hcode : x.code.toNat ≠ 0 := of_decide_eq_false hz
  have hrank : x.rank ≠ 0 := by
    have := x.natAbs_rank
    omega
  rw [Binary.equal, Binary.less, hordered, show (Binary.zero : Double).rank = 0 from rfl, decide_eq_false hrank]
  refine ⟨rfl, ?_⟩
  rw [Binary.rank]
  cases x.negative with
  | true => simpa using Nat.pos_of_ne_zero hcode
  | false => simp

/-- **A rendered decimal is displayed**, in any pieces. -/
theorem display?_eq_some (hx : x.isFinite = true) (hz : x.isZero = false) (hroom : d.digits.length ≤ Collected.room)
    (hword : (d.digits.length + d.exponent - 1).natAbs + 1 < twoPow 31) {render : Double → List (List Char)}
    (h : (render x.abs).flatten = (scientific "" d).toList) :
    display? render x = some ((if x.negative then "-" else "") ++ decimalText d) := by
  have hn := Binary.isNaN_of_isFinite hx
  obtain ⟨hequal, hless⟩ := order_zero hn hz
  obtain ⟨s, hs, hdigits, hexponent⟩ := Collected.ofPieces?_scientific hroom (Nat.lt_of_succ_lt hword) h
  rw [display?, hn, hequal, Binary.isInfinite_of_isFinite hx, if_neg Bool.false_ne_true, if_neg Bool.false_ne_true,
    if_neg Bool.false_ne_true, hs, Option.bind_some, hexponent, hdigits, hless, sub_add_cancel,
    laidOut?_digits, if_pos (by omega), Option.map_some, String.ofList_toList]

end Number

/-- **Numbers are displayed by the layout of their digits**, and lose nothing. Whatever decimal a formatter renders, with
digits and an exponent that there is room for and in any pieces, a Number other than zero is displayed with its sign as
that decimal. The text of a Number shows its shortest decimal, and is what is displayed if that is rendered. -/
theorem number_text_laid_out {x : Double} (hx : x.isFinite = true) (hz : x.isZero = false) :
    (∀ (d : Decimal) (render : Double → List (List Char)), d.digits.length ≤ Number.Collected.room →
      (d.digits.length + d.exponent - 1).natAbs + 1 < twoPow 31 →
      (render x.abs).flatten = (Number.scientific "" d).toList →
      ∃ text, Number.display? render x = some text ∧ Number.Shows text.toList (x.less Binary.zero) d) ∧
    Number.Shows (Number.text x).toList (x.less Binary.zero) (Decimal.shortest .double x.code.toNat) ∧
    ∀ render : Double → List (List Char),
      (render x.abs).flatten = (Number.scientific "" (Decimal.shortest .double x.code.toNat)).toList →
      Number.display? render x = some (Number.text x) := by
  obtain ⟨-, hless⟩ := Number.order_zero (Binary.isNaN_of_isFinite hx) hz
  have hpos : 0 < x.code.toNat := Nat.pos_of_ne_zero (of_decide_eq_false hz)
  have hfin : x.code.toNat < Format.double.infinityCode := of_decide_eq_true hx
  refine ⟨fun d render hroom hword h => ?_, ?_, fun render h => ?_⟩
  · refine ⟨_, Number.display?_eq_some hx hz hroom hword h, ?_⟩
    rw [hless, Number.toList_signed]
    exact Number.shows_decimalText x.negative d
  · rw [hless, Number.toList_text hx hz]
    exact Number.shows_decimalText _ _
  · have hlength := Decimal.length_digits_le hpos hfin
    have hexponent := Decimal.exponent_shortest_bounds hpos hfin
    have hword : twoPow 31 = 2147483648 := by decide
    rw [Number.display?_eq_some hx hz (hlength.trans (by decide)) (by omega) h]
    refine congrArg some (String.toList_injective ?_)
    rw [Number.toList_signed, Number.toList_text hx hz]

/-- The Number `-1.5e-7` is displayed with an exponent, also if the mark and the digits around it come in one piece. -/
theorem number_text_laid_out_exponent :
    let x : Double := Binary.ofBits 0xBE8421F5F40D8376
    let d : Decimal := ⟨15, -8⟩
    let render : Double → List (List Char) := fun _ => ["1".toList, ".5e".toList, "-7".toList]
    x.isFinite = true ∧ x.isZero = false ∧ Decimal.shortest .double x.code.toNat = d ∧
      (render x.abs).flatten = (Number.scientific "" d).toList ∧ Number.Shows "-1.5e-7".toList true d ∧
      Number.display? render x = some "-1.5e-7" := by
  intro x d render
  have hx : x.isFinite = true := by decide
  have hz : x.isZero = false := by decide
  have hd : Decimal.shortest .double x.code.toNat = d := by decide +kernel
  have hrender : (render x.abs).flatten = (Number.scientific "" d).toList := by decide +kernel
  have htext : Number.text x = "-1.5e-7" := by decide +kernel
  have hless : x.less Binary.zero = true := by decide
  obtain ⟨-, hshows, hdisplay⟩ := number_text_laid_out hx hz
  rw [hd] at hshows hdisplay
  rw [htext, hless] at hshows
  exact ⟨hx, hz, hd, hrender, hshows, (hdisplay render hrender).trans (congrArg some htext)⟩

end Vector128
