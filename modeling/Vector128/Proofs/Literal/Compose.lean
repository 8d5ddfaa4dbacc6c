/-
Literals are compositional.

A literal is read alike in all stores (`Literal.alike_parse`): it is refused for the same reason, or the values differ
at most in the number by which a store knows an object or a buffer. So it makes sense to say that a text denotes a
value, and a constructor denotes what its literals denote, one by one (`Literal.parse_shape_iff`,
`Literal.parse_kind_iff`). A literal between commas has no comma and is not blank; whatever else is in it, parentheses and
quotes included, does not move the places where the constructor around it is split.
-/
import Vector128.Proofs.Literal.RoundTrip
import Vector128.Proofs.Packed.LaneAccess

namespace Vector128

namespace Value

/-- the value without the number by which a store knows it -/
def unnamed : Value → Value
  | array view => array { view with buffer := 0 }
  | object _ => object 0
  | x => x

@[simp] theorem toNumber_unnamed (x : Value) : x.unnamed.toNumber = x.toNumber := by
  cases x <;> rfl

@[simp] theorem toBoolean_unnamed (x : Value) : x.unnamed.toBoolean = x.toBoolean := by
  cases x <;> rfl

@[simp] theorem toLane_unnamed (s : Shape) (x : Value) : x.unnamed.toLane s = x.toLane s := by
  rw [toLane, toBoolean_unnamed, toNumber_unnamed, toLane]

/-- values have the same Numbers if they differ in names only -/
theorem mapM_toNumber_congr {xs ys : List Value} (h : xs.map unnamed = ys.map unnamed) :
    xs.mapM toNumber = ys.mapM toNumber := by
  have hunnamed : toNumber ∘ unnamed = toNumber := funext toNumber_unnamed
  calc xs.mapM toNumber
    _ = (xs.map unnamed).mapM toNumber := by rw [List.mapM_map, hunnamed]
    _ = ys.mapM toNumber := by rw [h, List.mapM_map, hunnamed]

theorem exists_toNumber_iff {x : Value} : (∃ n, x.toNumber = .ok n) ↔ x.asVector? = none := by
  cases x <;> simp [toNumber, asVector?, refuse]

theorem exists_numbers_iff {xs : List Value} :
    (∃ numbers, xs.mapM toNumber = .ok numbers) ↔ ∀ x ∈ xs, x.asVector? = none := by
  constructor
  · rintro ⟨numbers, h⟩ x hx
    obtain ⟨i, hi⟩ := List.mem_iff_getElem?.1 hx
    have hnumber := getElem?_mapM h i
    rw [hi] at hnumber
    obtain ⟨n, -, hn⟩ := Option.map_eq_some_iff.1 hnumber.symm
    exact exists_toNumber_iff.1 ⟨n, hn.symm⟩
  · exact fun h => exists_mapM_ok fun x hx => exists_toNumber_iff.2 (h x hx)

end Value

namespace Shape

theorem argumentLane_unnamed (s : Shape) (xs : List Value) (i : Nat) :
    s.argumentLane (xs.map Value.unnamed) i = s.argumentLane xs i := by
  rw [argumentLane, argumentLane, List.getElem?_map]
  cases xs[i]? with
  | none => rfl
  | some x => exact x.toLane_unnamed s

theorem create_congr {s : Shape} {xs ys : List Value} (h : xs.map Value.unnamed = ys.map Value.unnamed) :
    s.create xs = s.create ys := by
  refine Packed.build_congr fun i _ => ?_
  rw [← argumentLane_unnamed, h, argumentLane_unnamed]

end Shape

namespace ElementKind

theorem name_chars (kind : ElementKind) : kind.name.toList ≠ [] ∧ kind.name.toList.all Literal.isNameChar = true := by
  cases kind <;> decide

theorem ofName?_name (kind : ElementKind) : ofName? kind.name = some kind := by
  cases kind <;> decide

theorem shape_ofName?_name (kind : ElementKind) : Shape.ofName? kind.name = none := by
  cases kind <;> decide

end ElementKind

/-! ## Reading in any store -/

namespace Literal

variable {α β γ δ : Type}

/-- the same rejection, or results that look the same -/
inductive Agree (look : α → β) : Except Rejection (α × Store) → Except Rejection (α × Store) → Prop
  | ok {x y : α} {st st' : Store} (h : look x = look y) : Agree look (.ok (x, st)) (.ok (y, st'))
  | error (rejection : Rejection) : Agree look (.error rejection) (.error rejection)

theorem Agree.bind {look : α → β} {see : γ → δ} {r r' : Except Rejection (α × Store)}
    {f g : α × Store → Except Rejection (γ × Store)} (h : Agree look r r')
    (hf : ∀ x y st st', look x = look y → Agree see (f (x, st)) (g (y, st'))) : Agree see (r >>= f) (r' >>= g) := by
  cases h with
  | ok hlook => exact hf _ _ _ _ hlook
  | error rejection => exact .error rejection

/-- reading that comes to the same, whatever the stores -/
def Alike (look : α → β) (m m' : StateT Store (Except Rejection) α) : Prop := ∀ st st', Agree look (m st) (m' st')

theorem alike_pure {look : α → β} {x y : α} (h : look x = look y) : Alike look (pure x) (pure y) :=
  fun _ _ => .ok h

theorem alike_throw (look : α → β) (rejection : Rejection) : Alike look (throw rejection) (throw rejection) :=
  fun _ _ => .error rejection

theorem Alike.bind {look : α → β} {see : γ → δ} {m m' : StateT Store (Except Rejection) α}
    {f g : α → StateT Store (Except Rejection) γ} (h : Alike look m m')
    (hf : ∀ x y, look x = look y → Alike see (f x) (g y)) : Alike see (m >>= f) (m' >>= g) :=
  fun st st' => (h st st').bind fun x y st₁ st₁' hlook => hf x y hlook st₁ st₁'

theorem alike_mapM {look : α → β} {f : γ → StateT Store (Except Rejection) α} {row : List γ}
    (h : ∀ a ∈ row, Alike look (f a) (f a)) : Alike (List.map look) (row.mapM f) (row.mapM f) := by
  induction row with
  | nil => exact alike_pure rfl
  | cons a row ih =>
    rw [List.mapM_cons]
    refine (h a List.mem_cons_self).bind fun x y hfirst => ?_
    refine (ih fun b hb => h b (List.mem_cons_of_mem a hb)).bind fun xs ys hrest => alike_pure ?_
    rw [List.map_cons, List.map_cons, hfirst, hrest]

theorem alike_construct (literal name : List Char) {xs ys : List Value}
    (h : xs.map Value.unnamed = ys.map Value.unnamed) :
    Alike Value.unnamed (construct literal name xs) (construct literal name ys) := by
  intro st st'
  rw [construct, construct, Value.mapM_toNumber_congr h]
  cases Shape.ofName? (String.ofList name) with
  | some s =>
    dsimp only
    rw [Shape.create_congr h]
    cases s.create ys with
    | ok v => exact .ok rfl
    | error fault => exact .error _
  | none =>
    cases ElementKind.ofName? (String.ofList name) with
    | none => exact .error _
    | some kind =>
      cases ys.mapM Value.toNumber with
      | ok numbers => exact .ok rfl
      | error fault => exact .error _

/-- **A literal is read alike in all stores.** -/
theorem alike_parse (text : List Char) : Alike Value.unnamed (parse text) (parse text) := by
  -- the elements of a constructor are shorter than it is
  induction hn : text.length using Nat.strong_induction_on generalizing text with
  | _ n ih =>
    rw [parse_eq]
    cases hform : formOf (Text.trim Text.isBlank text) with
    | constant value => exact alike_pure rfl
    | object => exact fun _ _ => .ok rfl
    | number =>
      dsimp only
      cases Number.ofLiteral (Text.trim Text.isBlank text) with
      | ok x => exact alike_pure rfl
      | error fault => exact alike_throw _ _
    | constructed name rest =>
      dsimp only
      split_ifs with hclosed
      · refine (alike_mapM fun element helement => ih _ ?_ element rfl).bind fun xs ys h => alike_construct _ _ h
        have hrest := length_le_of_mem_elements helement
        rw [List.length_dropLast] at hrest
        have hliteral := length_lt_of_formOf hform
        have htext := length_trim_le Text.isBlank text
        omega
      · exact alike_throw _ _

/-- a text is read as a value, in some store -/
def Denotes (text : List Char) (x : Value) : Prop := ∃ st st', parse text st = .ok (x, st')

variable {name text : List Char} {literals : List (List Char)} {x : Value} {xs ys : List Value} {st st' : Store}

/-- what is denoted is read in every store, save for its number there -/
theorem Denotes.parse (h : Denotes text x) (st : Store) :
    ∃ y st', Literal.parse text st = .ok (y, st') ∧ y.unnamed = x.unnamed := by
  obtain ⟨st₀, st₁, h⟩ := h
  have hagree := alike_parse text st₀ st
  rw [h] at hagree
  cases hy : Literal.parse text st with
  | error rejection =>
    rw [hy] at hagree
    cases hagree
  | ok p =>
    rw [hy] at hagree
    cases hagree with
    | ok hlook => exact ⟨_, _, rfl, hlook.symm⟩

/-- literals that were read denote what they were read as -/
theorem denotes_of_mapM (h : literals.mapM parse st = .ok (ys, st')) : List.Forall₂ Denotes literals ys := by
  induction literals generalizing ys st st' with
  | nil =>
    cases h
    exact .nil
  | cons l literals ih =>
    rw [List.mapM_cons] at h
    obtain ⟨y, st₁, hy, h⟩ := bind_eq_ok.1 h
    obtain ⟨rest, st₂, hrest, h⟩ := bind_eq_ok.1 h
    cases h
    exact .cons ⟨st, st₁, hy⟩ (ih hrest)

/-- literals that denote something are read in every store -/
theorem mapM_of_denotes (h : List.Forall₂ Denotes literals xs) (st : Store) :
    ∃ ys st', literals.mapM parse st = .ok (ys, st') ∧ ys.map Value.unnamed = xs.map Value.unnamed := by
  induction h generalizing st with
  | nil => exact ⟨[], st, rfl, rfl⟩
  | cons hfirst _ ih =>
    obtain ⟨y, st₁, hy, hsame⟩ := hfirst.parse st
    obtain ⟨ys, st₂, hys, hrest⟩ := ih st₁
    refine ⟨y :: ys, st₂, ?_, by rw [List.map_cons, List.map_cons, hsame, hrest]⟩
    rw [List.mapM_cons]
    exact bind_eq_ok.2 ⟨y, st₁, hy, bind_eq_ok.2 ⟨ys, st₂, hys, rfl⟩⟩

/-! ## Constructors -/

theorem construct_shape_eq_ok {s : Shape} {literal : List Char} : construct literal s.name.toList xs st = .ok (x, st') ↔
    ∃ v, s.create xs = .ok v ∧ x = .vector v ∧ st' = st := by
  constructor
  · intro h
    rw [construct, String.ofList_toList, s.ofName?_name] at h
    dsimp only at h
    cases hv : s.create xs with
    | error fault =>
      rw [hv] at h
      cases h
    | ok v =>
      rw [hv] at h
      cases h
      exact ⟨v, rfl, rfl, rfl⟩
  · rintro ⟨v, hv, rfl, rfl⟩
    exact construct_vector hv literal _

theorem construct_kind_eq_ok {kind : ElementKind} {literal : List Char} :
    construct literal kind.name.toList xs st = .ok (x, st') ↔ ∃ numbers, xs.mapM Value.toNumber = .ok numbers ∧
      x = .array (View.ofElements st kind numbers).1 ∧ st' = (View.ofElements st kind numbers).2 := by
  rw [construct, String.ofList_toList, kind.shape_ofName?_name, kind.ofName?_name]
  dsimp only
  cases xs.mapM Value.toNumber with
  | error fault =>
    constructor
    · intro h
      cases h
    · rintro ⟨_, hnumbers, -⟩
      cases hnumbers
  | ok numbers =>
    constructor
    · intro h
      cases h
      exact ⟨numbers, rfl, rfl, rfl⟩
    · rintro ⟨_, hnumbers, rfl, rfl⟩
      cases hnumbers
      rfl

/-- **A constructor of a vector** denotes the vector of what its literals denote. -/
theorem parse_shape_iff {s : Shape} (h : Constructor s.name.toList literals text) :
    (∃ st', parse text st = .ok (x, st')) ↔
      ∃ xs v, List.Forall₂ Denotes literals xs ∧ s.create xs = .ok v ∧ x = .vector v := by
  rw [parse_constructor s.name_chars h]
  constructor
  · rintro ⟨st', hparse⟩
    obtain ⟨ys, st₁, hys, hconstruct⟩ := bind_eq_ok.1 hparse
    obtain ⟨v, hv, rfl, -⟩ := construct_shape_eq_ok.1 hconstruct
    exact ⟨ys, v, denotes_of_mapM hys, hv, rfl⟩
  · rintro ⟨xs, v, hxs, hv, rfl⟩
    obtain ⟨ys, st₁, hys, hsame⟩ := mapM_of_denotes hxs st
    exact ⟨st₁, bind_eq_ok.2 ⟨ys, st₁, hys, construct_shape_eq_ok.2 ⟨v, (Shape.create_congr hsame).trans hv, rfl, rfl⟩⟩⟩

/-- **A constructor of a typed array** denotes a new array of the Numbers of what its literals denote. -/
theorem parse_kind_iff {kind : ElementKind} (h : Constructor kind.name.toList literals text)
    (hxs : List.Forall₂ Denotes literals xs) : parse text st = .ok (x, st') ↔
      ∃ numbers, xs.mapM Value.toNumber = .ok numbers ∧ ∃ ys st₁, literals.mapM parse st = .ok (ys, st₁) ∧
        x = .array (View.ofElements st₁ kind numbers).1 ∧ st' = (View.ofElements st₁ kind numbers).2 := by
  obtain ⟨ys, st₁, hys, hsame⟩ := mapM_of_denotes hxs st
  have hnumbers : ys.mapM Value.toNumber = xs.mapM Value.toNumber := Value.mapM_toNumber_congr hsame
  rw [parse_constructor kind.name_chars h, bind_eq_ok]
  constructor
  · rintro ⟨ys', st₁', hys', hconstruct⟩
    cases hys.symm.trans hys'
    obtain ⟨numbers, hn, hx, hst⟩ := construct_kind_eq_ok.1 hconstruct
    exact ⟨numbers, hnumbers ▸ hn, ys, st₁, hys, hx, hst⟩
  · rintro ⟨numbers, hn, ys', st₁', hys', hx, hst⟩
    cases hys.symm.trans hys'
    exact ⟨ys, st₁, hys, construct_kind_eq_ok.2 ⟨numbers, hnumbers.trans hn, hx, hst⟩⟩

/-- it denotes one exactly if its literals denote values without a vector among them -/
theorem exists_parse_kind_iff {kind : ElementKind} (h : Constructor kind.name.toList literals text) :
    (∃ x st', parse text st = .ok (x, st')) ↔
      ∃ xs, List.Forall₂ Denotes literals xs ∧ ∀ x ∈ xs, x.asVector? = none := by
  constructor
  · rintro ⟨x, st', hparse⟩
    rw [parse_constructor kind.name_chars h] at hparse
    obtain ⟨ys, st₁, hys, hconstruct⟩ := bind_eq_ok.1 hparse
    obtain ⟨numbers, hnumbers, -⟩ := construct_kind_eq_ok.1 hconstruct
    exact ⟨ys, denotes_of_mapM hys, Value.exists_numbers_iff.1 ⟨numbers, hnumbers⟩⟩
  · rintro ⟨xs, hxs, hvectors⟩
    obtain ⟨numbers, hnumbers⟩ := Value.exists_numbers_iff.2 hvectors
    obtain ⟨ys, st₁, hys, -⟩ := mapM_of_denotes hxs st
    exact ⟨_, _, (parse_kind_iff h hxs).2 ⟨numbers, hnumbers, ys, st₁, hys, rfl, rfl⟩⟩

/-! ## Quoted texts -/

theorem formOf_quoted {quote : Char} (hquote : quote = '\x22' ∨ quote = '\x27') (inner : List Char) :
    formOf (quote :: (inner ++ [quote])) = .constant (.string (String.ofList inner)) := by
  have hwords : ∀ word ∈ keywords, quote ∉ word.toList := by
    rcases hquote with rfl | rfl <;> decide
  have hword := ne_keyword_of_mem (List.mem_cons_self (l := inner ++ [quote])) hwords
  rw [formOf, keyword?_eq_none hword, unquote?, List.getLast?_concat, if_pos ⟨hquote, rfl⟩, List.dropLast_concat]

theorem parse_quoted {quote : Char} (hquote : quote = '\x22' ∨ quote = '\x27') (inner : List Char) :
    parse (quote :: (inner ++ [quote])) = pure (.string (String.ofList inner)) := by
  have hblank : Text.isBlank quote = false := by
    rcases hquote with rfl | rfl <;> decide
  have htrim : Text.trim Text.isBlank (quote :: (inner ++ [quote])) = quote :: (inner ++ [quote]) := by
    apply Text.trim_eq_self
    · rintro c ⟨⟩
      exact hblank
    · intro c hc
      rw [← List.cons_append, List.getLast?_concat] at hc
      exact Option.some.inj hc ▸ hblank
  rw [parse_eq, htrim, formOf_quoted hquote]

end Literal

/-- **Literals are compositional.** A constructor of a vector is read exactly if its literals denote values that make a
vector, and as that vector. A constructor of a typed array is read exactly if its literals denote values none of which is
a vector, and as a new array of their Numbers. A text between two equal quotes is that text, whatever is in it. -/
theorem literals_compositional :
    (∀ (s : Shape) literals text, Literal.Constructor s.name.toList literals text → ∀ st x,
      (∃ st', Literal.parse text st = .ok (x, st')) ↔
        ∃ xs v, List.Forall₂ Literal.Denotes literals xs ∧ s.create xs = .ok v ∧ x = .vector v) ∧
    (∀ (kind : ElementKind) literals text, Literal.Constructor kind.name.toList literals text → ∀ st,
      ((∃ x st', Literal.parse text st = .ok (x, st')) ↔
        ∃ xs, List.Forall₂ Literal.Denotes literals xs ∧ ∀ x ∈ xs, x.asVector? = none) ∧
      ∀ xs, List.Forall₂ Literal.Denotes literals xs → ∀ x st', Literal.parse text st = .ok (x, st') ↔
        ∃ numbers, xs.mapM Value.toNumber = .ok numbers ∧
          ∃ ys st₁, literals.mapM Literal.parse st = .ok (ys, st₁) ∧
            x = .array (View.ofElements st₁ kind numbers).1 ∧ st' = (View.ofElements st₁ kind numbers).2) ∧
    ∀ quote : Char, quote = '\x22' ∨ quote = '\x27' → ∀ inner st,
      Literal.parse (quote :: (inner ++ [quote])) st = .ok (.string (String.ofList inner), st) := by
  refine ⟨fun s literals text h st x => Literal.parse_shape_iff h, fun kind literals text h st =>
    ⟨Literal.exists_parse_kind_iff h, fun xs hxs x st' => Literal.parse_kind_iff h hxs⟩, ?_⟩
  intro quote hquote inner st
  rw [Literal.parse_quoted hquote]
  rfl

/-- Between blanks, a quoted text with a parenthesis, a constructor without literals, and a word make a boolean vector. A
typed array is NaN as an element of another one, and a vector is no element. -/
theorem literals_compositional_nested :
    (∃ v st, Literal.parse "\t Bool32x4( '(a' ,Int8x16(),null)\u3000".toList .empty = .ok (.vector v, st) ∧
      v.lanes = [.bool true, .bool true, .bool false, .bool false]) ∧
    (∃ view st, Literal.parse "Float64Array( Int8Array(7) ,'0x10',null)".toList .empty = .ok (.array view, st) ∧
      view.elements st = [Binary.nan, Binary.ofNat 16, Binary.zero]) ∧
    (¬ ∃ x st, Literal.parse "Int8Array(Int8x16())".toList .empty = .ok (x, st)) ∧
    Literal.parse "'a,\x22(b'".toList .empty = .ok (.string "a,\x22(b", .empty) := by
  obtain ⟨hshape, hkind, hquoted⟩ := literals_compositional
  have hvector : Literal.Constructor Shape.bool32x4.name.toList ["'(a'".toList, "Int8x16()".toList, "null".toList]
      "\t Bool32x4( '(a' ,Int8x16(),null)\u3000".toList :=
    ⟨by decide, [" '(a' ".toList, "Int8x16()".toList, "null".toList],
      .cons ⟨[' '], [' '], by decide, by decide, rfl⟩ (.cons (Text.around_self _) (.cons (Text.around_self _) .nil)),
      ['\t', ' '], ['\u3000'], by decide, by decide, rfl⟩
  have harray : Literal.Constructor ElementKind.float64.name.toList
      ["Int8Array(7)".toList, "'0x10'".toList, "null".toList] "Float64Array( Int8Array(7) ,'0x10',null)".toList :=
    ⟨by decide, [" Int8Array(7) ".toList, "'0x10'".toList, "null".toList],
      .cons ⟨[' '], [' '], by decide, by decide, rfl⟩ (.cons (Text.around_self _) (.cons (Text.around_self _) .nil)),
      Text.around_self _⟩
  have hrefused : Literal.Constructor ElementKind.int8.name.toList ["Int8x16()".toList] "Int8Array(Int8x16())".toList :=
    ⟨by decide, ["Int8x16()".toList], .cons (Text.around_self _) .nil, Text.around_self _⟩
  have hnone : Literal.Constructor Shape.int8x16.name.toList [] "Int8x16()".toList :=
    ⟨nofun, [], .nil, Text.around_self _⟩
  have hempty : Shape.int8x16.create [] = .ok (.zero .int8x16) := by decide +kernel
  have hlane : Literal.Denotes "Int8x16()".toList (.vector (.zero .int8x16)) :=
    ⟨.empty, (hshape _ _ _ hnone .empty _).2 ⟨[], _, .nil, hempty, rfl⟩⟩
  have hnull : Literal.Denotes "null".toList .null := ⟨.empty, .empty, by decide +kernel⟩
  refine ⟨?_, ?_, ?_, hquoted '\x27' (.inr rfl) "a,\x22(b".toList .empty⟩
  · have hparen : Literal.Denotes "'(a'".toList (.string "(a") :=
      ⟨.empty, .empty, hquoted '\x27' (.inr rfl) "(a".toList .empty⟩
    obtain ⟨v, hv, hlanes⟩ : ∃ v, Shape.bool32x4.create [.string "(a", .vector (.zero .int8x16), .null] = .ok v ∧
        v.lanes = [.bool true, .bool true, .bool false, .bool false] := ⟨_, rfl, by decide +kernel⟩
    obtain ⟨st, hparse⟩ := (hshape _ _ _ hvector .empty (.vector v)).2
      ⟨_, v, .cons hparen (.cons hlane (.cons hnull .nil)), hv, rfl⟩
    exact ⟨v, st, hparse, hlanes⟩
  · have hinner : Literal.Denotes "Int8Array(7)".toList (.array ⟨0, .int8, 0, 1⟩) :=
      ⟨.empty, ⟨[⟨[7], false⟩], 0⟩, by decide +kernel⟩
    have hdigits : Literal.Denotes "'0x10'".toList (.string "0x10") :=
      ⟨.empty, .empty, hquoted '\x27' (.inr rfl) "0x10".toList .empty⟩
    have hliterals : ["Int8Array(7)".toList, "'0x10'".toList, "null".toList].mapM Literal.parse .empty =
        .ok ([.array ⟨0, .int8, 0, 1⟩, .string "0x10", .null], ⟨[⟨[7], false⟩], 0⟩) := by
      decide +kernel
    have hnumbers : [Value.array ⟨0, .int8, 0, 1⟩, .string "0x10", .null].mapM Value.toNumber =
        .ok [Binary.nan, Binary.ofNat 16, Binary.zero] := by
      decide +kernel
    exact ⟨_, _, ((hkind _ _ _ harray .empty).2 _ (.cons hinner (.cons hdigits (.cons hnull .nil))) _ _).2
      ⟨_, hnumbers, _, _, hliterals, rfl, rfl⟩, by decide +kernel⟩
  · rw [(hkind _ _ _ hrefused .empty).1]
    rintro ⟨xs, hxs, hvectors⟩
    cases hxs with
    | @cons _ x _ _ hx _ =>
      obtain ⟨st, st', hparse⟩ := hx
      obtain ⟨-, v, -, -, rfl⟩ := (hshape _ _ _ hnone st x).1 ⟨st', hparse⟩
      cases hvectors _ List.mem_cons_self

end Vector128
