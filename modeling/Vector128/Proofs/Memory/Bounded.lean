/-
What loads and stores can fail with.

A region that is `Bounded` refuses nothing but accesses outside of its bytes; rows of cells, buffers and views are, in
whatever state they are. So a load or store of no more lanes than a vector has is refused for that reason alone, and
what a script makes of it (`Shape.load`, `Shape.store`) for reasons that lie in the operands.
-/
import Vector128.Proofs.Packed.Faults

namespace Vector128

open Outcome

namespace Region

/-- the region refuses nothing but accesses outside of its bytes -/
structure Bounded {σ : Type} (p : Region σ) : Prop where
  read : ∀ st offset count, FailsOnly (· = .outOfBounds) (p.read st offset count)
  write : ∀ st offset bytes, FailsOnly (· = .outOfBounds) (p.write st offset bytes).1

theorem bounded_cells : cells.Bounded where
  read row offset count := by
    simp only [cells]
    split_ifs
    · exact failsOnly_ok _
    · exact failsOnly_error rfl
  write row offset bytes := by
    simp only [cells]
    split_ifs
    · exact failsOnly_ok _
    · exact failsOnly_error rfl

end Region

theorem Buffer.cells_failsOnly (b : Buffer) : FailsOnly (· = .outOfBounds) b.cells := by
  unfold cells
  split_ifs
  · exact failsOnly_error rfl
  · exact failsOnly_ok _

theorem Store.bounded_whole (id : Nat) : (whole id).Bounded where
  read st offset count :=
    failsOnly_bind (st.buffer id).cells_failsOnly fun row _ => Region.bounded_cells.read row offset count
  write st offset bytes := by
    have hcells := (st.buffer id).cells_failsOnly
    simp only [whole]
    cases h : (st.buffer id).cells with
    | ok row => exact Region.bounded_cells.write row offset bytes
    | error fault =>
      rw [h] at hcells
      exact failsOnly_error hcells.of_error

theorem View.bounded_region (view : View) : view.region.Bounded where
  read st offset count := by
    simp only [region]
    split_ifs
    · exact (Store.bounded_whole view.buffer).read st _ count
    · exact failsOnly_error rfl
  write st offset bytes := by
    simp only [region]
    split_ifs
    · exact (Store.bounded_whole view.buffer).write st _ bytes
    · exact failsOnly_error rfl

namespace Region

variable {σ : Type} {p : Region σ} {s : Shape} {v : Packed} {count : Nat}

theorem fits_failsOnly (hc : count ≤ s.laneCount) (st : σ) (offset : Nat) :
    FailsOnly (· = .outOfBounds) (p.fits st s offset count) := by
  rw [fits, if_neg (not_lt.2 hc)]
  split_ifs
  · exact failsOnly_ok ()
  · exact failsOnly_error rfl

theorem Bounded.loadVector (hp : p.Bounded) (hc : count ≤ s.laneCount) (st : σ) (offset : Nat) :
    FailsOnly (· = .outOfBounds) (p.loadVector st offset s count) := by
  refine failsOnly_bind (fits_failsOnly hc st offset) fun _ _ => ?_
  apply build_failsOnly
  · intro i _
    unfold loadLane
    split_ifs
    · exact failsOnly_map (hp.read st _ _)
    · exact failsOnly_ok _
  · intro i _ l hl
    unfold loadLane at hl
    split_ifs at hl
    · obtain ⟨bytes, -, rfl⟩ := map_eq_ok.1 hl
      exact s.accepts_decodeLane bytes
    · obtain rfl := Except.ok.inj hl
      exact s.accepts_cast _

/-- the loop of a store ends with the first write that is refused -/
theorem Bounded.storeLanes (hp : p.Bounded) (s : Shape) (lanes : List Lane) (st : σ) (offset : Nat) :
    FailsOnly (· = .outOfBounds) (p.storeLanes s st offset lanes).1 := by
  induction lanes generalizing st offset with
  | nil => exact failsOnly_ok ()
  | cons l rest ih =>
    have hwrite := hp.write st offset (s.encodeLane l)
    rw [Region.storeLanes]
    split
    · exact ih _ _
    · rename_i fault st' hw
      rw [hw] at hwrite
      exact hwrite

theorem Bounded.storeVector (hp : p.Bounded) (hc : count ≤ v.shape.laneCount) (st : σ) (offset : Nat) :
    FailsOnly (· = .outOfBounds) (p.storeVector st offset v count).1 := by
  have hfits := fits_failsOnly (p := p) hc st offset
  rw [Region.storeVector]
  split
  · exact hp.storeLanes v.shape _ st offset
  · rename_i fault hf
    rwa [hf] at hfits

end Region

/-! ## Loads and stores of scripts -/

/-- scripts see an access outside of the bytes as an error about the operands -/
theorem forScripts_ofOperands (fault : Fault) (h : fault = .outOfBounds) : fault.forScripts.OfOperands := by
  subst h
  exact ⟨.byteRange, rfl, rfl⟩

namespace Shape

variable {s : Shape} {count : Nat}

theorem not_countLimit_lt (hc : count ≤ s.laneCount) : ¬countLimit < s.bytesPerLane * count := by
  have hbytes := bytesPerLane_mul_le hc
  have hlimit : 16 ≤ countLimit := by decide
  omega

theorem locate_failsOnly (hc : count ≤ s.laneCount) (st : Store) (target index : Value) :
    FailsOnly Fault.OfOperands (s.locate st target index count) := by
  cases target with
  | array view =>
    have hbytes := not_countLimit_lt hc
    simp only [locate]
    split_ifs
    · exact failsOnly_refuse rfl
    · refine failsOnly_bind index.toNumber_failsOnly fun n _ => ?_
      split
      · exact failsOnly_refuse rfl
      · split_ifs
        · exact failsOnly_refuse rfl
        · exact failsOnly_ok _
  | _ => exact failsOnly_refuse rfl

theorem load_failsOnly (hs : s.isBool = false) (hpos : count ≠ 0) (hc : count ≤ s.laneCount) (st : Store)
    (target index : Value) : FailsOnly Fault.OfOperands (s.load st target index count) := by
  unfold load
  rw [transfers_eq_ok hs hpos]
  refine failsOnly_bind (failsOnly_ok ()) fun _ _ => ?_
  refine failsOnly_bind (locate_failsOnly hc st target index) fun place _ => ?_
  exact failsOnly_mapError (place.1.bounded_region.loadVector hc st _) forScripts_ofOperands

theorem storePlan_failsOnly (hs : s.isBool = false) (hpos : count ≠ 0) (hc : count ≤ s.laneCount) (st : Store)
    (target index x : Value) : FailsOnly Fault.OfOperands (s.storePlan st target index x count) := by
  unfold storePlan
  rw [transfers_eq_ok hs hpos]
  refine failsOnly_bind (failsOnly_ok ()) fun _ _ => ?_
  cases target with
  | array view =>
    refine failsOnly_bind (x.expect_failsOnly s) fun v _ => ?_
    exact failsOnly_bind (locate_failsOnly hc st _ index) fun place _ => failsOnly_ok _
  | _ => exact failsOnly_refuse rfl

theorem store_failsOnly (hs : s.isBool = false) (hpos : count ≠ 0) (hc : count ≤ s.laneCount) (st : Store)
    (target index x : Value) : FailsOnly Fault.OfOperands (s.store st target index x count).1 := by
  have hplan := storePlan_failsOnly hs hpos hc st target index x
  unfold store
  split
  · rename_i fault h
    rw [h] at hplan
    exact failsOnly_error hplan.of_error
  · rename_i v view offset h
    obtain ⟨-, -, rfl, -⟩ := storePlan_eq_ok h
    exact failsOnly_map (failsOnly_mapError (view.bounded_region.storeVector hc st offset) forScripts_ofOperands)

end Shape

end Vector128
