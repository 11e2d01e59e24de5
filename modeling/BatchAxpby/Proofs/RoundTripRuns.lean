import BatchAxpby.Bench.RoundTrip
import BatchAxpby.Proofs.Accounting
import BatchAxpby.Proofs.Stores

/-! # Round trips

The lanes of a round trip share out the cells of the scratch buffer: a cell belongs to one lane of
one group, and the lanes past the end of the buffer have none. A run of the benchmark therefore
finds the stored value in every lane, or in none of them if it made no trip.
-/

namespace BatchAxpby

namespace Geometry

/-- Lane `p.2` of group `p.1` runs on cell `k`. -/
def LaneOf (g : Geometry) (k : ℕ) (p : ℕ × ℕ) : Prop :=
  p.1 < g.grid ∧ p.2 < g.block ∧ p.1 * g.block + p.2 = k

/-- A cell below the number of lanes has one lane. -/
theorem existsUnique_laneOf {g : Geometry} {k : ℕ} (hk : k < g.lanes) : ∃! p, g.LaneOf k p := by
  have hblock : 0 < g.block := Nat.pos_of_ne_zero fun h => by simp [lanes, h] at hk
  refine ⟨(k / g.block, k % g.block), ⟨?_, Nat.mod_lt k hblock, Nat.div_add_mod' ..⟩, ?_⟩
  · exact (Nat.div_lt_iff_lt_mul hblock).mpr hk
  · rintro ⟨group, lane⟩ ⟨-, hlane, rfl⟩
    have hgroup : (group * g.block + lane) / g.block = group := by
      rw [Nat.mul_comm, Nat.mul_add_div hblock, Nat.div_eq_of_lt hlane, Nat.add_zero]
    rw [hgroup, Nat.mul_add_mod', Nat.mod_eq_of_lt hlane]

end Geometry

namespace Emulator

variable {α : Type} [Scalar α] {e : Emulator α} {g : Geometry} {scratch : Array α}
  {limit buffer : ℕ}

theorem launch_roundTrip (value : α) (repeats : ℕ) (hcheck : g.check limit = .ok ())
    (hblock : g.block * Scalar.width α ≤ Word.maxBytes) (hscratch : e.Holds buffer scratch)
    (hroom : e.stats.Room 1 (min scratch.size g.lanes) (g.lanes - min scratch.size g.lanes)) :
    ∃ out e', launch limit (.roundTrip buffer value repeats) g e = .ok () e' ∧
      (∀ k : ℕ, out[k]? = if k < min scratch.size g.lanes then some (Lane.lastLoaded value repeats)
        else scratch[k]?) ∧
      e.Advances buffer out 1 (min scratch.size g.lanes) (g.lanes - min scratch.size g.lanes)
        e' := by
  have hrun := runLanes_roundTrip value repeats (Geometry.lanes_lt_of_check hcheck) hblock hscratch
    g.lanes
  have hactive : min scratch.size g.lanes ≤ g.lanes := Nat.min_le_right ..
  refine ⟨_, _, launch_eq_ok hcheck hrun hactive hroom, fun k => ?_, hscratch.advances_launched ..⟩
  rw [getElem?_storeAll_range, Nat.min_comm]

end Emulator

namespace RoundTrip

variable {α : Type} [Scalar α]

/-- The stored value equals itself, and not the zero of a lane that loaded nothing. -/
class Checkable (α : Type) [Scalar α] : Prop where
  magic_beq_self : ((magic : α) == magic) = true
  zero_beq_magic : ((Scalar.zero : α) == magic) = false

instance : Checkable Float32 := ⟨by decide +kernel, by decide +kernel⟩

instance : Checkable Float := ⟨by decide +kernel, by decide +kernel⟩

theorem mismatches_replicate (n : ℕ) (x value : α) :
    mismatches (Array.replicate n x) value = if x == value then #[] else Array.range n := by
  have htest : ∀ lane ∈ Array.range n, (Array.replicate n x)[lane]? = some x := by
    intro lane hlane
    rw [Array.getElem?_replicate, if_pos (Array.mem_range.mp hlane)]
  rw [mismatches, Array.size_replicate]
  split_ifs with hx
  · rw [Array.filter_eq_empty_iff]
    intro lane hlane
    simp [htest lane hlane, hx]
  · rw [Array.filter_eq_self]
    intro lane hlane
    simp [htest lane hlane, hx]

theorem mismatches_lastLoaded [Checkable α] (n repeats : ℕ) :
    mismatches (Array.replicate n (Lane.lastLoaded magic repeats)) (magic : α) =
      if repeats = 0 then Array.range n else #[] := by
  rw [mismatches_replicate, Lane.lastLoaded]
  by_cases hrepeats : repeats = 0
  · rw [if_pos hrepeats, if_pos hrepeats, Checkable.zero_beq_magic, if_neg Bool.false_ne_true]
  · rw [if_neg hrepeats, if_neg hrepeats, Checkable.magic_beq_self, if_pos rfl]

section OnDevice

variable {host : Host} {spec : EmulatorSpec} {e : Emulator α}

abbrev laneCount : ℕ := DeviceKind.emulated.laneSize

/-- The device has a group of `laneCount` lanes, memory for one value each and room to count them,
and the host can hold the values. -/
structure Fits (host : Host) (spec : EmulatorSpec) (e : Emulator α) : Prop where
  group_le : laneCount ≤ spec.maxGroup
  capacity_lt : e.ledger.capacity < Word.bound
  bytes_le : laneCount * Scalar.width α ≤ e.ledger.free
  shortage_eq : host.shortage? (laneCount * Scalar.width α) = none
  room : e.stats.Room 1 laneCount 0

theorem Run.finish_eq_ok (host : Host) (spec : EmulatorSpec) (run : Run α) {loaded : Array α}
    (hsize : loaded.size = laneCount) (hholds : e.Holds run.scratch loaded) (repeats : ℕ)
    (elapsed : Float) : ∃ r, run.finish (emulator host spec) repeats elapsed e = .ok r e ∧
      r.mismatches = mismatches loaded magic := by
  have hdownload := Emulator.download_eq_ok hholds
  rw [hsize] at hdownload
  exact ⟨_, bind_of_ok hdownload, rfl⟩

namespace Fits

variable (h : Fits host spec e)

include h

theorem prepare_eq_ok (repeats : ℕ) : prepare (emulator host spec) repeats e =
    .ok ⟨e.buffers.size, .roundTrip e.buffers.size magic repeats, ⟨1, laneCount⟩⟩
      (e.withBuffer (Array.replicate laneCount Scalar.zero)) := by
  have hnew := Emulator.allocate_eq_ok h.capacity_lt (by decide) h.bytes_le h.shortage_eq
  exact bind_of_ok hnew

theorem check_eq_ok : Geometry.check ⟨1, laneCount⟩ spec.maxGroup = .ok () :=
  Geometry.check_eq_ok_iff.mpr ⟨by decide, by decide, h.group_le, by decide⟩

theorem launch_eq_ok (value : α) (repeats : ℕ) :
    Emulator.launch spec.maxGroup (.roundTrip e.buffers.size value repeats) ⟨1, laneCount⟩
        (e.withBuffer (Array.replicate laneCount Scalar.zero)) =
      .ok () ((e.counted 1 laneCount 0).withBuffer
        (Array.replicate laneCount (Lane.lastLoaded value repeats))) := by
  have hstored : storeAll (fun _ => Lane.lastLoaded value repeats)
      (List.range (Geometry.lanes ⟨1, laneCount⟩)) (Array.replicate laneCount Scalar.zero) =
        Array.replicate laneCount (Lane.lastLoaded value repeats) := by
    refine storeAll_eq (by simp) fun k hk => ?_
    rw [Array.size_replicate] at hk
    exact ⟨List.mem_range.mpr hk, by rw [Array.getElem?_replicate, if_pos hk]⟩
  have hrun := Emulator.runLanes_roundTrip (g := ⟨1, laneCount⟩) value repeats
    (Geometry.lanes_lt_of_check h.check_eq_ok) (Host.le_maxBytes_of_shortage h.shortage_eq)
    (e.withBuffer_holds (Array.replicate laneCount Scalar.zero)) (Geometry.lanes ⟨1, laneCount⟩)
  rw [hstored, Array.size_replicate] at hrun
  rw [Emulator.launch_eq_ok h.check_eq_ok hrun le_rfl h.room, Emulator.launched,
    e.withBuffer_withCells (by simp)]
  rfl

theorem runOnDevice_eq_ok [Checkable α] (repeats : ℕ) (elapsed : Float) :
    ∃ r e', runOnDevice (emulator host spec) repeats elapsed e = .ok r e' ∧
      r.mismatches = (if repeats = 0 then Array.range laneCount else #[]) ∧
      (e.counted 1 laneCount 0).Restores e' := by
  let loaded : Array α := Array.replicate laneCount (Lane.lastLoaded magic repeats)
  let run : Run α := ⟨e.buffers.size, .roundTrip e.buffers.size magic repeats, ⟨1, laneCount⟩⟩
  obtain ⟨r, hfinish, hmismatches⟩ := run.finish_eq_ok host spec
    (show loaded.size = laneCount from Array.size_replicate ..)
    ((e.counted 1 laneCount 0).withBuffer_holds loaded) repeats elapsed
  have hlaunch := h.launch_eq_ok magic repeats
  refine ⟨r, _, ?_, hmismatches.trans (mismatches_lastLoaded ..),
    Emulator.restores_free_withBuffer (e.counted ..) loaded⟩
  rw [runOnDevice, bind_of_ok (h.prepare_eq_ok repeats)]
  exact DeviceM.andFinally_of_ok ((bind_of_ok (bind_of_ok hlaunch)).trans hfinish) _

end Fits

end OnDevice

/-- A launch of a round trip stores one value in exactly the cells that have a lane, whether the
lanes end before the buffer, with it or behind it, and counts those lanes as active. Each cell has
one lane, and a lane changes no cell but its own. A run on an emulator that fits it therefore finds
no lane that differs if it made a trip, and finds all lanes in order if it made none. -/
theorem lanes_share_out_cells [Checkable α] (value : α) (repeats limit : ℕ) (g : Geometry)
    (hcheck : g.check limit = .ok ()) (hblock : g.block * Scalar.width α ≤ Word.maxBytes)
    (e : Emulator α) (buffer : ℕ) (scratch : Array α) (hscratch : e.Holds buffer scratch)
    (hroom : e.stats.Room 1 (min scratch.size g.lanes) (g.lanes - min scratch.size g.lanes)) :
    (∃ out e', Emulator.launch limit (.roundTrip buffer value repeats) g e = .ok () e' ∧
      (∀ k : ℕ, out[k]? = if k < min scratch.size g.lanes then
        some (if repeats = 0 then Scalar.zero else value) else scratch[k]?) ∧
      e.Advances buffer out 1 (min scratch.size g.lanes)
        (g.lanes - min scratch.size g.lanes) e') ∧
    (∀ k < min scratch.size g.lanes, ∃! p, g.LaneOf k p) ∧
    (∀ k p, g.LaneOf k p → ∀ m : Lane.Group α, m.shared.size = g.block →
      m.scratch.size = scratch.size →
      ∃ shared, shared.size = g.block ∧ Lane.roundTrip value repeats (p.1 * g.block) p.2 m =
        .ok (decide (k < scratch.size))
          ⟨shared, m.scratch.setIfInBounds k (if repeats = 0 then Scalar.zero else value)⟩) ∧
    ∀ host spec trips elapsed (e : Emulator α), Fits host spec e →
      ∃ r e', runOnDevice (emulator host spec) trips elapsed e = .ok r e' ∧
        r.mismatches = (if trips = 0 then Array.range laneCount else #[]) ∧
        (e.counted 1 laneCount 0).Restores e' := by
  refine ⟨Emulator.launch_roundTrip value repeats hcheck hblock hscratch hroom,
    fun k hk => Geometry.existsUnique_laneOf (by omega), ?_,
    fun host spec trips elapsed e h => h.runOnDevice_eq_ok trips elapsed⟩
  rintro _ ⟨group, lane⟩ ⟨-, hlane, rfl⟩ m hshared hsize
  obtain ⟨shared, hkept, hbody⟩ :=
    Lane.roundTrip_eq_ok value repeats (group * g.block) (hshared ▸ hlane)
  exact ⟨shared, hkept.trans hshared, hsize ▸ hbody⟩

def fiveCells : Emulator Float32 :=
  ⟨⟨148, 20⟩, #[{ cells := #[5, 6, 7, 8, 9] }], ⟨4, 9, 3⟩⟩

theorem fits_fiveCells : Fits Host.standard {} fiveCells :=
  ⟨by decide, by decide, by decide, by decide, by decide, by decide, by decide⟩

/-- Three groups of two lanes leave the value in five cells and have one idle lane, which is the
second of the last group. The benchmark finds no lane that differs, and all of them after no
trip. -/
theorem fiveCells_shared_out :
    (∃ out e', Emulator.launch 2 (.roundTrip 0 1.5 2) ⟨3, 2⟩ fiveCells = .ok () e' ∧
      (∀ k : ℕ, out[k]? = if k < 5 then some 1.5 else #[5, 6, 7, 8, 9][k]?) ∧
      fiveCells.Advances 0 out 1 5 1 e') ∧
    (∃ shared, shared.size = 2 ∧ Lane.roundTrip (1.5 : Float32) 2 4 1 ⟨#[0, 0], #[5, 6, 7, 8, 9]⟩ =
      .ok false ⟨shared, #[5, 6, 7, 8, 9]⟩) ∧
    (∃! p, Geometry.LaneOf ⟨3, 2⟩ 4 p) ∧
    (∃ r e', runOnDevice (emulator Host.standard {}) 7 0 fiveCells = .ok r e' ∧
      r.mismatches = #[] ∧ (fiveCells.counted 1 32 0).Restores e') ∧
    ∃ r e', runOnDevice (emulator Host.standard {}) 0 0 fiveCells = .ok r e' ∧
      r.mismatches = Array.range 32 := by
  obtain ⟨hlaunch, hunique, hlane, hrun⟩ := lanes_share_out_cells (1.5 : Float32) 2 2 ⟨3, 2⟩ rfl
    (by decide) fiveCells 0 #[5, 6, 7, 8, 9] ⟨true, rfl⟩ ⟨by decide, by decide, by decide⟩
  refine ⟨hlaunch, hlane 5 (2, 1) ⟨by decide, by decide, rfl⟩ ⟨#[0, 0], _⟩ rfl rfl,
    hunique 4 (by decide), hrun Host.standard {} 7 0 fiveCells fits_fiveCells, ?_⟩
  obtain ⟨r, e', hr, hmismatches, -⟩ := hrun Host.standard {} 0 0 fiveCells fits_fiveCells
  exact ⟨r, e', hr, hmismatches⟩

end RoundTrip

end BatchAxpby
