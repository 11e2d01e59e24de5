import BatchAxpby.Proofs.Launch

/-! # Agreement of the surfaces

A batch can be updated by the reference, by either engine and by lanes on a device, and its
elements can be found at a fixed offset or through tables. Whichever way is taken, the run ends
and leaves the same buffer.
-/

namespace BatchAxpby.Problem

variable {α : Type} [Scalar α]

/-- On the host both engines turn `b` into `out`, the parallel one in any order of its tasks. -/
def EnginesLeave (p : Problem α) (addressing : Addressing) (a : Array α) (count : ℕ)
    (b out : Array α) : Prop :=
  ∃ sources targets pieces,
    p.placementA addressing a.size count = .ok sources ∧
    p.placementB addressing b.size count = .ok targets ∧
    Batch.sequential p.update a sources targets count b = .ok () out ∧
    Batch.parallel p.update a sources targets count b = .ok () out ∧
    Batch.tasks p.update targets count = .ok pieces ∧
    ∀ order : List ℕ, order.Perm (List.range pieces.size) →
      Batch.parallelIn order p.update a sources pieces b = .ok () out

/-- On every emulated device that can count the launch, each launch that covers the batch and
passes the check turns `b` into `out` and leaves the other buffers alone. -/
def LaunchesLeave (p : Problem α) (addressing : Addressing) (a : Array α) (count : ℕ)
    (b out : Array α) : Prop :=
  ∀ bases, p.bases addressing count = .ok bases →
    ∀ (host : Host) (spec : EmulatorSpec) (block : ℕ) (g : Geometry),
      Geometry.cover count block = .ok g → g.check spec.maxGroup = .ok () →
    ∀ (e : Emulator α) (i j : ℕ), i ≠ j → e.Holds i a → e.Holds j b →
      e.stats.Room 1 count (g.lanes - count) →
    ∃ e' : Emulator α,
      (emulator host spec).launch (.update ⟨p.update, bases, count⟩ i j) g e = .ok () e' ∧
      e'.Holds j out ∧ ∀ k, j ≠ k → e'.buffers[k]? = e.buffers[k]?

variable {p : Problem α} {a b : Array α} {count : ℕ}

theorem IsBatch.enginesLeave (h : p.IsBatch a b count) (hcount : 0 < count)
    (addressing : Addressing) : p.EnginesLeave addressing a count b (p.updated a count b) := by
  obtain ⟨sources, targets, pieces, hsources, htargets, htasks, hnum, hengines⟩ :=
    h.engines_eq_updated hcount addressing
  obtain ⟨hseq, hpar, horders⟩ := hengines b rfl
  exact ⟨sources, targets, pieces, hsources, htargets, hseq, hpar, htasks,
    fun order horder => horders order (hnum ▸ horder)⟩

theorem IsBatch.launchesLeave (h : p.IsBatch a b count) (addressing : Addressing) :
    p.LaunchesLeave addressing a count b (p.updated a count b) := by
  intro bases hbases host spec block g hcover hcheck e i j hij hA hB hroom
  refine ⟨_, h.computes.launch_eq_ok rfl hbases hij hA hB hcover hcheck hroom,
    hB.launched .., ?_⟩
  exact fun k hk => (e.getElem?_withCells ..).trans (if_neg hk)

/-- Under either addressing both engines and every launch leave what the reference leaves. -/
theorem surfaces_agree_with_reference (p : Problem α) (hr : 0 < p.update.rows)
    (hc : 0 < p.update.cols) (hvalid : p.validate = .ok ()) {count : ℕ} (hcount : 0 < count)
    {a b : Array α} (hsizeA : a.size = p.slotA * count) (hsizeB : b.size = p.slotB * count)
    (hltA : a.size < Word.bound) (hltB : b.size < Word.bound) :
    ∃ out, p.reference a count b = .ok () out ∧ ∀ addressing,
      p.EnginesLeave addressing a count b out ∧ p.LaunchesLeave addressing a count b out := by
  have h : p.IsBatch a b count :=
    ⟨sound_of_validate hr hc hvalid, hsizeA, hsizeB, hltA, hltB⟩
  exact ⟨p.updated a count b, h.reference_eq_ok, fun addressing =>
    ⟨h.enginesLeave hcount addressing, h.launchesLeave addressing⟩⟩

def padded : Problem Float32 where
  update :=
    { rows := 2, cols := 2, alpha := 2, beta := 3, lda := 3, ldb := 2,
      layoutA := .plain, layoutB := .transposed }
  slotA := 8
  slotB := 7
  firstA := 1
  firstB := 2

def paddedDevice : Emulator Float32 where
  ledger := ⟨1024, 180⟩
  buffers := #[⟨Array.replicate 24 5, true⟩, ⟨Array.replicate 21 7, true⟩]

/-- Three padded elements, updated in reverse by four lanes. -/
theorem padded_surfaces_agree :
    ∃ out, padded.reference (Array.replicate 24 5) 3 (Array.replicate 21 7) = .ok () out ∧
      padded.EnginesLeave .indirect (Array.replicate 24 5) 3 (Array.replicate 21 7) out ∧
      ∃ e' : Emulator Float32,
        (emulator Host.standard {}).launch
          (.update ⟨padded.update, .indirect #[17, 9, 1] #[16, 9, 2], 3⟩ 0 1) ⟨2, 2⟩
          paddedDevice = .ok () e' ∧ e'.Holds 1 out := by
  have hsizeA : (Array.replicate 24 (5 : Float32)).size = padded.slotA * 3 := rfl
  have hsizeB : (Array.replicate 21 (7 : Float32)).size = padded.slotB * 3 := rfl
  obtain ⟨out, href, hall⟩ := surfaces_agree_with_reference padded (by decide) (by decide)
    (by decide) (by decide) hsizeA hsizeB (hsizeA ▸ by decide) (hsizeB ▸ by decide)
  obtain ⟨hengines, hlaunches⟩ := hall .indirect
  have hbases : padded.bases .indirect 3 = .ok (.indirect #[17, 9, 1] #[16, 9, 2]) := by decide
  have hcheck : (⟨2, 2⟩ : Geometry).check 1024 = .ok () := by decide
  have hroom := LaunchStats.room_of_check hcheck (show 3 ≤ 4 by decide)
  obtain ⟨e', hlaunch, hout, -⟩ := hlaunches _ hbases Host.standard {} 2 ⟨2, 2⟩ (by decide)
    hcheck paddedDevice 0 1 (by decide) ⟨true, rfl⟩ ⟨true, rfl⟩ hroom
  exact ⟨out, href, hengines, e', hlaunch, hout⟩

end BatchAxpby.Problem
